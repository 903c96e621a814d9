/-
When the handle of a native transfer is released, and what its poll answers.

Releasing a handle whose transfer is still running leaves DMA running and loses its
completion signal. So a caller that requires completion polls until NIXL says `DONE`, or
that the peer is gone, and only then is the handle given back; a release that is refused
is tried again, and an error seen on the way is remembered until then. The rule is a rule
about the history of a transfer: it is stated over the log of a run, and proved by an
invariant that ties the cached outcome of a registered transfer to what the log says of
it. A run is any sequence of calls, of which those for other transfers may require
completion or not; the result a poll returns is what the run notes in the log for it.
-/
import Kvcr.Progress
import Mathlib.Data.List.Induction

set_option autoImplicit false

namespace Kvcr

open Prog

/-! ## What a log says of a transfer -/

/-- The transfer an event is about. -/
def NixlEv.transfer_id : NixlEv → Nat
  | .posted transfer_id _ => transfer_id
  | .checked transfer_id _ => transfer_id
  | .release_asked transfer_id _ => transfer_id
  | .returned transfer_id _ => transfer_id

/-- A poll answer that is neither pending nor `DONE`. -/
def Native.erroneous : Native XferState → Bool
  | .returned state => !state.pending && state ≠ .DONE
  | .raised => true
  | .disconnected => true

/-- The state of the transfer that an event observed. -/
def NixlEv.observation (id : Nat) : NixlEv → Option (Native XferState)
  | .posted transfer_id answer => if transfer_id = id then some answer else none
  | .checked transfer_id answer => if transfer_id = id then some answer else none
  | _ => none

/-- The states of the transfer that were observed, in order. -/
def observed (id : Nat) (t : List NixlEv) : List (Native XferState) :=
  t.filterMap (NixlEv.observation id)

/-- The last observed state says that native access has ended. -/
def AccessEnded (id : Nat) (t : List NixlEv) : Prop :=
  (observed id t).getLast? = some (.returned .DONE) ∨
    (observed id t).getLast? = some .disconnected

/-- `ERR` in answer to the submission, or an erroneous poll. -/
def NixlEv.fault (id : Nat) : NixlEv → Bool
  | .posted transfer_id answer => transfer_id = id && answer = .returned .ERR
  | .checked transfer_id answer => transfer_id = id && answer.erroneous
  | _ => false

def Faulted (id : Nat) (t : List NixlEv) : Prop := ∃ e ∈ t, e.fault id = true

/-- What a poll returns: nothing yet, or the outcome and the telemetry. -/
abbrev PollResult := Option (Bool × Option Nat)

/-- What the log notes of it. -/
def handed (id : Nat) : PollResult → List NixlEv
  | none => []
  | some (success, _) => [.returned id success]

/-- A poll of the transfer returned a result. -/
def NixlEv.is_result (id : Nat) : NixlEv → Bool
  | .returned transfer_id _ => transfer_id = id
  | _ => false

section Events

variable {id : Nat} {e : NixlEv} {t : List NixlEv}

theorem observation_of_ne (h : e.transfer_id ≠ id) : e.observation id = none := by
  cases e with
  | posted i answer => exact if_neg h
  | checked i answer => exact if_neg h
  | release_asked i answer => rfl
  | returned i success => rfl

theorem fault_of_ne (h : e.transfer_id ≠ id) : e.fault id = false := by
  cases e with
  | posted i answer => exact Bool.and_eq_false_imp.mpr fun hi => absurd (of_decide_eq_true hi) h
  | checked i answer => exact Bool.and_eq_false_imp.mpr fun hi => absurd (of_decide_eq_true hi) h
  | release_asked i answer => rfl
  | returned i success => rfl

theorem is_result_of_ne (h : e.transfer_id ≠ id) : e.is_result id = false := by
  cases e with
  | returned i success => exact decide_eq_false h
  | posted i answer => rfl
  | checked i answer => rfl
  | release_asked i answer => rfl

theorem observed_snoc :
    observed id (t ++ [e]) = observed id t ++ (e.observation id).toList := by
  rw [observed, List.filterMap_append]
  cases h : e.observation id with
  | none => rw [List.filterMap_cons_none h]; rfl
  | some answer => rw [List.filterMap_cons_some h]; rfl

/-- The last event observed the last state. -/
theorem getLast?_observed {answer : Native XferState} (h : e.observation id = some answer) :
    (observed id (t ++ [e])).getLast? = some answer := by
  rw [observed_snoc, h, Option.toList_some, List.getLast?_concat]

theorem faulted_snoc : Faulted id (t ++ [e]) ↔ Faulted id t ∨ e.fault id = true := by
  constructor
  · rintro ⟨e', he', hfault⟩
    rcases List.mem_append.mp he' with he' | he'
    · exact .inl ⟨e', he', hfault⟩
    · exact .inr (List.mem_singleton.mp he' ▸ hfault)
  · rintro (⟨e', he', hfault⟩ | hfault)
    · exact ⟨e', List.mem_append_left _ he', hfault⟩
    · exact ⟨e, List.mem_append_right _ List.mem_cons_self, hfault⟩

theorem not_faulted_of_unseen (h : ∀ e ∈ t, e.transfer_id ≠ id) : ¬ Faulted id t := by
  rintro ⟨e, he, hfault⟩
  rw [fault_of_ne (h e he)] at hfault
  exact absurd hfault Bool.false_ne_true

end Events

/-! ## The invariant of one transfer -/

/-- The cached outcome of a registered transfer is what the log says of it. -/
structure Told (id : Nat) (outcome : Option Bool) (t : List NixlEv) : Prop where
  succeeded : outcome = some true → (observed id t).getLast? = some (.returned .DONE)
  failed : outcome = some false ↔ Faulted id t

/-- The history of a transfer so far: nothing of it before it is submitted, it stays
registered until its result is handed back, and each release and result was due. -/
structure Followed (id : Nat) (s : KVCRProgress) (t : List NixlEv) : Prop where
  unseen : s.next_transfer_id < id →
    s.active_transfers.get? id = none ∧ ∀ e ∈ t, e.transfer_id ≠ id
  told : ∀ state, s.active_transfers.get? id = some state →
    Told id state.outcome t ∧ ∀ success, .returned id success ∉ t
  kept : s.active_transfers.get? id = none → ∀ answer, .posted id answer ∈ t →
    ∃ success, .returned id success ∈ t
  released : ∀ u answer, u ++ [.release_asked id answer] <+: t → AccessEnded id u
  result : ∀ u success, u ++ [.returned id success] <+: t →
    (∃ v, u = v ++ [.release_asked id (.returned true)]) ∧
      (success = true ↔ .returned .DONE ∈ observed id u ∧ ¬ Faulted id u)
  once : t.countP (·.is_result id) ≤ 1

namespace Followed

variable {id : Nat} {s s' : KVCRProgress} {t : List NixlEv} {e : NixlEv}

theorem start (h : s.active_transfers = Dict.empty) : Followed id s [] where
  unseen := fun _ => ⟨by rw [h]; rfl, fun _ he => absurd he List.not_mem_nil⟩
  told := by
    intro state hstate
    rw [h] at hstate
    exact absurd hstate (Option.some_ne_none state).symm
  kept := fun _ answer hposted => absurd hposted List.not_mem_nil
  released := fun u answer hu =>
    absurd (List.prefix_nil.mp hu) (List.append_ne_nil_of_right_ne_nil u (List.cons_ne_nil _ _))
  result := fun u success hu =>
    absurd (List.prefix_nil.mp hu) (List.append_ne_nil_of_right_ne_nil u (List.cons_ne_nil _ _))
  once := Nat.zero_le 1

/-- The history does not depend on the rest of the state. -/
theorem of_same (hi : Followed id s t)
    (hnext : s'.next_transfer_id < id → s.next_transfer_id < id)
    (hget : s'.active_transfers.get? id = s.active_transfers.get? id) : Followed id s' t where
  unseen := by
    intro hlt
    rw [hget]
    exact hi.unseen (hnext hlt)
  told := by
    rw [hget]
    exact hi.told
  kept := by
    rw [hget]
    exact hi.kept
  released := hi.released
  result := hi.result
  once := hi.once

/-- Nor on events of other transfers. -/
theorem snoc_other (hi : Followed id s t) (he : e.transfer_id ≠ id) :
    Followed id s (t ++ [e]) where
  unseen := by
    intro hlt
    obtain ⟨hget, hseen⟩ := hi.unseen hlt
    refine ⟨hget, fun e' he' => ?_⟩
    rcases List.mem_append.mp he' with he' | he'
    · exact hseen e' he'
    · exact List.mem_singleton.mp he' ▸ he
  told := by
    intro state hstate
    obtain ⟨htold, hunreturned⟩ := hi.told state hstate
    have hobserved : observed id (t ++ [e]) = observed id t := by
      rw [observed_snoc, observation_of_ne he, Option.toList_none, List.append_nil]
    have hfaulted : Faulted id (t ++ [e]) ↔ Faulted id t := by
      rw [faulted_snoc, fault_of_ne he]
      exact or_iff_left Bool.false_ne_true
    refine ⟨⟨?_, htold.failed.trans hfaulted.symm⟩, fun success hmem => ?_⟩
    · rw [hobserved]
      exact htold.succeeded
    · rcases List.mem_append.mp hmem with hmem | hmem
      · exact hunreturned success hmem
      · exact he (congrArg NixlEv.transfer_id (List.mem_singleton.mp hmem)).symm
  kept := by
    intro hget answer hposted
    rcases List.mem_append.mp hposted with hposted | hposted
    · obtain ⟨success, hmem⟩ := hi.kept hget answer hposted
      exact ⟨success, List.mem_append_left _ hmem⟩
    · exact absurd (congrArg NixlEv.transfer_id (List.mem_singleton.mp hposted)).symm he
  released := by
    intro u answer hu
    rcases List.prefix_concat_iff.mp hu with hwhole | hu
    · have hlast := (List.append_inj' hwhole rfl).2
      exact absurd (congrArg NixlEv.transfer_id (List.cons.inj hlast).1).symm he
    · exact hi.released u answer hu
  result := by
    intro u success hu
    rcases List.prefix_concat_iff.mp hu with hwhole | hu
    · have hlast := (List.append_inj' hwhole rfl).2
      exact absurd (congrArg NixlEv.transfer_id (List.cons.inj hlast).1).symm he
    · exact hi.result u success hu
  once := by
    rw [List.countP_append, List.countP_singleton, is_result_of_ne he]
    exact hi.once

/-- The last event of a log is the one it was extended by. -/
theorem eq_of_snoc_prefix {u : List NixlEv} {e' : NixlEv} (h : u ++ [e'] <+: t ++ [e]) :
    (u = t ∧ e' = e) ∨ u ++ [e'] <+: t := by
  rcases List.prefix_concat_iff.mp h with hwhole | h
  · obtain ⟨hu, hlast⟩ := List.append_inj' hwhole rfl
    exact .inl ⟨hu, (List.cons.inj hlast).1⟩
  · exact .inr h

/-- A registered transfer is observed, and its outcome brought up to date. -/
theorem snoc_observation (hi : Followed id s t) {answer : Native XferState}
    (he : e = .posted id answer ∨ e = .checked id answer)
    (hnext : id ≤ s'.next_transfer_id) {state : TransferState}
    (hget : s'.active_transfers.get? id = some state)
    (hunreturned : ∀ success, .returned id success ∉ t)
    (htold : Told id state.outcome (t ++ [e])) : Followed id s' (t ++ [e]) where
  unseen := fun hlt => absurd hlt (Nat.not_lt.mpr hnext)
  told := by
    intro state' hstate'
    rw [Option.some.inj (hstate'.symm.trans hget)]
    refine ⟨htold, fun success hmem => ?_⟩
    rcases List.mem_append.mp hmem with hmem | hmem
    · exact hunreturned success hmem
    · rcases he with rfl | rfl <;> cases List.mem_singleton.mp hmem
  kept := fun hnone => absurd (hget.symm.trans hnone) (Option.some_ne_none state)
  released := by
    intro u answer' hu
    rcases eq_of_snoc_prefix hu with ⟨-, rfl⟩ | hu
    · rcases he with he | he <;> cases he
    · exact hi.released u answer' hu
  result := by
    intro u success hu
    rcases eq_of_snoc_prefix hu with ⟨-, rfl⟩ | hu
    · rcases he with he | he <;> cases he
    · exact hi.result u success hu
  once := by
    rw [List.countP_append, List.countP_singleton]
    rcases he with rfl | rfl <;> exact hi.once

/-- What a request to release says about a transfer is nothing about its state. -/
theorem observed_release_asked {answer : Native Bool} :
    observed id (t ++ [.release_asked id answer]) = observed id t := by
  rw [observed_snoc]
  exact List.append_nil _

theorem faulted_release_asked {answer : Native Bool} :
    Faulted id (t ++ [.release_asked id answer]) ↔ Faulted id t := by
  rw [faulted_snoc]
  exact or_iff_left Bool.false_ne_true

/-- The release of a transfer whose access has ended is asked for. -/
theorem snoc_release (hi : Followed id s t) {answer : Native Bool} {state : TransferState}
    (hget : s.active_transfers.get? id = some state) (hended : AccessEnded id t) :
    Followed id s (t ++ [.release_asked id answer]) where
  unseen := by
    intro hlt
    exact absurd (hget.symm.trans (hi.unseen hlt).1) (Option.some_ne_none state)
  told := by
    intro state' hstate'
    obtain ⟨htold, hunreturned⟩ := hi.told state' hstate'
    refine ⟨⟨?_, htold.failed.trans faulted_release_asked.symm⟩, fun success hmem => ?_⟩
    · rw [observed_release_asked]
      exact htold.succeeded
    · rcases List.mem_append.mp hmem with hmem | hmem
      · exact hunreturned success hmem
      · cases List.mem_singleton.mp hmem
  kept := fun hnone => absurd (hget.symm.trans hnone) (Option.some_ne_none state)
  released := by
    intro u answer' hu
    rcases eq_of_snoc_prefix hu with ⟨rfl, -⟩ | hu
    · exact hended
    · exact hi.released u answer' hu
  result := by
    intro u success hu
    rcases eq_of_snoc_prefix hu with ⟨-, he⟩ | hu
    · cases he
    · exact hi.result u success hu
  once := by
    rw [List.countP_append, List.countP_singleton]
    exact hi.once

/-- The handle was released: the transfer is no longer registered, and its result is what
its outcome was. -/
theorem snoc_returned {state : TransferState} {success : Bool}
    (hi : Followed id s (t ++ [.release_asked id (.returned true)]))
    (hget : s.active_transfers.get? id = some state) (houtcome : state.outcome = some success)
    (hnext : s'.next_transfer_id = s.next_transfer_id)
    (hgone : s'.active_transfers.get? id = none) :
    Followed id s' (t ++ [.release_asked id (.returned true)] ++ [.returned id success]) where
  unseen := by
    intro hlt
    rw [hnext] at hlt
    exact absurd (hget.symm.trans (hi.unseen hlt).1) (Option.some_ne_none state)
  told := fun state' hstate' => absurd (hstate'.symm.trans hgone) (Option.some_ne_none state')
  kept := fun _ _ _ => ⟨success, List.mem_append_right _ List.mem_cons_self⟩
  released := by
    intro u answer hu
    rcases eq_of_snoc_prefix hu with ⟨-, he⟩ | hu
    · cases he
    · exact hi.released u answer hu
  result := by
    intro u success' hu
    rcases eq_of_snoc_prefix hu with ⟨rfl, he⟩ | hu
    · cases he
      obtain ⟨htold, -⟩ := hi.told state hget
      refine ⟨⟨t, rfl⟩, ?_⟩
      cases success with
      | true =>
        refine iff_of_true rfl ⟨List.mem_of_getLast? (htold.succeeded houtcome), fun hfaulted => ?_⟩
        cases houtcome.symm.trans (htold.failed.mpr hfaulted)
      | false =>
        exact iff_of_false Bool.false_ne_true fun h => h.2 (htold.failed.mp houtcome)
    · exact hi.result u success' hu
  once := by
    have hnone : (t ++ [NixlEv.release_asked id (.returned true)]).countP (·.is_result id) = 0 := by
      refine List.countP_eq_zero.mpr fun e he hresult => ?_
      cases e with
      | returned i b =>
        obtain rfl : i = id := of_decide_eq_true hresult
        exact (hi.told state hget).2 b he
      | posted i answer => exact Bool.false_ne_true hresult
      | checked i answer => exact Bool.false_ne_true hresult
      | release_asked i answer => exact Bool.false_ne_true hresult
    rw [List.countP_append, hnone, List.countP_singleton]
    split <;> omega

end Followed

/-! ## The functions -/

section Functions

variable {agent : NixlAgent} {W : Watch KVCRProgress NixlError NixlEv} {s : KVCRProgress}
  {t : List NixlEv} {id : Nat}

/-- What is done to one transfer leaves the others alone. -/
structure Only (i : Nat) (s : KVCRProgress) (t : List NixlEv) (s' : KVCRProgress)
    (t' : List NixlEv) : Prop where
  next : s'.next_transfer_id = s.next_transfer_id
  others : ∀ j ≠ i, s'.active_transfers.get? j = s.active_transfers.get? j
  log : ∃ u, t' = t ++ u ∧ ∀ e ∈ u, e.transfer_id = i

namespace Only

variable {i : Nat} {s' s'' : KVCRProgress} {t' t'' : List NixlEv}

theorem trans (h : Only i s t s' t') (h' : Only i s' t' s'' t'') : Only i s t s'' t'' where
  next := h'.next.trans h.next
  others := fun j hj => (h'.others j hj).trans (h.others j hj)
  log := by
    obtain ⟨u, rfl, hu⟩ := h.log
    obtain ⟨v, rfl, hv⟩ := h'.log
    refine ⟨u ++ v, List.append_assoc t u v, fun e he => ?_⟩
    rcases List.mem_append.mp he with he | he
    · exact hu e he
    · exact hv e he

theorem event (h : Only i s t s' t') {e : NixlEv} (he : e.transfer_id = i) :
    Only i s t s' (t' ++ [e]) :=
  h.trans ⟨rfl, fun _ _ => rfl, [e], rfl, fun _ he' => List.mem_singleton.mp he' ▸ he⟩

/-- The history of another transfer goes on as it was. -/
theorem followed (h : Only i s t s' t') (hi : Followed id s t) (hne : i ≠ id) :
    Followed id s' t' := by
  have hsame : Followed id s' t := by
    refine hi.of_same (fun hlt => ?_) (h.others id hne.symm)
    rwa [h.next] at hlt
  obtain ⟨u, rfl, hu⟩ := h.log
  clear h
  induction u using List.reverseRecOn with
  | nil => rwa [List.append_nil]
  | append_singleton u e ih =>
    rw [← List.append_assoc]
    refine (ih fun e' he' => hu e' (List.mem_append_left _ he')).snoc_other ?_
    rw [hu e (List.mem_append_right _ List.mem_cons_self)]
    exact hne

end Only

/-- Nothing happened to the transfer: its outcome is what it was. -/
structure Alike (i : Nat) (s s' : KVCRProgress) : Prop where
  next : s'.next_transfer_id = s.next_transfer_id
  others : ∀ j ≠ i, s'.active_transfers.get? j = s.active_transfers.get? j
  outcome : (s'.active_transfers.get? i).map (·.outcome) =
    (s.active_transfers.get? i).map (·.outcome)

namespace Alike

variable {i : Nat} {s' s'' : KVCRProgress}

theorem refl : Alike i s s := ⟨rfl, fun _ _ => rfl, rfl⟩

theorem trans (h : Alike i s s') (h' : Alike i s' s'') : Alike i s s'' where
  next := h'.next.trans h.next
  others := fun j hj => (h'.others j hj).trans (h.others j hj)
  outcome := h'.outcome.trans h.outcome

theorem isSome (h : Alike i s s') :
    (s'.active_transfers.get? i).isSome ↔ (s.active_transfers.get? i).isSome := by
  have hsame := congrArg Option.isSome h.outcome
  rw [Option.isSome_map, Option.isSome_map] at hsame
  rw [hsame]

theorem only (h : Alike i s s') : Only i s t s' t :=
  ⟨h.next, h.others, [], (List.append_nil t).symm, fun _ he => absurd he List.not_mem_nil⟩

end Alike

theorem wp_modify_transfer {i : Nat} {f : TransferState → TransferState}
    {Q : Unit → KVCRProgress → List NixlEv → Prop}
    (hQ : ∀ s', s'.next_transfer_id = s.next_transfer_id →
      (∀ j ≠ i, s'.active_transfers.get? j = s.active_transfers.get? j) →
      s'.active_transfers.get? i = (s.active_transfers.get? i).map f → Q () s' t) :
    wp W (modify_transfer i f) Q s t := by
  refine wp_change.mpr ?_
  cases hget : s.active_transfers.get? i with
  | none => exact hQ s rfl (fun _ _ => rfl) (by rw [hget]; rfl)
  | some state =>
    refine hQ _ rfl (fun j hj => Dict.get?_set_ne _ _ hj) ?_
    rw [hget]
    exact Dict.get?_set_self _ _ _

/-- A change that leaves the outcome alone. -/
theorem wp_modify_alike {i : Nat} {f : TransferState → TransferState}
    (hf : ∀ st, (f st).outcome = st.outcome) :
    wp W (modify_transfer i f) (fun _ s' t' => Alike i s s' ∧ t' = t) s t := by
  refine wp_modify_transfer fun s' hnext hothers hget => ⟨⟨hnext, hothers, ?_⟩, rfl⟩
  rw [hget, Option.map_map]
  exact Option.map_congr fun st _ => hf st

/-- The end of a poll: the handle is not asked for, is refused, or is released. Only then there
is a result. -/
inductive TransferEnd (agent : NixlAgent) (i : Nat) (outcome : Bool) (s : KVCRProgress)
    (t : List NixlEv) : PollResult → KVCRProgress → List NixlEv → Prop where
  | unasked {s' : KVCRProgress} (unsupported : agent.release_xfer_handle = none)
      (alike : Alike i s s') : TransferEnd agent i outcome s t none s' t
  | refused {s' : KVCRProgress} {answer : Native Bool} (alike : Alike i s s') :
      TransferEnd agent i outcome s t none s' (t ++ [.release_asked i answer])
  | released {s₁ s' : KVCRProgress} {telemetry : Option Nat} (alike : Alike i s s₁)
      (next : s'.next_transfer_id = s₁.next_transfer_id)
      (gone : s'.active_transfers = s₁.active_transfers.erase i) :
      TransferEnd agent i outcome s t (some (outcome, telemetry)) s'
        (t ++ [.release_asked i (.returned true)])

theorem wp_release_transfer {i : Nat} {state : TransferState}
    {Q : Bool → KVCRProgress → List NixlEv → Prop}
    (hunasked : agent.release_xfer_handle = none → Q false s t)
    (hrefused : ∀ answer, Q false { s with tick := s.tick + 1 } (t ++ [.release_asked i answer]))
    (hreleased : Q true
      { s with tick := s.tick + 1, active_transfers := s.active_transfers.erase i }
      (t ++ [.release_asked i (.returned true)])) :
    wp W (release_transfer agent i state) Q s t := by
  unfold release_transfer
  split
  next hunsupported => exact wp_pure.mpr (hunasked hunsupported)
  next release_xfer _ =>
    rw [wp_bind, wp_native, wp_bind, wp_emit]
    split
    next heq =>
      rw [wp_bind, wp_change]
      refine wp_pure.mpr ?_
      rw [heq]
      exact hreleased
    next => exact wp_pure.mpr (hrefused _)

theorem wp_ask_telemetry {i : Nat} {state : TransferState} :
    wp W (ask_telemetry agent i state) (fun _ s' t' => Alike i s s' ∧ t' = t) s t := by
  unfold ask_telemetry
  split
  next => exact wp_pure.mpr ⟨Alike.refl, rfl⟩
  next get_telemetry _ =>
    rw [wp_bind, wp_native]
    have hasked : Alike i s { s with tick := s.tick + 1 } := ⟨rfl, fun _ _ => rfl, rfl⟩
    split
    next => exact wp_mono (wp_modify_alike fun _ => rfl) fun _ _ _ h => ⟨hasked.trans h.1, h.2⟩
    next => exact wp_pure.mpr ⟨hasked, rfl⟩

theorem wp_capture_telemetry {i : Nat} {state : TransferState} :
    wp W (capture_telemetry agent i state) (fun _ s' t' => Alike i s s' ∧ t' = t) s t := by
  unfold capture_telemetry
  refine wp_seq wp_ask_telemetry ?_
  rintro _ s' t' ⟨halike, rfl⟩
  exact wp_mono (wp_modify_alike fun _ => rfl) fun _ _ _ h => ⟨halike.trans h.1, h.2⟩

theorem wp_finish_transfer {i : Nat} {state : TransferState} {outcome : Bool} :
    wp W (finish_transfer agent i state outcome) (TransferEnd agent i outcome s t) s t := by
  unfold finish_transfer
  have hend : ∀ s₁, Alike i s s₁ → wp W (do
      let s ← read
      let state := (s.active_transfers.get? i).getD state
      if ← release_transfer agent i state then pure (some (outcome, state.telemetry))
      else pure none) (TransferEnd agent i outcome s t) s₁ t := by
    intro s₁ halike
    have hasked : Alike i s { s₁ with tick := s₁.tick + 1 } :=
      halike.trans ⟨rfl, fun _ _ => rfl, rfl⟩
    rw [wp_bind, wp_read]
    dsimp only
    rw [wp_bind]
    refine wp_release_transfer (fun hunsupported => ?_) (fun answer => ?_) ?_
    · rw [if_neg Bool.false_ne_true]
      exact wp_pure.mpr (.unasked hunsupported halike)
    · rw [if_neg Bool.false_ne_true]
      exact wp_pure.mpr (.refused hasked)
    · rw [if_pos rfl]
      exact wp_pure.mpr (.released halike rfl rfl)
  refine wp_if_then (P := fun s' t' => Alike i s s' ∧ t' = t) (fun _ => wp_capture_telemetry)
    (fun _ => ⟨Alike.refl, rfl⟩) ?_
  rintro s₁ t₁ ⟨halike, rfl⟩
  exact hend s₁ halike

theorem erroneous_eq (answer : Native XferState) :
    answer.erroneous = (!answer.xfer_state.pending && answer.xfer_state ≠ .DONE) := by
  cases answer <;> rfl

theorem xfer_state_eq_done (answer : Native XferState) :
    answer.xfer_state = .DONE ↔ answer = .returned .DONE := by
  cases answer with
  | returned state => exact ⟨fun h => congrArg Native.returned h, fun h => Native.returned.inj h⟩
  | raised => exact iff_of_false (by decide) (by decide)
  | disconnected => exact iff_of_false (by decide) (by decide)

/-- A poll of a registered transfer. -/
inductive Polled (agent : NixlAgent) (i : Nat) (require_completion : Bool) (state : TransferState)
    (s : KVCRProgress) (t : List NixlEv) : PollResult → KVCRProgress → List NixlEv → Prop where
  /-- the transfer is still running -/
  | waiting {s' : KVCRProgress} {answer : Native XferState} (unsettled : state.outcome ≠ some true)
      (pending : answer.erroneous = false ∧ answer ≠ .returned .DONE) (alike : Alike i s s') :
      Polled agent i require_completion state s t none s' (t ++ [.checked i answer])
  /-- an error, which is remembered until the transfer has ended -/
  | noted {s' : KVCRProgress} {answer : Native XferState} (error : answer.erroneous = true)
      (next : s'.next_transfer_id = s.next_transfer_id)
      (others : ∀ j ≠ i, s'.active_transfers.get? j = s.active_transfers.get? j)
      (outcome : s'.active_transfers.get? i = some { state with outcome := some false }) :
      Polled agent i require_completion state s t none s' (t ++ [.checked i answer])
  /-- the transfer has ended, or the caller does not wait for that -/
  | settled {s₁ s' : KVCRProgress} {t' : List NixlEv} {result : PollResult}
      {answer : Native XferState}
      (unsettled : state.outcome ≠ some true)
      (ended : answer = .returned .DONE ∨ answer.erroneous = true ∧
        (answer = .disconnected ∨ require_completion = false))
      (next : s₁.next_transfer_id = s.next_transfer_id)
      (others : ∀ j ≠ i, s₁.active_transfers.get? j = s.active_transfers.get? j)
      (outcome : s₁.active_transfers.get? i = some { state with
        outcome := some (answer = .returned .DONE && state.outcome ≠ some false) })
      (finished : TransferEnd agent i (answer = .returned .DONE && state.outcome ≠ some false) s₁
        (t ++ [.checked i answer]) result s' t') :
      Polled agent i require_completion state s t result s' t'
  /-- its outcome was known -/
  | known {s' : KVCRProgress} {t' : List NixlEv} {result : PollResult} {outcome : Bool}
      (outcome_eq : state.outcome = some outcome)
      (due : outcome = true ∨ require_completion = false)
      (finished : TransferEnd agent i outcome s t result s' t') :
      Polled agent i require_completion state s t result s' t'

theorem wp_poll_transfer {i : Nat} {require_completion : Bool} {state : TransferState}
    (hget : s.active_transfers.get? i = some state) :
    wp W (poll_transfer agent i require_completion)
      (Polled agent i require_completion state s t) s t := by
  unfold poll_transfer
  rw [wp_bind, wp_read]
  dsimp only
  rw [hget]
  dsimp -zeta only
  refine wp_ite.mpr ⟨fun hcheck => ?_, fun hknown => ?_⟩
  · have hunsettled : state.outcome ≠ some true := by
      intro htrue
      rcases hcheck with h | ⟨-, h⟩
      · exact absurd (htrue.symm.trans h) (Option.some_ne_none true)
      · cases htrue.symm.trans h
    rw [wp_bind, wp_native, wp_bind, wp_emit]
    generalize agent.check_xfer_state s.tick state.handle = answer
    refine wp_if_then (P := fun s' t' => (s'.next_transfer_id = s.next_transfer_id ∧
      s'.active_transfers = s.active_transfers) ∧ t' = t ++ [.checked i answer])
      (fun _ => wp_change.mpr ⟨⟨rfl, rfl⟩, rfl⟩) (fun _ => ⟨⟨rfl, rfl⟩, rfl⟩) ?_
    rintro s₁ t₁ ⟨⟨hnext, hactive⟩, rfl⟩
    have halike : Alike i s s₁ := ⟨hnext, fun _ _ => by rw [hactive], by rw [hactive]⟩
    have hget₁ : s₁.active_transfers.get? i = some state := by rw [hactive, hget]
    have herroneous := erroneous_eq answer
    have hdone := xfer_state_eq_done answer
    refine wp_ite.mpr ⟨fun hwait => ?_,
      fun hended => wp_ite.mpr ⟨fun hpending => ?_, fun hover => ?_⟩⟩
    · refine wp_if_then (P := fun s' t' => Polled agent i require_completion state s t none s' t')
        (fun herror => ?_) (fun hpending => ?_) fun _ _ h => wp_pure.mpr h
      · refine wp_modify_transfer fun s' hnext' hothers' hget' => ?_
        refine .noted ?_ (hnext'.trans hnext)
          (fun j hj => (hothers' j hj).trans (halike.others j hj)) ?_
        · rw [herroneous, Bool.and_eq_true, Bool.not_eq_true']
          exact ⟨Bool.eq_false_iff.mpr herror, decide_eq_true hwait.2⟩
        · rw [hget', hget₁, Option.map_some]
      · refine .waiting hunsettled ⟨?_, fun h => hwait.2 (hdone.mpr h)⟩ halike
        rw [herroneous, not_not.mp hpending]
        rfl
    · refine wp_pure.mpr (.waiting hunsettled ⟨?_, fun h => ?_⟩ halike)
      · rw [herroneous, hpending]
        rfl
      · rw [hdone.mpr h] at hpending
        exact Bool.false_ne_true hpending
    · have houtcome : decide (answer.xfer_state = .DONE) = decide (answer = .returned .DONE) :=
        decide_eq_decide.mpr hdone
      rw [houtcome, wp_bind]
      refine wp_modify_transfer fun s₂ hnext₂ hothers₂ hget₂ => ?_
      refine wp_mono wp_finish_transfer fun _ s' t' hfinished => ?_
      refine .settled hunsettled ?_ (hnext₂.trans hnext)
        (fun j hj => (hothers₂ j hj).trans (halike.others j hj)) ?_ hfinished
      · by_cases hsucceeded : answer = .returned .DONE
        · exact .inl hsucceeded
        · refine .inr ⟨?_, ?_⟩
          · rw [herroneous, Bool.and_eq_true, Bool.not_eq_true']
            exact ⟨Bool.eq_false_iff.mpr hover, decide_eq_true fun h => hsucceeded (hdone.mp h)⟩
          · by_cases hgone : answer = .disconnected
            · exact .inl hgone
            · refine .inr (Bool.eq_false_iff.mpr fun hrc => hended ⟨?_, fun hx => ?_⟩)
              · exact Bool.and_eq_true_iff.mpr ⟨hrc, decide_eq_true hgone⟩
              · exact hsucceeded (hdone.mp hx)
      · rw [hget₂, hget₁, Option.map_some]
  · -- the outcome is known, and a failure only counts when nothing is waited for
    obtain ⟨outcome, houtcome⟩ : ∃ outcome, state.outcome = some outcome :=
      Option.ne_none_iff_exists'.mp fun h => hknown (.inl h)
    have hsame : decide (state.outcome = some true) = outcome := by
      rw [houtcome]
      cases outcome <;> rfl
    rw [hsame]
    refine wp_mono wp_finish_transfer fun _ s' t' hfinished => .known houtcome ?_ hfinished
    cases outcome with
    | true => exact .inl rfl
    | false => exact .inr (Bool.eq_false_iff.mpr fun hrc => hknown (.inr ⟨hrc, houtcome⟩))

namespace TransferEnd

variable {i : Nat} {outcome : Bool} {result : PollResult} {s' : KVCRProgress} {t' : List NixlEv}

theorem only (h : TransferEnd agent i outcome s t result s' t') : Only i s t s' t' := by
  cases h with
  | unasked _ alike => exact alike.only
  | refused alike => exact alike.only.event rfl
  | released alike next gone =>
    have herased : Only i s t s' t := alike.only.trans
      ⟨next, fun j hj => by rw [gone, Dict.get?_erase_ne _ hj], [], (List.append_nil t).symm,
        fun _ he => absurd he List.not_mem_nil⟩
    exact herased.event rfl

/-- The transfer has ended, so its handle may be given back. -/
theorem followed (h : TransferEnd agent id outcome s t result s' t') (hi : Followed id s t)
    {state : TransferState} (hget : s.active_transfers.get? id = some state)
    (houtcome : state.outcome = some outcome) (hended : AccessEnded id t) :
    Followed id s' (t' ++ handed id result) := by
  have halike : ∀ s₁, Alike id s s₁ → Followed id s₁ t ∧
      ∃ state₁, s₁.active_transfers.get? id = some state₁ ∧ state₁.outcome = some outcome := by
    intro s₁ h₁
    have hsame := h₁.outcome
    rw [hget, Option.map_some] at hsame
    obtain ⟨state₁, hget₁, hstate₁⟩ := Option.map_eq_some_iff.mp hsame
    refine ⟨{ unseen := fun hlt => ?_, told := ?_, kept := ?_, released := hi.released,
              result := hi.result, once := hi.once }, state₁, hget₁, hstate₁.trans houtcome⟩
    · rw [h₁.next] at hlt
      exact absurd (hget.symm.trans (hi.unseen hlt).1) (Option.some_ne_none state)
    · intro state' hget'
      rw [Option.some.inj (hget'.symm.trans hget₁), hstate₁]
      exact hi.told state hget
    · exact fun hnone => absurd (hget₁.symm.trans hnone) (Option.some_ne_none state₁)
  cases h with
  | unasked _ alike =>
    rw [handed, List.append_nil]
    exact (halike _ alike).1
  | refused alike =>
    obtain ⟨hi₁, state₁, hget₁, -⟩ := halike _ alike
    rw [handed, List.append_nil]
    exact hi₁.snoc_release hget₁ hended
  | released alike next gone =>
    obtain ⟨hi₁, state₁, hget₁, hstate₁⟩ := halike _ alike
    refine (hi₁.snoc_release hget₁ hended).snoc_returned hget₁ hstate₁ next ?_
    rw [gone, Dict.get?_erase_self]

/-- Without a result the transfer stays registered, and with one it is gone. -/
theorem registered (h : TransferEnd agent i outcome s t result s' t')
    (hget : (s.active_transfers.get? i).isSome) :
    result = none ↔ (s'.active_transfers.get? i).isSome := by
  cases h with
  | unasked _ alike => exact iff_of_true rfl (alike.isSome.mpr hget)
  | refused alike => exact iff_of_true rfl (alike.isSome.mpr hget)
  | released _ _ gone =>
    rw [gone, Dict.get?_erase_self]
    exact iff_of_false (Option.some_ne_none _) Bool.false_ne_true

theorem ends (h : TransferEnd agent i outcome s t result s' t') (hresult : result ≠ none) :
    ∃ v, t' = v ++ [.release_asked i (.returned true)] := by
  cases h with
  | unasked => exact absurd rfl hresult
  | refused => exact absurd rfl hresult
  | released => exact ⟨t, rfl⟩

theorem asked (h : TransferEnd agent i outcome s t result s' t') :
    t.length < t'.length ∨ agent.release_xfer_handle = none := by
  cases h with
  | unasked unsupported _ => exact .inr unsupported
  | refused _ => exact .inl (by simp)
  | released _ _ _ => exact .inl (by simp)

end TransferEnd

namespace Polled

variable {i : Nat} {require_completion : Bool} {state : TransferState} {result : PollResult}
  {s' : KVCRProgress} {t' : List NixlEv}

theorem only (h : Polled agent i require_completion state s t result s' t') : Only i s t s' t' := by
  cases h with
  | waiting _ _ alike => exact alike.only.event rfl
  | noted _ next others _ =>
    have hnoted : Only i s t s' t :=
      ⟨next, others, [], (List.append_nil t).symm, fun _ he => absurd he List.not_mem_nil⟩
    exact hnoted.event rfl
  | @settled s₁ _ _ _ answer _ _ next others _ finished =>
    have hchecked : Only i s t s₁ t :=
      ⟨next, others, [], (List.append_nil t).symm, fun _ he => absurd he List.not_mem_nil⟩
    exact (hchecked.event rfl).trans finished.only
  | known _ _ finished => exact finished.only

theorem fault_checked {answer : Native XferState} :
    (NixlEv.checked id answer).fault id = answer.erroneous := by
  rw [NixlEv.fault, decide_eq_true rfl, Bool.true_and]

/-- A poll that requires completion follows the transfer's history. -/
theorem followed (h : Polled agent id true state s t result s' t') (hi : Followed id s t)
    (hget : s.active_transfers.get? id = some state) :
    Followed id s' (t' ++ handed id result) := by
  obtain ⟨htold, hunreturned⟩ := hi.told state hget
  have hregistered : id ≤ s.next_transfer_id := by
    refine Nat.not_lt.mp fun hlt => ?_
    exact absurd (hget.symm.trans (hi.unseen hlt).1) (Option.some_ne_none state)
  cases h with
  | waiting unsettled pending alike =>
    have hsame := alike.outcome
    rw [hget, Option.map_some] at hsame
    obtain ⟨state', hget', hstate'⟩ := Option.map_eq_some_iff.mp hsame
    rw [handed, List.append_nil]
    refine hi.snoc_observation (.inr rfl) (alike.next ▸ hregistered) hget' hunreturned ?_
    rw [hstate']
    refine ⟨fun htrue => absurd htrue unsettled, ?_⟩
    rw [faulted_snoc, fault_checked, pending.1, or_iff_left Bool.false_ne_true]
    exact htold.failed
  | noted error next others outcome =>
    rw [handed, List.append_nil]
    refine hi.snoc_observation (.inr rfl) (next ▸ hregistered) outcome hunreturned ?_
    refine ⟨fun htrue => absurd (Option.some.inj htrue) Bool.false_ne_true, iff_of_true rfl ?_⟩
    exact faulted_snoc.mpr (.inr (fault_checked.trans error))
  | @settled s₁ _ _ _ answer unsettled ended next others outcome finished =>
    have hlast : (observed id (t ++ [.checked id answer])).getLast? = some answer :=
      getLast?_observed (if_pos rfl)
    have hended : AccessEnded id (t ++ [.checked id answer]) := by
      rcases ended with rfl | ⟨-, rfl | hrequired⟩
      · exact .inl hlast
      · exact .inr hlast
      · exact absurd hrequired.symm Bool.false_ne_true
    have htold' : Told id (some (answer = .returned .DONE && state.outcome ≠ some false))
        (t ++ [.checked id answer]) := by
      refine ⟨fun htrue => ?_, ?_⟩
      · have hdone := (Bool.and_eq_true_iff.mp (Option.some.inj htrue)).1
        rw [hlast, of_decide_eq_true hdone]
      · rw [faulted_snoc, fault_checked, Option.some.injEq]
        rcases ended with rfl | ⟨herror, -⟩
        · -- nothing new is wrong with a transfer that is done
          rw [decide_eq_true rfl, Bool.true_and, decide_eq_false_iff_not, not_not]
          exact htold.failed.trans (or_iff_left Bool.false_ne_true).symm
        · refine iff_of_true ?_ (.inr herror)
          have hundone : answer ≠ .returned .DONE := by
            rintro rfl
            exact Bool.false_ne_true herror
          rw [decide_eq_false hundone, Bool.false_and]
    have hi₁ := hi.snoc_observation (.inr rfl) (next ▸ hregistered) outcome hunreturned htold'
    exact finished.followed hi₁ outcome rfl hended
  | known outcome_eq due finished =>
    have htrue := due.resolve_right fun h => Bool.false_ne_true h.symm
    subst htrue
    exact finished.followed hi hget outcome_eq (.inl (htold.succeeded outcome_eq))

theorem registered (h : Polled agent i require_completion state s t result s' t')
    (hget : s.active_transfers.get? i = some state) :
    result = none ↔ (s'.active_transfers.get? i).isSome := by
  have hsome : (s.active_transfers.get? i).isSome := by rw [hget]; rfl
  cases h with
  | waiting _ _ alike => exact iff_of_true rfl (alike.isSome.mpr hsome)
  | noted _ _ _ outcome => exact iff_of_true rfl (by rw [outcome]; rfl)
  | settled _ _ _ _ outcome finished => exact finished.registered (by rw [outcome]; rfl)
  | known _ _ finished => exact finished.registered hsome

/-- A poll with a result ends with the release. -/
theorem ends (h : Polled agent i require_completion state s t result s' t')
    (hresult : result ≠ none) : ∃ v, t' = v ++ [.release_asked i (.returned true)] := by
  cases h with
  | waiting => exact absurd rfl hresult
  | noted => exact absurd rfl hresult
  | settled _ _ _ _ _ finished => exact finished.ends hresult
  | known _ _ finished => exact finished.ends hresult

/-- A poll asks NIXL something, unless all that is left is a release it cannot ask for. -/
theorem asked (h : Polled agent i require_completion state s t result s' t') :
    t.length < t'.length ∨ agent.release_xfer_handle = none := by
  cases h with
  | waiting _ _ _ => exact .inl (by simp)
  | noted _ _ _ _ => exact .inl (by simp)
  | settled _ _ _ _ _ finished =>
    obtain ⟨u, rfl, -⟩ := finished.only.log
    exact .inl (by simp only [List.length_append, List.length_singleton]; omega)
  | known _ _ finished => exact finished.asked

end Polled

/-! ## Submission -/

/-- The outcome a submission that was answered leaves. -/
def posted_outcome : Native XferState → Option Bool
  | .returned .DONE => some true
  | .returned .ERR => some false
  | _ => none

theorem wp_post_transfer {i handle : Nat} {remote_side_agent : String} {state : TransferState}
    (hget : s.active_transfers.get? i = some state) (hnew : state.outcome = none) :
    wp W (post_transfer agent i handle remote_side_agent)
      (fun _ s' t' => ∃ answer state', t' = t ++ [.posted i answer] ∧
        s'.next_transfer_id = s.next_transfer_id ∧
        (∀ j ≠ i, s'.active_transfers.get? j = s.active_transfers.get? j) ∧
        s'.active_transfers.get? i = some state' ∧ state'.outcome = posted_outcome answer) s t := by
  unfold post_transfer
  rw [wp_bind, wp_native, wp_bind, wp_emit]
  generalize agent.transfer s.tick handle = answer
  cases answer with
  | returned x =>
    cases x with
    | DONE =>
      rw [wp_bind]
      refine wp_modify_transfer fun s' hnext hothers hget' => wp_pure.mpr ?_
      rw [hget, Option.map_some] at hget'
      exact ⟨_, _, rfl, hnext, hothers, hget', rfl⟩
    | ERR =>
      rw [wp_bind]
      refine wp_modify_transfer fun s' hnext hothers hget' => wp_pure.mpr ?_
      rw [hget, Option.map_some] at hget'
      exact ⟨_, _, rfl, hnext, hothers, hget', rfl⟩
    | PROC => exact wp_pure.mpr ⟨_, state, rfl, rfl, fun _ _ => rfl, hget, hnew⟩
    | PEND => exact wp_pure.mpr ⟨_, state, rfl, rfl, fun _ _ => rfl, hget, hnew⟩
    | unexpected => exact wp_pure.mpr ⟨_, state, rfl, rfl, fun _ _ => rfl, hget, hnew⟩
  | raised => exact wp_pure.mpr ⟨_, state, rfl, rfl, fun _ _ => rfl, hget, hnew⟩
  | disconnected =>
    rw [wp_bind]
    refine wp_change.mpr (wp_pure.mpr ?_)
    exact ⟨_, state, rfl, rfl, fun _ _ => rfl, hget, hnew⟩

/-- Whatever is raised, the history is followed. -/
def following (id : Nat) : Watch KVCRProgress NixlError NixlEv :=
  ⟨fun _ => Followed id, fun _ => True⟩

/-- A new transfer is registered under the next number and posted. -/
theorem wp_submit_transfer (hi : Followed id s t) {operation remote_side_agent : String}
    {local_descriptors remote_descriptors : Descriptors} {telemetry : Bool} :
    wp (following id) (submit_transfer agent operation local_descriptors remote_descriptors
      remote_side_agent telemetry) (fun _ => Followed id) s t := by
  unfold submit_transfer
  refine wp_ite.mpr ⟨fun _ => wp_raise.mpr hi, fun _ => ?_⟩
  refine wp_ite.mpr ⟨fun _ => wp_raise.mpr hi, fun _ => ?_⟩
  rw [wp_bind, wp_read]
  split
  next => exact wp_raise.mpr hi
  next request _ =>
    rw [wp_bind, wp_native, wp_bind]
    have hasked : Followed id { s with tick := s.tick + 1 } t := hi.of_same (fun h => h) rfl
    generalize agent.create_xfer s.tick request = answer
    cases answer with
    | raised => exact wp_raise.mpr hasked
    | disconnected => exact wp_raise.mpr hasked
    | returned created =>
      refine wp_pure.mpr ?_
      cases created with
      | none => exact wp_raise.mpr hasked
      | some handle =>
        dsimp only
        rw [wp_bind, wp_change, wp_bind]
        refine wp_mono (wp_post_transfer (Dict.get?_set_self _ _ _) rfl) ?_
        rintro _ s' t' ⟨answer, state', rfl, hnext, hothers, hget', hstate'⟩
        refine wp_pure.mpr ?_
        dsimp only at hnext hothers
        by_cases hid : s.next_transfer_id + 1 = id
        · -- the transfer that is followed: nothing was heard of it before
          obtain ⟨-, hunseen⟩ := hi.unseen (by omega)
          subst hid
          refine hi.snoc_observation (.inl rfl) (by omega) hget'
            (fun success hmem => hunseen _ hmem rfl) ?_
          rw [hstate']
          have hfaulted : Faulted (s.next_transfer_id + 1)
              (t ++ [.posted (s.next_transfer_id + 1) answer]) ↔ answer = .returned .ERR := by
            rw [faulted_snoc, NixlEv.fault, decide_eq_true rfl, Bool.true_and, decide_eq_true_iff]
            exact or_iff_right (not_faulted_of_unseen hunseen)
          refine ⟨fun htrue => ?_, ?_⟩
          · have hlast : (observed _ (t ++ [.posted (s.next_transfer_id + 1) answer])).getLast? =
                some answer := getLast?_observed (if_pos rfl)
            rw [hlast]
            cases answer with
            | returned x => cases x <;> first | rfl | cases htrue
            | raised => cases htrue
            | disconnected => cases htrue
          · rw [hfaulted]
            cases answer with
            | returned x => cases x <;> simp [posted_outcome]
            | raised => simp [posted_outcome]
            | disconnected => simp [posted_outcome]
        · have hsame : Followed id s' t := by
            refine hi.of_same (fun hlt => by omega) ?_
            rw [hothers id fun h => hid h.symm, Dict.get?_set_ne _ _ fun h => hid h.symm]
          exact hsame.snoc_other hid

/-! ## Prepared memory and transfers -/

/-- Nothing was done to any transfer. -/
def Idle (s : KVCRProgress) (t : List NixlEv) (s' : KVCRProgress) (t' : List NixlEv) : Prop :=
  (s'.active_transfers = s.active_transfers ∧ s'.next_transfer_id = s.next_transfer_id) ∧ t' = t

/-- Whatever is raised, nothing was done to any transfer. -/
def idling (s : KVCRProgress) (t : List NixlEv) : Watch KVCRProgress NixlError NixlEv :=
  ⟨fun _ => Idle s t, fun _ => True⟩

theorem covers_idling : Covers (idling s t) (Idle s t) := ⟨fun _ _ _ h => h, fun _ _ _ => trivial⟩

theorem keeps_native {α : Type} {answer : Nat → α} :
    Keeps (idling s t) (Idle s t) (native answer) :=
  fun _ _ hI => wp_native.mpr hI

theorem keeps_unguarded {α : Type} {answer : Native α} :
    Keeps (idling s t) (Idle s t) (unguarded answer) := by
  cases answer with
  | returned a => exact Keeps.pure
  | raised => exact Keeps.raise covers_idling
  | disconnected => exact Keeps.raise covers_idling

theorem keeps_change {f : KVCRProgress → KVCRProgress}
    (hf : ∀ s', (f s').active_transfers = s'.active_transfers ∧
      (f s').next_transfer_id = s'.next_transfer_id) :
    Keeps (idling s t) (Idle s t) (change f) := by
  rintro s' t' ⟨⟨hactive, hnext⟩, ht⟩
  exact wp_change.mpr ⟨⟨(hf s').1.trans hactive, (hf s').2.trans hnext⟩, ht⟩

theorem keeps_release_prepared {agent_name : String} :
    Keeps (idling s t) (Idle s t) (release_prepared agent agent_name) := by
  refine Keeps.bind Keeps.read fun s' => Keeps.ite (Keeps.raise covers_idling) ?_
  refine Keeps.bind (Keeps.forEach fun p => ?_) fun _ => keeps_change fun _ => ⟨rfl, rfl⟩
  refine Keeps.bind keeps_native fun answer => Keeps.bind keeps_unguarded fun closed => ?_
  exact Keeps.ite (keeps_change fun _ => ⟨rfl, rfl⟩) (Keeps.raise covers_idling)

theorem keeps_prepare_grid {agent_name mem_type : String}
    {entries : List (Bool × RegionDescriptor)} :
    Keeps (idling s t) (Idle s t) (prepare_grid agent agent_name mem_type entries) := by
  refine Keeps.bind keeps_native fun answer => Keeps.bind keeps_unguarded fun created => ?_
  cases created with
  | none => exact Keeps.raise covers_idling
  | some handle => exact keeps_change fun _ => ⟨rfl, rfl⟩

theorem keeps_prepare_memory {agent_name : String} {regions : RegionMaps}
    {owner_name : Option String} :
    Keeps (idling s t) (Idle s t) (prepare_memory agent agent_name regions owner_name) := by
  refine Keeps.bind Keeps.read fun s' => Keeps.ite (Keeps.raise covers_idling) ?_
  refine Keeps.bind (keeps_change fun _ => ⟨rfl, rfl⟩) fun _ => Keeps.bind ?_ fun _ => ?_
  · refine Keeps.handle (Keeps.forEach fun p => keeps_prepare_grid) fun e => ?_
    exact Keeps.bind keeps_release_prepared fun _ => Keeps.raise covers_idling
  · exact Keeps.bind Keeps.read fun s' => Keeps.ite (keeps_change fun _ => ⟨rfl, rfl⟩) Keeps.pure

end Functions

/-! ## Runs -/

/-- The calls operations make. -/
inductive NixlCall where
  | prepare_memory (agent_name : String) (regions : RegionMaps) (owner_name : Option String)
  | release_prepared (agent_name : String)
  | submit_transfer (operation : String) (local_descriptors remote_descriptors : Descriptors)
      (remote_side_agent : String) (capture_telemetry : Bool)
  | poll_transfer (transfer_id : Nat) (require_completion : Bool)

/-- One call, and the result it gives its caller. -/
def NixlCall.run (agent : NixlAgent) : NixlCall → PM Unit
  | .prepare_memory agent_name regions owner_name =>
    Kvcr.prepare_memory agent agent_name regions owner_name
  | .release_prepared agent_name => Kvcr.release_prepared agent agent_name
  | .submit_transfer operation local_descriptors remote_descriptors remote_side_agent
      telemetry => do
    let _ ← Kvcr.submit_transfer agent operation local_descriptors remote_descriptors
      remote_side_agent telemetry
    pure ()
  | .poll_transfer transfer_id require_completion => do
    let result ← Kvcr.poll_transfer agent transfer_id require_completion
    forEach (handed transfer_id result) fun e => emit fun _ => e

/-- The states and logs that calls of a kind lead to, from a thread without transfers. An
operation catches what a call raises, so a run goes on after it. -/
inductive NixlRun (agent : NixlAgent) (allowed : NixlCall → Prop) :
    KVCRProgress → List NixlEv → Prop where
  | start {s : KVCRProgress} (unused : s.active_transfers = Dict.empty) :
      NixlRun agent allowed s []
  | returned {s s' : KVCRProgress} {t u : List NixlEv} (call : NixlCall)
      (before : NixlRun agent allowed s t) (hallowed : allowed call)
      (run : call.run agent s = .ok () s' u) : NixlRun agent allowed s' (t ++ u)
  | raised {s s' : KVCRProgress} {t u : List NixlEv} {e : NixlError} (call : NixlCall)
      (before : NixlRun agent allowed s t) (hallowed : allowed call)
      (run : call.run agent s = .err e s' u) : NixlRun agent allowed s' (t ++ u)

/-- The transfer is only polled with completion required. -/
def CompletionRequired (id : Nat) (call : NixlCall) : Prop :=
  ∀ require_completion, call = .poll_transfer id require_completion → require_completion = true

section Runs

variable {agent : NixlAgent} {s : KVCRProgress} {t : List NixlEv} {id : Nat}

/-- The result is noted. -/
theorem wp_handed {W : Watch KVCRProgress NixlError NixlEv} {i : Nat} {result : PollResult}
    {Q : Unit → KVCRProgress → List NixlEv → Prop} (h : Q () s (t ++ handed i result)) :
    wp W (forEach (handed i result) fun e => emit fun _ => e) Q s t := by
  cases result with
  | none =>
    rw [handed, List.append_nil] at h
    exact wp_pure.mpr h
  | some result => exact wp_bind.mpr (wp_emit.mpr (wp_pure.mpr h))

/-- One call follows the history of the transfer. -/
theorem wp_call (hi : Followed id s t) {call : NixlCall} (hallowed : CompletionRequired id call) :
    wp (following id) (call.run agent) (fun _ => Followed id) s t := by
  have hidle : ∀ {m : PM Unit}, Keeps (idling s t) (Idle s t) m →
      wp (following id) m (fun _ => Followed id) s t := by
    intro m hm
    have hfollowed : ∀ s' t', Idle s t s' t' → Followed id s' t' := by
      rintro s' t' ⟨⟨hactive, hnext⟩, rfl⟩
      exact hi.of_same (fun hlt => hnext ▸ hlt) (by rw [hactive])
    exact wp_conseq (hm s t ⟨⟨rfl, rfl⟩, rfl⟩) (fun _ => hfollowed) (fun _ h => h)
      (fun _ => hfollowed)
  cases call with
  | prepare_memory agent_name regions owner_name => exact hidle keeps_prepare_memory
  | release_prepared agent_name => exact hidle keeps_release_prepared
  | submit_transfer operation local_descriptors remote_descriptors remote_side_agent telemetry =>
    exact wp_seq (wp_submit_transfer hi) fun _ _ _ h => wp_pure.mpr h
  | poll_transfer i require_completion =>
    refine wp_bind.mpr ?_
    cases hget : s.active_transfers.get? i with
    | none =>
      unfold poll_transfer
      rw [wp_bind, wp_read]
      dsimp only
      rw [hget]
      exact wp_raise.mpr hi
    | some state =>
      refine wp_mono (wp_poll_transfer hget) fun result s' t' hpolled => wp_handed ?_
      by_cases hid : i = id
      · subst hid
        rw [hallowed require_completion rfl] at hpolled
        exact hpolled.followed hi hget
      · cases result with
        | none =>
          rw [handed, List.append_nil]
          exact hpolled.only.followed hi hid
        | some result => exact (hpolled.only.event rfl).followed hi hid

theorem NixlRun.followed (h : NixlRun agent (CompletionRequired id) s t) : Followed id s t := by
  induction h with
  | start unused => exact Followed.start unused
  | returned call _ hallowed run ih =>
    have hcall : wp (following id) (call.run agent) _ _ _ := wp_call ih hallowed
    unfold wp at hcall
    rwa [run] at hcall
  | raised call _ hallowed run ih =>
    have hcall : wp (following id) (call.run agent) _ _ _ := wp_call ih hallowed
    unfold wp at hcall
    rwa [run] at hcall

/-- Polling a registered transfer returns. -/
theorem poll_returns {state : TransferState} (hget : s.active_transfers.get? id = some state)
    (require_completion : Bool) :
    ∃ result s' u, poll_transfer agent id require_completion s = .ok result s' u ∧
      Polled agent id require_completion state s [] result s' u := by
  have hpoll : wp ⟨fun _ _ _ => False, fun _ => False⟩
    (poll_transfer agent id require_completion) _ s [] := wp_poll_transfer hget
  obtain ⟨result, s', u, hrun, hpolled⟩ := exists_of_wp hpoll
  exact ⟨result, s', u, hrun, hpolled⟩

/-- The call that polls notes the result that the poll returned. -/
theorem run_poll_transfer {require_completion : Bool} {result : PollResult} {s' : KVCRProgress}
    {u : List NixlEv} (h : poll_transfer agent id require_completion s = .ok result s' u) :
    (NixlCall.poll_transfer id require_completion).run agent s =
      .ok () s' (u ++ handed id result) := by
  have hcall : wp ⟨fun _ _ _ => False, fun _ => False⟩
      ((NixlCall.poll_transfer id require_completion).run agent)
      (fun _ s₁ v => s₁ = s' ∧ v = u ++ handed id result) s [] := by
    refine wp_bind.mpr ?_
    unfold wp
    rw [h]
    exact wp_handed (Q := fun _ s₁ v => s₁ = s' ∧ v = u ++ handed id result) ⟨rfl, rfl⟩
  obtain ⟨⟨⟩, s₁, v, hrun, rfl, rfl⟩ := exists_of_wp hcall
  exact hrun

/-- The value a poll returns: a result comes with the release and says how the transfer went. -/
theorem NixlRun.poll_value (h : NixlRun agent (CompletionRequired id) s t) {success : Bool}
    {telemetry : Option Nat} {s' : KVCRProgress} {u : List NixlEv}
    (hpoll : poll_transfer agent id true s = .ok (some (success, telemetry)) s' u) :
    success = true ↔ .returned .DONE ∈ observed id (t ++ u) ∧ ¬ Faulted id (t ++ u) := by
  have hnext : NixlRun agent (CompletionRequired id) s' (t ++ (u ++ [.returned id success])) :=
    .returned (.poll_transfer id true) h (fun _ hcall => by cases hcall; rfl)
      (run_poll_transfer hpoll)
  exact (hnext.followed.result (t ++ u) success (by simp)).2

/-- The handle of a transfer that is polled with completion required is only given back
when the last thing heard of the transfer is that it is done or that its peer is gone. A
poll returns its result once, right after the release succeeded; until then it stays
registered and every poll returns nothing and asks NIXL about it. The result is success
exactly when the transfer was seen done and nothing was wrong with it before. -/
theorem native_handle_released_after_access (agent : NixlAgent) (id : Nat)
    (h : NixlRun agent (CompletionRequired id) s t) :
    (∀ u answer, u ++ [.release_asked id answer] <+: t → AccessEnded id u) ∧
      t.countP (·.is_result id) ≤ 1 ∧
      (∀ u success, u ++ [.returned id success] <+: t →
        (∃ v, u = v ++ [.release_asked id (.returned true)]) ∧
        (success = true ↔ .returned .DONE ∈ observed id u ∧ ¬ Faulted id u)) ∧
      (∀ answer, .posted id answer ∈ t → (∀ success, .returned id success ∉ t) →
        (∃ state, s.active_transfers.get? id = some state) ∧
        ∃ result s' u, poll_transfer agent id true s = .ok result s' u ∧
          (u ≠ [] ∨ agent.release_xfer_handle = none) ∧
          (result = none ↔ (s'.active_transfers.get? id).isSome) ∧
          ∀ success telemetry, result = some (success, telemetry) →
            (∃ v, u = v ++ [.release_asked id (.returned true)]) ∧
            (success = true ↔
              .returned .DONE ∈ observed id (t ++ u) ∧ ¬ Faulted id (t ++ u))) := by
  have hi := h.followed
  refine ⟨hi.released, hi.once, hi.result, fun answer hposted hunreturned => ?_⟩
  cases hget : s.active_transfers.get? id with
  | none =>
    obtain ⟨success, hreturned⟩ := hi.kept hget answer hposted
    exact absurd hreturned (hunreturned success)
  | some state =>
    obtain ⟨result, s', u, hrun, hpolled⟩ := poll_returns hget true
    refine ⟨⟨state, rfl⟩, result, s', u, hrun, hpolled.asked.imp_left List.ne_nil_of_length_pos,
      hpolled.registered hget, ?_⟩
    rintro success telemetry rfl
    exact ⟨hpolled.ends (Option.some_ne_none _), h.poll_value hrun⟩

end Runs

/-- NIXL takes every transfer, refuses the first release and then answers as it should. -/
def reluctant_agent : NixlAgent where
  create_xfer _ _ := .returned (some 0)
  transfer _ _ := .returned .PROC
  check_xfer_state _ _ := .returned .DONE
  release_xfer_handle := some fun tick _ => .returned (3 < tick)
  get_xfer_telemetry := none
  prep_xfer_dlist _ _ _ _ := .returned none
  release_dlist_handle _ _ := .returned true

/-- A write to a file: the release that was refused at the first poll is asked for again at
the second, without another look at the transfer. -/
theorem native_handle_of_refused_release :
    ∃ s u, NixlRun reluctant_agent (CompletionRequired 1) s
        (u ++ [.release_asked 1 (.returned true), .returned 1 true]) ∧
      u = [.posted 1 (.returned .PROC), .checked 1 (.returned .DONE),
        .release_asked 1 (.returned false)] ∧
      AccessEnded 1 u ∧ ¬ Faulted 1 u := by
  have hsubmitted : NixlRun reluctant_agent (CompletionRequired 1) _ _ :=
    .returned (.submit_transfer "WRITE" (.raw [⟨"FILE", 0, 1, 0⟩]) (.raw [⟨"FILE", 0, 1, 0⟩])
      "agent" false) (.start (s := { nixl_agent_name := "agent" }) rfl)
      (fun _ hpoll => by cases hpoll) rfl
  have hrefused : NixlRun reluctant_agent (CompletionRequired 1) _ _ :=
    .returned (.poll_transfer 1 true) hsubmitted (fun _ hpoll => by cases hpoll; rfl) rfl
  have hreleased : NixlRun reluctant_agent (CompletionRequired 1) _ _ :=
    .returned (.poll_transfer 1 true) hrefused (fun _ hpoll => by cases hpoll; rfl) rfl
  obtain ⟨hended, -, hresult, -⟩ := native_handle_released_after_access reluctant_agent 1 hreleased
  refine ⟨_, _, hreleased, rfl, hended _ (.returned true) ⟨[.returned 1 true], rfl⟩, ?_⟩
  intro hfaulted
  exact ((hresult _ true (List.prefix_refl _)).2.mp rfl).2 (faulted_snoc.mpr (.inl hfaulted))

end Kvcr
