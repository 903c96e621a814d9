/-
Exclusive ownership of a pool group.

The reservation is what keeps two transitions apart, but it is set on caller threads and
cleared on the actor, and some commands are queued without one. So the invariant relates
the mailbox to it: a queued claim means that the reservation is that claim's, that it is
the only one, that no lease is current and that the actor is in no transition of its own;
and where the actor is in a transition, no claim is queued. Everything else about the actor
is a fact about where it stands (`Actor.Inv`).

Once the actor has begun to close, nothing it does can commit a lease or serve, and the
relation is given up.
-/
import Kvcr.Guard

set_option autoImplicit false

namespace Kvcr.Guard

open Prog

/-! ## The invariant -/

/-- Whether a command is a claim. -/
def Command.is_claim : Command → Bool
  | .claim .. => true
  | _ => false

/-- What the facts about the actor are about. -/
structure View where
  current : Option Lease
  serving : Bool
  closing : Bool
  refused : Bool
  reported : List Lease
  aborted : List Lease

def System.view (sys : System) : View :=
  { current := sys.shared.current
    serving := sys.own.serving
    closing := sys.shared.closing
    refused := sys.refused
    reported := sys.reported
    aborted := sys.aborted }

namespace Actor

/-- The actor has begun to close, or has failed for good. -/
def ends : Actor → Bool
  | .stopping | .stopped => true
  | .dispatched c | .running c | .closed c => c = .close
  | .finish (.command c) _ => c = .close
  | .fail _ next => next.ends
  | _ => false

/-- The actor is in a transition: it will clear the reservation. -/
def owns : Actor → Bool
  | .loop | .observing _ | .polled .. | .polling | .stopping | .stopped => false
  | .dispatched c => c.is_claim
  | .fail _ next => next.owns
  | _ => true

/-- The actor holds the lock. -/
def commits : Actor → Bool
  | .committing .. => true
  | .fail _ next => next.commits
  | _ => false

/-- What holds where the actor stands. -/
def Inv (v : View) : Actor → Prop
  | .loop | .observing _ | .polling | .finish .. | .stopping | .stopped => True
  | .polled lease flags => flags = some true → lease ∈ v.reported
  | .promoting lease pollin => v.current = some lease ∧ (pollin = true → lease ∈ v.reported)
  | .dispatched c =>
    match c with
    | .claim .. => v.current = none
    | .abort lease => lease ∈ v.aborted
    | _ => True
  | .running c =>
    match c with
    | .claim .. => v.current = none
    | .release lease => v.current = some lease
    | .abort lease => v.current = some lease ∧ lease ∈ v.aborted
    | .close => True
  | .adopting .. | .refused .. | .refused_idle .. | .claim_failed .. => v.current = none
  | .adopted .. => v.current = none ∧ v.serving = false
  | .committing .. =>
    v.current = none ∧ v.serving = false ∧ v.closing = false ∧ v.refused = false
  | .promote _ lease => v.current = some lease ∧ (lease ∈ v.reported ∨ lease ∈ v.aborted)
  | .promoted _ lease _ | .stand_down _ lease | .stood_down _ lease _ => v.current = some lease
  | .standby _ | .idle _ | .closed _ => v.current = none
  | .fail _ next => next.Inv v

/-- Callers only add to the history, and raise flags while nothing is being committed. -/
theorem Inv.mono {a : Actor} {v v' : View} (h : a.Inv v) (hcurrent : v'.current = v.current)
    (hserving : v'.serving = v.serving) (hreported : v.reported ⊆ v'.reported)
    (haborted : v.aborted ⊆ v'.aborted)
    (hflags : a.commits = true → v'.closing = v.closing ∧ v'.refused = v.refused) :
    a.Inv v' := by
  induction a with
  | fail e next ih => exact ih h hflags
  | loop | observing | polling | finish | stopping | stopped => trivial
  | polled lease flags => exact fun hflags => hreported (h hflags)
  | promoting lease pollin => exact ⟨hcurrent.trans h.1, fun hp => hreported (h.2 hp)⟩
  | dispatched c =>
    cases c with
    | claim => exact hcurrent.trans h
    | abort lease => exact haborted h
    | release | close => trivial
  | running c =>
    cases c with
    | claim | release => exact hcurrent.trans h
    | abort lease => exact ⟨hcurrent.trans h.1, haborted h.2⟩
    | close => trivial
  | adopting | refused | refused_idle | claim_failed | promoted | stand_down | stood_down | standby
    | idle | closed => exact hcurrent.trans h
  | adopted => exact ⟨hcurrent.trans h.1, hserving.trans h.2⟩
  | committing =>
    obtain ⟨hclosing, hrefused⟩ := hflags rfl
    exact ⟨hcurrent.trans h.1, hserving.trans h.2.1, hclosing.trans h.2.2.1,
      hrefused.trans h.2.2.2⟩
  | promote origin lease =>
    exact ⟨hcurrent.trans h.1, h.2.imp (fun hx => hreported hx) (fun hx => haborted hx)⟩

end Actor

/-- How many claims are on their way to the actor. -/
def System.queued_claims (sys : System) : Nat :=
  sys.submitting.countP Command.is_claim + sys.commands.countP Command.is_claim

/-- Whose the reservation is, while the actor has not begun to close. -/
structure Reserved (sys : System) : Prop where
  /-- a queued claim's -/
  claims : sys.queued_claims ≠ 0 → sys.queued_claims = 1 ∧ sys.actor.owns = false ∧
    sys.shared.reserved = some .CLAIMING ∧ sys.shared.current = none
  /-- or the actor's -/
  owned : sys.actor.owns = true → sys.shared.reserved ≠ none

/-- A Guard between two transitions. -/
structure Inv (sys : System) : Prop where
  actor : sys.actor.Inv sys.view
  /-- the phase while there is a holder -/
  holder : sys.shared.current ≠ none → sys.shared.phase = .PRIMARY ∨ sys.shared.phase = .FAILED
  reserved : sys.actor.ends = false → Reserved sys
  aborts : ∀ lease, .abort lease ∈ sys.submitting ++ sys.commands → lease ∈ sys.aborted
  locked : sys.locked = sys.actor.commits
  refused : sys.refused = true → sys.refusing = true

theorem inv_started (region : List UInt8) : Inv (System.started region) where
  actor := trivial
  holder := fun h => absurd rfl h
  reserved := fun _ => ⟨fun h => absurd rfl h, fun h => by cases h⟩
  aborts := fun lease h => by cases h
  locked := rfl
  refused := fun h => by cases h

/-! ## Callers keep it -/

section Callers

variable {setting : Setting} {sys sys' : System}

theorem queued_accept (c : Command) :
    (sys.accept c).queued_claims = sys.queued_claims + [c].countP Command.is_claim := by
  simp only [System.queued_claims, System.accept, List.countP_append]
  omega

/-- Accepting a command adds to what is under way and to the history only. -/
theorem Inv.accept (h : Inv sys) (c : Command) (shared : Shared)
    (hcurrent : shared.current = sys.shared.current) (hphase : shared.phase = sys.shared.phase)
    (hclosing : sys.locked = true → shared.closing = sys.shared.closing)
    (hreserved : sys.actor.ends = false → Reserved { sys.accept c with shared := shared }) :
    Inv { sys.accept c with shared := shared } where
  actor := by
    refine h.actor.mono hcurrent rfl (fun _ hx => hx) ?_ fun hcommits => ⟨?_, rfl⟩
    · simp only [System.view, System.accept]
      cases c with
      | abort lease => exact List.subset_cons_self ..
      | claim | release | close => exact fun _ hx => hx
    · exact hclosing (h.locked.trans hcommits)
  holder := by
    intro hne
    rw [hcurrent] at hne
    rw [hphase]
    exact h.holder hne
  reserved := hreserved
  aborts := by
    intro lease hmem
    simp only [System.accept, List.append_assoc, List.mem_append, List.mem_singleton] at hmem ⊢
    rcases hmem with hmem | rfl | hmem
    · have := h.aborts lease (List.mem_append_left _ hmem)
      cases c <;> simp [this]
    · simp
    · have := h.aborts lease (List.mem_append_right _ hmem)
      cases c <;> simp [this]
  locked := h.locked
  refused := h.refused

/-- `claim` reserves: no lease is current then. -/
theorem inv_claim {liveness : Lease} {tier_config : TierConfig} {bind : Address} {alive : Bool}
    (h : Inv sys) (hstep : sys.claim setting liveness tier_config bind alive = .ok sys') :
    Inv sys' := by
  unfold System.claim System.reserve_claim at hstep
  split at hstep
  · cases hstep
  split at hstep
  · cases hstep
  split at hstep
  · cases hstep
  split at hstep
  · split at hstep <;> cases hstep
  split at hstep
  · cases hstep
  cases hstep
  rename_i hclosing _ hfailure hnone hprimary hphase
  rw [Option.not_isSome_iff_eq_none] at hnone
  have hcurrent : sys.shared.current = none := by
    by_contra hne
    rcases h.holder hne with hp | hp
    · exact hprimary hp
    · exact hphase (.inl hp)
  refine h.accept _ { sys.shared with reserved := some .CLAIMING } rfl rfl (fun _ => rfl) ?_
  intro hends
  have hreserved := h.reserved hends
  have hqueued : sys.queued_claims = 0 := by
    by_contra hne
    have hclaiming := (hreserved.claims hne).2.2.1
    rw [hnone] at hclaiming
    cases hclaiming
  have howns : sys.actor.owns = false := by
    by_contra howns
    exact hreserved.owned (by simpa using howns) hnone
  refine ⟨fun _ => ⟨?_, howns, rfl, hcurrent⟩, fun _ => by simp⟩
  have hcount : (sys.accept (.claim liveness tier_config bind)).queued_claims =
      sys.queued_claims + 1 := queued_accept _
  rw [hqueued] at hcount
  exact hcount

/-- A lease is ended: what is queued is no claim. -/
theorem inv_end_lease {lease : Lease} {c : Command} (h : Inv sys) (hc : c.is_claim = false)
    (hstep : sys.end_lease setting lease c = .ok sys') : Inv sys' := by
  have hcount : (sys.accept c).queued_claims = sys.queued_claims := by
    rw [queued_accept]
    simp [hc]
  unfold System.end_lease at hstep
  split at hstep
  · cases hstep
    exact h
  split at hstep
  · -- the reservation is free, so no claim is queued
    cases hstep
    rename_i hnone
    refine h.accept c { sys.shared with reserved := some .RELEASING } rfl rfl (fun _ => rfl) ?_
    intro hends
    have hreserved := h.reserved hends
    refine ⟨fun hne => ?_, fun _ => by simp⟩
    have hclaiming := (hreserved.claims (hcount ▸ hne)).2.2.1
    rw [hnone] at hclaiming
    cases hclaiming
  · cases hstep
    refine h.accept c sys.shared rfl rfl (fun _ => rfl) fun hends => ?_
    have hreserved := h.reserved hends
    refine ⟨fun hne => ?_, hreserved.owned⟩
    obtain ⟨hone, hrest⟩ := hreserved.claims (hcount ▸ hne)
    exact ⟨hcount.trans hone, hrest⟩
  · cases hstep

theorem close_resources_frame (sys : System) (o : Oracle) :
    ∃ own current, (current = sys.shared.current ∨
      current = none) ∧ (sys.close_resources o).2 =
        { sys with own := own, shared.current := current } := by
  unfold System.close_resources
  split
  · exact ⟨_, _, .inl rfl, rfl⟩
  · exact ⟨_, _, .inr rfl, rfl⟩

/-- Once the actor has ended, an inline close may clear the holder. -/
theorem Inv.ended (h : Inv sys) (hactor : sys.actor = .stopped) {shared : Shared} {own : Owned}
    (hcurrent : shared.current = sys.shared.current ∨ shared.current = none)
    (hphase : shared.phase = sys.shared.phase) : Inv { sys with shared := shared, own := own } where
  actor := by
    simp only [hactor]
    trivial
  holder := by
    intro hne
    rcases hcurrent with hcurrent | hcurrent
    · rw [hcurrent] at hne
      rw [hphase]
      exact h.holder hne
    · exact absurd hcurrent hne
  reserved := by
    intro hends
    simp [hactor, Actor.ends] at hends
  aborts := h.aborts
  locked := h.locked
  refused := h.refused

theorem inv_begin_close (h : Inv sys) (o : Oracle) (hlock : sys.locked = false) :
    Inv (sys.begin_close o) := by
  unfold System.begin_close
  split
  · rename_i hactor
    dsimp only
    split
    · exact h.ended hactor (.inl rfl) rfl
    · obtain ⟨own, current, hcurrent, hframe⟩ :=
        close_resources_frame { sys with shared.closing := true } o
      split
      · rename_i hclose
        rw [hclose] at hframe
        subst hframe
        exact h.ended hactor hcurrent rfl
      · rename_i hclose
        rw [hclose] at hframe
        subst hframe
        exact h.ended hactor hcurrent rfl
  · split
    · exact h
    · refine h.accept .close { sys.shared with closing := true } rfl rfl
        (fun hlocked => absurd (hlock.symm.trans hlocked) (by decide)) fun hends => ?_
      have hreserved := h.reserved hends
      have hcount : (sys.accept .close).queued_claims = sys.queued_claims := queued_accept .close
      refine ⟨fun hne => ?_, hreserved.owned⟩
      obtain ⟨hone, hrest⟩ := hreserved.claims (hcount ▸ hne)
      exact ⟨hcount.trans hone, hrest⟩

/-- Moving one command into the mailbox changes neither the number of claims nor the
aborts under way. -/
theorem inv_put (h : Inv sys) (index : Nat) : Inv (sys.put index) := by
  unfold System.put
  split
  · exact h
  · rename_i c hget
    obtain ⟨hlt, hc⟩ := List.getElem?_eq_some_iff.mp hget
    have hperm : (c :: sys.submitting.eraseIdx index).Perm sys.submitting := by
      rw [← hc]
      exact List.getElem_cons_eraseIdx_perm hlt
    have hcount : ({ sys with
          submitting := sys.submitting.eraseIdx index
          commands := sys.commands ++ [c] } : System).queued_claims = sys.queued_claims := by
      have := hperm.countP_eq Command.is_claim
      simp only [System.queued_claims, List.countP_append, List.countP_cons, List.countP_nil] at *
      omega
    exact
      { actor := h.actor
        holder := h.holder
        reserved := fun hends => by
          have hreserved := h.reserved hends
          refine ⟨fun hne => ?_, hreserved.owned⟩
          obtain ⟨hone, hrest⟩ := hreserved.claims (hcount ▸ hne)
          exact ⟨hcount.trans hone, hrest⟩
        aborts := by
          intro lease hmem
          refine h.aborts lease ?_
          rw [List.mem_append] at hmem ⊢
          rcases hmem with hmem | hmem
          · exact .inl (hperm.subset (List.mem_cons_of_mem _ hmem))
          · rcases List.mem_append.mp hmem with hmem | hmem
            · exact .inr hmem
            · rw [List.mem_singleton.mp hmem]
              exact .inl (hperm.subset (List.mem_cons_self ..))
        locked := h.locked
        refused := h.refused }

/-- `refuse_claims` passes the lock, so nothing is being committed when it returns. -/
theorem inv_refused (h : Inv sys) (hlock : sys.locked = false) (hset : sys.refusing = true) :
    Inv { sys with refused := true } :=
  { h with
    actor := by
      refine h.actor.mono rfl rfl (fun _ hx => hx) (fun _ hx => hx) fun hcommits => ?_
      rw [← h.locked, hlock] at hcommits
      cases hcommits
    reserved := fun hends => ⟨(h.reserved hends).claims, (h.reserved hends).owned⟩
    refused := fun _ => hset }

/-- What a primary or a registration does to the actor's things. -/
theorem Inv.own (h : Inv sys) {own : Owned} (hserving : own.serving = sys.own.serving) :
    Inv { sys with own := own } :=
  { h with
    actor := h.actor.mono rfl hserving (fun _ hx => hx) (fun _ hx => hx) fun _ => ⟨rfl, rfl⟩
    reserved := fun hends => ⟨(h.reserved hends).claims, (h.reserved hends).owned⟩ }

end Callers

/-! ## Who serves

Only `_promote` makes the Guard serve: every other segment keeps a Guard that is not
serving from serving, and `_hand_back` ends it. -/

namespace Segment

variable {setting : Setting} {o : Oracle}

/-- The Guard is not serving. -/
def Idle (own : Owned) (_ : List Empty) : Prop := own.serving = false

/-- It is not serving either where a segment raises. -/
def idle : Watch Owned GuardError Empty := ⟨fun _ => Idle, fun _ => True⟩

theorem idle_covers : Covers idle Idle := ⟨fun _ _ _ h => h, fun _ _ _ => trivial⟩

theorem idle_change {f : Owned → Owned} (hf : ∀ own, (f own).serving = own.serving) :
    Keeps idle Idle (change f) :=
  fun own _ hidle => wp_change.mpr ((hf own).trans hidle)

theorem idle_call (c : Call) : Keeps idle Idle (call o c) := by
  unfold call
  split
  · exact Keeps.pure
  · exact Keeps.raise idle_covers

theorem idle_recover (f : RecoveryState → Except GuardError Unit × RecoveryState) :
    Keeps idle Idle (recover f) := by
  refine Keeps.read.bind fun own => ?_
  refine Keeps.bind (idle_change fun _ => rfl) fun _ => ?_
  split
  · exact Keeps.pure
  · exact Keeps.raise idle_covers

theorem idle_bind (address : Address) : Keeps idle Idle (bind setting o address) := by
  refine Keeps.read.bind fun own => ?_
  split
  · exact Keeps.ite Keeps.pure (Keeps.raise idle_covers)
  · exact (idle_call _).bind fun _ => Keeps.bind (idle_change fun _ => rfl) fun _ => Keeps.pure

theorem idle_check_claim (failure : Option GuardError) (tier_config : TierConfig) :
    Keeps idle Idle (check_claim setting failure tier_config) := by
  unfold check_claim
  split
  · exact Keeps.raise idle_covers
  · refine Keeps.read.bind fun own => Keeps.ite (Keeps.raise idle_covers) ?_
    exact (idle_recover _).bind fun _ => idle_change fun _ => rfl

theorem idle_hand_back : Keeps idle Idle (hand_back setting o) := by
  refine Keeps.read.bind fun own => ?_
  split
  · refine (idle_call _).bind fun _ => (idle_recover _).bind fun _ => ?_
    exact fun _ _ _ => wp_change.mpr rfl
  · exact Keeps.raise idle_covers

/-- After `_hand_back` nobody is served, whatever was served before. -/
theorem hand_back_idle (own : Owned) (W : Watch Owned GuardError Empty) (t : List Empty)
    (hexc : ∀ e own t, W.exc e own t) (hout : ∀ t, W.out t) :
    wp W (hand_back setting o) (fun _ => Idle) own t := by
  have hany : Covers W fun _ _ => True := ⟨fun _ _ _ _ => hexc .., fun _ _ _ => hout _⟩
  refine wp_bind.mpr (wp_read.mpr ?_)
  split
  · have hcall : Keeps W (fun _ _ => True) (call o .close_core) := by
      unfold call
      split
      · exact Keeps.pure
      · exact Keeps.raise hany
    refine wp_bind.mpr (wp_mono (hcall _ _ trivial) fun _ own t _ => wp_bind.mpr ?_)
    refine wp_bind.mpr (wp_read.mpr (wp_bind.mpr (wp_change.mpr ?_)))
    split
    · exact wp_pure.mpr (wp_change.mpr rfl)
    · exact wp_raise.mpr (hexc ..)
  · exact wp_raise.mpr (hexc ..)

/-- The tail of `_adopt`. -/
theorem idle_prepare_core : Keeps idle Idle (prepare_core o) :=
  (idle_call _).bind fun _ => idle_change fun _ => rfl

theorem idle_release (failure : Option GuardError) :
    Keeps idle Idle (release setting o failure) := by
  refine Keeps.bind (idle_change fun _ => rfl) fun _ => ?_
  split
  · exact Keeps.raise idle_covers
  · have hmirror : ∀ mirror, Keeps idle Idle (release.release_mirror setting o mirror) := by
      intro mirror
      unfold release.release_mirror
      split
      · exact Keeps.pure
      · exact idle_recover _
    have hcore : ∀ core, Keeps idle Idle (release.drop_core o core) := by
      intro core
      unfold release.drop_core
      split
      · exact Keeps.pure
      · exact Keeps.ite ((idle_call _).bind fun _ => idle_change fun _ => rfl)
          (idle_change fun _ => rfl)
    have hwrite : Keeps idle Idle (release.write_out setting o) :=
      Keeps.read.bind fun _ => (hmirror _).bind fun _ => Keeps.read.bind fun _ =>
        Keeps.when ((idle_call _).bind fun _ => idle_change fun _ => rfl)
    refine Keeps.read.bind fun own => Keeps.ite ?_ ((hcore _).bind fun _ => hwrite)
    exact idle_hand_back.bind fun _ => Keeps.bind (idle_change fun _ => rfl) fun _ => hwrite

theorem idle_poll : Keeps idle Idle (poll setting o) := by
  have horphan : ∀ orphans, Keeps idle Idle (poll.close_orphan o orphans) := by
    intro orphans
    unfold poll.close_orphan
    split
    · exact Keeps.pure
    · exact Keeps.when ((idle_call _).bind fun _ => idle_change fun _ => rfl)
  refine Keeps.read.bind fun own => (horphan _).bind fun _ => Keeps.ite ?_ ?_
  · exact (idle_call _).bind fun _ => idle_change fun _ => rfl
  · exact (Keeps.when (idle_call _)).bind fun _ => idle_change fun _ => rfl

theorem idle_prepare_claim (failure : Option GuardError) (tier_config : TierConfig)
    (address : Address) :
    Keeps idle Idle (System.prepare_claim setting o failure tier_config address) := by
  refine (idle_bind address).bind fun bound_here => ?_
  have hchecked : Keeps idle Idle (do
      call o .dup
      call o .from_shared_listener
      check_claim setting failure tier_config) :=
    (idle_call _).bind fun _ => (idle_call _).bind fun _ => idle_check_claim failure tier_config
  exact Keeps.handle (Keeps.bind hchecked fun _ => Keeps.pure) fun _ => Keeps.pure

/-- What `_adopt` does once nobody is served. -/
theorem idle_take_up (control : Bool) : Keeps idle Idle (do
    change fun own => { own with recovery := own.recovery.start_primary }
    when control (call o .close_control)
    change fun own => { own with control := true }
    prepare_core o) :=
  Keeps.bind (idle_change fun _ => rfl) fun _ => Keeps.bind (Keeps.when (idle_call _)) fun _ =>
    Keeps.bind (idle_change fun _ => rfl) fun _ => idle_prepare_core

theorem idle_adopt : Keeps idle Idle (adopt setting o) := by
  refine Keeps.read.bind fun own => Keeps.bind (Keeps.when ?_) fun _ => idle_take_up _
  exact Keeps.bind idle_hand_back fun _ => idle_change fun _ => rfl

/-- A claim that is through has stopped the Guard's core. -/
theorem adopt_idle (own : Owned) (W : Watch Owned GuardError Empty) (t : List Empty)
    (hexc : ∀ e own t, W.exc e own t) (hout : ∀ t, W.out t) :
    wp W (adopt setting o) (fun _ => Idle) own t := by
  have htail : ∀ own' t', Idle own' t' → wp W (do
      change fun own => { own with recovery := own.recovery.start_primary }
      when own.control (call o .close_control)
      change fun own => { own with control := true }
      prepare_core o) (fun _ => Idle) own' t' := fun own' t' hidle =>
    wp_conseq (idle_take_up own.control own' t' hidle) (fun _ _ _ _ => hexc ..)
      (fun _ _ => hout _) fun _ _ _ h => h
  refine wp_bind.mpr (wp_read.mpr (wp_bind.mpr (wp_when.mpr ⟨fun _ => ?_, fun hserving => ?_⟩)))
  · refine wp_bind.mpr (wp_mono (hand_back_idle own W t hexc hout) fun _ own t hidle => ?_)
    exact wp_change.mpr (htail _ _ hidle)
  · exact htail _ _ (Bool.eq_false_iff.mpr hserving)

end Segment

/-! ## The actor keeps it -/

section Actor

variable {setting : Setting} {sys sys' : System}

theorem Reserved.no_claims (h : Reserved sys) (howns : sys.actor.owns = true) :
    sys.queued_claims = 0 := by
  by_contra hne
  have := (h.claims hne).2.1
  rw [howns] at this
  cases this

/-- The actor moves on within a transition, or outside of one. -/
theorem Reserved.keep (h : Reserved sys) (hqueued : sys'.queued_claims = sys.queued_claims)
    (howns : sys'.actor.owns = sys.actor.owns)
    (hreserved : sys'.shared.reserved = sys.shared.reserved)
    (hcurrent : sys.shared.current = none → sys'.shared.current = none ∨ sys.actor.owns = true) :
    Reserved sys' where
  claims := by
    intro hne
    rw [hqueued] at hne
    obtain ⟨hone, hfree, hclaiming, hnone⟩ := h.claims hne
    refine ⟨hqueued.trans hone, howns.trans hfree, hreserved.trans hclaiming, ?_⟩
    rcases hcurrent hnone with hnone | hbusy
    · exact hnone
    · rw [hfree] at hbusy
      cases hbusy
  owned := by
    intro hbusy
    rw [hreserved]
    exact h.owned (howns ▸ hbusy)

/-- The actor enters a transition. -/
theorem Reserved.enter (hqueued : sys'.queued_claims = 0)
    (hreserved : sys'.shared.reserved ≠ none) : Reserved sys' :=
  ⟨fun hne => absurd hqueued hne, fun _ => hreserved⟩

/-- The actor leaves a transition. -/
theorem Reserved.leave (hqueued : sys'.queued_claims = 0) (howns : sys'.actor.owns = false) :
    Reserved sys' :=
  ⟨fun hne => absurd hqueued hne, fun hbusy => by rw [howns] at hbusy; cases hbusy⟩

/-- The actor moves, and changes what is its own and the fields under the lock. -/
theorem Inv.move (h : Inv sys) {shared : Shared} {own : Owned} {a : Actor} {locked : Bool}
    (hinv : a.Inv
      { sys.view with
        current := shared.current
        serving := own.serving
        closing := shared.closing })
    (hholder : shared.current ≠ none → shared.phase = .PRIMARY ∨ shared.phase = .FAILED)
    (hreserved : a.ends = false →
      Reserved { sys with shared := shared, own := own, actor := a, locked := locked })
    (hlocked : locked = a.commits) :
    Inv { sys with shared := shared, own := own, actor := a, locked := locked } where
  actor := hinv
  holder := hholder
  reserved := hreserved
  aborts := h.aborts
  locked := hlocked
  refused := h.refused

/-- The actor moves, touching only what is its own. -/
theorem Inv.goto (h : Inv sys) {own : Owned} {a b : Actor} (hactor : sys.actor = b)
    (hinv : a.Inv { sys.view with serving := own.serving })
    (hends : a.ends = false → b.ends = false ∧ a.owns = b.owns)
    (hcommits : a.commits = b.commits) : Inv { sys with own := own, actor := a } := by
  subst hactor
  refine h.move hinv h.holder (fun ha => ?_) (h.locked.trans hcommits.symm)
  obtain ⟨hbefore, howns⟩ := hends ha
  exact (h.reserved hbefore).keep rfl howns rfl fun hnone => .inl hnone

/-- A segment runs, and the actor stands where its outcome says. -/
theorem Inv.segment {α : Type} {p : Segment α} {ok : α → Actor} {error : GuardError → Actor}
    (h : Inv sys)
    (hp : wp ⟨fun e own _ => Inv { sys with own := own, actor := error e }, fun _ => True⟩ p
      (fun a own _ => Inv { sys with own := own, actor := ok a }) sys.own []) :
    Inv (sys.segment p ok error) := by
  unfold System.segment
  unfold wp at hp
  split
  · rename_i hrun
    rw [hrun] at hp
    exact hp
  · rename_i hrun
    rw [hrun] at hp
    exact hp
  · exact h

/-- The actor does not care what the segment did. -/
theorem Inv.segment_any {α : Type} {p : Segment α} {ok : α → Actor} {error : GuardError → Actor}
    (h : Inv sys) (hok : ∀ a own, Inv { sys with own := own, actor := ok a })
    (herror : ∀ e own, Inv { sys with own := own, actor := error e }) :
    Inv (sys.segment p ok error) := by
  unfold System.segment
  split
  · exact hok ..
  · exact herror ..
  · exact h

/-- The holder is cleared. -/
theorem clear_current {lease : Lease} (h : sys.shared.current = some lease) :
    sys.clear_if_current lease = { sys with shared.current := none } := if_pos h

/-- A command is taken off the mailbox. A claim brings its reservation along. -/
theorem inv_take (h : Inv sys) (hactor : sys.actor = .loop) {c : Command} {commands : List Command}
    (hcommands : sys.commands = c :: commands) :
    Inv { sys with commands := commands, actor := .dispatched c } := by
  have hreserved : Reserved sys := h.reserved (by rw [hactor]; rfl)
  have hcount : sys.queued_claims = ({ sys with
        commands := commands
        actor := .dispatched c } : System).queued_claims + [c].countP Command.is_claim := by
    simp only [System.queued_claims, hcommands, List.countP_cons, List.countP_nil]
    omega
  have haborts : ∀ lease, .abort lease ∈ sys.submitting ++ commands → lease ∈ sys.aborted := by
    intro lease hmem
    refine h.aborts lease ?_
    rw [hcommands]
    rw [List.mem_append] at hmem ⊢
    exact hmem.imp_right (List.mem_cons_of_mem c)
  have hlocked : sys.locked = false := h.locked.trans (by rw [hactor]; rfl)
  by_cases hclaim : c.is_claim = true
  · have hone : sys.queued_claims ≠ 0 := by
      rw [hcount]
      simp [hclaim]
    obtain ⟨hqueued, -, hclaiming, hnone⟩ := hreserved.claims hone
    refine ⟨?_, h.holder, fun _ => Reserved.enter ?_ ?_, haborts, hlocked, h.refused⟩
    · cases c with
      | claim => exact hnone
      | release | abort | close => cases hclaim
    · rw [hqueued] at hcount
      simp only [List.countP_cons, List.countP_nil, hclaim, if_true] at hcount
      omega
    · simp [hclaiming]
  · have hqueued : ({ sys with
        commands := commands
        actor := .dispatched c } : System).queued_claims = sys.queued_claims := by
      rw [hcount]
      simp [hclaim]
    refine ⟨?_, h.holder, fun _ => ?_, haborts, hlocked, h.refused⟩
    · cases c with
      | claim => exact absurd rfl hclaim
      | abort lease => exact h.aborts lease (by rw [hcommands]; simp)
      | release | close => trivial
    · refine hreserved.keep hqueued ?_ rfl fun hnone => .inl hnone
      rw [hactor]
      exact Bool.eq_false_iff.mpr hclaim

/-- The poll of a pidfd is on record. -/
theorem Inv.report (h : Inv sys) (lease : Lease) :
    Inv { sys with reported := lease :: sys.reported } :=
  { h with
    actor := h.actor.mono rfl rfl (List.subset_cons_self ..) (fun _ hx => hx) fun _ => ⟨rfl, rfl⟩
    reserved := fun hends => ⟨(h.reserved hends).claims, (h.reserved hends).owned⟩ }

/-- `_observe_holder` acts only on a lease that is still current, with no transition begun:
then no claim is queued. -/
theorem inv_observed (h : Inv sys) {lease : Lease} {pollin : Bool}
    (hactor : sys.actor = .polled lease (some pollin)) (hcurrent : sys.shared.current = some lease)
    (hfree : sys.shared.reserved = none) :
    Inv { sys with shared.reserved := some .PROMOTING, actor := .promoting lease pollin } := by
  have hpolled := h.actor
  rw [hactor] at hpolled
  refine h.move ⟨hcurrent, fun hp => hpolled (by rw [hp])⟩ h.holder (fun _ => ?_) ?_
  · refine Reserved.enter ?_ (by simp)
    by_contra hne
    have hclaiming := ((h.reserved (by rw [hactor]; rfl)).claims hne).2.2.1
    rw [hfree] at hclaiming
    cases hclaiming
  · exact h.locked.trans (by rw [hactor]; rfl)

/-- A release or an abort whose lease is still current runs. -/
theorem inv_dispatched (h : Inv sys) {c : Command} {lease : Lease}
    (hactor : sys.actor = .dispatched c) (hc : c = .release lease ∨ c = .abort lease)
    (hcurrent : sys.shared.current = some lease) :
    Inv { sys with shared.reserved := some .RELEASING, actor := .running c } := by
  have hdispatched := h.actor
  rw [hactor] at hdispatched
  refine h.move ?_ h.holder (fun hends => ?_) (h.locked.trans (by rw [hactor]; rfl))
  · rcases hc with rfl | rfl
    · exact hcurrent
    · exact ⟨hcurrent, hdispatched⟩
  · refine Reserved.enter ?_ (by simp)
    by_contra hne
    have hnone := ((h.reserved (by rw [hactor]; exact hends)).claims hne).2.2.2
    rw [hcurrent] at hnone
    cases hnone

/-- A command begins. -/
theorem inv_run_command (h : Inv sys) (o : Oracle) {c : Command}
    (hactor : sys.actor = .running c) : Inv (sys.run_command setting o c) := by
  have hrunning := h.actor
  rw [hactor] at hrunning
  have hopen : c ≠ .close → (Actor.running c).ends = false := fun hc => decide_eq_false hc
  cases c with
  | claim liveness tier_config address =>
    have hends := hopen (by simp)
    refine h.segment_any ?_ fun e own => ?_
    · rintro ⟨outcome, bound_here⟩ own
      cases outcome with
      | ok bound => exact h.goto hactor hrunning (fun _ => ⟨hends, rfl⟩) rfl
      | error e => exact h.goto hactor hrunning (fun _ => ⟨hends, rfl⟩) rfl
    · exact h.goto hactor trivial (fun _ => ⟨hends, rfl⟩) rfl
  | release lease => exact h.goto hactor hrunning (fun _ => ⟨hopen (by simp), rfl⟩) rfl
  | abort lease =>
    have hends := hopen (by simp)
    dsimp only [System.run_command]
    split
    · exact h.goto hactor ⟨hrunning.1, .inr hrunning.2⟩ (fun _ => ⟨hends, rfl⟩) rfl
    · exact h.goto hactor hrunning.1 (fun _ => ⟨hends, rfl⟩) rfl
  | close =>
    have hlocked : sys.locked = false := h.locked.trans (by rw [hactor]; rfl)
    unfold System.run_command System.close_resources
    cases hclose : o.raises .close_core with
    | some e => exact h.goto hactor trivial (fun hends => by cases hends) rfl
    | none =>
      -- the holder is gone, whatever else does not close
      dsimp only
      cases ({ sys.own with orphans := [] }.close_rest o).1 with
      | none =>
        exact h.move rfl (fun hne => absurd rfl hne) (fun hends => by cases hends) hlocked
      | some e =>
        exact h.move trivial (fun hne => absurd rfl hne) (fun hends => by cases hends) hlocked

/-- The commit waits for nothing: it is decided under the lock. -/
theorem inv_adopted (h : Inv sys) {c : Command} {liveness : Lease} {bound_here : Bool}
    (hactor : sys.actor = .adopted c liveness bound_here) (hclosing : sys.shared.closing = false)
    (hrefusing : sys.refusing = false) :
    Inv { sys with locked := true, actor := .committing c liveness } := by
  have hadopted := h.actor
  rw [hactor] at hadopted
  refine h.move ⟨hadopted.1, hadopted.2, hclosing, ?_⟩ h.holder (fun _ => ?_) rfl
  · by_contra hrefused
    have := h.refused (Bool.eq_true_of_not_eq_false hrefused)
    rw [hrefusing] at this
    cases this
  · exact (h.reserved (by rw [hactor]; rfl)).keep rfl (by rw [hactor]; rfl) rfl
      fun hnone => .inl hnone

/-- The commit. -/
theorem inv_committed (h : Inv sys) {c : Command} {liveness : Lease}
    (hactor : sys.actor = .committing c liveness) :
    Inv { sys with
      shared.current := some liveness
      shared.phase := .PRIMARY
      locked := false
      actor := .finish (.command c) none } := by
  refine h.move trivial (fun _ => .inl rfl) (fun _ => ?_) rfl
  exact (h.reserved (by rw [hactor]; rfl)).keep rfl (by rw [hactor]; rfl) rfl
    fun _ => .inr (by rw [hactor]; rfl)

/-- The holder is cleared and the actor moves on within its transition. -/
theorem inv_cleared (h : Inv sys) {lease : Lease} {a b : Actor} (hactor : sys.actor = b)
    (hcurrent : sys.shared.current = some lease) (hinv : a.Inv { sys.view with current := none })
    (hends : a.ends = false → b.ends = false ∧ a.owns = b.owns)
    (hcommits : a.commits = b.commits) :
    Inv { sys.clear_if_current lease with actor := a } := by
  subst hactor
  rw [clear_current hcurrent]
  refine h.move hinv (fun hne => absurd rfl hne) (fun ha => ?_) (h.locked.trans hcommits.symm)
  obtain ⟨hbefore, howns⟩ := hends ha
  exact (h.reserved hbefore).keep rfl howns rfl fun _ => .inl rfl

/-- A phase is set at the end of a transition that left no holder. -/
theorem inv_phase (h : Inv sys) {phase : Phase} {own : Owned} {a b : Actor}
    (hactor : sys.actor = b) (hcurrent : sys.shared.current = none)
    (hinv : a.Inv { sys.view with serving := own.serving })
    (hends : a.ends = false → b.ends = false ∧ a.owns = b.owns)
    (hcommits : a.commits = b.commits) :
    Inv { sys with own := own, shared.phase := phase, actor := a } := by
  subst hactor
  refine h.move hinv (fun hne => absurd hcurrent hne) (fun ha => ?_)
    (h.locked.trans hcommits.symm)
  obtain ⟨hbefore, howns⟩ := hends ha
  exact (h.reserved hbefore).keep rfl howns rfl fun hnone => .inl hnone

/-- The reservation is cleared. -/
theorem inv_finish (h : Inv sys) {origin : Origin} {error : Option GuardError}
    (hactor : sys.actor = .finish origin error) : Inv (sys.finish origin error) := by
  have hlocked : sys.locked = false := h.locked.trans (by rw [hactor]; rfl)
  have hqueued : sys.actor.ends = false → sys.queued_claims = 0 := fun hends =>
    (h.reserved hends).no_claims (by rw [hactor]; rfl)
  unfold System.finish
  dsimp only
  split
  · refine h.move trivial h.holder (fun _ => ?_) hlocked
    exact Reserved.leave (hqueued (by rw [hactor]; rfl)) rfl
  · exact h.move trivial h.holder (fun hends => by cases hends) hlocked
  · exact h.move trivial h.holder (fun hends => by cases hends) hlocked
  · rename_i c hne hnone
    refine h.move trivial h.holder (fun _ => ?_) hlocked
    refine Reserved.leave (hqueued ?_) rfl
    rw [hactor]
    refine decide_eq_false ?_
    rintro rfl
    cases error with
    | none => exact hnone rfl rfl
    | some e => exact hne e rfl rfl

/-- A failure is recorded; then the actor goes where it was going. -/
theorem inv_fail (h : Inv sys) {e : GuardError} {next : Actor} (hactor : sys.actor = .fail e next) :
    Inv { sys with shared.failure := some e, shared.phase := .FAILED, actor := next } := by
  have hinv := h.actor
  have hlocked := h.locked
  rw [hactor] at hinv hlocked
  refine h.move hinv (fun _ => .inr rfl) (fun hends => ?_) hlocked
  exact (h.reserved (by rw [hactor]; exact hends)).keep rfl (by rw [hactor]; rfl) rfl
    fun hnone => .inl hnone

/-- The loop ends: nothing queued is run. -/
theorem inv_stopped (h : Inv sys) (hactor : sys.actor = .stopping) :
    Inv { sys with shared.closing := true, commands := [], actor := .stopped } where
  actor := trivial
  holder := h.holder
  reserved := fun hends => by cases hends
  aborts := fun lease hmem => h.aborts lease
    (List.mem_append_left _ (by simpa only [List.append_nil] using hmem))
  locked := h.locked.trans (by rw [hactor]; rfl)
  refused := h.refused

/-- One transition of the actor keeps the invariant. -/
theorem inv_act (h : Inv sys) {o : Oracle} {poll : Poll}
    (hstep : sys.act setting o poll = some sys') : Inv sys' := by
  have hinv := h.actor
  unfold System.act at hstep
  cases hactor : sys.actor with
  | loop =>
    rw [hactor] at hstep
    dsimp only at hstep
    split at hstep
    · rename_i c commands hcommands
      cases hstep
      exact inv_take h hactor hcommands
    · split at hstep
      · cases hstep
        exact h.goto hactor trivial (fun _ => ⟨rfl, rfl⟩) rfl
      · cases hstep
        exact h.goto hactor trivial (fun _ => ⟨rfl, rfl⟩) rfl
  | observing lease =>
    rw [hactor] at hstep
    cases lease with
    | none =>
      cases hstep
      exact h.goto hactor trivial (fun hends => by cases hends) rfl
    | some lease =>
      cases poll with
      | raised =>
        cases hstep
        exact h.goto hactor trivial (fun hends => by cases hends) rfl
      | silent =>
        cases hstep
        exact h.goto hactor (fun hflags => by cases hflags) (fun _ => ⟨rfl, rfl⟩) rfl
      | events pollin =>
        cases hstep
        cases pollin with
        | true =>
          refine (h.report lease).goto hactor ?_ (fun _ => ⟨rfl, rfl⟩) rfl
          exact fun _ => List.mem_cons_self ..
        | false => exact h.goto hactor (fun hflags => by cases hflags) (fun _ => ⟨rfl, rfl⟩) rfl
  | polled lease flags =>
    rw [hactor] at hstep
    dsimp only at hstep
    split at hstep
    · cases hstep
      exact h.goto hactor trivial (fun _ => ⟨rfl, rfl⟩) rfl
    · rename_i hcurrent
      simp only [not_or, not_not, Option.not_isSome_iff_eq_none] at hcurrent
      split at hstep
      · cases hstep
        exact h.goto hactor trivial (fun _ => ⟨rfl, rfl⟩) rfl
      · cases hstep
        exact inv_observed h hactor hcurrent.1 hcurrent.2.1
  | promoting lease pollin =>
    rw [hactor] at hstep hinv
    dsimp only at hstep
    split at hstep
    · rename_i hpollin
      cases hstep
      refine h.move ⟨hinv.1, .inl (hinv.2 hpollin)⟩ h.holder (fun _ => ?_)
        (h.locked.trans (by rw [hactor]; rfl))
      exact (h.reserved (by rw [hactor]; rfl)).keep rfl (by rw [hactor]; rfl) rfl
        fun hnone => .inl hnone
    · cases hstep
      exact h.goto hactor trivial (fun _ => ⟨rfl, rfl⟩) rfl
  | polling =>
    rw [hactor] at hstep
    dsimp only at hstep
    split at hstep
    · cases hstep
      exact h.goto hactor trivial (fun _ => ⟨rfl, rfl⟩) rfl
    · cases hstep
      exact h.segment_any (fun _ _ => h.goto hactor trivial (fun _ => ⟨rfl, rfl⟩) rfl)
        fun _ _ => h.goto hactor trivial (fun _ => ⟨rfl, rfl⟩) rfl
  | dispatched c =>
    rw [hactor] at hstep hinv
    cases c with
    | claim =>
      cases hstep
      exact h.goto hactor hinv (fun _ => ⟨rfl, rfl⟩) rfl
    | close =>
      cases hstep
      exact h.goto hactor trivial (fun hends => by cases hends) rfl
    | release lease =>
      dsimp only at hstep
      split at hstep
      · rename_i hcurrent
        cases hstep
        exact inv_dispatched h hactor (.inl rfl) hcurrent
      · cases hstep
        exact h.goto hactor trivial (fun _ => ⟨rfl, rfl⟩) rfl
    | abort lease =>
      dsimp only at hstep
      split at hstep
      · rename_i hcurrent
        cases hstep
        exact inv_dispatched h hactor (.inr rfl) hcurrent
      · cases hstep
        exact h.goto hactor trivial (fun _ => ⟨rfl, rfl⟩) rfl
  | running c =>
    rw [hactor] at hstep
    cases hstep
    exact inv_run_command h o hactor
  | adopting c bound_here =>
    rw [hactor] at hstep hinv
    cases c with
    | claim liveness tier_config address =>
      cases hstep
      refine h.segment ?_
      refine wp_conseq (Segment.adopt_idle sys.own ⟨fun _ _ _ => True, fun _ => True⟩ []
        (fun _ _ _ => trivial) fun _ => trivial) ?_ (fun _ _ => trivial) ?_
      · exact fun _ _ _ _ => h.goto hactor hinv (fun _ => ⟨rfl, rfl⟩) rfl
      · exact fun _ _ _ hidle => h.goto hactor ⟨hinv, hidle⟩ (fun _ => ⟨rfl, rfl⟩) rfl
    | release | abort | close => cases hstep
  | adopted c liveness bound_here =>
    rw [hactor] at hstep hinv
    dsimp only at hstep
    split at hstep
    · cases hstep
      exact h.goto hactor hinv.1 (fun _ => ⟨rfl, rfl⟩) rfl
    · rename_i hopen
      cases hstep
      rw [not_or] at hopen
      exact inv_adopted h hactor (Bool.eq_false_iff.mpr hopen.1) (Bool.eq_false_iff.mpr hopen.2)
  | committing c liveness =>
    rw [hactor] at hstep
    cases hstep
    exact inv_committed h hactor
  | refused c bound_here =>
    rw [hactor] at hstep hinv
    cases hstep
    exact h.segment_any (fun _ _ => h.goto hactor hinv (fun _ => ⟨rfl, rfl⟩) rfl)
      fun _ _ => h.goto hactor hinv (fun _ => ⟨rfl, rfl⟩) rfl
  | refused_idle c bound_here =>
    rw [hactor] at hstep hinv
    cases hstep
    exact inv_phase h hactor hinv hinv (fun _ => ⟨rfl, rfl⟩) rfl
  | claim_failed c bound_here error =>
    rw [hactor] at hstep
    cases hstep
    exact h.goto hactor trivial (fun _ => ⟨rfl, rfl⟩) rfl
  | promote origin lease =>
    rw [hactor] at hstep hinv
    dsimp only at hstep
    split at hstep
    · cases hstep
      exact h.goto hactor hinv.1 (fun _ => ⟨rfl, rfl⟩) rfl
    · cases hstep
      exact h.segment_any (fun _ _ => h.goto hactor hinv.1 (fun _ => ⟨rfl, rfl⟩) rfl)
        fun _ _ => h.goto hactor hinv.1 (fun _ => ⟨rfl, rfl⟩) rfl
  | promoted origin lease error =>
    rw [hactor] at hstep hinv
    cases error with
    | none =>
      cases hstep
      exact inv_cleared h hactor hinv rfl (fun _ => ⟨rfl, rfl⟩) rfl
    | some e =>
      cases hstep
      exact inv_cleared h hactor hinv trivial (fun _ => ⟨rfl, rfl⟩) rfl
  | standby origin =>
    rw [hactor] at hstep hinv
    cases hstep
    exact inv_phase h hactor hinv trivial (fun _ => ⟨rfl, rfl⟩) rfl
  | stand_down c lease =>
    rw [hactor] at hstep hinv
    cases hstep
    exact h.segment_any (fun _ _ => h.goto hactor hinv (fun _ => ⟨rfl, rfl⟩) rfl)
      fun _ _ => h.goto hactor hinv (fun _ => ⟨rfl, rfl⟩) rfl
  | stood_down c lease error =>
    rw [hactor] at hstep hinv
    cases error with
    | none =>
      cases hstep
      exact inv_cleared h hactor hinv rfl (fun _ => ⟨rfl, rfl⟩) rfl
    | some e =>
      cases hstep
      exact inv_cleared h hactor hinv trivial (fun _ => ⟨rfl, rfl⟩) rfl
  | idle c =>
    rw [hactor] at hstep hinv
    cases hstep
    exact inv_phase h hactor hinv trivial (fun _ => ⟨rfl, rfl⟩) rfl
  | closed c =>
    rw [hactor] at hstep hinv
    cases hstep
    exact inv_phase h hactor hinv trivial (fun hends => ⟨hends, rfl⟩) rfl
  | fail e next =>
    rw [hactor] at hstep
    cases hstep
    exact inv_fail h hactor
  | finish origin error =>
    rw [hactor] at hstep
    cases hstep
    exact inv_finish h hactor
  | stopping =>
    rw [hactor] at hstep
    cases hstep
    exact inv_stopped h hactor
  | stopped =>
    rw [hactor] at hstep
    cases hstep

end Actor

/-! ## Runs -/

section Runs

variable {setting : Setting} {sys sys' : System}

theorem inv_step (h : Inv sys) (hstep : System.Step setting sys sys') : Inv sys' := by
  cases hstep with
  | claim liveness tier_config bind alive hlock hok => exact inv_claim h hok
  | release lease hlock hok => exact inv_end_lease h rfl hok
  | abort_grant lease hlock hok => exact inv_end_lease h rfl hok
  | begin_close o hlock => exact inv_begin_close h o hlock
  | put index => exact inv_put h index
  | refuse_claims =>
    exact
      { h with
        reserved := fun hends => ⟨(h.reserved hends).claims, (h.reserved hends).owned⟩
        refused := fun _ => rfl }
  | refused hlock hset => exact inv_refused h hlock hset
  | prepared => exact h.own rfl
  | orphan_prepared index => exact h.own rfl
  | memory journal region => exact h.own rfl
  | act o poll hact => exact inv_act h hact

/-- The invariant holds in every state of every run. -/
theorem inv_reachable (h : System.Reachable setting sys) : Inv sys := by
  induction h with
  | started region => exact inv_started region
  | step _ hstep ih => exact inv_step ih hstep

/-! ## What a transition can change -/

/-- Where the holder, the serving core and the dead incarnations may change. -/
structure Effect (sys sys' : System) : Prop where
  current : sys'.shared.current = sys.shared.current ∨ sys'.shared.current = none ∨
    ∃ c liveness, sys.actor = .committing c liveness ∧ sys'.own = sys.own
  serving : sys.own.serving = false → sys'.own.serving = true →
    ∃ origin lease, sys.actor = .promote origin lease
  dead : sys'.shared.dead_incarnations = sys.shared.dead_incarnations ∨
    ∃ lease incarnation, sys.actor = .promoting lease true ∧ lease.incarnation = some incarnation ∧
      sys'.shared.dead_incarnations = sys.shared.dead_incarnations.insert incarnation

/-- Nothing of the kind changes. -/
theorem Effect.quiet (hcurrent : sys'.shared.current = sys.shared.current ∨
      sys'.shared.current = none) (hserving : sys'.own.serving = sys.own.serving)
    (hdead : sys'.shared.dead_incarnations = sys.shared.dead_incarnations) : Effect sys sys' where
  current := hcurrent.imp_right .inl
  serving := fun hidle hserves => by
    rw [hserving, hidle] at hserves
    cases hserves
  dead := .inl hdead

/-- A segment that keeps an idle Guard idle. -/
theorem Effect.segment {α : Type} {p : Segment α} {ok : α → Actor} {error : GuardError → Actor}
    (hp : Keeps Segment.idle Segment.Idle p) : Effect sys (sys.segment p ok error) := by
  have hshared : (sys.segment p ok error).shared = sys.shared := by
    unfold System.segment
    split <;> rfl
  refine ⟨.inl (by rw [hshared]), fun hidle hserves => ?_, .inl (by rw [hshared])⟩
  have hwp := hp sys.own [] hidle
  unfold wp at hwp
  unfold System.segment at hserves
  split at hserves
  · rename_i hrun
    rw [hrun] at hwp
    exact absurd (hwp.symm.trans hserves) (by decide)
  · rename_i hrun
    rw [hrun] at hwp
    exact absurd (hwp.symm.trans hserves) (by decide)
  · exact absurd (hidle.symm.trans hserves) (by decide)

theorem end_lease_effect {lease : Lease} {c : Command}
    (hstep : sys.end_lease setting lease c = .ok sys') : Effect sys sys' := by
  unfold System.end_lease at hstep
  split at hstep
  · cases hstep
    exact .quiet (.inl rfl) rfl rfl
  split at hstep
  · cases hstep
    exact .quiet (.inl rfl) rfl rfl
  · cases hstep
    exact .quiet (.inl rfl) rfl rfl
  · cases hstep

theorem claim_effect {liveness : Lease} {tier_config : TierConfig} {bind : Address} {alive : Bool}
    (hstep : sys.claim setting liveness tier_config bind alive = .ok sys') : Effect sys sys' := by
  unfold System.claim System.reserve_claim at hstep
  split at hstep
  · cases hstep
  split at hstep
  · cases hstep
  split at hstep
  · cases hstep
  split at hstep
  · split at hstep <;> cases hstep
  split at hstep
  · cases hstep
  cases hstep
  exact .quiet (.inl rfl) rfl rfl

theorem begin_close_effect (o : Oracle) : Effect sys (sys.begin_close o) := by
  unfold System.begin_close System.close_resources
  split
  · dsimp only
    split
    · exact .quiet (.inl rfl) rfl rfl
    · cases o.raises .close_core with
      | some e => exact .quiet (.inl rfl) rfl rfl
      | none =>
        dsimp only
        cases ({ sys.own with orphans := [] }.close_rest o).1 with
        | none => exact .quiet (.inr rfl) rfl rfl
        | some e => exact .quiet (.inr rfl) rfl rfl
  · split
    · exact .quiet (.inl rfl) rfl rfl
    · exact .quiet (.inl rfl) rfl rfl

theorem run_command_effect (o : Oracle) (c : Command) :
    Effect sys (sys.run_command setting o c) := by
  cases c with
  | claim => exact .segment (Segment.idle_prepare_claim _ _ _)
  | release => exact .quiet (.inl rfl) rfl rfl
  | abort =>
    dsimp only [System.run_command]
    split
    · exact .quiet (.inl rfl) rfl rfl
    · exact .quiet (.inl rfl) rfl rfl
  | close =>
    unfold System.run_command System.close_resources
    cases o.raises .close_core with
    | some e => exact .quiet (.inl rfl) rfl rfl
    | none =>
      dsimp only
      cases ({ sys.own with orphans := [] }.close_rest o).1 with
      | none => exact .quiet (.inr rfl) rfl rfl
      | some e => exact .quiet (.inr rfl) rfl rfl

/-- Where the actor changes the holder, the serving core and the dead incarnations. -/
theorem act_effect {o : Oracle} {poll : Poll} (hstep : sys.act setting o poll = some sys') :
    Effect sys sys' := by
  unfold System.act at hstep
  cases hactor : sys.actor with
  | committing c liveness =>
    rw [hactor] at hstep
    cases hstep
    refine ⟨.inr (.inr ⟨c, liveness, hactor, rfl⟩), fun hidle hserves => ?_, .inl rfl⟩
    exact absurd (hidle.symm.trans hserves) (by decide)
  | promote origin lease =>
    rw [hactor] at hstep
    have hshared : sys'.shared = sys.shared := by
      dsimp only at hstep
      split at hstep
      · cases hstep
        rfl
      · cases hstep
        unfold System.segment
        split <;> rfl
    exact ⟨.inl (by rw [hshared]), fun _ _ => ⟨origin, lease, hactor⟩, .inl (by rw [hshared])⟩
  | promoting lease pollin =>
    rw [hactor] at hstep
    dsimp only at hstep
    split at hstep
    · rename_i hpollin
      cases hstep
      refine ⟨.inl rfl, fun hidle hserves => absurd (hidle.symm.trans hserves) (by decide), ?_⟩
      cases hincarnation : lease.incarnation with
      | none => exact .inl rfl
      | some incarnation => exact .inr ⟨lease, incarnation, hpollin ▸ hactor, hincarnation, rfl⟩
    · cases hstep
      exact .quiet (.inl rfl) rfl rfl
  | polling =>
    rw [hactor] at hstep
    dsimp only at hstep
    split at hstep
    · cases hstep
      exact .quiet (.inl rfl) rfl rfl
    · cases hstep
      exact .segment Segment.idle_poll
  | running c =>
    rw [hactor] at hstep
    cases hstep
    exact run_command_effect o c
  | adopting c bound_here =>
    rw [hactor] at hstep
    cases c with
    | claim liveness tier_config address =>
      cases hstep
      exact .segment Segment.idle_adopt
    | release | abort | close => cases hstep
  | refused | stand_down =>
    rw [hactor] at hstep
    cases hstep
    exact .segment (Segment.idle_release _)
  | promoted origin lease error | stood_down origin lease error =>
    -- a holder that is no longer this one is left alone
    have hclear : Effect sys (sys.clear_if_current lease) := by
      unfold System.clear_if_current
      split
      · exact .quiet (.inr rfl) rfl rfl
      · exact .quiet (.inl rfl) rfl rfl
    rw [hactor] at hstep
    cases error with
    | none =>
      cases hstep
      exact ⟨hclear.current, hclear.serving, hclear.dead⟩
    | some e =>
      cases hstep
      exact ⟨hclear.current, hclear.serving, hclear.dead⟩
  | observing lease =>
    rw [hactor] at hstep
    cases lease with
    | none =>
      cases hstep
      exact .quiet (.inl rfl) rfl rfl
    | some lease =>
      cases poll with
      | raised | silent | events =>
        cases hstep
        exact .quiet (.inl rfl) rfl rfl
  | dispatched c =>
    rw [hactor] at hstep
    cases c with
    | claim | close =>
      cases hstep
      exact .quiet (.inl rfl) rfl rfl
    | release lease | abort lease =>
      dsimp only at hstep
      split at hstep
      · cases hstep
        exact .quiet (.inl rfl) rfl rfl
      · cases hstep
        exact .quiet (.inl rfl) rfl rfl
  | loop | polled | adopted =>
    rw [hactor] at hstep
    dsimp only at hstep
    repeat' split at hstep
    all_goals
      cases hstep
      exact .quiet (.inl rfl) rfl rfl
  | finish origin error =>
    rw [hactor] at hstep
    cases hstep
    unfold System.finish
    dsimp only
    split <;> exact .quiet (.inl rfl) rfl rfl
  | refused_idle | claim_failed | standby | idle | closed | fail | stopping =>
    rw [hactor] at hstep
    cases hstep
    exact .quiet (.inl rfl) rfl rfl
  | stopped =>
    rw [hactor] at hstep
    cases hstep

theorem step_effect (hstep : System.Step setting sys sys') : Effect sys sys' := by
  cases hstep with
  | claim liveness tier_config bind alive hlock hok => exact claim_effect hok
  | release lease hlock hok | abort_grant lease hlock hok => exact end_lease_effect hok
  | begin_close o hlock => exact begin_close_effect o
  | put index =>
    unfold System.put
    split
    · exact .quiet (.inl rfl) rfl rfl
    · exact .quiet (.inl rfl) rfl rfl
  | refuse_claims | refused | prepared | orphan_prepared | memory =>
    exact .quiet (.inl rfl) rfl rfl
  | act o poll hact => exact act_effect hact

/-! ## Exclusive ownership -/

/-- A lease that is not current is ended without effect, both when it is asked for and when
the command is dispatched. -/
theorem stale_end (setting : Setting) {lease : Lease} (hstale : sys.shared.current ≠ some lease) :
    sys.release setting lease = .ok sys ∧ sys.abort_grant setting lease = .ok sys ∧
      ∀ o poll, sys.actor = .dispatched (.release lease) ∨ sys.actor = .dispatched (.abort lease) →
        sys.act setting o poll = some { sys with actor := .loop } := by
  refine ⟨if_pos (.inr hstale), if_pos (.inr hstale), fun o poll hactor => ?_⟩
  unfold System.act
  rcases hactor with hactor | hactor
  · rw [hactor]
    exact if_neg hstale
  · rw [hactor]
    exact if_neg hstale

/-- **Exclusive ownership.** In every run, every transition that makes a lease current finds
none current, the Guard not serving, no close begun and no `refuse_claims` returned; one
that makes the Guard serve finds a holder whose pidfd reported or who aborted; an
incarnation dies only after the pidfd of a lease of it reported; and ending a lease that is
not current changes nothing. -/
theorem exclusive_ownership (h : System.Reachable setting sys)
    (hstep : System.Step setting sys sys') :
    (∀ lease, sys'.shared.current = some lease → sys.shared.current ≠ some lease →
      sys.shared.current = none ∧ sys.own.serving = false ∧ sys'.own.serving = false ∧
        sys.shared.closing = false ∧ sys.refused = false) ∧
    (sys.own.serving = false → sys'.own.serving = true →
      ∃ lease, sys.shared.current = some lease ∧ (lease ∈ sys.reported ∨ lease ∈ sys.aborted)) ∧
    (∀ incarnation, incarnation ∈ sys'.shared.dead_incarnations →
      incarnation ∉ sys.shared.dead_incarnations →
      ∃ lease ∈ sys.reported, lease.incarnation = some incarnation) ∧
    (∀ lease, sys.shared.current ≠ some lease →
      sys.release setting lease = .ok sys ∧ sys.abort_grant setting lease = .ok sys ∧
        ∀ o poll,
          sys.actor = .dispatched (.release lease) ∨ sys.actor = .dispatched (.abort lease) →
          sys.act setting o poll = some { sys with actor := .loop }) := by
  have hinv := inv_reachable h
  have heffect := step_effect hstep
  refine ⟨fun lease hnew hold => ?_, fun hidle hserves => ?_, fun incarnation hin hout => ?_,
    fun lease hstale => stale_end setting hstale⟩
  · rcases heffect.current with hsame | hnone | ⟨c, liveness, hactor, hown⟩
    · exact absurd (hsame.symm.trans hnew) hold
    · rw [hnew] at hnone
      cases hnone
    · have hcommitting := hinv.actor
      rw [hactor] at hcommitting
      obtain ⟨hcurrent, hserving, hclosing, hrefused⟩ := hcommitting
      exact ⟨hcurrent, hserving, by rw [hown]; exact hserving, hclosing, hrefused⟩
  · obtain ⟨origin, lease, hactor⟩ := heffect.serving hidle hserves
    have hpromote := hinv.actor
    rw [hactor] at hpromote
    exact ⟨lease, hpromote⟩
  · rcases heffect.dead with hsame | ⟨lease, inc, hactor, hinc, hinsert⟩
    · rw [hsame] at hin
      exact absurd hin hout
    · have hpromoting := hinv.actor
      rw [hactor] at hpromoting
      rw [hinsert] at hin
      rcases (OrderedSet.mem_insert ..).mp hin with rfl | hin
      · exact ⟨lease, hpromoting.2 rfl, hinc⟩
      · exact absurd hin hout

/-- Running a segment by the rules. -/
theorem segment_eq {α : Type} {p : Segment α} {ok : α → Actor} {error : GuardError → Actor}
    (h : wp ⟨fun _ _ _ => False, fun _ => False⟩ p
      (fun a own _ => { sys with own := own, actor := ok a } = sys') sys.own []) :
    sys.segment p ok error = sys' := by
  unfold wp at h
  unfold System.segment
  split
  · rename_i hrun
    rw [hrun] at h
    exact h
  · rename_i hrun
    rw [hrun] at h
    exact h.elim
  · rename_i hrun
    rw [hrun] at h
    exact h.elim

/-- The first claim of a pool group: the run up to its commit. -/
theorem first_claim_committing :
    ∃ (setting : Setting) (tier_config : TierConfig) (address : Address) (own : Owned),
      own.serving = false ∧
      System.Reachable setting
        { shared.reserved := some .CLAIMING
          own := own
          actor := .committing (.claim ⟨0, none⟩ tier_config address) ⟨0, none⟩
          locked := true } := by
  obtain ⟨msgpack, -⟩ := exists_msgpack {} []
  let setting : Setting := ⟨msgpack, .zero, .plain, fun _ => [], 0, 0, [16]⟩
  let tier_config : TierConfig := ⟨[("full", 16)], none, ""⟩
  let claim : Command := .claim ⟨0, none⟩ tier_config ("", 0)
  let configured : RecoveryState :=
    { pools := [⟨"full", 16, 16, 0⟩], mirror := some { pool_names := ["full"] } }
  have hconfigure : RecoveryState.configure setting {} tier_config.pool_layouts =
      (.ok (), configured) := by
    have hfits : (RecoveryState.descriptors [16] [("full", 16)] 0).findSome?
        PoolDescriptor.refusal = none := rfl
    unfold RecoveryState.configure
    rw [if_neg (by simp [setting, tier_config])]
    dsimp only [setting, tier_config]
    rw [hfits]
    rfl
  have h0 : System.Reachable setting (System.started []) := .started []
  have h1 := h0.step (.claim ⟨0, none⟩ tier_config ("", 0) true rfl rfl)
  have h2 := h1.step (.put 0)
  have h3 := h2.step (.act {} .silent rfl)
  have h4 : System.Reachable setting
      { shared.reserved := some .CLAIMING, actor := .running claim } :=
    h3.step (.act {} .silent rfl)
  have h5 : System.Reachable setting
      { shared.reserved := some .CLAIMING
        own.configured := some tier_config
        own.listener := some ("", 0)
        own.recovery := configured
        actor := .adopting claim true } := by
    refine h4.step (.act {} .silent (congrArg some ?_))
    refine segment_eq ?_
    simp only [System.prepare_claim, Segment.bind, Segment.call, Segment.check_claim,
      Segment.recover, wp_bind, wp_read, wp_change, wp_pure, wp_handle]
    rw [wp_ite]
    refine ⟨fun hother => absurd hother.1 (by simp), fun _ => ?_⟩
    simp only [wp_bind, wp_read, hconfigure, wp_change, wp_pure]
    rfl
  have h6 := h5.step (.act {} .silent rfl)
  have h7 := h6.step (.act {} .silent rfl)
  exact ⟨setting, tier_config, ("", 0), _, rfl, h7⟩

theorem exclusive_ownership_first_claim :
    ∃ (setting : Setting) (sys sys' : System),
      System.Reachable setting sys ∧ System.Step setting sys sys' ∧
        sys'.shared.current = some ⟨0, none⟩ ∧ sys.shared.current = none ∧
        sys.own.serving = false ∧ sys'.own.serving = false ∧ sys.shared.closing = false ∧
        sys.refused = false := by
  obtain ⟨setting, tier_config, address, own, -, hreach⟩ := first_claim_committing
  have hcommit := exclusive_ownership hreach (.act {} .silent rfl)
  exact ⟨setting, _, _, hreach, .act {} .silent rfl, rfl,
    hcommit.1 ⟨0, none⟩ rfl (by rintro ⟨⟩)⟩

end Runs

end Kvcr.Guard
