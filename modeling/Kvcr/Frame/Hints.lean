/-
The frames of a run.

Two frames say what the hints of requests go through. Most functions are steady: the hints
stay, operations are only added, and the one place that adds a pull reads the hint first.
Three things of a run are not: a hint that is submitted, a hint that is discarded, and a pull
that ended, which may fail its request's hint or add to the keys it misses. The last is within
the weaker frame in which a hint stays, keeps its source, and once failed stays failed.

A third frame is about nothing. It carries the ground through whole runs: from a start to any
later state, the memory that is named anywhere is memory of the core's own pools.
-/
import Kvcr.Frame.Core

set_option autoImplicit false

namespace Kvcr

open Prog

/-! ## Steady functions -/

/-- Operations were submitted from `s` to `s'`, the pulls among them on hints of `s`. -/
def Submitted (s s' : Core) : Prop :=
  ∃ new, s'.progress.in_flight = s.progress.in_flight ++ new ∧
    ∀ op, .target_pull op ∈ new → Hinted s op

theorem Submitted.refl {s s' : Core} (h : s'.progress.in_flight = s.progress.in_flight) :
    Submitted s s' :=
  ⟨[], by rw [h, List.append_nil], by simp⟩

theorem Submitted.trans {s s' s'' : Core} (h : Submitted s s') (h' : Submitted s' s'')
    (hinted : ∀ op, Hinted s' op → Hinted s op) : Submitted s s'' := by
  obtain ⟨new, hnew, hold⟩ := h
  obtain ⟨new', hnew', hlater⟩ := h'
  refine ⟨new ++ new', by rw [hnew', hnew, List.append_assoc], fun op hmem => ?_⟩
  rcases List.mem_append.mp hmem with hmem | hmem
  · exact hold op hmem
  · exact hinted op (hlater op hmem)

theorem Submitted.submit {s : Core} {op : ProgressOp}
    (h : ∀ pull, op = .target_pull pull → Hinted s pull) :
    Submitted s { s with progress.in_flight := s.progress.in_flight ++ [op] } :=
  ⟨[op], rfl, fun pull hmem => h pull (List.mem_singleton.mp hmem).symm⟩

/-- From `s` to `s'` the hints stayed, and operations were submitted. -/
structure Unmoved (s s' : Core) : Prop where
  hints : s'.remote.request_hints = s.remote.request_hints
  submitted : Submitted s s'

theorem Unmoved.of_eq {s s' : Core} (hints : s'.remote.request_hints = s.remote.request_hints)
    (in_flight : s'.progress.in_flight = s.progress.in_flight) : Unmoved s s' :=
  ⟨hints, .refl in_flight⟩

/-- The frame of the functions that leave the hints alone. -/
def steady (cfg : Config) : Frame cfg where
  P _ _ := True
  Q := Unmoved
  refl _ := .of_eq rfl rfl
  trans h h' := ⟨h'.hints.trans h.hints, h.submitted.trans h'.submitted fun op hop => by
    -- the later pull read its hint in a state that has the hints of the first
    unfold Hinted at hop ⊢
    rw [h.hints] at hop
    exact hop⟩
  still _ hsame := .of_eq (congrArg Watched.hints hsame) (congrArg Watched.in_flight hsame)
  new_record _ _ := .of_eq rfl rfl
  prune _ _ _ _ _ _ := .of_eq rfl rfl
  copy _ _ := ⟨rfl, .submit fun _ h => (by cases h)⟩
  pull _ hop := ⟨rfl, .submit fun _ h => (by cases h; exact hop)⟩
  handle _ := .of_eq rfl rfl

instance open_disk_steady {cfg : Config} : (steady cfg).OpenDisk where
  disk _ hsame := .of_eq (congrArg Watched.hints hsame) (congrArg Watched.in_flight hsame)
  transfer _ := ⟨rfl, .submit fun _ h => (by cases h)⟩

instance open_pins_steady {cfg : Config} : (steady cfg).OpenPins where
  pins _ hsame := .of_eq (congrArg Watched.hints hsame) (congrArg Watched.in_flight hsame)
  write _ := ⟨rfl, .submit fun _ h => (by cases h)⟩

/-- A steady program came from `s₀` to `s`, where nothing is out of place. -/
structure Follows (cfg : Config) (s₀ s : Core) : Prop extends Unmoved s₀ s where
  good : (steady cfg).G s

theorem Follows.refl {cfg : Config} {s : Core} (hs : (steady cfg).G s) : Follows cfg s s :=
  ⟨(steady cfg).refl s, hs⟩

/-- A hint that stays: with its source, and failed once it failed. -/
inductive Lasts : Option RequestHint → Option RequestHint → Prop where
  | none : Lasts none none
  | some {hint hint' : RequestHint} (source : hint'.source = hint.source)
      (failed : hint.failed = true → hint'.failed = true) : Lasts (some hint) (some hint')

theorem Lasts.refl {hint : Option RequestHint} : Lasts hint hint := by
  cases hint with
  | none => exact .none
  | some hint => exact .some rfl id

theorem Lasts.trans {h h' h'' : Option RequestHint} (hl : Lasts h h') (hl' : Lasts h' h'') :
    Lasts h h'' := by
  cases hl with
  | none => exact hl'
  | some source failed =>
    cases hl' with
    | some source' failed' => exact .some (source'.trans source) fun hf => failed' (failed hf)

/-- A hint that stands now has stood all along. -/
theorem Hinted.earlier {s s' : Core} {op : TargetPullOp}
    (h : ∀ request_id, Lasts (s.remote.request_hints.get? request_id)
      (s'.remote.request_hints.get? request_id)) (hop : Hinted s' op) : Hinted s op := by
  obtain ⟨request_id, hint', hrid, hget, hfailed, hsource⟩ := hop
  have hlasts := h request_id
  rw [hget] at hlasts
  generalize hold : s.remote.request_hints.get? request_id = old at hlasts
  cases hlasts with
  | @some hint _ source failed =>
    refine ⟨request_id, hint, hrid, hold, Bool.eq_false_iff.mpr fun hf => ?_, ?_⟩
    · rw [failed hf] at hfailed
      cases hfailed
    · rw [← source]
      exact hsource

/-- From `s` to `s'` every hint stayed, and operations were submitted. -/
structure Stays (s s' : Core) : Prop where
  hints : ∀ request_id, Lasts (s.remote.request_hints.get? request_id)
    (s'.remote.request_hints.get? request_id)
  submitted : Submitted s s'

theorem Unmoved.stays {s s' : Core} (h : Unmoved s s') : Stays s s' :=
  ⟨fun request_id => by rw [h.hints]; exact .refl, h.submitted⟩

/-- The frame of the calls that report finished pulls. -/
def within (cfg : Config) : Frame cfg where
  P _ _ := True
  Q := Stays
  refl s := Unmoved.stays ((steady cfg).refl s)
  trans h h' := ⟨fun request_id => (h.hints request_id).trans (h'.hints request_id),
    h.submitted.trans h'.submitted fun _ hop => hop.earlier h.hints⟩
  still hs hsame := ((steady cfg).still hs hsame).stays
  new_record hs hnone := ((steady cfg).new_record hs hnone).stays
  prune hs hrecord hpinned hpools hdisk hidle :=
    ((steady cfg).prune hs hrecord hpinned hpools hdisk hidle).stays
  copy hs hcopy := ((steady cfg).copy hs hcopy).stays
  pull hs hop := ((steady cfg).pull hs hop).stays
  handle hs := ((steady cfg).handle hs).stays

instance open_disk_within {cfg : Config} : (within cfg).OpenDisk where
  disk hs hsame := (Frame.OpenDisk.disk (F := steady cfg) hs hsame).stays
  transfer hs := (Frame.OpenDisk.transfer (F := steady cfg) hs).stays

instance open_pins_within {cfg : Config} : (within cfg).OpenPins where
  pins hs hsame := (Frame.OpenPins.pins (F := steady cfg) hs hsame).stays
  write hs := (Frame.OpenPins.write (F := steady cfg) hs).stays

instance open_pulls_within {cfg : Config} : (within cfg).OpenPulls where
  hint {s request_id hint hint'} _ hget hsource hfailed := by
    refine ⟨fun other => ?_, .refl rfl⟩
    by_cases heq : other = request_id
    · rw [heq, hget, Dict.get?_set_self]
      exact .some hsource hfailed
    · rw [Dict.get?_set_ne _ _ heq]
      exact .refl

/-! ## The frame about nothing -/

/-- The frame that only carries the ground. -/
def ground (cfg : Config) (P : String → Nat → Prop) : Frame cfg where
  P := P
  Q _ _ := True
  refl _ := trivial
  trans _ _ := trivial
  still _ _ := trivial
  new_record _ _ := trivial
  prune _ _ _ _ _ _ := trivial
  copy _ _ := trivial
  pull _ _ := trivial
  handle _ := trivial

section Ground

variable {cfg : Config} {P : String → Nat → Prop}

instance open_disk_ground : (ground cfg P).OpenDisk := ⟨fun _ _ => trivial, fun _ => trivial⟩

instance open_pins_ground : (ground cfg P).OpenPins := ⟨fun _ _ => trivial, fun _ => trivial⟩

instance open_pulls_ground : (ground cfg P).OpenPulls := ⟨fun _ _ _ _ => trivial⟩

end Ground

/-! ## Adoption -/

section Adopt

variable {K : Knot} {F : Frame K.cfg}

/-- A recovered record brings slots its pools have. -/
theorem install_record_moves {cfg : Config} {F : Frame cfg}
    (hquiet : ∀ {s s' : Core}, s'.remote.request_hints = s.remote.request_hints →
      s'.progress.in_flight = s.progress.in_flight → F.Q s s')
    (hp : cfg.local_dram.isSome) {key : BlockKey} {block : RecoveryBlock}
    (hslots : ∀ slots, block.g2 = some slots → ∀ p ∈ slots, F.P p.1.pool p.2)
    (hdisk : cfg.g3 = none → block.g3 = none) : Moves F.R (install_record key block) := by
  refine .change fun s hs => ⟨⟨hs.fit.update rfl rfl (fun hnone => ?_) fun hnone => ?_, hs.free, ?_,
    hs.copies⟩, hquiet rfl rfl⟩
  · rw [hnone] at hp
    cases hp
  · dsimp only
    rw [hdisk hnone]
    rfl
  · unfold installed
    dsimp only
    cases hg2 : block.g2 with
    | none => exact hs.residencies
    | some slots =>
      refine (hs.residency (r := s.next_res) ⟨hslots slots hg2,
        fun _ h => (by cases h), .inl ?_⟩).residencies
      rfl

theorem install_records_moves {table : Dict BlockKey RecoveryBlock}
    (hquiet : ∀ {s s' : Core}, s'.remote.request_hints = s.remote.request_hints →
      s'.progress.in_flight = s.progress.in_flight → F.Q s s')
    (hp : ¬ K.cfg.local_dram.isNone)
    (hdisk : ¬ (K.cfg.g3.isNone ∧ table.values.any fun block => block.g3.isSome))
    (hslots : ∀ block ∈ table.values, ∀ slots, block.g2 = some slots →
      ∀ p ∈ slots, F.P p.1.pool p.2) :
    Moves F.R (forEach table.entries fun p => install_record p.1 p.2) := by
  have hp : K.cfg.local_dram.isSome := Option.isSome_iff_ne_none.mpr (by simpa using hp)
  refine .forEach_mem fun entry hentry => install_record_moves hquiet hp
    (hslots entry.2 (List.mem_map_of_mem hentry)) fun hnone => ?_
  cases hg3 : entry.2.g3 with
  | none => rfl
  | some g =>
    refine absurd ⟨by rw [hnone]; rfl, ?_⟩ hdisk
    refine List.any_eq_true.mpr ⟨entry.2, List.mem_map_of_mem hentry, ?_⟩
    rw [hg3]
    rfl

theorem adopt_recovery_slots_moves {records : List (BlockKey × RecId)}
    (hfree : ∀ occupied pool, ∀ slot ∈ ((free_slots_without K.cfg occupied).get? pool).getD [],
      F.P pool slot) : Moves F.R (adopt_recovery_slots K records) := by
  refine .bind (.foldEach fun occupied entry => .bind .read fun s => ?_) fun occupied =>
    .change fun _ => F.slots fun _ => hfree occupied
  split
  · exact .pure
  · refine .bind lift_except_moves fun _ => .bind (modify_residency_moves fun x hx => ?_) fun _ =>
      .bind act_moves fun _ => .bind publish_source_moves fun _ => .pure
    refine .with_label_index ⟨hx.slots, fun _ h => (by cases h), hx.index⟩

theorem rank_recovered_moves {records : List (BlockKey × RecId)} :
    Moves F.R (rank_recovered K records) :=
  .forEach fun _ => .bind .read fun _ => .ite make_evictable_moves .pure

variable [F.OpenDisk]

theorem g3_adopt_recovery_slots_moves {records : List (BlockKey × RecId)} :
    Moves F.R (g3_adopt_recovery_slots K records) := by
  refine .bind (.foldEach fun occupied entry => .bind .read fun s => ?_) fun occupied =>
    .change fun _ => F.on_disk rfl rfl
  split
  · exact .pure
  · exact lift_except_moves

theorem g3_rank_recovered_moves {records : List (BlockKey × RecId)} :
    Moves F.R (g3_rank_recovered K records) :=
  .forEach fun _ => .bind .read fun _ => .ite g3_make_evictable_moves .pure

/-- A recovered table is refused if it needs a tier the core does not have. -/
theorem adopt_recovery_records_moves {table : Dict BlockKey RecoveryBlock}
    (hquiet : ∀ {s s' : Core}, s'.remote.request_hints = s.remote.request_hints →
      s'.progress.in_flight = s.progress.in_flight → F.Q s s')
    (hslots : ∀ block ∈ table.values, ∀ slots, block.g2 = some slots →
      ∀ p ∈ slots, F.P p.1.pool p.2)
    (hfree : ∀ occupied pool, ∀ slot ∈ ((free_slots_without K.cfg occupied).get? pool).getD [],
      F.P pool slot) : Moves F.R (adopt_recovery_records K table) := by
  refine .bind .read fun s => .ite .pure (.cases (fun _ => .raise) fun hp =>
    .cases (fun _ => .raise) fun hdisk => .ite .raise ?_)
  refine .bind (install_records_moves hquiet hp hdisk hslots) fun _ =>
    .bind .read fun s => .bind (adopt_recovery_slots_moves hfree) fun _ =>
      .if_then g3_adopt_recovery_slots_moves ?_
  refine .bind (.forEach fun _ => .bind .read fun _ => .ite .raise act_moves) fun _ =>
    .bind rank_recovered_moves fun _ => ?_
  exact .ite g3_rank_recovered_moves .pure

end Adopt

/-! ## Events -/

/-- The pull an operation is. -/
def ProgressOp.pull : ProgressOp → Option TargetPullOp
  | .target_pull op => some op
  | _ => none

/-- The pulls in flight in `s'` that were not yet in `s`. The progress thread replaces or
removes what is in flight, so only a submission makes the list longer. -/
def started (s s' : Core) : List TargetPullOp :=
  (s'.progress.in_flight.drop s.progress.in_flight.length).filterMap ProgressOp.pull

theorem Submitted.started {s s' : Core} (h : Submitted s s') {op : TargetPullOp}
    (hop : op ∈ started s s') : Hinted s op := by
  obtain ⟨new, hnew, hhinted⟩ := h
  unfold Kvcr.started at hop
  rw [hnew, List.drop_left] at hop
  obtain ⟨x, hx, hpull⟩ := List.mem_filterMap.mp hop
  cases x with
  | target_pull pull =>
    cases hpull
    exact hhinted op hx
  | local_copy copy => cases hpull
  | g3_transfer transfer => cases hpull
  | source_write write => cases hpull

theorem started_of_length_le {s s' : Core}
    (h : s'.progress.in_flight.length ≤ s.progress.in_flight.length) : started s s' = [] := by
  unfold started
  rw [List.drop_eq_nil_of_le h]
  rfl

/-- What an event leaves alone that neither submits nor discards a hint. -/
structure Leaves (s s' : Core) : Prop where
  hints : ∀ request_id, Lasts (s.remote.request_hints.get? request_id)
    (s'.remote.request_hints.get? request_id)
  started : ∀ op ∈ started s s', Hinted s op

theorem Stays.leaves {s s' : Core} (h : Stays s s') : Leaves s s' :=
  ⟨h.hints, fun _ hop => h.submitted.started hop⟩

/-- The event neither submits nor discards a hint of a request. -/
def Event.spares_hints : Event → Bool
  | .call _ (.submit_hint _ _ (some _)) => false
  | .call _ (.discard_hint _) => false
  | _ => true

section Events

variable {cfg : Config} {env : Env}

theorem LocalCopyOp.Described.progress {P : String → Nat → Prop} {copy : LocalCopyOp}
    (h : copy.Described cfg P) (i : TransferInput) :
    (copy.progress i).op.Described cfg P ∧
      ∀ other ∈ (copy.progress i).outbound, other.Described cfg P := by
  have hpoll (op : LocalCopyOp) (hop : op.Described cfg P) : (op.poll i).op.Described cfg P ∧
      ∀ other ∈ (op.poll i).outbound, other.Described cfg P := by
    unfold LocalCopyOp.poll
    dsimp only
    split
    · split
      · refine ⟨hop, fun other hother => ?_⟩
        rw [List.mem_singleton.mp hother]
        exact hop
      · exact ⟨hop, fun other hother => absurd hother List.not_mem_nil⟩
    · exact ⟨hop, fun other hother => absurd hother List.not_mem_nil⟩
  unfold LocalCopyOp.progress
  split
  · exact hpoll copy h
  · split
    · exact ⟨h, fun other hother => absurd hother List.not_mem_nil⟩
    · split
      · exact ⟨h, fun other hother => absurd hother List.not_mem_nil⟩
      · exact hpoll _ h

/-- An iteration over a copy leaves where it goes. -/
theorem progress_described {P : String → Nat → Prop} {op op' : ProgressOp}
    {outbound : List ProgressOp} {landed : List TransferRef} {done : Bool} {input : ProgressInput}
    (hstep : op.progress cfg input = some (op', outbound, landed, done))
    (hop : ∀ copy, op = .local_copy copy → copy.Described cfg P) {copy : LocalCopyOp}
    (hcopy : ProgressOp.local_copy copy = op' ∨ .local_copy copy ∈ outbound) :
    copy.Described cfg P := by
  cases op with
  | local_copy op =>
    cases input with
    | transfer i =>
      obtain ⟨hnext, hout⟩ := (hop op rfl).progress i
      cases hstep
      rcases hcopy with heq | hmem
      · cases heq
        exact hnext
      · obtain ⟨other, hother, heq⟩ := List.mem_map.mp hmem
        cases heq
        exact hout _ hother
    | _ => cases hstep
  | g3_transfer op =>
    cases input with
    | transfer i =>
      cases hstep
      rcases hcopy with heq | hmem
      · cases heq
      · obtain ⟨other, _, heq⟩ := List.mem_map.mp hmem
        cases heq
    | _ => cases hstep
  | target_pull op =>
    cases input with
    | target i =>
      cases hstep
      rcases hcopy with heq | hmem
      · cases heq
      · obtain ⟨other, _, heq⟩ := List.mem_map.mp hmem
        cases heq
    | _ => cases hstep
  | source_write op =>
    cases input with
    | source i status =>
      cases hstep
      rcases hcopy with heq | hmem
      · cases heq
      · obtain ⟨other, _, heq⟩ := List.mem_map.mp hmem
        cases heq
    | _ => cases hstep

/-- The state an iteration of the progress thread ends in. -/
theorem advance_ends {s s' : Core} {index : Nat} {input : ProgressInput}
    (hend : (advance cfg index input s).EndsIn s') :
    s' = s ∨ ∃ op op' outbound landed done, s.progress.in_flight[index]? = some op ∧
      op.progress cfg input = some (op', outbound, landed, done) ∧
      s' =
        { s with
          progress.in_flight := if done then s.progress.in_flight.eraseIdx index
            else s.progress.in_flight.set index op'
          progress.completed := s.progress.completed ++
            (outbound.map Item.op ++ if done then [Item.op op'] else []) } := by
  refine ends_of_wp (P := fun s' => s' = s ∨ ∃ op op' outbound landed done,
    s.progress.in_flight[index]? = some op ∧
      op.progress cfg input = some (op', outbound, landed, done) ∧
      s' =
        { s with
          progress.in_flight := if done then s.progress.in_flight.eraseIdx index
            else s.progress.in_flight.set index op'
          progress.completed := s.progress.completed ++
            (outbound.map Item.op ++ if done then [Item.op op'] else []) }) ?_ hend
  refine wp_bind.mpr (wp_read.mpr ?_)
  split
  · exact wp_pure.mpr (.inl rfl)
  · next op hop =>
    split
    · exact wp_pure.mpr (.inl rfl)
    · next op' outbound landed done hstep =>
      refine wp_unless_then (P := fun s₁ _ => s₁ = s) (fun _ => wp_emit.mpr rfl) (fun _ => rfl)
        fun s₁ t₁ hs₁ => wp_change.mpr (.inr ⟨op, op', outbound, landed, done, hop, hstep, ?_⟩)
      rw [hs₁]

theorem advance_good {P : String → Nat → Prop} {s s' : Core} {index : Nat} {input : ProgressInput}
    (hs : Good cfg P s) (hend : (advance cfg index input s).EndsIn s') : Good cfg P s' := by
  rcases advance_ends hend with rfl | ⟨op, op', outbound, landed, done, hop, hstep, rfl⟩
  · exact hs
  refine ⟨hs.fit.same rfl rfl, hs.free, hs.residencies, fun copy hcopy => ?_⟩
  have hnew (hcopy : ProgressOp.local_copy copy = op' ∨ .local_copy copy ∈ outbound) :
      copy.Described cfg P :=
    progress_described hstep (fun copy hlocal =>
      hs.copies copy (.inl (hlocal ▸ List.mem_of_getElem? hop))) hcopy
  rcases hcopy with hmem | hmem
  · dsimp only at hmem
    split at hmem
    · exact hs.copies copy (.inl (List.mem_of_mem_eraseIdx hmem))
    · rcases List.mem_or_eq_of_mem_set hmem with hmem | heq
      · exact hs.copies copy (.inl hmem)
      · exact hnew (.inl heq)
  · rcases List.mem_append.mp hmem with hmem | hmem
    · exact hs.copies copy (.inr hmem)
    · rcases List.mem_append.mp hmem with hmem | hmem
      · obtain ⟨other, hother, heq⟩ := List.mem_map.mp hmem
        cases heq
        exact hnew (.inr hother)
      · split at hmem
        · rw [List.mem_singleton] at hmem
          cases hmem
          exact hnew (.inl rfl)
        · exact absurd hmem List.not_mem_nil

/-- An iteration of the progress thread replaces or removes one operation. -/
theorem advance_leaves {s s' : Core} {index : Nat} {input : ProgressInput}
    (hend : (advance cfg index input s).EndsIn s') : Leaves s s' := by
  rcases advance_ends hend with rfl | ⟨op, op', outbound, landed, done, hop, hstep, rfl⟩
  · exact ⟨fun _ => .refl, by simp [Kvcr.started]⟩
  · refine ⟨fun _ => .refl, ?_⟩
    rw [started_of_length_le]
    · simp
    · dsimp only
      split
      · exact List.length_eraseIdx_le _ _
      · exact (List.length_set ..).le

/-- A request for a remote write joins the completed items. -/
theorem queue_source_pin_moves {F : Frame cfg} {r : SourceRequest}
    (hqueue : ∀ {s s' : Core}, s'.remote.request_hints = s.remote.request_hints →
      s'.progress.in_flight = s.progress.in_flight → F.Q s s') :
    Moves F.R (queue_source_pin r) := by
  refine .bind .read fun s => .ite (.change fun s hs => ⟨⟨hs.fit.same rfl rfl, hs.free,
    hs.residencies, fun copy hcopy => ?_⟩, hqueue rfl rfl⟩) .pure
  refine hs.copies copy (hcopy.imp_right fun hmem => ?_)
  rcases List.mem_append.mp hmem with hmem | hmem
  · exact hmem
  · cases List.mem_singleton.mp hmem

/-- Submitting a hint, in a frame that lets hints be set. -/
theorem submit_hint_moves {K : Knot} {F : Frame K.cfg} {src : Option String}
    {block_hashes : List Nat} {request_id : RequestId}
    (hset : ∀ hint, Moves F.R (set_hint request_id hint)) :
    Moves F.R (submit_hint K src block_hashes (some request_id)) := by
  refine .bind .read fun s => ?_
  split
  · exact .ite (hset _) (.bind (hset _) fun _ => eager_connect_moves)
  · exact .bind (hset _) fun _ => eager_connect_moves

/-- The frames of a run are tied. -/
theorem tied_knot (env : Env) (F : Frame cfg) [F.OpenDisk] (fuel : Nat) :
    ∃ fuel' resume fail, knot cfg env fuel = ⟨cfg, env, fuel', resume, fail⟩ ∧
      Tied ⟨cfg, env, fuel', resume, fail⟩ F :=
  knot_tied (fun _ _ _ => disk_calls) fuel

/-- The calls of the framework, given those that are about hints or report what has ended. The
value a call returns is forgotten. -/
theorem call_moves {K : Knot} {F : Frame K.cfg} (hK : Tied K F) {c : Call}
    (hsubmit : ∀ source block_hashes request_id,
      c = .submit_hint source block_hashes (some request_id) → Moves F.R (c.run K))
    (hdiscard : ∀ request_id, c = .discard_hint request_id → Moves F.R (c.run K))
    (hpoll : ∀ available, c = .poll_completed available → Moves F.R (c.run K)) :
    Moves F.R (c.run K) := by
  cases c with
  | deposit blocks no_evict expected_layout => exact .bind (deposit_moves hK) fun _ => .pure
  | fetch keys request_id expected_layout => exact .bind (fetch_moves hK) fun _ => .pure
  | deliver blocks request_id => exact .bind (deliver_moves hK) fun _ => .pure
  | release handles => exact .bind (release_moves hK) fun _ => .pure
  | align_sequence ordered_keys use_current_time => exact align_sequence_moves hK
  | query keys request_id => exact .bind query_moves fun _ => .pure
  | submit_hint source block_hashes request_id =>
    cases request_id with
    | none => exact eager_connect_moves
    | some request_id => exact hsubmit source block_hashes request_id rfl
  | discard_hint request_id => exact hdiscard request_id rfl
  | poll_completed available => exact hpoll available rfl

/-- What the events leave alone. -/
theorem event_leaves {s s' : Core} {event : Event} (hs : (steady cfg).G s)
    (hspares : event.spares_hints = true) (hend : (event.run cfg env s).EndsIn s') :
    Leaves s s' := by
  have hsteady (h : Moves (steady cfg).R (event.run cfg env)) : Leaves s s' :=
    ((h.ends hend) hs).2.stays.leaves
  cases event with
  | progress index input => exact advance_leaves hend
  | reader a => exact hsteady reader_act_moves
  | request r =>
    exact hsteady (queue_source_pin_moves fun hints in_flight => .of_eq hints in_flight)
  | call fuel c =>
    by_cases hpoll : ∃ available, c = .poll_completed available
    · -- a pull that ended may have failed its hint
      obtain ⟨available, rfl⟩ := hpoll
      obtain ⟨fuel', resume, fail, heq, hK⟩ := tied_knot env (within cfg) fuel
      replace hend : ((Call.poll_completed available).run (knot cfg env fuel) s).EndsIn s' := hend
      rw [heq] at hend
      have hmoves : Moves (within cfg).R
          (poll_completed ⟨cfg, env, fuel', resume, fail⟩ available) :=
        poll_completed_moves hK (poll_disk_gives hK fun _ => ⟨fun _ => .refl, .refl rfl⟩)
      exact ((Moves.bind hmoves fun _ => .pure).ends hend hs).2.leaves
    · obtain ⟨fuel', resume, fail, heq, hK⟩ := tied_knot env (steady cfg) fuel
      have hsteady : Moves (steady cfg).R (c.run (knot cfg env fuel)) → Leaves s s' := hsteady
      rw [heq] at hsteady
      refine hsteady (call_moves hK (fun _ _ _ hc => ?_) (fun _ hc => ?_) fun available hc => ?_)
      · rw [hc] at hspares
        cases hspares
      · rw [hc] at hspares
        cases hspares
      · exact absurd ⟨available, hc⟩ hpoll

/-- Every event leaves the ground as it was. -/
theorem event_good {P : String → Nat → Prop} {s s' : Core} {event : Event} (hs : Good cfg P s)
    (hend : (event.run cfg env s).EndsIn s') : Good cfg P s' := by
  have hground (h : Moves (ground cfg P).R (event.run cfg env)) : Good cfg P s' :=
    ((h.ends hend) hs).1
  cases event with
  | progress index input => exact advance_good hs hend
  | reader a => exact hground reader_act_moves
  | request r => exact hground (queue_source_pin_moves fun _ _ => trivial)
  | call fuel c =>
    obtain ⟨fuel', resume, fail, heq, hK⟩ := tied_knot env (ground cfg P) fuel
    have hground : Moves (ground cfg P).R (c.run (knot cfg env fuel)) → Good cfg P s' := hground
    rw [heq] at hground
    refine hground (call_moves hK (fun source _ request_id hc => ?_) (fun request_id hc => ?_)
      fun available hc => ?_)
    · rw [hc]
      exact submit_hint_moves (K := ⟨cfg, env, fuel', resume, fail⟩) (F := ground cfg P)
        fun _ => .change fun _ hs => ⟨hs.same rfl, trivial⟩
    · rw [hc]
      exact .change fun _ hs => ⟨hs.same rfl, trivial⟩
    · rw [hc]
      exact .bind (poll_completed_moves hK (poll_disk_gives hK fun _ => trivial)) fun _ => .pure

/-- Discarding a hint, or submitting one, touches neither the tiers nor the submissions. -/
structure Untouched (s s' : Core) : Prop where
  hints : s'.remote.request_hints = s.remote.request_hints
  in_flight : s'.progress.in_flight = s.progress.in_flight
  recs : s'.recs = s.recs
  waiters : s'.dram.capacity_waiters = s.dram.capacity_waiters

instance trans_untouched : IsTrans Core Untouched :=
  ⟨fun _ _ _ h h' => ⟨h'.hints.trans h.hints, h'.in_flight.trans h.in_flight,
    h'.recs.trans h.recs, h'.waiters.trans h.waiters⟩⟩

theorem eager_connect_untouched {K : Knot} {src : Option String} :
    Moves Untouched (eager_connect K src) :=
  .ite (.bind (.step fun _ => ⟨rfl, rfl, rfl, rfl⟩) fun _ =>
    .bind (.change fun _ => ⟨rfl, rfl, rfl, rfl⟩) fun _ => .bind .read fun _ =>
    .ite .raise .pure) .pure

/-- The hint a submission leaves: the old one, failed, if it names another source. -/
def submitted_hint (previous : Option RequestHint) (src : Option String)
    (block_hashes : List Nat) : RequestHint :=
  match previous with
  | some previous =>
    if previous.source ≠ src then { previous with failed := true }
    else { source := src, block_hashes := block_hashes }
  | none => { source := src, block_hashes := block_hashes }

/-- The state a submitted hint ends in, whether or not the progress thread is alive. -/
theorem submit_hint_ends {K : Knot} {src : Option String} {block_hashes : List Nat}
    {request_id : RequestId} {s s' : Core}
    (hend : (submit_hint K src block_hashes (some request_id) s).EndsIn s') :
    Untouched
      { s with
        remote.request_hints := s.remote.request_hints.set request_id
          (submitted_hint (s.remote.request_hints.get? request_id) src block_hashes) } s' := by
  refine ends_of_wp (P := fun s' => Untouched _ s') ?_ hend
  refine wp_bind.mpr (wp_read.mpr ?_)
  cases s.remote.request_hints.get? request_id with
  | none =>
    refine wp_bind.mpr (wp_change.mpr ?_)
    exact eager_connect_untouched _ _ _ ⟨rfl, rfl, rfl, rfl⟩
  | some previous =>
    dsimp only [submitted_hint]
    refine wp_ite.mpr ⟨fun hne => ?_, fun heq => ?_⟩
    · rw [if_pos hne]
      exact wp_change.mpr ⟨rfl, rfl, rfl, rfl⟩
    · rw [if_neg heq]
      refine wp_bind.mpr (wp_change.mpr ?_)
      exact eager_connect_untouched _ _ _ ⟨rfl, rfl, rfl, rfl⟩

end Events

/-! ## Histories -/

section Histories

variable (cfg : Config) (env : Env)

/-- The events a core has seen, the latest last, and its state. A call that raised leaves the
state it raised in, and the caller may go on. Between two events the caller may find out that the
progress thread has died, as submitting an envelope does first. -/
inductive History (table : Dict BlockKey RecoveryBlock) : List Event → Core → Prop
  | start (seed fuel : Nat) {s : Core} {t : List Ev}
      (adopted : Kvcr.start cfg env seed fuel table = .ok () s t) : History table [] s
  | step {events : List Event} {s s' : Core} (event : Event) (history : History table events s)
      (ended : (event.run cfg env s).EndsIn s') : History table (events ++ [event]) s'
  | check {events : List Event} {s s' : Core} (fuel : Nat) (history : History table events s)
      (ended : (raise_if_failed (knot cfg env fuel) s).EndsIn s') : History table events s'

variable {cfg env}

/-- Looking at the progress thread touches nothing the tiers have. -/
theorem check_moves {F : Frame cfg} {fuel : Nat} :
    Moves F.R (raise_if_failed (knot cfg env fuel)) := by
  cases fuel with
  | zero => exact raise_if_failed_moves (K := knot cfg env 0) (F := F)
  | succ n => exact raise_if_failed_moves (K := knot cfg env (n + 1)) (F := F)

theorem good_initial {P : String → Nat → Prop} {seed : Nat}
    (hfree : ∀ occupied pool, ∀ slot ∈ ((free_slots_without cfg occupied).get? pool).getD [],
      P pool slot) : Good cfg P (Core.initial cfg seed) :=
  ⟨⟨fun _ => ⟨fun _ => rfl, rfl⟩, fun _ _ => rfl⟩, hfree [],
    fun _ => ⟨fun _ h => absurd h List.not_mem_nil, fun _ h => (by cases h), .inl rfl⟩,
    fun _ h => h.elim (fun h => absurd h List.not_mem_nil) fun h => absurd h List.not_mem_nil⟩

/-- A new core has no hints, and names no memory it does not have. -/
theorem start_follows {F : Frame cfg} [F.OpenDisk]
    (hquiet : ∀ {s s' : Core}, s'.remote.request_hints = s.remote.request_hints →
      s'.progress.in_flight = s.progress.in_flight → F.Q s s')
    {seed fuel : Nat} {table : Dict BlockKey RecoveryBlock} {s : Core} {t : List Ev}
    (hslots : ∀ block ∈ table.values, ∀ slots, block.g2 = some slots →
      ∀ p ∈ slots, F.P p.1.pool p.2)
    (hfree : ∀ occupied pool, ∀ slot ∈ ((free_slots_without cfg occupied).get? pool).getD [],
      F.P pool slot)
    (adopted : Kvcr.start cfg env seed fuel table = .ok () s t) :
    F.G s ∧ F.Q (Core.initial cfg seed) s := by
  obtain ⟨fuel', resume, fail, heq, _⟩ := tied_knot env F fuel
  have hmoves : Moves F.R (adopt_recovery_records ⟨cfg, env, fuel', resume, fail⟩ table) :=
    adopt_recovery_records_moves (K := ⟨cfg, env, fuel', resume, fail⟩) (F := F) hquiet hslots hfree
  refine hmoves.ends (s := Core.initial cfg seed) ?_ (good_initial hfree)
  unfold Kvcr.start at adopted
  rw [heq] at adopted
  rw [adopted]
  exact .ok _ _ _

/-- The hints of a new core are those of one that has adopted nothing. -/
theorem start_steady {seed fuel : Nat} {table : Dict BlockKey RecoveryBlock} {s : Core}
    {t : List Ev} (adopted : Kvcr.start cfg env seed fuel table = .ok () s t) :
    (steady cfg).G s ∧ Unmoved (Core.initial cfg seed) s :=
  start_follows (F := steady cfg) (fun hints in_flight => .of_eq hints in_flight)
    (fun _ _ _ _ _ _ => trivial) (fun _ _ _ _ => trivial) adopted

theorem History.good {table : Dict BlockKey RecoveryBlock} {events : List Event} {s : Core}
    (history : History cfg env table events s) : (steady cfg).G s := by
  induction history with
  | start seed fuel adopted => exact (start_steady adopted).1
  | step event _ ended ih => exact event_good ih ended
  | check fuel _ ended ih => exact ((check_moves (F := steady cfg)).ends ended ih).1

end Histories

end Kvcr
