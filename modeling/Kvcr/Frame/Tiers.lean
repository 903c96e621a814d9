/-
What the functions of the memory tiers leave alone, in any frame.

The functions follow in the order of the source: the core's own helpers, the pools, the
disk, the remote tier and the allocator. The two re-entrant calls are assumed to be within
the frame; the knot is tied in `Kvcr.Frame.Core`. So are the calls into the disk the
other tiers make, which a frame about the disk has to look at itself. For every other frame
they are found here.
-/
import Kvcr.Frame.Relation

set_option autoImplicit false

namespace Kvcr

open Prog

/-- Every reference of the table is such. -/
def EachRef (p : TransferRef → Prop) (blocks : Dict BlockKey (List TransferRef)) : Prop :=
  ∀ refs ∈ blocks.values, ∀ ref ∈ refs, p ref

/-- A reference of the framework that passed the checks of a call. -/
structure Validated (cfg : Config) (ref : TransferRef) : Prop where
  framework : ref.framework = true
  sized : ∃ region, own_region cfg ref = .ok region ∧
    cfg.block_size ref.label.pool = some region.size

/-- The calls into the disk tier are within the frame. A fill is claimed from the state before
its handle was taken. -/
structure DiskCalls (K : Knot) (F : Frame K.cfg) : Prop where
  rank : ∀ {key}, Moves F.R (g3_make_evictable K key)
  store : ∀ {key source deadline}, (∀ ref ∈ source, Own K.cfg F.P ref) →
    Moves F.R (g3_start_store K (.g3_store key) (Dict.empty.set key source) deadline)
  fill : ∀ {blocks deadline s t}, EachRef (Own K.cfg F.P) blocks →
    F.G s → wp ⟨fun _ s' _ => F.G s' ∧ F.Q s s', fun _ => True⟩
      (g3_start_read K .fill s.next_fill_handle blocks deadline)
      (fun _ s' _ => F.G s' ∧ F.Q s s')
      { s with next_fill_handle := s.next_fill_handle - 1 } t
  deliver : ∀ {op_handle blocks deadline}, EachRef (Validated K.cfg) blocks →
    Moves F.R (g3_start_read K .deliver op_handle blocks deadline)

/-- The calls a tier makes outside itself are within the frame. -/
structure Tied (K : Knot) (F : Frame K.cfg) : Prop extends DiskCalls K F where
  resume : Moves F.R K.resume_capacity_waiters
  fail : ∀ keys, Moves F.R (K.fail_local_dram_fill keys)

section Questions

variable {cfg : Config} {F : Frame cfg}

/-- An event of the trace changes no state. -/
theorem act_moves {a : Act} : Moves F.R (act a) := .emit

/-- A question to the environment only advances the tick. -/
theorem ask_moves {α : Type} {answer : Nat → α} : Moves F.R (ask answer) :=
  .step fun _ => F.plain rfl rfl

/-- A residency may be changed in any way that leaves its description true. -/
theorem modify_residency_moves {r : ResId} {f : LocalDramResidency → LocalDramResidency}
    (hf : ∀ x, x.Described cfg F.P → (f x).Described cfg F.P) :
    Moves F.R (modify_residency r f) :=
  .change fun _ => F.residency (hf _)

/-- No frame looks into the operations that wait for memory. -/
theorem modify_op_moves {op_id : OpId} {f : PendingResidencyOp → PendingResidencyOp} :
    Moves F.R (modify_op op_id f) :=
  .change fun _ => F.plain rfl rfl

/-- Nor into those that deliver. -/
theorem modify_deliver_op_moves {op_id : OpId} {f : PendingDeliverOp → PendingDeliverOp} :
    Moves F.R (modify_deliver_op op_id f) :=
  .change fun _ => F.plain rfl rfl

/-- A record may change what is neither its disk residency nor its pinned memory, and may lose
its memory residency. -/
theorem modify_rec_moves {r : RecId} {f : BlockRecord → BlockRecord}
    (hdisk : ∀ rec, (f rec).g3 = rec.g3) (hpinned : ∀ rec, (f rec).fw_mem = rec.fw_mem)
    (hpools : ∀ rec, rec.local_dram = none → (f rec).local_dram = none) :
    Moves F.R (modify_rec r f) :=
  .change fun _ => F.record (hdisk _) (hpinned _) (hpools _)

end Questions

section Base

variable {K : Knot} {F : Frame K.cfg}

theorem clock_moves : Moves F.R (clock K) := ask_moves

/-- The order in which a set is gone through is a question like any other. -/
theorem visit_moves {α : Type} {xs : List α} : Moves F.R (visit K xs) :=
  .bind ask_moves fun _ => .pure

theorem lift_except_moves {cfg : Config} {F : Frame cfg} {α : Type} {x : Except Err α} :
    Moves F.R (lift_except x) := by
  cases x with
  | ok a => exact .pure
  | error e => exact .raise

/-- A record that is looked up may have to be made, and then holds nothing. -/
theorem block_record_moves {cfg : Config} {F : Frame cfg} {key : BlockKey} :
    Moves F.R (block_record key) := by
  refine .of_good fun s t hs => wp_bind.mpr (wp_read.mpr ?_)
  split
  · exact wp_pure.mpr ⟨hs, F.refl s⟩
  · next hunknown =>
    refine wp_bind.mpr (wp_change.mpr (wp_pure.mpr ⟨?_, F.new_record hs hunknown⟩))
    exact ⟨hs.fit.update rfl rfl (fun _ => rfl) fun _ => rfl, hs.free, hs.residencies, hs.copies⟩

/-- Only a record that holds nothing is pruned. -/
theorem prune_block_record_moves {cfg : Config} {F : Frame cfg} {key : BlockKey} :
    Moves F.R (prune_block_record key) := by
  refine .of_good fun s t hs => wp_bind.mpr (wp_read.mpr ?_)
  split
  · exact wp_pure.mpr ⟨hs, F.refl s⟩
  · next record hrecord =>
    refine wp_ite.mpr ⟨fun hbare => wp_change.mpr ⟨hs.same rfl, ?_⟩,
      fun _ => wp_pure.mpr ⟨hs, F.refl s⟩⟩
    simp only [Option.isNone_iff_eq_none] at hbare
    exact F.prune hs hrecord hbare.1 hbare.2.1 hbare.2.2.1 hbare.2.2.2

/-- A notice to the policy is an event. -/
theorem on_ingest_moves {cfg : Config} {F : Frame cfg} {m : BlockMeta} {source : CacheTier} :
    Moves F.R (on_ingest m source) := .ite act_moves .pure

theorem on_remove_moves {cfg : Config} {F : Frame cfg} {m : BlockMeta} : Moves F.R (on_remove m) :=
  .ite act_moves .pure

/-- An access is noted in the record, which a frame does not look at. -/
theorem record_access_moves {keys : List BlockKey} :
    Moves F.R (record_access K keys) := by
  refine .bind clock_moves fun now => .forEach fun key => .bind .read fun s => ?_
  split
  · exact .raise
  · exact modify_rec_moves (fun _ => rfl) (fun _ => rfl) fun _ h => h

/-- The records an operation depends on are made if they are missing. -/
theorem add_block_dependencies_moves {op_id : OpId} {keys : List BlockKey} :
    Moves F.R (add_block_dependencies K op_id keys) := by
  refine .bind (.change fun _ => F.plain rfl rfl) fun _ => .bind visit_moves fun keys => ?_
  exact .forEach fun key => .bind block_record_moves fun _ => modify_rec_moves (fun _ => rfl)
    (fun _ => rfl) fun _ h => h

/-- With its last dependency a record may go. -/
theorem remove_block_dependencies_moves {op_id : OpId} {keys : List BlockKey} :
    Moves F.R (remove_block_dependencies K op_id keys) := by
  refine .bind (.change fun _ => F.plain rfl rfl) fun _ => .bind visit_moves fun keys => ?_
  refine .forEach fun key => .bind .read fun s => ?_
  split
  · exact .pure
  · exact .bind (modify_rec_moves (fun _ => rfl) (fun _ => rfl) fun _ h => h) fun _ =>
      prune_block_record_moves

theorem active_op_ids_moves {record : RecId} : Moves F.R (active_op_ids K record) :=
  .bind .read fun _ => visit_moves

/-- The entries of a finished operation wait for the next poll. -/
theorem complete_moves {cfg : Config} {F : Frame cfg} {op_handle : OpHandle} {entries : Entries} :
    Moves F.R (complete op_handle entries) := by
  unfold complete
  refine .bind .read fun s => ?_
  split
  · exact .change fun _ => F.plain rfl rfl
  · exact .ite (.change fun _ => F.plain rfl rfl) (.change fun _ => F.plain rfl rfl)

theorem publish_inventory_moves {keys : List BlockKey} {tier : CacheTier} {removed : Bool} :
    Moves F.R (publish_inventory K keys tier removed) := .ite act_moves .pure

theorem operation_deadline_moves : Moves F.R (operation_deadline K) :=
  .bind clock_moves fun _ => .pure

/-- A failure of the progress thread is remembered and raised. -/
theorem raise_if_failed_moves : Moves F.R (raise_if_failed K) :=
  .bind ask_moves fun _ => .bind (.change fun _ => F.plain rfl rfl) fun _ =>
    .bind .read fun _ => .ite .raise .pure

/-- A submission is checked first, so what is to be known of it is only the appended
operation. -/
theorem submit_moves {op : ProgressOp}
    (hop : ∀ s : Core, F.R s { s with progress.in_flight := s.progress.in_flight ++ [op] }) :
    Moves F.R (submit K op) :=
  .bind raise_if_failed_moves fun _ => .change hop

/-- What the recovery journal is told, and whether it accepts it, stands in the trace. -/
theorem residency_observer_moves {key : BlockKey} {record : RecId} :
    Moves F.R (residency_observer K key record) := by
  refine .bind .read fun s => .ite (.bind ask_moves fun accepted => .ite act_moves ?_) .pure
  exact .bind act_moves fun _ => .change fun _ => F.plain rfl rfl

end Base

/-! ## The pools -/

section Pools

variable {K : Knot} {F : Frame K.cfg}

/-- The progress thread acquires and releases readers, and every frame tolerates that. -/
theorem reader_act_moves {cfg : Config} {F : Frame cfg} {a : ReaderAct} :
    Moves F.R (reader_act cfg a) :=
  .of_start fun _ _ => wp_mono wp_reader_act fun _ _ _ => F.readers

/-- While the lock is waited for, the progress thread may act any number of times. -/
theorem lock_moves : Moves F.R (lock K) :=
  .of_start fun _ _ => wp_mono wp_lock fun _ _ _ => F.readers

/-- The entry of the key in the index becomes empty, under the lock. -/
theorem mark_source_pending_moves {key : BlockKey} :
    Moves F.R (mark_source_pending K key) :=
  .ite (.bind lock_moves fun _ => .change fun _ => F.plain rfl rfl) .pure

/-- What is published of a residency describes it. -/
theorem publish_source_later {key : BlockKey} {r : ResId} {refs : Option (List TransferRef)}
    {s₀ s : Core} {t : List Ev} (hs : F.G s ∧ F.Q s₀ s)
    (hrefs : ∀ given, refs = some given → given.length = (s.residencies r).slots.length ∧
      ∀ ref ∈ given, Own K.cfg F.P ref) :
    wp ⟨fun _ s' _ => F.G s' ∧ F.Q s₀ s', fun _ => True⟩ (publish_source K key r refs)
      (fun _ s' _ => F.G s' ∧ F.Q s₀ s') s t := by
  refine wp_bind.mpr (wp_read.mpr (wp_ite.mpr ⟨fun _ => ?_, fun _ => wp_pure.mpr hs⟩))
  have hx := hs.1.residencies r
  generalize hpublished : refs.getD (source_refs K.cfg (s.residencies r)
    (List.range (s.residencies r).slots.length)) = published
  have hgood : published.length = (s.residencies r).slots.length ∧
      ∀ ref ∈ published, Own K.cfg F.P ref := by
    cases refs with
    | some given => rw [← hpublished]; exact hrefs given rfl
    | none =>
      rw [← hpublished, Option.getD_none]
      exact ⟨by rw [length_source_refs, List.length_range],
        hx.source_refs fun i hi => List.mem_range.mp hi⟩
  refine wp_seq (wp_and (lock_moves.later hs) wp_lock) fun _ s₁ t₁ h₁ => ?_
  obtain ⟨n, hn⟩ := h₁.2.residency r
  refine wp_ite.mpr ⟨fun _ => wp_bind.mpr (wp_modify_residency.mpr (wp_change.mpr ?_)),
    fun _ => wp_pure.mpr h₁.1⟩
  have hset : F.R s₁ (s₁.set_residency r { s₁.residencies r with refs := some published }) := by
    refine F.residency fun hx₁ => ⟨hx₁.slots, fun cached hcached => ?_, hx₁.index⟩
    cases hcached
    rw [hn]
    exact hgood
  exact F.next (F.next h₁.1 hset) (F.plain rfl rfl)

/-- Publishing what the residency itself says. -/
theorem publish_source_moves {key : BlockKey} {r : ResId} :
    Moves F.R (publish_source K key r) :=
  .of_good fun _ _ hs => publish_source_later ⟨hs, F.refl _⟩ fun _ h => (by cases h)

/-- A candidate enters the queue, or the set of those without a score. -/
theorem make_evictable_moves {key : BlockKey} : Moves F.R (make_evictable K key) := by
  unfold make_evictable
  refine .bind .read fun s => ?_
  split
  · exact .raise
  · split
    · exact .pure
    · refine .ite .pure (.bind ask_moves fun answer => ?_)
      split
      · exact .raise
      · exact .change fun _ => F.plain rfl rfl
      · refine .bind (.change fun _ => F.plain rfl rfl) fun _ => .bind .read fun s => ?_
        exact .bind (.change fun _ => F.plain rfl rfl) fun _ =>
          .ite (.change fun _ => F.plain rfl rfl) .pure

/-- A candidate leaves the queue, and its slots the count. -/
theorem remove_evictable_moves {cfg : Config} {F : Frame cfg} {key : BlockKey} {r : ResId} :
    Moves F.R (remove_evictable key r) := by
  refine .bind (.change fun _ => F.plain rfl rfl) fun _ => .bind .read fun s => ?_
  exact .bind (.change fun _ => F.plain rfl rfl) fun _ =>
    .ite (.change fun _ => F.plain rfl rfl) .pure

theorem retry_unscored_moves : Moves F.R (retry_unscored K) :=
  .bind .read fun _ => .bind visit_moves fun _ => .forEach fun _ => make_evictable_moves

/-- The flag the progress thread reads is written under the lock. -/
theorem update_capacity_pressure_moves : Moves F.R (update_capacity_pressure K) := by
  refine .ite (.bind lock_moves fun _ => .bind .read fun s => ?_) .pure
  exact .bind (.change fun _ => F.plain rfl rfl) fun _ => .ite .pure act_moves

/-- Slots of the pools go back to the free lists. -/
theorem free_moves {cfg : Config} {F : Frame cfg} {locations : List (Label × Nat)}
    (hslots : ∀ p ∈ locations, F.P p.1.pool p.2) : Moves F.R (free locations) :=
  .bind act_moves fun _ => .change fun _ => F.slots fun hs => free_locations_free hs.free hslots

/-- Nobody waits any longer for this key to leave for the disk. -/
theorem abandon_capacity_eviction_moves {cfg : Config} {F : Frame cfg} {key : BlockKey} :
    Moves F.R (abandon_capacity_eviction key) :=
  .bind .read fun _ => .ite (.change fun _ => F.plain rfl rfl) .pure

/-- The slots of a detached residency are freed and its record, if nothing else holds it, is
pruned. -/
theorem retire_slots_moves {key : BlockKey} {record : RecId} {r : ResId} :
    Moves F.R (retire_slots K key record r) := by
  refine .read_good fun s hs => ?_
  have hslots := (hs.residencies r).slots
  refine .ite ?_ (.bind (free_moves hslots) fun _ => prune_block_record_moves)
  refine .bind residency_observer_moves fun _ => .bind (free_moves hslots) fun _ =>
    .bind abandon_capacity_eviction_moves fun _ => .bind .read fun s => ?_
  exact .bind on_remove_moves fun _ =>
    .if_then publish_inventory_moves prune_block_record_moves

/-- A residency that is to be given up is detached and its slots are freed, and waiters may go
on; any other becomes a candidate. -/
theorem after_last_claim_moves (hK : Tied K F) {key : BlockKey} {r : ResId} :
    Moves F.R (after_last_claim K key r) := by
  unfold after_last_claim
  refine .bind .read fun s => ?_
  split
  · exact .raise
  · refine .bind lock_moves fun _ => .bind .read fun s => .ite .pure (.ite ?_ ?_)
    · refine .bind act_moves fun _ => .bind (.change fun _ => F.plain rfl rfl) fun _ =>
        .bind (modify_rec_moves (fun _ => rfl) (fun _ => rfl) fun _ _ => rfl) fun _ =>
          .bind retire_slots_moves fun _ => ?_
      exact .bind .read fun s => .if_then hK.resume .pure
    · exact .bind make_evictable_moves fun _ => .pure

/-- A claimed residency is no candidate. -/
theorem acquire_claim_moves {cfg : Config} {F : Frame cfg} {key : BlockKey} {r : ResId} :
    Moves F.R (acquire_claim key r) :=
  .bind .read fun _ => .ite .raise
    (.bind remove_evictable_moves fun _ =>
      modify_residency_moves fun _ hx => hx.congr rfl rfl rfl)

/-- With the last claim a residency becomes a candidate or goes. -/
theorem release_claim_moves (hK : Tied K F) {key : BlockKey} {r : ResId} :
    Moves F.R (release_claim K key r) := by
  refine .bind .read fun s => .ite .raise (.bind
    (modify_residency_moves fun _ hx => hx.congr rfl rfl rfl) fun _ => ?_)
  exact .bind .read fun s => .ite (.bind (after_last_claim_moves hK) fun _ => .pure) .pure

/-- A claim the caller holds by a handle. -/
theorem new_public_claim_moves {key : BlockKey} {r : ResId} {indices : Option (List Nat)} :
    Moves F.R (new_public_claim K key r indices) :=
  .bind acquire_claim_moves fun _ => .bind .read fun _ => .bind act_moves fun _ =>
    .bind (.change fun _ => F.plain rfl rfl) fun _ => .pure

/-- Handles that are unknown are reported, the others give up their claims. -/
theorem release_handles_moves (hK : Tied K F) {handles : List ReleaseHandle} :
    Moves F.R (release_handles K handles) := by
  refine .bind (.foldEach fun results handle => .bind .read fun s => ?_) fun results =>
    .bind update_capacity_pressure_moves fun _ => .pure
  split
  · exact .pure
  · exact .bind act_moves fun _ => .bind (.change fun _ => F.plain rfl rfl) fun _ =>
      .bind (release_claim_moves hK) fun _ => .pure

/-- The blocks that can be read are claimed, the others passed over. -/
theorem acquire_sources_moves {keys : List BlockKey} {allow_filling : Bool} :
    Moves F.R (acquire_sources K keys allow_filling) := by
  refine .bind (.foldEach fun sources key => .bind .read fun s => .ite .pure ?_) fun sources =>
    .bind update_capacity_pressure_moves fun _ => .pure
  split
  · exact .pure
  · exact .ite .pure (.bind acquire_claim_moves fun _ => .pure)

/-- Claims of readers are given up in any order of the keys. -/
theorem release_sources_moves (hK : Tied K F) {keys : List BlockKey} :
    Moves F.R (release_sources K keys) := by
  refine .bind visit_moves fun keys => .bind (.forEach fun key => .bind .read fun s => ?_)
    fun _ => update_capacity_pressure_moves
  split
  · exact .raise
  · exact release_claim_moves hK

/-- A residency that has moved to disk is marked, and its entry in the index becomes empty, under
the lock. -/
theorem retire_sources_moves {keys : List BlockKey} :
    Moves F.R (retire_sources K keys) := by
  refine .forEach fun key => .bind .read fun s => ?_
  split
  · exact .raise
  · exact .ite .raise (.bind lock_moves fun _ => .bind
      (modify_residency_moves fun _ hx => hx.congr rfl rfl rfl) fun _ =>
      .ite (.change fun _ => F.plain rfl rfl) .pure)

/-- A reader of a residency goes, and with the last one the key is no longer active. -/
theorem release_reader_moves {cfg : Config} {F : Frame cfg} {key : BlockKey} {r : ResId} :
    Moves F.R (release_reader key r) := by
  refine .bind .read fun s => .ite .raise (.bind
    (modify_residency_moves fun _ hx => hx.congr rfl rfl rfl) fun _ => ?_)
  exact .bind .read fun s =>
    .ite (.ite (.change fun _ => F.plain rfl rfl) .raise) .pure

/-- The readers of one finished write are released, and residencies nobody holds any longer
follow. -/
theorem drain_completion_moves (hK : Tied K F) {keys : List BlockKey} {sources : List ResId}
    {success freed : Bool} :
    Moves F.R (drain_completion K keys sources success freed) := by
  unfold drain_completion
  refine .if_then record_access_moves ?_
  refine .bind lock_moves fun _ => .bind (.forEach fun _ => release_reader_moves) fun _ =>
    .foldEach fun freed source => ?_
  exact .bind .read fun s => .ite (.bind (after_last_claim_moves hK) fun _ => .pure) .pure

/-- Finished writes are drained one by one, and the flag that guards the loop is cleared also if
one of them raises. -/
theorem drain_source_completions_moves (hK : Tied K F) :
    Moves F.R (drain_source_completions K) := by
  refine .bind .read fun s => .ite .pure (.bind (.change fun _ => F.plain rfl rfl) fun _ =>
    .bind (.ensure (.whileFuel fun freed => .bind .read fun s => ?_)
      (.change fun _ => F.plain rfl rfl)) fun freed =>
    .bind .read fun s => .ite hK.resume .pure)
  split
  · exact .pure
  · exact .bind (.change fun _ => F.plain rfl rfl) fun _ =>
      .bind (drain_completion_moves hK) fun _ => .pure

end Pools

/-! ## The disk -/

section Disk

variable {K : Knot} {F : Frame K.cfg}

/-- The claimed sources are noted with the operation that reads them. -/
theorem claim_local_dram_sources_moves {op_id : OpId} {keys : List BlockKey}
    {allow_filling : Bool} :
    Moves F.R (claim_local_dram_sources K op_id keys allow_filling) := by
  refine .bind .read fun s => .ite (.bind acquire_sources_moves fun claimed => ?_) .pure
  exact .ite .pure (.bind (.change fun _ => F.plain rfl rfl) fun _ => .pure)

theorem pop_source_moves {cfg : Config} {F : Frame cfg} {op_id : OpId} {key : BlockKey} :
    Moves F.R (pop_source op_id key) :=
  .bind .read fun _ => .ite (.change fun _ => F.plain rfl rfl) .raise

/-- An operation gives up some or all of the sources it reads. -/
theorem release_local_dram_sources_moves (hK : Tied K F) {op_id : OpId}
    {keys : Option (List BlockKey)} :
    Moves F.R (release_local_dram_sources K op_id keys) := by
  refine .bind .read fun s => .ite .pure (.bind (release_sources_moves hK) fun _ => ?_)
  exact .bind (.forEach fun _ => pop_source_moves) fun _ => .bind .read fun _ =>
    .ite (.change fun _ => F.plain rfl rfl) .pure

/-- The policy is asked where a block should go. -/
theorem policy_decide_eviction_moves {m : BlockMeta} {source : CacheTier} :
    Moves F.R (policy_decide_eviction K m source) :=
  .bind ask_moves fun _ => .pure

/-- The backend is asked about each reservation until one does not fit. -/
theorem g3_preflight_moves {reservations : List (BlockKey × G3Id)} :
    Moves F.R (g3_preflight K reservations) := by
  induction reservations with
  | nil => exact .pure
  | cons reservation rest ih =>
    unfold g3_preflight
    exact .bind .read fun s => .ite .raise (.bind ask_moves fun fits => .ite ih .pure)

variable [F.OpenDisk]

/-- A frame that is not about the disk lets its residencies be changed in any way. -/
theorem modify_g3_residency_moves {cfg : Config} {F : Frame cfg} [F.OpenDisk] {g : G3Id}
    {f : G3Residency → G3Residency} :
    Moves F.R (modify_g3_residency g f) := .change fun _ => F.on_disk rfl rfl

/-- The queue of the disk, with its set of keys without a score. -/
theorem g3_make_evictable_moves {key : BlockKey} :
    Moves F.R (g3_make_evictable K key) := by
  unfold g3_make_evictable
  refine .bind .read fun s => ?_
  split
  · exact .pure
  · split
    · exact .pure
    · refine .ite .pure (.bind ask_moves fun answer => ?_)
      split
      · exact .raise
      · exact .change fun _ => F.on_disk rfl rfl
      · refine .bind (.change fun _ => F.on_disk rfl rfl) fun _ => .bind .read fun s => ?_
        exact .bind (.change fun _ => F.on_disk rfl rfl) fun _ =>
          .ite (.change fun _ => F.on_disk rfl rfl) .pure

/-- A candidate of the disk leaves its queue. -/
theorem g3_remove_evictable_moves {cfg : Config} {F : Frame cfg} [F.OpenDisk] {key : BlockKey} :
    Moves F.R (g3_remove_evictable key) := by
  refine .bind (.change fun _ => F.on_disk rfl rfl) fun _ => .bind .read fun s =>
    .bind (.change fun _ => F.on_disk rfl rfl) fun _ => .ite ?_ .pure
  split
  · exact .raise
  · exact .change fun _ => F.on_disk rfl rfl

theorem g3_retry_unscored_moves : Moves F.R (g3_retry_unscored K) :=
  .bind .read fun _ => .bind visit_moves fun _ => .forEach fun _ => g3_make_evictable_moves

/-- A slot of the disk is taken from the free ones. -/
theorem g3_pop_free_moves {cfg : Config} {F : Frame cfg} [F.OpenDisk] : Moves F.R g3_pop_free := by
  unfold g3_pop_free
  refine .bind .read fun s => ?_
  split
  · exact .pure
  · exact .bind act_moves fun _ => .bind (.change fun _ => F.on_disk rfl rfl) fun _ => .pure

/-- Slots of the disk go back to the free ones. -/
theorem g3_free_moves {cfg : Config} {F : Frame cfg} [F.OpenDisk] {slots : List Nat} :
    Moves F.R (g3_free slots) :=
  .bind act_moves fun _ => .change fun _ => F.on_disk rfl rfl

/-- The record loses its disk residency and is pruned if nothing else holds it. -/
theorem g3_evict_moves {key : BlockKey} {record : RecId} {g : G3Id} :
    Moves F.R (g3_evict K key record g) :=
  .bind g3_remove_evictable_moves fun _ => .bind act_moves fun _ =>
    .bind ((.change fun _ => F.record_on_disk rfl id fun _ => rfl)) fun _ =>
      .bind residency_observer_moves fun _ =>
    .bind .read fun _ => .bind on_remove_moves fun _ => .bind publish_inventory_moves fun _ =>
    .bind prune_block_record_moves fun _ => g3_free_moves

/-- A candidate that is protected or that the policy keeps stays on disk. -/
theorem g3_try_candidate_moves {key : BlockKey} :
    Moves F.R (g3_try_candidate K key) := by
  unfold g3_try_candidate
  refine .bind .read fun s => ?_
  split
  · exact .raise
  · split
    · exact .raise
    · exact .ite .raise (.ite .pure (.bind policy_decide_eviction_moves fun _ =>
        .ite .pure (.bind g3_evict_moves fun _ => .pure)))

/-- The iteration holds the entry it has popped. -/
theorem g3_next_candidate_moves {cfg : Config} {F : Frame cfg} [F.OpenDisk] {c : Candidates Score} :
    Moves F.R (g3_next_candidate c) :=
  .bind .read fun _ => .bind (.change fun _ => F.on_disk rfl rfl) fun _ => .pure

/-- The entries an iteration has popped go back to the queue. -/
theorem g3_close_candidates_moves {cfg : Config} {F : Frame cfg} [F.OpenDisk]
    {c : Candidates Score} :
    Moves F.R (g3_close_candidates c) := .change fun _ => F.on_disk rfl rfl

/-- One victim at a time leaves the disk until a slot is free. The iteration is closed on every
way out. -/
theorem g3_allocate_slot_moves {protected_keys : List BlockKey} :
    Moves F.R (g3_allocate_slot K protected_keys) := by
  refine .bind .read fun s => .ite g3_pop_free_moves (.bind g3_retry_unscored_moves fun _ =>
    .whileFuel fun c => .bind g3_next_candidate_moves fun candidate => ?_)
  dsimp only
  split
  · exact .bind g3_close_candidates_moves fun _ => .pure
  · refine .bind (.handle g3_try_candidate_moves fun _ =>
      .bind g3_close_candidates_moves fun _ => .raise) fun evicted => .ite ?_ .pure
    exact .bind g3_pop_free_moves fun _ => .bind g3_close_candidates_moves fun _ => .pure

/-- Slots are asked for one by one, and the first refusal ends it. -/
theorem g3_allocate_slots_moves {protected_keys : List BlockKey} {n : Nat} {slots : List Nat} :
    Moves F.R (g3_allocate_slots K protected_keys n slots) := by
  induction n generalizing slots with
  | zero => exact .pure
  | succ n ih =>
    unfold g3_allocate_slots
    refine .bind g3_allocate_slot_moves fun slot => ?_
    split
    · exact .pure
    · exact ih

/-- Blocks that are on disk already are passed over; the others get slots or are left out. -/
theorem g3_reserve_moves {blocks : Dict BlockKey (List TransferRef)}
    {protected_keys : List BlockKey} :
    Moves F.R (g3_reserve K blocks protected_keys) := by
  refine .foldEach fun reservations entry => .bind .read fun s => .ite .pure ?_
  refine .if_then g3_retry_unscored_moves ?_
  refine .bind .read fun s => .ite .pure (.bind g3_allocate_slots_moves fun slots =>
    .ite (.bind g3_free_moves fun _ => .pure) (.bind .read fun s => ?_))
  exact .bind (.change fun _ => F.on_disk rfl rfl) fun _ => .pure

/-- What was reserved for a store that does not happen is freed again. -/
theorem g3_rollback_moves {cfg : Config} {F : Frame cfg} [F.OpenDisk]
    {reservations : List (BlockKey × G3Id)} :
    Moves F.R (g3_rollback reservations) :=
  .forEach fun _ => .bind .read fun _ =>
    .ite (.bind (.change fun _ => F.on_disk rfl rfl) fun _ => g3_free_moves) .pure

/-- Blocks to be read from disk are claimed, so they are no candidates. -/
theorem g3_claim_moves {cfg : Config} {F : Frame cfg} [F.OpenDisk] {keys : List BlockKey} :
    Moves F.R (g3_claim keys) := by
  refine .foldEach fun acc key => .bind .read fun s => ?_
  split
  · exact .pure
  · exact .bind g3_remove_evictable_moves fun _ => .bind modify_g3_residency_moves fun _ => .pure

/-- With the last claim a block on disk becomes a candidate again. -/
theorem g3_release_claims_moves {claims : List (BlockKey × G3Id)} :
    Moves F.R (g3_release_claims K claims) := by
  refine .forEach fun claim => .bind .read fun s => .ite .raise (.ite .raise ?_)
  exact .bind modify_g3_residency_moves fun _ => .bind .read fun _ =>
    .ite g3_make_evictable_moves .pure

/-- A transfer is registered and submitted. If the submission raises, it is undone and the
reservations or claims are given back. -/
theorem g3_submit_moves {op : G3TransferOp} : Moves F.R (g3_submit K op) := by
  refine .bind .read fun s => .ite .raise (.bind (.change fun _ => F.on_disk rfl rfl) fun _ =>
    .bind add_block_dependencies_moves fun _ => .handle (submit_moves fun s hs => ?_) fun e => ?_)
  · exact ⟨hs.submit fun _ h => (by cases h), Frame.OpenDisk.transfer hs⟩
  · refine .bind (.change fun _ => F.on_disk rfl rfl) fun _ =>
      .bind remove_block_dependencies_moves fun _ => ?_
    exact .ite (.bind g3_rollback_moves fun _ => .raise)
      (.bind g3_release_claims_moves fun _ => .raise)

/-- A store is started only if every block got its slots and the backend can take them. -/
theorem g3_start_store_moves {op_id : OpId} {blocks : Dict BlockKey (List TransferRef)}
    {deadline : Time} : Moves F.R (g3_start_store K op_id blocks deadline) := by
  refine .bind g3_reserve_moves fun reservations =>
    .ite (.bind g3_rollback_moves fun _ => .pure) ?_
  refine .ite_then (fun _ => g3_preflight_moves) .pure fun fits => ?_
  exact .ite (.bind g3_rollback_moves fun _ => .pure) (.bind .read fun s =>
    .bind lift_except_moves fun _ => .bind (.forEach fun _ => act_moves) fun _ =>
    .bind g3_submit_moves fun _ => .pure)

/-- A claimed block of another layout is given up. -/
theorem g3_match_claims_moves {blocks : Dict BlockKey (List TransferRef)}
    {claims : List (BlockKey × G3Id)} {rejected : List BlockKey} :
    Moves F.R (g3_match_claims K blocks claims rejected) := by
  refine .foldEach fun acc claim => .bind .read fun s => ?_
  dsimp only
  split
  · exact .bind g3_release_claims_moves fun _ => .pure
  · exact .bind lift_except_moves fun _ => .pure

/-- The keys that cannot be read are reported or given up, and the others are read if any are
left. -/
theorem g3_start_read_moves {kind : G3Kind} {op_handle : OpHandle}
    {blocks : Dict BlockKey (List TransferRef)} {deadline : Time} :
    Moves F.R (g3_start_read K kind op_handle blocks deadline) := by
  refine .bind g3_claim_moves fun claimed => .bind g3_match_claims_moves fun matched =>
    .ite (.bind g3_release_claims_moves fun _ => .pure) ?_
  -- what follows the keys that were rejected
  refine have hrest := ?_; .ite (.bind .read fun s =>
    .unless_then (.change fun _ => F.on_disk rfl rfl) (.bind complete_moves fun _ => hrest)) hrest
  refine .ite .pure (.ite (.bind g3_release_claims_moves fun _ => .pure) (.bind .read fun s => ?_))
  refine .if_then (.change fun _ => F.take_handle) ?_
  exact .bind g3_submit_moves fun _ => .pure

/-- The calls into the disk are within a frame that is not about the disk. -/
theorem disk_calls : DiskCalls K F where
  rank := g3_make_evictable_moves
  store _ := g3_start_store_moves
  fill _ hs := g3_start_read_moves.later (F.take_handle hs)
  deliver _ := g3_start_read_moves

end Disk

section Stores

variable {K : Knot} {F : Frame K.cfg}

/-- The memory of a block that has moved to disk is given up. -/
theorem retire_local_sources_moves (hK : Tied K F) {op_id : OpId} :
    Moves F.R (retire_local_sources K op_id) :=
  .bind .read fun _ => .ite .pure (.bind retire_sources_moves fun _ =>
    release_local_dram_sources_moves hK)

/-- After a store that failed the policy is asked what to do; whatever it says, the memory is
given up. -/
theorem recover_store_failure_moves (hK : Tied K F) {key : BlockKey} :
    Moves F.R (recover_store_failure K key) := by
  unfold recover_store_failure
  refine .bind .read fun s => ?_
  split
  · exact .raise
  · split
    · exact .raise
    · exact .bind ask_moves fun _ => retire_local_sources_moves hK

/-- A store reads the memory of the residency it is started from. -/
theorem try_store_moves (hK : Tied K F) {key : BlockKey} {r : ResId} {deadline : Time} :
    Moves F.R (try_store K key r deadline) := by
  refine .read_good fun s hs => .bind (hK.store ?_) fun started => .ite .pure ?_
  · exact (hs.residencies r).source_refs fun i hi => List.mem_range.mp hi
  exact .bind (.handle (recover_store_failure_moves hK) fun _ =>
    .bind act_moves fun _ => .raise) fun _ => .pure

/-- An eviction to disk claims its source and starts a store. The block stays for now, also if
the store cannot be started. -/
theorem resolve_eviction_moves (hK : Tied K F) {m : BlockMeta} {source : CacheTier}
    {decision : PlacementDecision} {deadline : Time} :
    Moves F.R (resolve_eviction K m source decision deadline) := by
  unfold resolve_eviction
  refine .ite .pure (.bind .read fun s => ?_)
  split
  · exact .pure
  · refine .ite .pure (.ite .pure (.bind claim_local_dram_sources_moves fun sources => ?_))
    split
    · exact .pure
    · exact .bind (.handle (try_store_moves hK) fun _ =>
        .bind (recover_store_failure_moves hK) fun _ => .pure) fun _ => .pure

/-- Without a disk the answer of the policy is final. -/
theorem core_decide_eviction_moves (hK : Tied K F) {m : BlockMeta} {source : CacheTier}
    {deadline : Time} : Moves F.R (core_decide_eviction K m source deadline) :=
  .bind policy_decide_eviction_moves fun _ => .ite (resolve_eviction_moves hK) .pure

end Stores

/-! ## The remote tier

A pull takes its endpoint from the hint it has just read, so it is submitted on a hint that
stands. -/

section Remote

variable {K : Knot} {F : Frame K.cfg}

theorem eager_connect_moves {src : Option String} : Moves F.R (eager_connect K src) :=
  .ite raise_if_failed_moves .pure

theorem fill_key_layout_moves {cfg : Config} {F : Frame cfg} {s : Core} {keys : List BlockKey} :
    Moves F.R (fill_key_layout s keys) := by
  unfold fill_key_layout
  split
  · exact .raise
  · split
    · exact .raise
    · exact .pure

theorem remember_remote_keys_moves {cfg : Config} {F : Frame cfg} {request_id : RequestId}
    {keys : List BlockKey} : Moves F.R (remember_remote_keys request_id keys) :=
  .change fun _ => F.plain rfl rfl

/-- Submitting a pull whose hint stands. -/
theorem submit_pull {op : TargetPullOp} {s₀ s : Core} {t : List Ev} (hop : Hinted s op)
    (hs : F.G s ∧ F.Q s₀ s) :
    wp ⟨fun _ s' _ => F.G s' ∧ F.Q s₀ s', fun _ => True⟩ (submit K (.target_pull op))
      (fun _ s' _ => F.G s' ∧ F.Q s₀ s') s t := by
  have hchecked := (raise_if_failed_moves (F := F.keeping_hints)).later (s := s) (t := t)
    ⟨hs.1, F.refl s, rfl⟩
  refine wp_bind.mpr (wp_conseq hchecked (fun _ s₁ _ h₁ => ⟨h₁.1, F.trans hs.2 h₁.2.1⟩)
    (fun _ h => h) fun _ s₁ t₁ h₁ => wp_change.mpr ?_)
  have hstill : Hinted s₁ op := by
    unfold Hinted at hop ⊢
    rw [h₁.2.2]
    exact hop
  exact ⟨h₁.1.submit fun _ h => (by cases h), F.trans hs.2 (F.trans h₁.2.1 (F.pull h₁.1 hstill))⟩

/-- A pull is submitted on the hint that was read at the start: up to there nothing touches the
hints. -/
theorem start_target_pull_moves {blocks : Dict BlockKey (List TransferRef)}
    {request_id : Option RequestId} {deadline : Time} {op_handle : OpHandle} {local_fill : Bool} :
    Moves F.R (start_target_pull K blocks request_id deadline op_handle local_fill) := by
  refine .of_good fun s t hs => wp_bind.mpr (wp_read.mpr ?_)
  have hsame : F.G s ∧ F.Q s s := ⟨hs, F.refl s⟩
  split
  · exact wp_pure.mpr hsame
  · next hint hhint =>
    split
    · exact wp_pure.mpr hsame
    · next source hsource =>
      refine wp_ite.mpr ⟨fun _ => wp_pure.mpr hsame, fun hstands => ?_⟩
      obtain ⟨rid, hrid, hget⟩ := Option.bind_eq_some_iff.mp hhint
      have hfailed : hint.failed = false :=
        Bool.eq_false_iff.mpr fun hf => hstands (.inl hf)
      -- up to the submission the hints stay as they were read
      have hstart : F.keeping_hints.G s ∧ F.keeping_hints.Q s s := ⟨hs, F.refl s, rfl⟩
      have hweak {α : Type} {m : KM α} {Q : α → Core → List Ev → Prop} {s₁ : Core} {t₁ : List Ev}
          (hm : wp ⟨fun _ s' _ => F.keeping_hints.G s' ∧ F.keeping_hints.Q s s', fun _ => True⟩ m Q
            s₁ t₁) : wp ⟨fun _ s' _ => F.G s' ∧ F.Q s s', fun _ => True⟩ m Q s₁ t₁ :=
        wp_conseq hm (fun _ _ _ h => ⟨h.1, h.2.1⟩) (fun _ h => h) fun _ _ _ h => h
      refine have hrest := ?_; wp_ite.mpr
        ⟨fun _ => wp_seq (hweak (fill_key_layout_moves.later hstart)) hrest,
          fun _ => wp_seq (hweak (Moves.pure.later hstart)) hrest⟩
      intro key_layout s₁ t₁ h₁
      refine wp_seq (hweak (add_block_dependencies_moves.later h₁)) fun _ s₂ t₂ h₂ => ?_
      have hop {op : TargetPullOp} (hid : op.request_id = some rid)
          (hep : hint.source = some op.remote_ctrl_ep) : Hinted s₂ op :=
        ⟨rid, hint, hid, by rw [h₂.2.2]; exact hget, hfailed, hep⟩
      refine wp_seq (submit_pull (hop hrid hsource) ⟨h₂.1, h₂.2.1⟩) fun _ s₃ t₃ h₃ => ?_
      split
      · exact wp_seq (remember_remote_keys_moves.later h₃) fun _ _ _ h₄ => wp_pure.mpr h₄
      · exact wp_pure.mpr h₃

/-- A delivery without a source completes at once. -/
theorem remote_deliver_moves {op_handle : OpHandle} {blocks : Dict BlockKey (List TransferRef)}
    {request_id : Option RequestId} {deadline : Time} :
    Moves F.R (remote_deliver K op_handle blocks request_id deadline) :=
  .bind start_target_pull_moves fun _ => .ite .pure complete_moves

/-- A fill writes into memory of the pools. One that cannot be started fails its waiters at
once. -/
theorem start_local_fill_moves (hK : Tied K F) {source : CacheTier}
    {blocks : Dict BlockKey (List TransferRef)} {request_id : Option RequestId}
    {deadline : Time} (hown : EachRef (Own K.cfg F.P) blocks) :
    Moves F.R (start_local_fill K source blocks request_id deadline) := by
  have hrest (started : Bool) : Moves F.R
      (if started = true then pure () else K.fail_local_dram_fill blocks.keys) :=
    .ite .pure (hK.fail _)
  refine .ite .pure (.of_good fun s t hs => wp_bind.mpr (wp_read.mpr
    (wp_bind.mpr (wp_change.mpr ?_))))
  have htaken := F.take_handle hs
  split
  · refine wp_ite.mpr ⟨fun _ => wp_seq (hK.fill hown hs) fun _ _ _ h => (hrest _).later h,
      fun _ => wp_bind.mpr (wp_pure.mpr ((hrest _).later htaken))⟩
  · exact wp_seq (start_target_pull_moves.later htaken) fun _ _ _ h => (hrest _).later h
  · exact wp_bind.mpr (wp_raise.mpr htaken)

end Remote

/-! ## The allocator -/

section Allocation

variable {K : Knot} {F : Frame K.cfg}

/-- The slots that are taken are slots of the pools. -/
theorem pop_slots_gives {cfg : Config} {F : Frame cfg} {layout : List Label} :
    Gives F.G F.Q (fun locations => ∀ p ∈ locations, F.P p.1.pool p.2) (pop_slots layout) := by
  refine .read fun s hs => ?_
  split
  · exact .raise
  · next locations free_slots htake =>
    obtain ⟨htaken, hleft⟩ := take_slots_free hs.free htake
    exact .after act_moves fun _ => .after (.change fun _ => F.slots fun _ => hleft) fun _ =>
      .pure htaken

theorem next_candidate_moves {cfg : Config} {F : Frame cfg} {c : Candidates Score} :
    Moves F.R (next_candidate c) :=
  .bind .read fun _ => .bind (.change fun _ => F.plain rfl rfl) fun _ => .pure

theorem close_candidates_moves {cfg : Config} {F : Frame cfg} {c : Candidates Score} :
    Moves F.R (close_candidates c) := .change fun _ => F.plain rfl rfl

/-- One round of the scan: the policy may move the candidate to disk on the way. -/
theorem consider_candidate_moves (hK : Tied K F) {required : List (String × Nat)}
    {deadline : Time} {scan : Scan} {key : BlockKey} :
    Moves F.R (consider_candidate K required deadline scan key) := by
  unfold consider_candidate
  refine .bind .read fun s => ?_
  split
  · exact .raise
  · split
    · exact .raise
    · refine .ite .raise (.ite .pure (.bind lock_moves fun _ => .bind .read fun s =>
        .ite .pure (.bind (core_decide_eviction_moves hK) fun decision => .bind .read fun s => ?_)))
      exact .ite .pure (.ite (.bind (.change fun _ => F.plain rfl rfl) fun _ => .pure)
        (.ite .pure .pure))

/-- The loop of the scan. It closes its iteration on every way out. -/
theorem scan_candidates_moves (hK : Tied K F) {required : List (String × Nat)}
    {deadline : Time} {scan : Scan} :
    Moves F.R (scan_candidates K required deadline scan) := by
  refine .whileFuel fun scan => .ite (.bind close_candidates_moves fun _ => .pure)
    (.bind next_candidate_moves fun candidate => ?_)
  dsimp only
  split
  · exact .bind close_candidates_moves fun _ => .pure
  · refine .bind (.handle (consider_candidate_moves hK) fun _ =>
      .bind close_candidates_moves fun _ => .raise) fun step => ?_
    cases step with
    | next scan => exact .pure
    | done victims => exact .bind close_candidates_moves fun _ => .pure
    | abort eviction_pending => exact .bind close_candidates_moves fun _ => .pure

/-- A victim leaves the queue and its record, and its slots are free. -/
theorem evict_victim_moves {v : Victim} : Moves F.R (evict_victim K v) :=
  .bind remove_evictable_moves fun _ => .bind act_moves fun _ =>
    .bind (modify_rec_moves (fun _ => rfl) (fun _ => rfl) fun _ _ => rfl) fun _ =>
      .bind residency_observer_moves fun _ =>
    .read_good fun _ hs => .bind on_remove_moves fun _ => .bind prune_block_record_moves fun _ =>
    free_moves (hs.residencies v.residency).slots

/-- An allocation answers with slots of the pools, whether they were free or victims had to
leave. -/
theorem allocate_slots_gives (hK : Tied K F) {layout : List Label}
    {protected_keys : List BlockKey} {deadline : Time} :
    Gives F.G F.Q (fun allocation => ∀ locations, allocation.1 = some locations →
      ∀ p ∈ locations, F.P p.1.pool p.2) (allocate_slots K layout protected_keys deadline) := by
  have hnone {evicted : List BlockKey} {waiting : Bool} :
      Gives F.G F.Q (fun allocation => ∀ locations, allocation.1 = some locations →
        ∀ p ∈ locations, F.P p.1.pool p.2)
        (pure (none, evicted, waiting) : KM (Option (List (Label × Nat)) × List BlockKey × Bool)) :=
    .pure fun _ h => (by cases h)
  refine .read fun s _ => .ite (fun _ => .bind pop_slots_gives fun locations hslots => .pure ?_)
    fun _ => .ite (fun _ => hnone) fun _ => .after retry_unscored_moves fun _ => .read fun s _ =>
      .after (scan_candidates_moves hK) fun outcome => ?_
  · intro locations' h
    cases h
    exact hslots
  cases outcome with
  | inr eviction_pending => exact hnone
  | inl victims =>
    refine .after lock_moves fun _ => .read fun s _ => .ite (fun _ => hnone) fun _ =>
      .after (.change fun _ => F.plain rfl rfl) fun _ =>
      .after (.forEach fun _ => evict_victim_moves) fun _ =>
      .bind pop_slots_gives fun locations hslots => .pure fun locations' h => ?_
    cases h
    exact hslots

end Allocation

end Kvcr
