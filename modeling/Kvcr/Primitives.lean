/-
The primitives of the model, run symbolically.

A function that only reads, asks or changes the state has an equation here that says what
holds after it, so that a proof about its callers need not open it. What taking the source
lock may have changed is said once, by `ReadersOnly`; what ranking a block may have
changed, by `RankOnly`.
-/
import Kvcr.Allocation

set_option autoImplicit false

namespace Kvcr

open Prog

/-- The state with one residency changed. -/
def Core.set_residency (s : Core) (r : ResId) (x : LocalDramResidency) : Core :=
  { s with residencies := Function.update s.residencies r x }

/-! ## Reading and asking -/

section Primitives

variable {K : Knot} {W : Watch Core Err Ev} {s : Core} {t : List Ev}

@[simp] theorem wp_act {a : Act} {Q : Unit → Core → List Ev → Prop} :
    wp W (act a) Q s t ↔ Q () s (t ++ [⟨a, s⟩]) := wp_emit

@[simp] theorem wp_ask {α : Type} {answer : Nat → α} {Q : α → Core → List Ev → Prop} :
    wp W (ask answer) Q s t ↔ Q (answer s.tick) { s with tick := s.tick + 1 } t := wp_step

@[simp] theorem wp_clock {Q : Time → Core → List Ev → Prop} :
    wp W (clock K) Q s t ↔ Q (K.env.clock s.tick) { s with tick := s.tick + 1 } t := wp_step

@[simp] theorem wp_visit {α : Type} {xs : List α} {Q : List α → Core → List Ev → Prop} :
    wp W (visit K xs) Q s t ↔
      Q (permute (K.env.order s.tick) xs) { s with tick := s.tick + 1 } t := by
  simp only [visit, wp_bind, wp_ask, wp_pure]

@[simp] theorem wp_modify_residency {r : ResId} {f : LocalDramResidency → LocalDramResidency}
    {Q : Unit → Core → List Ev → Prop} :
    wp W (modify_residency r f) Q s t ↔ Q () (s.set_residency r (f (s.residencies r))) t :=
  wp_change

@[simp] theorem wp_modify_rec {record : RecId} {f : BlockRecord → BlockRecord}
    {Q : Unit → Core → List Ev → Prop} :
    wp W (modify_rec record f) Q s t ↔
      Q () { s with recs := Function.update s.recs record (f (s.recs record)) } t :=
  wp_change

@[simp] theorem wp_modify_g3_residency {g : G3Id} {f : G3Residency → G3Residency}
    {Q : Unit → Core → List Ev → Prop} :
    wp W (modify_g3_residency g f) Q s t ↔
      Q () { s with g3_residencies := Function.update s.g3_residencies g (f (s.g3_residencies g)) }
        t :=
  wp_change

@[simp] theorem wp_modify_source_pin {op_id : OpId} {f : SourcePinOp → SourcePinOp}
    {Q : Unit → Core → List Ev → Prop} :
    wp W (modify_source_pin op_id f) Q s t ↔
      Q () { s with
        source_pins := Function.update s.source_pins op_id (f (s.source_pins op_id)) } t :=
  wp_change

attribute [simp] wp_pure wp_read wp_change wp_bind wp_raise

/-- A visiting order leaves out nothing and adds nothing. -/
theorem permute_perm {α : Type} (order : List Nat) (xs : List α) : (permute order xs).Perm xs := by
  induction order generalizing xs with
  | nil => exact List.Perm.refl xs
  | cons i order ih =>
    rw [permute]
    cases hi : xs[i]? with
    | none => exact ih xs
    | some x =>
      have hlt : i < xs.length := (List.getElem?_eq_some_iff.mp hi).1
      have hx : xs[i] = x := (List.getElem?_eq_some_iff.mp hi).2
      calc (x :: permute order (xs.eraseIdx i)).Perm (x :: xs.eraseIdx i) := (ih _).cons x
        _ = (xs[i] :: xs.eraseIdx i) := by rw [hx]
        List.Perm _ xs := List.getElem_cons_eraseIdx_perm hlt

theorem mem_permute {α : Type} {order : List Nat} {xs : List α} {x : α} :
    x ∈ permute order xs ↔ x ∈ xs := (permute_perm order xs).mem_iff

end Primitives

/-! ## Frames -/

/-- Only the record table, the clock and the number of operations may have changed. -/
structure RecordsOnly (s s' : Core) : Prop where
  residencies : s'.residencies = s.residencies
  g3_residencies : s'.g3_residencies = s.g3_residencies
  next_g3 : s'.next_g3 = s.next_g3
  residency_ops : s'.residency_ops = s.residency_ops
  deliver_ops : s'.deliver_ops = s.deliver_ops
  source_pins : s'.source_pins = s.source_pins
  local_dram_sources_by_op : s'.local_dram_sources_by_op = s.local_dram_sources_by_op
  joined_completions : s'.joined_completions = s.joined_completions
  next_fill_handle : s'.next_fill_handle = s.next_fill_handle
  pools : s'.pools = s.pools
  dram : s'.dram = s.dram
  g3 : s'.g3 = s.g3
  remote : s'.remote = s.remote
  closed : s'.closed = s.closed

namespace RecordsOnly

variable {s s' s'' : Core}

theorem refl : RecordsOnly s s := by
  constructor <;> rfl

end RecordsOnly

/-! ## Records -/

namespace Core

/-- The table without the record of the key, if that says nothing. -/
def pruned (s : Core) (key : BlockKey) : Core :=
  match s.record key with
  | none => s
  | some record =>
    if (s.recs record).fw_mem.isNone ∧ (s.recs record).local_dram.isNone ∧
        (s.recs record).g3.isNone ∧ (s.recs record).in_flight_ops.elems = [] then
      { s with block_record_map := s.block_record_map.erase key }
    else s

variable {s : Core} {key : BlockKey}

theorem pruned_frame : RecordsOnly s (s.pruned key) := by
  unfold pruned
  cases s.record key with
  | none => exact RecordsOnly.refl
  | some record =>
    dsimp only
    split <;> constructor <;> rfl

end Core

section Records

variable {W : Watch Core Err Ev} {s : Core} {t : List Ev} {key : BlockKey}

@[simp] theorem wp_prune_block_record {Q : Unit → Core → List Ev → Prop} :
    wp W (prune_block_record key) Q s t ↔ Q () (s.pruned key) t := by
  unfold prune_block_record Core.pruned
  simp only [wp_bind, wp_read]
  cases s.record key with
  | none => exact wp_pure
  | some record =>
    dsimp only
    split
    · exact wp_change
    · exact wp_pure

end Records

/-! ## Readers -/

/-- Only what the progress thread does to the shared sources may have happened, and the
clock and the set of pools under pressure may have moved. -/
def ReadersOnly (s s' : Core) : Prop :=
  ∃ residencies active operations completions readers capacity_pressure_pools tick,
    s' =
      { s with
        residencies := residencies
        pools.active := active
        pools.operations := operations
        pools.completions := completions
        pools.readers := readers
        capacity_pressure_pools := capacity_pressure_pools
        tick := tick } ∧
    (∀ r, ∃ n, residencies r = { s.residencies r with source_readers := n }) ∧ s.tick ≤ tick

theorem ReadersOnly.refl {s : Core} : ReadersOnly s s :=
  ⟨_, _, _, _, _, _, _, rfl, fun r => ⟨(s.residencies r).source_readers, rfl⟩, le_rfl⟩

theorem ReadersOnly.trans {s s' s'' : Core} (h1 : ReadersOnly s s') (h2 : ReadersOnly s' s'') :
    ReadersOnly s s'' := by
  obtain ⟨res, _, _, _, _, _, _, rfl, hres, htick⟩ := h1
  obtain ⟨res', _, _, _, _, _, _, rfl, hres', htick'⟩ := h2
  refine ⟨_, _, _, _, _, _, _, rfl, fun r => ?_, le_trans htick htick'⟩
  obtain ⟨n, hn⟩ := hres r
  obtain ⟨n', hn'⟩ := hres' r
  exact ⟨n', by simp only [hn', hn]⟩

theorem ReadersOnly.residency {s s' : Core} (hf : ReadersOnly s s') (r : ResId) :
    ∃ n, s'.residencies r = { s.residencies r with source_readers := n } := by
  obtain ⟨_, _, _, _, _, _, _, rfl, hres, -⟩ := hf
  exact hres r

theorem ReadersOnly.local_dram {s s' : Core} (hf : ReadersOnly s s') :
    s'.local_dram = s.local_dram := by
  obtain ⟨_, _, _, _, _, _, _, rfl, -⟩ := hf
  rfl

theorem ReadersOnly.record {s s' : Core} (hf : ReadersOnly s s') : s'.record = s.record := by
  obtain ⟨_, _, _, _, _, _, _, rfl, -⟩ := hf
  rfl

theorem ReadersOnly.evictable {s s' : Core} (hf : ReadersOnly s s') :
    s'.pools.evictable = s.pools.evictable := by
  obtain ⟨_, _, _, _, _, _, _, rfl, -⟩ := hf
  rfl

theorem ReadersOnly.recs {s s' : Core} (hf : ReadersOnly s s') : s'.recs = s.recs := by
  obtain ⟨_, _, _, _, _, _, _, rfl, -⟩ := hf
  rfl

section Readers

variable {K : Knot} {W : Watch Core Err Ev} {s : Core} {t : List Ev}

theorem ReadersOnly.set_readers (r : ResId) (n : Nat) {active : Dict BlockKey ResId} :
    ReadersOnly s
      { s.set_residency r { s.residencies r with source_readers := n } with
        pools.active := active } := by
  refine ⟨_, _, _, _, _, _, _, rfl, fun r' => ?_, le_rfl⟩
  by_cases hrr : r' = r
  · subst hrr
    exact ⟨n, Function.update_self _ _ _⟩
  · exact ⟨(s.residencies r').source_readers, Function.update_of_ne hrr _ _⟩

/-- The claims of one request are counted one by one, and then listed together. -/
theorem wp_acquire_readers {cfg : Config} {keys : List BlockKey}
    {destinations : List (List TransferRef)} {key_layout : List Label} :
    wp W (acquire_readers cfg keys destinations key_layout)
      (fun _ s' _ => ReadersOnly s s') s t := by
  unfold acquire_readers
  simp only [wp_bind, wp_read]
  refine wp_ite.mpr ⟨fun _ => ?_, fun _ => wp_pure.mpr .refl⟩
  split
  · exact wp_pure.mpr .refl
  · exact wp_pure.mpr .refl
  · refine wp_bind.mpr (wp_forEach (fun _ s' _ => ReadersOnly s s') ?_ ?_ _ _ _ .refl)
    · rintro ⟨index, key, r, refs⟩ rest s' t' hframe
      simp only [wp_bind, wp_act, wp_modify_residency, wp_change]
      exact hframe.trans (.set_readers r _)
    · intro s' t' hframe
      exact wp_change.mpr (hframe.trans ⟨_, _, _, _, _, _, _, rfl, fun r => ⟨_, rfl⟩, le_rfl⟩)

theorem wp_release_readers {index : Nat} {success : Bool} :
    wp W (release_readers index success) (fun _ s' _ => ReadersOnly s s') s t := by
  unfold release_readers
  simp only [wp_bind, wp_read]
  cases s.pools.readers[index]? with
  | none => exact wp_pure.mpr .refl
  | some reader =>
    exact wp_change.mpr ⟨_, _, _, _, _, _, _, rfl, fun r => ⟨_, rfl⟩, le_rfl⟩

theorem wp_reader_act {cfg : Config} {a : ReaderAct} :
    wp W (reader_act cfg a) (fun _ s' _ => ReadersOnly s s') s t := by
  cases a with
  | acquire keys destinations key_layout => exact wp_acquire_readers
  | release index success => exact wp_release_readers

/-- Whatever progress does before the lock is taken. -/
theorem wp_lock : wp W (lock K) (fun _ s' _ => ReadersOnly s s') s t := by
  unfold lock
  simp only [wp_bind, wp_ask]
  refine wp_forEach (fun _ s' _ => ReadersOnly s s') ?_ (fun _ _ h => h) _ _ _ ?_
  · intro a _ s' t' hframe
    exact wp_mono wp_reader_act fun _ s'' t'' h => hframe.trans h
  · exact ⟨_, _, _, _, _, _, _, rfl, fun r => ⟨_, rfl⟩, Nat.le_succ _⟩

end Readers

/-! ## Evictability -/

/-- Only the queue of candidates and the clock may have changed. -/
def RankOnly (s s' : Core) : Prop :=
  ∃ evictable evictable_slots unscored tick,
    s' =
      { s with
        pools.evictable := evictable
        pools.evictable_slots := evictable_slots
        pools.unscored := unscored
        tick := tick }

theorem RankOnly.refl {s : Core} : RankOnly s s := ⟨_, _, _, _, rfl⟩

theorem RankOnly.trans {s s' s'' : Core} (h1 : RankOnly s s') (h2 : RankOnly s' s'') :
    RankOnly s s'' := by
  obtain ⟨_, _, _, _, rfl⟩ := h1
  obtain ⟨_, _, _, _, rfl⟩ := h2
  exact ⟨_, _, _, _, rfl⟩

/-- The key is no candidate any more. -/
def Core.unranked (s : Core) (key : BlockKey) (r : ResId) : Core :=
  { s with
    pools.unscored := s.pools.unscored.erase key
    pools.evictable := (s.pools.evictable.remove key).1
    pools.evictable_slots :=
      if (s.pools.evictable.remove key).2 then
        count_evictable (-1) (s.residencies r).pool_counts s.pools.evictable_slots
      else s.pools.evictable_slots }

section Slots

variable {W : Watch Core Err Ev} {s : Core} {t : List Ev} {key : BlockKey} {r : ResId}

@[simp] theorem wp_remove_evictable {Q : Unit → Core → List Ev → Prop} :
    wp W (remove_evictable key r) Q s t ↔ Q () (s.unranked key r) t := by
  unfold remove_evictable Core.unranked
  simp only [wp_bind, wp_change, wp_read]
  by_cases hremoved : (s.pools.evictable.remove key).2 = true
  · rw [if_pos hremoved, if_pos hremoved, wp_change]
  · rw [if_neg hremoved, if_neg hremoved, wp_pure]

/-- Ranking asks for a score, and puts the key where the score says. -/
theorem wp_make_evictable {K : Knot} (hexc : ∀ e s', RankOnly s s' → W.exc e s' t) :
    wp W (make_evictable K key) (fun _ s' _ => RankOnly s s') s t := by
  unfold make_evictable
  rw [wp_bind, wp_read]
  cases hrec : s.record key with
  | none => exact wp_raise.mpr (hexc _ _ .refl)
  | some record =>
    dsimp only
    cases (s.recs record).local_dram with
    | none => exact wp_pure.mpr .refl
    | some r =>
      refine wp_ite.mpr ⟨fun _ => wp_pure.mpr .refl, fun _ => ?_⟩
      rw [wp_bind, wp_ask]
      split
      · exact wp_raise.mpr (hexc _ _ ⟨_, _, _, _, rfl⟩)
      · exact wp_change.mpr ⟨_, _, _, _, rfl⟩
      · rw [wp_bind, wp_change, wp_bind, wp_read, wp_bind, wp_change]
        exact wp_ite.mpr ⟨fun _ => wp_change.mpr ⟨_, _, _, _, rfl⟩,
          fun _ => wp_pure.mpr ⟨_, _, _, _, rfl⟩⟩

@[simp] theorem wp_free {locations : List (Label × Nat)} {Q : Unit → Core → List Ev → Prop} :
    wp W (free locations) Q s t ↔
      Q () { s with pools.free_slots := free_locations locations s.pools.free_slots }
        (t ++ [⟨.free locations, s⟩]) := by
  unfold free
  simp only [wp_bind, wp_act, wp_change]

end Slots

theorem Core.local_dram_of {s : Core} {key : BlockKey} {record : RecId} {r : ResId}
    (hrec : s.record key = some record) (hlocal : (s.recs record).local_dram = some r) :
    s.local_dram key = some r := by
  rw [Core.local_dram, hrec, Option.bind_some, hlocal]

/-- Pruning drops only records without a residency. -/
theorem Core.local_dram_pruned {s : Core} {key key' : BlockKey} :
    (s.pruned key).local_dram key' = s.local_dram key' := by
  unfold Core.pruned
  cases hrec : s.record key with
  | none => rfl
  | some record =>
    dsimp only
    split
    · rename_i hempty
      by_cases hkk : key' = key
      · subst hkk
        have hgone :
            ({ s with block_record_map := s.block_record_map.erase key' } : Core).record key'
            = none := Dict.get?_erase_self _ _
        rw [Core.local_dram, hgone, Option.bind_none, Core.local_dram, hrec, Option.bind_some]
        exact (Option.isNone_iff_eq_none.mp hempty.2.1).symm
      · have hkept :
            ({ s with block_record_map := s.block_record_map.erase key } : Core).record key'
            = s.record key' := Dict.get?_erase_ne _ hkk
        rw [Core.local_dram, hkept, Core.local_dram]
    · rfl

end Kvcr
