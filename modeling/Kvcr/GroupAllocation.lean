/-
`_allocate_slots` without a disk tier is all or nothing.

Without a disk tier no answer of the policy enters the tier again, so the scan sees
one table from beginning to end; only the progress thread goes on acquiring readers.
The scan adds up what the victims would free and touches nothing. What it did is said
by its own iterations: a candidate "had a reader when visited" if the loop came to it
and the lock it took showed one (`FoundReader`), and "was kept" if the loop came to it
and the policy said so (`WasKept`).
-/
import Kvcr.EvictionOrder
import Kvcr.Primitives
import Mathlib.Algebra.Order.BigOperators.Group.List
import Mathlib.Algebra.Order.Group.Nat
import Mathlib.Data.List.Flatten

set_option autoImplicit false

namespace Kvcr

open Prog

/-! ## What is asked of a state -/

/-- The slots of a block in one pool. -/
def Core.slots_of (s : Core) (key : BlockKey) (pool : String) : List Nat :=
  match s.local_dram key with
  | none => []
  | some r => ((s.residencies r).slots.filter fun p => p.1.pool = pool).map Prod.snd

/-- How many slots of a pool a layout asks for. -/
def needed (layout : List Label) (pool : String) : Nat := (layout.map (·.pool)).count pool

/-- What a block would free of a pool. -/
def Core.freeable (s : Core) (keys : List BlockKey) (pool : String) : Nat :=
  (keys.map fun key => (s.slots_of key pool).length).sum

/-- The pools, the table and the queue of candidates fit together. A new core without a disk
tier is such a state, and an allocation leaves one, with the granted slots in the hand of its
caller (`Holding`). -/
structure Consistent (s : Core) : Prop where
  /-- the queue is one that its own calls leave, with no iteration open -/
  queue : ∃ calls, (browse calls).Idle ∧ (browse calls).queue = s.pools.evictable
  /-- candidates are readable and unclaimed -/
  ranked : ∀ key, s.pools.evictable.live.contains key = true → ∃ record r,
    s.record key = some record ∧ (s.recs record).local_dram = some r ∧
    (s.residencies r).state = .READY ∧ (s.residencies r).claim_count = 0
  recorded : ∀ key ∈ s.pools.unscored, ∃ record, s.record key = some record
  /-- only a move to disk is waited for -/
  settled : s.pools.capacity_eviction_key = none
  /-- every slot is in one place -/
  apart : ∀ pool,
    (s.free_of pool ++ s.block_record_map.keys.flatMap fun key => s.slots_of key pool).Nodup

/-- The state is consistent, and these slots are neither free nor those of a block. -/
structure Holding (s : Core) (locations : List (Label × Nat)) : Prop extends Consistent s where
  hand : ∀ pool, ((locations.filter fun p => p.1.pool = pool).map Prod.snd ++
    (s.free_of pool ++ s.block_record_map.keys.flatMap fun key => s.slots_of key pool)).Nodup

/-! ## Counting -/

theorem required_slots_eq {layout : List Label} {p : String × Nat} :
    p ∈ required_slots layout ↔ p.1 ∈ layout.map (·.pool) ∧ p.2 = needed layout p.1 := by
  unfold required_slots needed
  obtain ⟨pool, n⟩ := p
  simp only [List.mem_map, Prod.mk.injEq, ← OrderedSet.mem_def, OrderedSet.mem_ofList]
  constructor
  · rintro ⟨pool', hmem, rfl, rfl⟩
    exact ⟨hmem, rfl⟩
  · rintro ⟨hmem, rfl⟩
    exact ⟨pool, hmem, rfl, rfl⟩

/-- A pool is short if what is free and what is freed do not suffice. -/
theorem mem_short {s : Core} {layout : List Label} {freed : Dict String Nat} {pool : String} :
    pool ∈ short s (required_slots layout) freed ↔
      (s.free_of pool).length + (freed.get? pool).getD 0 < needed layout pool := by
  unfold short
  rw [List.mem_map]
  constructor
  · rintro ⟨⟨pool', n⟩, hmem, rfl⟩
    rw [List.mem_filter, required_slots_eq, decide_eq_true_iff] at hmem
    obtain ⟨⟨-, hn⟩, hlt⟩ := hmem
    dsimp only at hn hlt ⊢
    omega
  · intro hlt
    have hpos : 0 < needed layout pool := by omega
    refine ⟨(pool, needed layout pool), ?_, rfl⟩
    rw [List.mem_filter, required_slots_eq, decide_eq_true_iff]
    exact ⟨⟨List.count_pos_iff.mp hpos, rfl⟩, hlt⟩

theorem short_eq_nil {s : Core} {layout : List Label} {freed : Dict String Nat} :
    short s (required_slots layout) freed = [] ↔
      ∀ pool, needed layout pool ≤ (s.free_of pool).length + (freed.get? pool).getD 0 := by
  rw [List.eq_nil_iff_forall_not_mem]
  simp only [mem_short, Nat.not_lt]

/-- The counts of a residency say how many slots it has in each pool. -/
theorem mem_pool_counts {x : LocalDramResidency} {pool : String} {n : Nat} :
    (pool, n) ∈ x.pool_counts ↔
      0 < n ∧ n = (x.slots.filter fun q => q.1.pool = pool).length := by
  unfold LocalDramResidency.pool_counts
  have hcount : (x.slots.map fun q => q.1.pool).count pool =
      (x.slots.filter fun q => q.1.pool = pool).length := by
    rw [List.count, List.countP_map, List.countP_eq_length_filter]
    congr 2
  simp only [List.mem_map, Prod.mk.injEq, ← OrderedSet.mem_def, OrderedSet.mem_ofList, ← hcount]
  constructor
  · rintro ⟨pool', hmem, rfl, rfl⟩
    exact ⟨List.count_pos_iff.mpr (List.mem_map.mpr hmem), rfl⟩
  · rintro ⟨hpos, rfl⟩
    exact ⟨pool, List.mem_map.mp (List.count_pos_iff.mp hpos), rfl, rfl⟩

/-- Adding counts of distinct pools. -/
theorem foldl_freed {counts : List (String × Nat)} (hnodup : (counts.map Prod.fst).Nodup)
    (d : Dict String Nat) (pool : String) :
    ((counts.foldl (fun d p => d.set p.1 ((d.get? p.1).getD 0 + p.2)) d).get? pool).getD 0 =
      (d.get? pool).getD 0 + ((counts.find? fun p => p.1 = pool).map Prod.snd).getD 0 := by
  induction counts generalizing d with
  | nil => rfl
  | cons p counts ih =>
    rw [List.map_cons, List.nodup_cons] at hnodup
    rw [List.foldl_cons, ih hnodup.2, Dict.get?_set, List.find?_cons]
    by_cases hp : p.1 = pool
    · have hnone : counts.find? (fun q => q.1 = pool) = none := by
        refine List.find?_eq_none.mpr fun q hq => ?_
        rw [decide_eq_true_iff]
        exact fun h => hnodup.1 (hp ▸ h ▸ List.mem_map_of_mem hq)
      rw [if_pos hp.symm, hnone, decide_eq_true hp, hp]
      rfl
    · rw [if_neg (Ne.symm hp), decide_eq_false hp]

theorem foldl_pool_counts (x : LocalDramResidency) (d : Dict String Nat) (pool : String) :
    ((x.pool_counts.foldl (fun d p => d.set p.1 ((d.get? p.1).getD 0 + p.2)) d).get? pool).getD 0 =
      (d.get? pool).getD 0 + (x.slots.filter fun q => q.1.pool = pool).length := by
  have hnodup : (x.pool_counts.map Prod.fst).Nodup := by
    unfold LocalDramResidency.pool_counts
    rw [List.map_map]
    have hid : (Prod.fst ∘ fun pool => (pool, (x.slots.map fun p => p.1.pool).count pool)) =
        (id : String → String) := rfl
    rw [hid, List.map_id]
    exact (OrderedSet.ofList _).nodup
  rw [foldl_freed hnodup]
  congr 1
  cases hfind : x.pool_counts.find? fun p => p.1 = pool with
  | none =>
    rw [List.find?_eq_none] at hfind
    have hzero : ¬ 0 < (x.slots.filter fun q => q.1.pool = pool).length := by
      intro hpos
      exact hfind (pool, _) (mem_pool_counts.mpr ⟨hpos, rfl⟩) (decide_eq_true rfl)
    simp only [Option.map_none, Option.getD_none]
    omega
  | some p =>
    obtain ⟨pool', n⟩ := p
    have hp : pool' = pool := by simpa using List.find?_some hfind
    have hmem := mem_pool_counts.mp (List.mem_of_find?_eq_some hfind)
    rw [← hp]
    exact hmem.2

/-! ## Taking and returning slots -/

theorem getD_free_locations (locations : List (Label × Nat)) (d : Dict String (List Nat))
    (pool : String) :
    ((free_locations locations d).get? pool).getD [] =
      (d.get? pool).getD [] ++ (locations.filter fun p => p.1.pool = pool).map Prod.snd := by
  unfold free_locations
  induction locations generalizing d with
  | nil => simp
  | cons p locations ih =>
    rw [List.foldl_cons, ih, Dict.get?_set, List.filter_cons]
    by_cases hp : p.1.pool = pool
    · rw [if_pos hp.symm, if_pos (decide_eq_true hp), hp]
      simp
    · rw [if_neg (Ne.symm hp), if_neg (by simp [hp])]

/-- If every pool has enough, every label gets a slot, from the front of its pool. -/
theorem take_slots_of_enough {layout : List Label} {d : Dict String (List Nat)}
    (henough : ∀ pool, needed layout pool ≤ ((d.get? pool).getD []).length) :
    ∃ locations free_slots, take_slots layout d = some (locations, free_slots) ∧
      locations.map Prod.fst = layout ∧
      ∀ pool, (d.get? pool).getD [] =
        (locations.filter fun p => p.1.pool = pool).map Prod.snd ++
          (free_slots.get? pool).getD [] := by
  induction layout generalizing d with
  | nil => exact ⟨[], d, rfl, rfl, fun pool => rfl⟩
  | cons label layout ih =>
    have hneeded : ∀ pool, needed (label :: layout) pool =
        needed layout pool + if label.pool = pool then 1 else 0 := by
      intro pool
      unfold needed
      rw [List.map_cons, List.count_cons]
      simp only [beq_iff_eq]
    cases hget : (d.get? label.pool).getD [] with
    | nil =>
      have h := henough label.pool
      rw [hneeded, if_pos rfl, hget, List.length_nil] at h
      omega
    | cons slot slots =>
      have hrest : ∀ pool, (((d.set label.pool slots).get? pool).getD []) =
          if pool = label.pool then slots else (d.get? pool).getD [] := by
        intro pool
        rw [Dict.get?_set]
        split <;> rfl
      obtain ⟨locations, free_slots, htake, hlabels, hpools⟩ :=
          ih (d := d.set label.pool slots) (by
        intro pool
        have h := henough pool
        rw [hneeded] at h
        rw [hrest]
        by_cases hp : label.pool = pool
        · subst hp
          rw [if_pos rfl, hget, List.length_cons] at h
          rw [if_pos rfl]
          omega
        · rw [if_neg hp] at h
          rw [if_neg (Ne.symm hp)]
          exact h)
      refine ⟨(label, slot) :: locations, free_slots, ?_, ?_, fun pool => ?_⟩
      · rw [take_slots, hget]
        dsimp only
        rw [htake]
        rfl
      · rw [List.map_cons, hlabels]
      · have h := hpools pool
        rw [hrest] at h
        rw [List.filter_cons]
        by_cases hp : label.pool = pool
        · subst hp
          rw [if_pos rfl] at h
          rw [if_pos (decide_eq_true rfl), hget, h]
          rfl
        · rw [if_neg (Ne.symm hp)] at h
          rw [if_neg (by simp [hp])]
          exact h

/-- Pairs are distinct if those with one first component have distinct second ones. -/
theorem nodup_map_location_slot {locations : List (Label × Nat)}
    (h : ∀ pool, ((locations.filter fun p => p.1.pool = pool).map Prod.snd).Nodup) :
    (locations.map location_slot).Nodup := by
  induction locations with
  | nil => exact List.nodup_nil
  | cons p locations ih =>
    rw [List.map_cons, List.nodup_cons]
    refine ⟨fun hmem => ?_, ih fun pool => ?_⟩
    · obtain ⟨q, hq, heq⟩ := List.mem_map.mp hmem
      obtain ⟨hpool, hslot⟩ : q.1.pool = p.1.pool ∧ q.2 = p.2 := Prod.mk.inj heq
      have hdup := h p.1.pool
      rw [List.filter_cons, if_pos (decide_eq_true rfl), List.map_cons, List.nodup_cons] at hdup
      refine hdup.1 (hslot ▸ List.mem_map_of_mem (List.mem_filter.mpr ⟨hq, decide_eq_true hpool⟩))
    · exact (h pool).sublist (((List.sublist_cons_self _ _).filter _).map _)

/-! ## What leaves the pools alone -/

/-- Only reads by the progress thread were logged. -/
def Reads (t t' : List Ev) : Prop :=
  ∃ u, t' = t ++ u ∧ ∀ e ∈ u, ∃ key r refs, e.act = .read_from key r refs

theorem Reads.refl {t : List Ev} : Reads t t :=
  ⟨[], (List.append_nil t).symm, fun _ he => (nomatch he)⟩

theorem Reads.trans {t t' t'' : List Ev} (h : Reads t t') (h' : Reads t' t'') : Reads t t'' := by
  obtain ⟨u, rfl, hu⟩ := h
  obtain ⟨u', rfl, hu'⟩ := h'
  exact ⟨u ++ u', List.append_assoc _ _ _, fun e he => (List.mem_append.mp he).elim (hu e) (hu' e)⟩

/-- Only the progress thread has run, and the queue of candidates holds its entries
elsewhere. -/
def ScanOnly (s s' : Core) : Prop :=
  ∃ queue, queue.live = s.pools.evictable.live ∧
    ReadersOnly { s with pools.evictable := queue } s'

namespace ScanOnly

variable {s s' s'' : Core}

theorem refl : ScanOnly s s := ⟨_, rfl, ReadersOnly.refl⟩

theorem readers (h : ReadersOnly s s') : ScanOnly s s' := ⟨_, rfl, h⟩

theorem trans (h : ScanOnly s s') (h' : ScanOnly s' s'') : ScanOnly s s'' := by
  obtain ⟨queue, hlive, _, _, _, _, _, _, _, rfl, hres, htick⟩ := h
  obtain ⟨queue', hlive', h'⟩ := h'
  refine ⟨queue', hlive'.trans hlive, ReadersOnly.trans ?_ h'⟩
  exact ⟨_, _, _, _, _, _, _, rfl, hres, htick⟩

theorem residency (h : ScanOnly s s') (r : ResId) :
    ∃ n, s'.residencies r = { s.residencies r with source_readers := n } := by
  obtain ⟨queue, hlive, h⟩ := h
  exact h.residency r

theorem record (h : ScanOnly s s') : s'.record = s.record := by
  obtain ⟨queue, hlive, h⟩ := h
  exact h.record

theorem recs (h : ScanOnly s s') : s'.recs = s.recs := by
  obtain ⟨queue, hlive, h⟩ := h
  exact h.recs

theorem local_dram (h : ScanOnly s s') : s'.local_dram = s.local_dram := by
  obtain ⟨queue, hlive, h⟩ := h
  exact h.local_dram

theorem live (h : ScanOnly s s') : s'.pools.evictable.live = s.pools.evictable.live := by
  obtain ⟨queue, hlive, _, _, _, _, _, _, _, rfl, -⟩ := h
  exact hlive

theorem free_of (h : ScanOnly s s') : s'.free_of = s.free_of := by
  obtain ⟨queue, hlive, _, _, _, _, _, _, _, rfl, -⟩ := h
  rfl

theorem slots_of (h : ScanOnly s s') : s'.slots_of = s.slots_of := by
  funext key pool
  unfold Core.slots_of
  rw [h.local_dram]
  cases s.local_dram key with
  | none => rfl
  | some r =>
    obtain ⟨n, hn⟩ := h.residency r
    dsimp only
    rw [hn]

theorem short (h : ScanOnly s s') (required : List (String × Nat)) (freed : Dict String Nat) :
    short s' required freed = Kvcr.short s required freed := by
  unfold Kvcr.short
  rw [h.free_of]

end ScanOnly

theorem RankOnly.slots_of {s s' : Core} (h : RankOnly s s') : s'.slots_of = s.slots_of := by
  obtain ⟨_, _, _, _, rfl⟩ := h
  rfl

theorem RankOnly.free_of {s s' : Core} (h : RankOnly s s') : s'.free_of = s.free_of := by
  obtain ⟨_, _, _, _, rfl⟩ := h
  rfl

/-! ## The lock and the scores -/

section Quiet

variable {K : Knot} {W : Watch Core Err Ev} {s : Core} {t : List Ev} {key : BlockKey}

/-- The progress thread acquires readers, and nothing else happens at a lock. -/
theorem wp_lock_reads : wp W (lock K) (fun _ s' t' => ReadersOnly s s' ∧ Reads t t') s t := by
  refine wp_and wp_lock ?_
  unfold lock
  simp only [wp_bind, wp_ask]
  refine wp_forEach (fun _ _ t' => Reads t t') ?_ (fun _ _ h => h) _ _ _ Reads.refl
  intro a _ s' t' hreads
  refine wp_mono ?_ fun _ _ t'' h => hreads.trans h
  cases a with
  | release index success =>
    unfold reader_act release_readers
    simp only [wp_bind, wp_read]
    cases s'.pools.readers[index]? with
    | none => exact wp_pure.mpr Reads.refl
    | some reader => exact wp_change.mpr Reads.refl
  | acquire keys destinations key_layout =>
    unfold reader_act acquire_readers
    simp only [wp_bind, wp_read]
    refine wp_ite.mpr ⟨fun _ => ?_, fun _ => wp_pure.mpr Reads.refl⟩
    split
    · exact wp_pure.mpr Reads.refl
    · exact wp_pure.mpr Reads.refl
    · refine wp_bind.mpr (wp_forEach (fun _ _ t'' => Reads t' t'') ?_ ?_ _ _ _ Reads.refl)
      · rintro ⟨index, key, r, refs⟩ _ s1 t1 h1
        simp only [wp_bind, wp_act, wp_modify_residency, wp_change]
        refine h1.trans ⟨[_], rfl, fun e he => ?_⟩
        rw [List.mem_singleton.mp he]
        exact ⟨key, r, refs, rfl⟩
      · exact fun s1 t1 h1 => wp_change.mpr h1

/-- A state that differs in its candidates only is consistent if these are. -/
theorem Consistent.rank {s' : Core} (hs : Consistent s) (hf : RankOnly s s')
    (hqueue : s'.pools.evictable.Settled)
    (hranked : ∀ key, s'.pools.evictable.live.contains key = true →
      s.pools.evictable.live.contains key = true ∨ ∃ record r,
        s.record key = some record ∧ (s.recs record).local_dram = some r ∧
        (s.residencies r).state = .READY ∧ (s.residencies r).claim_count = 0)
    (hrecorded : ∀ key ∈ s'.pools.unscored, ∃ record, s.record key = some record) :
    Consistent s' := by
  have hslots := hf.slots_of
  have hfree := hf.free_of
  obtain ⟨_, _, _, _, rfl⟩ := hf
  refine ⟨hqueue, fun key hkey => (hranked key hkey).elim (hs.ranked key) id, hrecorded, hs.settled,
    fun pool => ?_⟩
  rw [hslots, hfree]
  exact hs.apart pool

theorem Consistent.ticked (hs : Consistent s) : Consistent { s with tick := s.tick + 1 } :=
  hs.rank ⟨_, _, _, _, rfl⟩ hs.queue (fun _ h => .inl h) hs.recorded

/-- Scoring a key again changes nothing but its place among the candidates. -/
theorem wp_make_evictable_consistent (hs : Consistent s)
    (hrec : ∃ record, s.record key = some record)
    (hexc : ∀ tick m, K.env.eviction_score tick m .LOCAL_G2 = .too_large →
      W.exc .overflow_error { s with tick := s.tick + 1 } t) :
    wp W (make_evictable K key)
      (fun _ s' t' => t' = t ∧ RankOnly s s' ∧ Consistent s' ∧
        (∀ key', key' ≠ key →
          s'.pools.evictable.live.get? key' = s.pools.evictable.live.get? key') ∧
        s'.pools.evictable.size ≤ s.pools.evictable.size + 1) s t := by
  obtain ⟨record, hrec⟩ := hrec
  have hsame : RankOnly s s ∧ Consistent s ∧
      (∀ key', key' ≠ key →
        s.pools.evictable.live.get? key' = s.pools.evictable.live.get? key') ∧
      s.pools.evictable.size ≤ s.pools.evictable.size + 1 :=
    ⟨.refl, hs, fun _ _ => rfl, Nat.le_succ _⟩
  unfold make_evictable
  simp only [wp_bind, wp_read, hrec]
  cases hlocal : (s.recs record).local_dram with
  | none => exact wp_pure.mpr ⟨rfl, hsame⟩
  | some r =>
    dsimp only
    refine wp_ite.mpr ⟨fun _ => wp_pure.mpr ⟨rfl, hsame⟩, fun hcond => ?_⟩
    simp only [not_or, ne_eq, not_not] at hcond
    obtain ⟨hready, hunclaimed, -, -⟩ := hcond
    simp only [wp_bind, wp_ask]
    split
    · rename_i e hscore
      obtain ⟨hlarge, rfl⟩ := eviction_score_error hscore
      exact wp_raise.mpr (hexc _ _ hlarge)
    · -- the policy has no score for it yet
      refine wp_change.mpr ⟨rfl, ⟨_, _, _, _, rfl⟩, ?_, fun _ _ => rfl, Nat.le_succ _⟩
      refine hs.rank ⟨_, _, _, _, rfl⟩ hs.queue (fun _ h => Or.inl h) fun key' hkey' => ?_
      rcases OrderedSet.mem_insert.mp hkey' with rfl | hkey'
      · exact ⟨record, hrec⟩
      · exact hs.recorded key' hkey'
    · rename_i score _
      simp only [wp_bind, wp_change, wp_read]
      have hinserted : ∀ evictable_slots,
          let s' : Core :=
            { s with
              pools.evictable := (s.pools.evictable.insert key score).1
              pools.evictable_slots := evictable_slots
              pools.unscored := s.pools.unscored.erase key
              tick := s.tick + 1 }
          t = t ∧ RankOnly s s' ∧ Consistent s' ∧
            (∀ key', key' ≠ key →
              s'.pools.evictable.live.get? key' = s.pools.evictable.live.get? key') ∧
            s'.pools.evictable.size ≤ s.pools.evictable.size + 1 := by
        intro evictable_slots
        refine ⟨rfl, ⟨_, _, _, _, rfl⟩, ?_, fun _ hne => EvictionQueue.insert_get?_ne hne,
          EvictionQueue.insert_size⟩
        refine hs.rank ⟨_, _, _, _, rfl⟩ ?_ (fun key' hkey' => ?_) fun key' hkey' => ?_
        · exact EvictionQueue.Settled.insert hs.queue key score
        · by_cases hkk : key' = key
          · subst hkk
            exact Or.inr ⟨record, r, hrec, hlocal, hready, hunclaimed⟩
          · refine Or.inl ?_
            unfold Dict.contains at hkey' ⊢
            rwa [EvictionQueue.insert_get?_ne hkk] at hkey'
        · exact hs.recorded key' (OrderedSet.mem_erase.mp hkey').1
      split
      · exact wp_change.mpr (hinserted _)
      · exact wp_pure.mpr (hinserted _)

/-- The policy answered with a score that is too large, which raises: keys that had no score
may have got one, and nothing else has happened. -/
structure Overflowed (K : Knot) (s s' : Core) : Prop where
  ranks : RankOnly s s'
  scores : ∀ key ∉ s.pools.unscored,
    s'.pools.evictable.live.get? key = s.pools.evictable.live.get? key
  answer : ∃ tick m, K.env.eviction_score tick m .LOCAL_G2 = .too_large

/-- Before the scan, keys without a score may get one. -/
theorem wp_retry_unscored_consistent (hs : Consistent s)
    (hexc : ∀ s', Overflowed K s s' → Consistent s' → W.exc .overflow_error s' t) :
    wp W (retry_unscored K)
      (fun _ s' t' => t' = t ∧ RankOnly s s' ∧ Consistent s' ∧
        (∀ key ∉ s.pools.unscored,
          s'.pools.evictable.live.get? key = s.pools.evictable.live.get? key) ∧
        s'.pools.evictable.size ≤ s.pools.evictable.size + s.pools.unscored.elems.length) s t := by
  unfold retry_unscored
  simp only [wp_bind, wp_read, wp_visit]
  have hperm := permute_perm (K.env.order s.tick) s.pools.unscored.elems
  have hticked : RankOnly s { s with tick := s.tick + 1 } := ⟨_, _, _, _, rfl⟩
  refine wp_forEach (fun rest s' t' => t' = t ∧ RankOnly s s' ∧ Consistent s' ∧
      (∀ key ∈ rest, key ∈ s.pools.unscored) ∧
      (∀ key ∉ s.pools.unscored,
        s'.pools.evictable.live.get? key = s.pools.evictable.live.get? key) ∧
      s'.pools.evictable.size + rest.length ≤
        s.pools.evictable.size + s.pools.unscored.elems.length) ?_ ?_ _ _ _ ?_
  · rintro key rest s1 t1 ⟨rfl, hf, hs1, hsub, hothers, hsize⟩
    have hkey := hsub key List.mem_cons_self
    have hrec : ∃ record, s1.record key = some record := by
      obtain ⟨record, hrec⟩ := hs.recorded key hkey
      obtain ⟨_, _, _, _, rfl⟩ := hf
      exact ⟨record, hrec⟩
    refine wp_mono (wp_make_evictable_consistent hs1 hrec fun tick m hlarge =>
      hexc _ ⟨hf.trans ⟨_, _, _, _, rfl⟩, hothers, tick, m, hlarge⟩ hs1.ticked) ?_
    rintro _ s2 t2 ⟨rfl, hf2, hs2, hothers2, hsize2⟩
    refine ⟨rfl, hf.trans hf2, hs2, fun k hk => hsub k (List.mem_cons_of_mem _ hk),
      fun k hk => ?_, ?_⟩
    · rw [hothers2 k fun h => hk (h ▸ hkey), hothers k hk]
    · rw [List.length_cons] at hsize
      omega
  · rintro s1 t1 ⟨rfl, hf, hs1, -, hothers, hsize⟩
    exact ⟨rfl, hf, hs1, hothers, hsize⟩
  · refine ⟨rfl, hticked, ?_, fun key hkey => mem_permute.mp hkey, fun _ _ => rfl, ?_⟩
    · exact hs.ticked
    · rw [hperm.length_eq]

end Quiet

/-! ## The scan -/

section Scan

variable (K : Knot)

/-- The scan came to the key, which has slots of a pool that is short, and having taken the
lock was in this state. -/
def Visited (required : List (String × Nat)) (deadline : Time) (scan₀ : Scan) (s₀ : Core)
    (key : BlockKey) (s' : Core) : Prop :=
  ∃ scan s u, Passes (scan_body K required deadline) scan₀ s₀ scan s ∧
    (scan.candidates.next s.pools.evictable).1 = some key ∧
    (∃ pool ∈ scan.deficient, s.slots_of key pool ≠ []) ∧
    lock K { s with pools.evictable := (scan.candidates.next s.pools.evictable).2.1 } = .ok () s' u

/-- The key had a reader when the scan visited it. -/
def FoundReader (required : List (String × Nat)) (deadline : Time) (scan₀ : Scan) (s₀ : Core)
    (key : BlockKey) : Prop :=
  ∃ s r, Visited K required deadline scan₀ s₀ key s ∧ s.local_dram key = some r ∧
    (s.residencies r).source_readers ≠ 0

/-- The key had no reader when the scan visited it, so the policy was asked about it, and
kept it. -/
def WasKept (required : List (String × Nat)) (deadline : Time) (scan₀ : Scan) (s₀ : Core)
    (key : BlockKey) : Prop :=
  ∃ s record r, Visited K required deadline scan₀ s₀ key s ∧ s.record key = some record ∧
    (s.recs record).local_dram = some r ∧ (s.residencies r).source_readers = 0 ∧
    (decide_eviction (allowed_eviction_moves K.cfg)
      (K.env.decide_eviction s.tick
        (block_meta s key record (size_bytes K.cfg (s.residencies r))) .LOCAL_G2)
      .LOCAL_G2).1 = .KEEP

variable {K} {W : Watch Core Err Ev} {s : Core} {t : List Ev} {key : BlockKey}

/-- What the scan does with a candidate that is readable and unclaimed: pass it over
because it has nothing of what is short, because it has a reader or because the policy
keeps it, or else pick it. -/
inductive Considered (K : Knot) (required : List (String × Nat)) (s : Core) (key : BlockKey)
    (record : RecId) (r : ResId) (scan : Scan) : Scan → Prop where
  | useless (none : ∀ p ∈ (s.residencies r).pool_counts, p.1 ∉ scan.deficient) :
    Considered K required s key record r scan scan
  | read {s₁ : Core} {u : List Ev} (has : ∃ p ∈ (s.residencies r).pool_counts, p.1 ∈ scan.deficient)
      (locked : lock K s = .ok () s₁ u) (only : ReadersOnly s s₁)
      (reader : (s₁.residencies r).source_readers ≠ 0) :
    Considered K required s key record r scan scan
  | kept {s₁ : Core} {u : List Ev} (has : ∃ p ∈ (s.residencies r).pool_counts, p.1 ∈ scan.deficient)
      (locked : lock K s = .ok () s₁ u) (only : ReadersOnly s s₁)
      (unread : (s₁.residencies r).source_readers = 0)
      (keep : (decide_eviction (allowed_eviction_moves K.cfg)
        (K.env.decide_eviction s₁.tick
          (block_meta s₁ key record (size_bytes K.cfg (s₁.residencies r))) .LOCAL_G2)
        .LOCAL_G2).1 = .KEEP) :
    Considered K required s key record r scan
      { scan with deficient := short s required scan.freed }
  | picked (has : ∃ p ∈ (s.residencies r).pool_counts, p.1 ∈ scan.deficient)
      {freed : Dict String Nat}
      (adds : freed = (s.residencies r).pool_counts.foldl
        (fun d p => d.set p.1 ((d.get? p.1).getD 0 + p.2)) scan.freed) :
    Considered K required s key record r scan
      { scan with
        victims := scan.victims ++ [⟨key, record, r⟩]
        freed := freed
        deficient := short s required freed }

theorem wp_consider_candidate_cases (hg3 : K.cfg.g3 = none) {required : List (String × Nat)}
    {deadline : Time} {scan : Scan} {record : RecId} {r : ResId} (hrec : s.record key = some record)
    (hlocal : (s.recs record).local_dram = some r) (hready : (s.residencies r).state = .READY)
    (hunclaimed : (s.residencies r).claim_count = 0) (hshort : short s required scan.freed ≠ []) :
    wp W (consider_candidate K required deadline scan key)
      (fun step s' t' => ReadersOnly s s' ∧ Reads t t' ∧
        ∃ scan', step = .next scan' ∧ Considered K required s key record r scan scan') s t := by
  unfold consider_candidate
  simp only [wp_bind, wp_read, hrec]
  rw [hlocal]
  dsimp only
  rw [if_neg (by rw [hready, hunclaimed]; simp)]
  refine wp_ite.mpr ⟨fun hall => ?_, fun hsome => ?_⟩
  · refine wp_pure.mpr ⟨.refl, .refl, _, rfl, .useless fun p hp => ?_⟩
    exact of_decide_eq_true (List.all_eq_true.mp hall p hp)
  simp only [List.all_eq_true, not_forall, decide_eq_true_iff, not_not, exists_prop] at hsome
  refine wp_seq (wp_run wp_lock_reads) ?_
  rintro _ s₁ t₁ ⟨⟨hf, hreads⟩, u, hrun, -⟩
  rw [wp_bind, wp_read]
  refine wp_ite.mpr ⟨fun hread => ?_, fun hunread => ?_⟩
  · exact wp_pure.mpr ⟨hf, hreads, _, rfl, .read hsome hrun hf hread⟩
  have hsize : size_bytes K.cfg (s.residencies r) = size_bytes K.cfg (s₁.residencies r) := by
    obtain ⟨n, hn⟩ := hf.residency r
    rw [hn]
    rfl
  have hticked : ReadersOnly s { s₁ with tick := s₁.tick + 1 } :=
    hf.trans ⟨_, _, _, _, _, _, _, rfl, fun r => ⟨_, rfl⟩, Nat.le_succ _⟩
  have hfree : ∀ freed, short { s₁ with tick := s₁.tick + 1 } required freed =
      short s required freed := (ScanOnly.readers hticked).short required
  unfold core_decide_eviction policy_decide_eviction
  simp only [hg3, Option.isSome_none, Bool.false_eq_true, if_false, wp_bind, wp_ask, wp_pure,
    wp_read]
  rw [hfree, if_neg hshort, hsize]
  refine wp_ite.mpr ⟨fun hkept => ?_, fun hdropped => ?_⟩
  · exact wp_pure.mpr ⟨hticked, hreads, _, rfl, .kept hsome hrun hf (not_not.mp hunread) hkept⟩
  · rw [hfree]
    exact wp_pure.mpr ⟨hticked, hreads, _, rfl, .picked hsome rfl⟩

/-- Each of these keys has slots in a pool that is short after the ones before it. -/
def Chosen (layout : List Label) (s : Core) (keys : List BlockKey) : Prop :=
  ∀ before key after, keys = before ++ key :: after → ∃ pool,
    s.slots_of key pool ≠ [] ∧
    (s.free_of pool).length + s.freeable before pool < needed layout pool

theorem Chosen.concat {layout : List Label} {keys : List BlockKey} {pool : String}
    (h : Chosen layout s keys) (hslots : s.slots_of key pool ≠ [])
    (hlt : (s.free_of pool).length + s.freeable keys pool < needed layout pool) :
    Chosen layout s (keys ++ [key]) := by
  intro before key' after heq
  rcases List.eq_nil_or_concat after with rfl | ⟨after', last, rfl⟩
  · obtain ⟨rfl, hkey⟩ := List.append_inj' heq rfl
    cases hkey
    exact ⟨pool, hslots, hlt⟩
  · refine h before key' after' ?_
    have hassoc : keys ++ [key] = (before ++ key' :: after') ++ [last] := by
      rw [heq, List.append_assoc, List.cons_append, List.concat_eq_append]
    exact (List.append_inj' hassoc rfl).1

/-- The scan found too little: what is free and what all unprotected candidates have that
had no reader when visited and that the policy did not keep does not suffice in some
pool. -/
def FallsShort (K : Knot) (layout : List Label) (protected_keys : List BlockKey) (deadline : Time)
    (scan₀ : Scan) (s₀ : Core) : Prop :=
  ∃ counted : List BlockKey, counted.Nodup ∧
    (∀ key, key ∈ counted ↔
      s₀.pools.evictable.live.contains key = true ∧ key ∉ protected_keys ∧
      ¬ FoundReader K (required_slots layout) deadline scan₀ s₀ key ∧
      ¬ WasKept K (required_slots layout) deadline scan₀ s₀ key) ∧
    ∃ pool, (s₀.free_of pool).length + s₀.freeable counted pool < needed layout pool

/-- Where the scan is in the queue; `items` is what it is still going to visit. -/
structure Browsed (protected_keys : List BlockKey) (s₀ : Core) (items : List (EvictionEntry Score))
    (c : Candidates Score) (s : Core) : Prop where
  only : ScanOnly s₀ s
  scanned : s.pools.evictable.Scanned c
  pending : c.Pending s.pools.evictable items
  covered : ∀ key, s₀.pools.evictable.live.contains key = true → key ∉ protected_keys →
    key ∈ c.seen ∨ ∃ item ∈ items, item.key = key
  excluded : c.excluded = protected_keys

/-- What the scan has made of the candidates it visited. -/
structure Tally (K : Knot) (layout : List Label) (protected_keys : List BlockKey) (deadline : Time)
    (scan₀ : Scan) (s₀ : Core) (scan : Scan) : Prop where
  deficient : scan.deficient = short s₀ (required_slots layout) scan.freed
  freed : ∀ pool, (scan.freed.get? pool).getD 0 = s₀.freeable (scan.victims.map (·.key)) pool
  victims : ∀ v ∈ scan.victims, v.key ∈ scan.candidates.seen ∧ v.key ∉ protected_keys ∧
    s₀.pools.evictable.live.contains v.key = true ∧
    s₀.record v.key = some v.record ∧ (s₀.recs v.record).local_dram = some v.residency
  distinct : (scan.victims.map (·.key)).Nodup
  chosen : Chosen layout s₀ (scan.victims.map (·.key))
  accounted : ∀ key ∈ scan.candidates.seen,
    FoundReader K (required_slots layout) deadline scan₀ s₀ key ∨
    WasKept K (required_slots layout) deadline scan₀ s₀ key ∨
    key ∈ scan.victims.map (·.key) ∨ ∀ pool ∈ scan.deficient, s₀.slots_of key pool = []

/-- What a list of blocks has is at most what the ones among them have that have
anything. -/
theorem freeable_le {counted keys : List BlockKey} {pool : String} (hnodup : counted.Nodup)
    (hsub : ∀ key ∈ counted, key ∈ keys ∨ s.slots_of key pool = []) :
    s.freeable counted pool ≤ s.freeable keys pool := by
  unfold Core.freeable
  have hdrop : (counted.map fun key => (s.slots_of key pool).length).sum =
      ((counted.filter fun key => key ∈ keys).map fun key => (s.slots_of key pool).length).sum := by
    clear hnodup
    induction counted with
    | nil => rfl
    | cons key counted ih =>
      have hrest := ih fun k hk => hsub k (List.mem_cons_of_mem _ hk)
      rw [List.map_cons, List.sum_cons, hrest, List.filter_cons]
      split
      · rw [List.map_cons, List.sum_cons]
      · rename_i hkey
        have hnil := (hsub key List.mem_cons_self).resolve_left fun h => hkey (decide_eq_true h)
        rw [hnil, List.length_nil, Nat.zero_add]
  rw [hdrop]
  have hsubperm : (counted.filter fun key => key ∈ keys).Subperm keys := by
    refine (hnodup.filter _).subperm fun key hkey => ?_
    exact of_decide_eq_true (List.mem_filter.mp hkey).2
  obtain ⟨l, hperm, hsublist⟩ := hsubperm
  rw [← (hperm.map _).sum_eq]
  exact (hsublist.map _).sum_le_sum fun _ _ => Nat.zero_le _

section Step

variable {layout : List Label} {protected_keys : List BlockKey} {deadline : Time}
  {scan₀ scan : Scan}
  {s₀ s' : Core} {items rest : List (EvictionEntry Score)} {c : Candidates Score}
  {item : EvictionEntry Score}

/-- Everything was visited and something is still short. -/
theorem Tally.falls_short (hb : Browsed protected_keys s₀ [] scan.candidates s)
    (ht : Tally K layout protected_keys deadline scan₀ s₀ scan) (hshort : scan.deficient ≠ []) :
    FallsShort K layout protected_keys deadline scan₀ s₀ := by
  classical
  let counts (key : BlockKey) : Prop := key ∉ protected_keys ∧
    ¬ FoundReader K (required_slots layout) deadline scan₀ s₀ key ∧
    ¬ WasKept K (required_slots layout) deadline scan₀ s₀ key
  have hnodup : (s₀.pools.evictable.live.keys.filter counts).Nodup :=
    s₀.pools.evictable.live.nodup.filter _
  obtain ⟨pool, hpool⟩ := List.exists_mem_of_ne_nil _ hshort
  have hmem : ∀ key, key ∈ s₀.pools.evictable.live.keys.filter counts ↔
      s₀.pools.evictable.live.contains key = true ∧ counts key := by
    intro key
    rw [List.mem_filter, Dict.mem_keys, Dict.contains, Option.isSome_iff_exists, decide_eq_true_iff]
  refine ⟨s₀.pools.evictable.live.keys.filter counts, hnodup, hmem, pool, ?_⟩
  have hle : s₀.freeable (s₀.pools.evictable.live.keys.filter counts) pool ≤
      s₀.freeable (scan.victims.map (·.key)) pool := by
    refine freeable_le hnodup fun key hkey => ?_
    obtain ⟨hlive, hunprotected, hunread, hdropped⟩ := (hmem key).mp hkey
    have hseen : key ∈ scan.candidates.seen := by
      rcases hb.covered key hlive hunprotected with hseen | ⟨_, hrest, _⟩
      · exact hseen
      · exact absurd hrest List.not_mem_nil
    rcases ht.accounted key hseen with h | h | h | h
    · exact absurd h hunread
    · exact absurd h hdropped
    · exact Or.inl h
    · exact Or.inr (h pool hpool)
  rw [ht.deficient, mem_short, ht.freed] at hpool
  omega

/-- The scan takes the next candidate. -/
theorem Browsed.next (hb : Browsed protected_keys s₀ (item :: rest) scan.candidates s)
    (honly : ScanOnly s₀ s') (hscanned : s'.pools.evictable.Scanned c)
    (hpending : c.Pending s'.pools.evictable rest)
    (hseen : c.seen = scan.candidates.seen.insert item.key)
    (hexcluded : c.excluded = scan.candidates.excluded) : Browsed protected_keys s₀ rest c s' where
  only := honly
  scanned := hscanned
  pending := hpending
  covered := by
    intro key hlive hunprotected
    rw [hseen, OrderedSet.mem_insert]
    rcases hb.covered key hlive hunprotected with h | ⟨e, he, hkey⟩
    · exact Or.inl (Or.inr h)
    · rcases List.mem_cons.mp he with rfl | he
      · exact Or.inl (Or.inl hkey.symm)
      · exact Or.inr ⟨e, he, hkey⟩
  excluded := hexcluded.trans hb.excluded

/-- The candidate is passed over. -/
theorem Tally.pass (ht : Tally K layout protected_keys deadline scan₀ s₀ scan)
    (hseen : c.seen = scan.candidates.seen.insert key)
    (haccounted : FoundReader K (required_slots layout) deadline scan₀ s₀ key ∨
      WasKept K (required_slots layout) deadline scan₀ s₀ key ∨
      ∀ pool ∈ scan.deficient, s₀.slots_of key pool = []) :
    Tally K layout protected_keys deadline scan₀ s₀ { scan with candidates := c } := by
  refine { ht with victims := fun v hv => ?_, accounted := fun key' hkey' => ?_ }
  · refine ⟨?_, (ht.victims v hv).2⟩
    dsimp only
    rw [hseen, OrderedSet.mem_insert]
    exact Or.inr (ht.victims v hv).1
  · dsimp only at hkey' ⊢
    rw [hseen, OrderedSet.mem_insert] at hkey'
    rcases hkey' with rfl | hkey'
    · exact haccounted.imp_right (Or.imp_right Or.inr)
    · exact ht.accounted key' hkey'

/-- The candidate becomes a victim. -/
theorem Tally.pick {freed : Dict String Nat} {record : RecId} {r : ResId} {pool : String}
    (ht : Tally K layout protected_keys deadline scan₀ s₀ scan)
    (hseen : c.seen = scan.candidates.seen.insert key) (hnew : key ∉ scan.candidates.seen)
    (hkey : key ∉ protected_keys ∧ s₀.pools.evictable.live.contains key = true)
    (hrec : s₀.record key = some record) (hlocal : (s₀.recs record).local_dram = some r)
    (hfreed : ∀ pool, (freed.get? pool).getD 0 =
      (scan.freed.get? pool).getD 0 + (s₀.slots_of key pool).length)
    (hpool : pool ∈ scan.deficient) (hslots : s₀.slots_of key pool ≠ []) :
    Tally K layout protected_keys deadline scan₀ s₀
      { candidates := c
        victims := scan.victims ++ [⟨key, record, r⟩]
        freed := freed
        deficient := short s₀ (required_slots layout) freed } := by
  have hkeys : (scan.victims ++ [(⟨key, record, r⟩ : Victim)]).map (·.key) =
      scan.victims.map (·.key) ++ [key] := List.map_append
  refine ⟨rfl, fun pool => ?_, fun v hv => ?_, ?_, ?_, fun key' hkey' => ?_⟩
  · dsimp only
    rw [hfreed, ht.freed, hkeys]
    unfold Core.freeable
    rw [List.map_append, List.sum_append, List.map_singleton, List.sum_singleton]
  · dsimp only
    rw [hseen, OrderedSet.mem_insert]
    rcases List.mem_append.mp hv with hv | hv
    · exact ⟨Or.inr (ht.victims v hv).1, (ht.victims v hv).2⟩
    · rw [List.mem_singleton.mp hv]
      exact ⟨Or.inl rfl, hkey.1, hkey.2, hrec, hlocal⟩
  · dsimp only
    rw [hkeys]
    refine List.Nodup.append ht.distinct (List.nodup_singleton _) ?_
    intro key' hmem hkey'
    obtain ⟨v, hv, rfl⟩ := List.mem_map.mp hmem
    exact hnew (List.mem_singleton.mp hkey' ▸ (ht.victims v hv).1)
  · dsimp only
    rw [hkeys]
    refine ht.chosen.concat hslots ?_
    rw [ht.deficient, mem_short, ht.freed] at hpool
    exact hpool
  · dsimp only at hkey' ⊢
    rw [hseen, OrderedSet.mem_insert] at hkey'
    rw [hkeys, List.mem_append, List.mem_singleton]
    rcases hkey' with rfl | hkey'
    · exact Or.inr (Or.inr (Or.inl (Or.inr rfl)))
    · rcases ht.accounted key' hkey' with h | h | h | h
      · exact Or.inl h
      · exact Or.inr (Or.inl h)
      · exact Or.inr (Or.inr (Or.inl (Or.inl h)))
      · -- what is short now was short before
        refine Or.inr (Or.inr (Or.inr fun pool' hpool' => h pool' ?_))
        rw [mem_short, hfreed] at hpool'
        rw [ht.deficient, mem_short]
        omega

theorem ScanOnly.set_queue {queue : EvictionQueue Score}
    (hlive : queue.live = s.pools.evictable.live) :
    ScanOnly s { s with pools.evictable := queue } := ⟨queue, hlive, ReadersOnly.refl⟩

theorem wp_close_candidates_only {Q : Unit → Core → List Ev → Prop}
    (hsettled : (c.close s.pools.evictable).Settled)
    (hQ : ∀ s', ScanOnly s s' → s'.pools.evictable.Settled → Q () s' t) :
    wp W (close_candidates c) Q s t :=
  wp_change.mpr (hQ _ (ScanOnly.set_queue Candidates.close_live) hsettled)

/-- The slots of a block, from its record. -/
theorem Core.slots_of_record {record : RecId} {r : ResId} (hrec : s.record key = some record)
    (hlocal : (s.recs record).local_dram = some r) (pool : String) :
    s.slots_of key pool =
      ((s.residencies r).slots.filter fun p => p.1.pool = pool).map Prod.snd := by
  unfold Core.slots_of
  rw [Core.local_dram_of hrec hlocal]

/-- The tally after a candidate was considered. -/
theorem Tally.considered {scan' : Scan} {queue : EvictionQueue Score} {record : RecId} {r : ResId}
    (ht : Tally K layout protected_keys deadline scan₀ s₀ scan)
    (hpass : Passes (scan_body K (required_slots layout) deadline) scan₀ s₀ scan s)
    (hnext : scan.candidates.next s.pools.evictable = (some key, queue, c))
    (honly : ScanOnly s₀ { s with pools.evictable := queue })
    (hseen : c.seen = scan.candidates.seen.insert key) (hnew : key ∉ scan.candidates.seen)
    (hkey : key ∉ protected_keys ∧ s₀.pools.evictable.live.contains key = true)
    (hrec : s₀.record key = some record) (hlocal : (s₀.recs record).local_dram = some r)
    (hc : Considered K (required_slots layout) { s with pools.evictable := queue } key record r
      { scan with candidates := c } scan') :
    scan'.candidates = c ∧ Tally K layout protected_keys deadline scan₀ s₀ scan' := by
  have hslots := Core.slots_of_record hrec hlocal
  obtain ⟨n, hres⟩ := honly.residency r
  have hhas : (∃ p ∈ (s.residencies r).pool_counts, p.1 ∈ scan.deficient) →
      ∃ pool ∈ scan.deficient, s₀.slots_of key pool ≠ [] := by
    rintro ⟨⟨pool, count⟩, hhas, hlacks⟩
    have hres' : s.residencies r = { s₀.residencies r with source_readers := n } := hres
    rw [hres'] at hhas
    obtain ⟨hpos, hcount⟩ := mem_pool_counts.mp hhas
    refine ⟨pool, hlacks, ?_⟩
    rw [hslots, ne_eq, List.map_eq_nil_iff, ← List.length_eq_zero_iff]
    dsimp only at hcount
    omega
  have hvisited : (∃ p ∈ (s.residencies r).pool_counts, p.1 ∈ scan.deficient) →
      ∀ s₁ u, lock K { s with pools.evictable := queue } = .ok () s₁ u →
        Visited K (required_slots layout) deadline scan₀ s₀ key s₁ := by
    intro hsome s₁ u hrun
    refine ⟨scan, s, u, hpass, by rw [hnext], ?_, by rw [hnext]; exact hrun⟩
    have hsame : s.slots_of = s₀.slots_of := honly.slots_of
    rw [hsame]
    exact hhas hsome
  cases hc with
  | useless hnone =>
    refine ⟨rfl, ht.pass hseen (Or.inr (Or.inr fun pool hpool => ?_))⟩
    rw [hres] at hnone
    by_contra hne
    rw [hslots, List.map_eq_nil_iff] at hne
    exact hnone _ (mem_pool_counts.mpr ⟨List.length_pos_iff.mpr hne, rfl⟩) hpool
  | read hsome hrun hreaders hreader =>
    refine ⟨rfl, ht.pass hseen (Or.inl ⟨_, r, hvisited hsome _ _ hrun, ?_, hreader⟩)⟩
    rw [hreaders.local_dram, honly.local_dram]
    exact Core.local_dram_of hrec hlocal
  | kept hsome hrun hreaders hunread hkeep =>
    have hpassed := ht.pass hseen
      (Or.inr (Or.inl ⟨_, record, r, hvisited hsome _ _ hrun, ?_, ?_, hunread, hkeep⟩))
    · refine ⟨rfl, ?_⟩
      rw [honly.short, ← ht.deficient]
      exact hpassed
    · rw [hreaders.record, honly.record]
      exact hrec
    · rw [hreaders.recs, honly.recs]
      exact hlocal
  | @picked hsome freed hadds =>
    refine ⟨rfl, ?_⟩
    rw [honly.short]
    obtain ⟨pool, hlacks, hnonempty⟩ := hhas hsome
    refine ht.pick hseen hnew hkey hrec hlocal (fun pool => ?_) hlacks hnonempty
    rw [hadds, foldl_pool_counts, hres, hslots, List.length_map]

/-- One iteration of the scan. -/
theorem wp_scan_body (hg3 : K.cfg.g3 = none) (hs₀ : Consistent s₀)
    (hpass : Passes (scan_body K (required_slots layout) deadline) scan₀ s₀ scan s)
    (hb : Browsed protected_keys s₀ items scan.candidates s)
    (ht : Tally K layout protected_keys deadline scan₀ s₀ scan) :
    wp W (scan_body K (required_slots layout) deadline scan)
      (fun step s' t' => Reads t t' ∧ ScanOnly s₀ s' ∧
        match step with
        | .inl scan' => ∃ rest, rest.length < items.length ∧
          Browsed protected_keys s₀ rest scan'.candidates s' ∧
          Tally K layout protected_keys deadline scan₀ s₀ scan'
        | .inr (.inl victims) => s'.pools.evictable.Settled ∧ victims = scan.victims ∧
          scan.deficient = []
        | .inr (.inr pending) => s'.pools.evictable.Settled ∧ pending = false ∧
          FallsShort K layout protected_keys deadline scan₀ s₀) s t := by
  unfold scan_body
  refine wp_ite.mpr ⟨fun hnone => ?_, fun hshort => ?_⟩
  · refine wp_bind.mpr (wp_close_candidates_only hb.scanned.close fun s' honly hsettled =>
      wp_pure.mpr ?_)
    exact ⟨.refl, hb.only.trans honly, hsettled, rfl, hnone⟩
  have ha := Candidates.next_advance s.pools.evictable scan.candidates
  unfold next_candidate
  simp only [wp_bind, wp_read, wp_change, wp_pure]
  rcases hnext : scan.candidates.next s.pools.evictable with ⟨found, queue, c⟩
  rw [hnext] at ha
  have honly : ScanOnly s₀ { s with pools.evictable := queue } :=
    hb.only.trans (ScanOnly.set_queue ha.live)
  cases found with
  | none =>
    have hnil := hb.pending.nil_of_none ha
    subst hnil
    refine wp_bind.mpr (wp_close_candidates_only (hb.scanned.exhausted hnext)
      fun s' hclosed hsettled => wp_pure.mpr ?_)
    exact ⟨.refl, honly.trans hclosed, hsettled, rfl, ht.falls_short hb hshort⟩
  | some key =>
    obtain ⟨item, rest, rfl, rfl, hpending⟩ := hb.pending.cons_of_some ha
    obtain ⟨hseen, -, -, -, -, -, hnew, -⟩ := ha.some _ rfl
    obtain ⟨-, hitem_live, hunprotected, -⟩ := (hb.pending.mem item).mp List.mem_cons_self
    rw [hb.excluded] at hunprotected
    have hlive : s₀.pools.evictable.live.contains item.key = true := by
      rw [Dict.contains, ← hb.only.live, of_decide_eq_true hitem_live]
      rfl
    obtain ⟨record, r, hrec, hlocal, hready, hunclaimed⟩ := hs₀.ranked item.key hlive
    obtain ⟨n, hres⟩ := honly.residency r
    refine wp_bind.mpr (wp_handle.mpr (wp_mono (wp_consider_candidate_cases hg3
      (by rw [honly.record]; exact hrec) (by rw [honly.recs]; exact hlocal)
      (by rw [hres]; exact hready) (by rw [hres]; exact hunclaimed)
      (by rw [honly.short, ← ht.deficient]; exact hshort)) ?_))
    rintro step s' t' ⟨hreaders, hreads, scan', rfl, hconsidered⟩
    obtain ⟨hcand, htally⟩ := ht.considered hpass hnext honly hseen hnew ⟨hunprotected, hlive⟩ hrec
      hlocal hconsidered
    have honly' : ScanOnly s₀ s' := honly.trans (.readers hreaders)
    have hqueue : s'.pools.evictable = queue := ReadersOnly.evictable hreaders
    refine wp_pure.mpr ⟨hreads, honly', rest, Nat.lt_succ_self _, ?_, htally⟩
    rw [hcand]
    exact hb.next honly' (hqueue ▸ hb.scanned.next hnext) (hqueue ▸ hpending) hseen ha.excluded

/-- A new scan is going to visit every unprotected candidate. -/
theorem Consistent.browsed (hs : Consistent s) (protected_keys : List BlockKey) :
    ∃ items : List (EvictionEntry Score), items.length ≤ s.pools.evictable.size ∧
      Browsed protected_keys s items { excluded := protected_keys } s := by
  obtain ⟨calls, hidle, hqueue⟩ := hs.queue
  obtain ⟨hb, hr⟩ := browse_ok calls
  obtain ⟨items, hsorted, hitems⟩ := hb.exists_sorted hr hidle protected_keys
  have hpending := hb.pending hidle hsorted hitems
  rw [hqueue] at hpending
  have hlive : ∀ item ∈ items, s.pools.evictable.live.get? item.key = some item :=
    fun item hitem => of_decide_eq_true ((hpending.mem item).mp hitem).2.1
  refine ⟨items, ?_, .refl, EvictionQueue.Settled.scan hs.queue protected_keys, hpending,
    fun key hkey hunprotected => Or.inr ?_, rfl⟩
  · have hnodup : items.Nodup := hsorted.imp fun hlt => ne_of_apply_ne _ hlt.ne
    have hsub : items ⊆ s.pools.evictable.live.values := fun item hitem =>
      List.mem_map.mpr ⟨_, Dict.get?_eq_some.mp (hlive item hitem), rfl⟩
    have hle := (hnodup.subperm hsub).length_le
    rwa [Dict.values, List.length_map] at hle
  · obtain ⟨item, hitem⟩ := Option.isSome_iff_exists.mp hkey
    have hof := hb.live key
    rw [hqueue, hitem] at hof
    cases hrank : (ranking calls).of key with
    | none =>
      rw [hrank] at hof
      cases hof
    | some p =>
      rw [hrank] at hof
      cases hof
      exact ⟨⟨p.1, p.2, key⟩, (hitems _).mpr ⟨hrank, hunprotected⟩, rfl⟩

/-- The scan ends with enough victims, or with every candidate visited. -/
theorem wp_scan_candidates_spec (hg3 : K.cfg.g3 = none) (hs : Consistent s)
    (hfuel : s.pools.evictable.size < K.fuel)
    (hscan : scan₀ = { candidates := { excluded := protected_keys }
                       deficient := short s (required_slots layout) Dict.empty }) :
    wp W (scan_candidates K (required_slots layout) deadline scan₀)
      (fun outcome s' t' => Reads t t' ∧ ScanOnly s s' ∧
        s'.pools.evictable.Settled ∧
        match outcome with
        | .inl victims => ∃ scan s₁,
          Passes (scan_body K (required_slots layout) deadline) scan₀ s scan s₁ ∧
          Tally K layout protected_keys deadline scan₀ s scan ∧
          victims = scan.victims ∧ scan.deficient = []
        | .inr pending => pending = false ∧
          FallsShort K layout protected_keys deadline scan₀ s) s t := by
  obtain ⟨items, hlength, hbrowsed⟩ := hs.browsed protected_keys
  have htally : Tally K layout protected_keys deadline scan₀ s scan₀ := by
    rw [hscan]
    exact ⟨rfl, fun _ => rfl, fun _ hv => (nomatch hv), List.nodup_nil,
      fun before key after heq => absurd heq (by simp),
      fun key hkey => absurd hkey (OrderedSet.notMem_empty key)⟩
  unfold scan_candidates
  refine wp_whileFuel_lt
    (fun n scan s' t' => Reads t t' ∧ ∃ items, items.length = n ∧
      Browsed protected_keys s items scan.candidates s' ∧
      Tally K layout protected_keys deadline scan₀ s scan) ?_
    (lt_of_le_of_lt hlength hfuel) ⟨.refl, items, rfl, by rw [hscan]; exact hbrowsed, htally⟩
  rintro n scan s' t' hpass ⟨hreads, items, rfl, hb, ht⟩
  refine wp_mono (wp_scan_body hg3 hs hpass hb ht) ?_
  rintro step s'' t'' ⟨hreads', honly, hstep⟩
  rcases step with scan' | victims | pending
  · obtain ⟨rest, hlt, hb', ht'⟩ := hstep
    exact ⟨rest.length, hlt, hreads.trans hreads', rest, rfl, hb', ht'⟩
  · exact ⟨hreads.trans hreads', honly, hstep.1, scan, s', hpass, ht, hstep.2⟩
  · exact ⟨hreads.trans hreads', honly, hstep⟩

end Step

end Scan

/-! ## Evicting -/

section Evict

variable {K : Knot} {W : Watch Core Err Ev} {s s₀ : Core} {t : List Ev}

/-- The slots of a victim in one pool. -/
def Victim.slots_in (s : Core) (v : Victim) (pool : String) : List Nat :=
  ((s.residencies v.residency).slots.filter fun p => p.1.pool = pool).map Prod.snd

/-- These victims are gone, and nothing else is. -/
structure Evicted (s₀ : Core) (gone : List Victim) (s : Core) : Prop where
  residencies : s.residencies = s₀.residencies
  index : s.pools.index = s₀.pools.index
  free_of : ∀ pool, s.free_of pool = s₀.free_of pool ++ gone.flatMap fun v => v.slots_in s₀ pool
  live : ∀ key, s.pools.evictable.live.get? key =
    if key ∈ gone.map (·.key) then none else s₀.pools.evictable.live.get? key
  unscored : ∀ key, key ∈ s.pools.unscored ↔
    key ∈ s₀.pools.unscored ∧ key ∉ gone.map (·.key)
  queue : s₀.pools.evictable.Settled → s.pools.evictable.Settled
  marker : s.pools.capacity_eviction_key = s₀.pools.capacity_eviction_key
  record : ∀ key, s.record key = s₀.record key ∨ s.record key = none ∧ key ∈ gone.map (·.key)
  local_dram : ∀ key, s.local_dram key =
    if ∃ v ∈ gone, s₀.record key = some v.record then none else s₀.local_dram key

theorem Evicted.nil : Evicted s [] s where
  residencies := rfl
  index := rfl
  free_of := fun _ => (List.append_nil _).symm
  live := fun _ => rfl
  unscored := fun _ => ⟨fun h => ⟨h, List.not_mem_nil⟩, And.left⟩
  queue := id
  marker := rfl
  record := fun _ => Or.inl rfl
  local_dram := fun _ => by rw [if_neg (by simp)]

theorem wp_residency_observer_frame {key : BlockKey} {record : RecId} :
    wp W (residency_observer K key record)
      (fun _ s' t' => (∃ tick enabled, s' = { s with tick := tick, journal_enabled := enabled }) ∧
        ∃ u, t' = t ++ u) s t := by
  unfold residency_observer
  simp only [wp_bind, wp_read]
  refine wp_ite.mpr ⟨fun _ => ?_, fun _ => wp_pure.mpr ⟨⟨_, _, rfl⟩, [], (List.append_nil t).symm⟩⟩
  simp only [wp_bind, wp_ask]
  refine wp_ite.mpr ⟨fun _ => wp_act.mpr ⟨⟨_, _, rfl⟩, _, rfl⟩, fun _ => ?_⟩
  simp only [wp_bind, wp_act, wp_change]
  exact ⟨⟨_, _, rfl⟩, _, rfl⟩

theorem Core.record_pruned_or {key key' : BlockKey} :
    (s.pruned key).record key' = s.record key' ∨
      (s.pruned key).record key' = none ∧ key' = key := by
  unfold Core.pruned
  cases s.record key with
  | none => exact Or.inl rfl
  | some record =>
    dsimp only
    split
    · change (s.block_record_map.erase key).get? key' = _ ∨
        (s.block_record_map.erase key).get? key' = none ∧ _
      rw [Dict.get?_erase]
      split
      · rename_i heq
        exact Or.inr ⟨rfl, heq⟩
      · exact Or.inl rfl
    · exact Or.inl rfl

/-- The state once a victim has left its record and its slots are back. -/
theorem Evicted.evict {gone : List Victim} {v : Victim} (he : Evicted s₀ gone s) {x : BlockRecord}
    (hx : x.local_dram = none) {s₁ : Core} (hres : s₁.residencies = s.residencies)
    (hunranked : s₁.pools = (s.unranked v.key v.residency).pools) (hrecord : s₁.record = s.record)
    (hrecs : s₁.recs = Function.update s.recs v.record x) :
    Evicted s₀ (gone ++ [v])
      { s₁.pruned v.key with
        pools.free_slots := free_locations (s₁.residencies v.residency).slots
          (s₁.pruned v.key).pools.free_slots } := by
  have hpools : (s₁.pruned v.key).pools = (s.unranked v.key v.residency).pools :=
    Core.pruned_frame.pools.trans hunranked
  refine ⟨?_, ?_, fun pool => ?_, fun key => ?_, fun key => ?_, fun hsettled => ?_, ?_,
    fun key => ?_, fun key => ?_⟩
  · exact Core.pruned_frame.residencies.trans (hres.trans he.residencies)
  · exact (congrArg Pools.index hpools).trans he.index
  · change ((free_locations _ (s₁.pruned v.key).pools.free_slots).get? pool).getD [] = _
    rw [getD_free_locations, hpools, List.flatMap_append, ← List.append_assoc, ← he.free_of, hres,
      he.residencies]
    exact congrArg _ (List.append_nil _).symm
  · change (s₁.pruned v.key).pools.evictable.live.get? key = _
    rw [hpools]
    change (s.pools.evictable.live.erase v.key).get? key = _
    rw [Dict.get?_erase, he.live]
    by_cases hkey : key = v.key <;> simp [hkey]
  · change key ∈ (s₁.pruned v.key).pools.unscored ↔ _
    rw [hpools, List.map_append, List.mem_append, List.map_singleton, List.mem_singleton]
    change key ∈ s.pools.unscored.erase v.key ↔ _
    rw [OrderedSet.mem_erase, he.unscored, not_or, and_assoc]
  · change (s₁.pruned v.key).pools.evictable.Settled
    rw [hpools]
    exact (he.queue hsettled).remove v.key
  · change (s₁.pruned v.key).pools.capacity_eviction_key = _
    rw [hpools]
    exact he.marker
  · change (s₁.pruned v.key).record key = _ ∨ (s₁.pruned v.key).record key = none ∧ _
    rw [List.map_append, List.mem_append, List.map_singleton, List.mem_singleton]
    rcases Core.record_pruned_or (s := s₁) with h | ⟨hnone, heq⟩
    · rw [h, hrecord]
      exact (he.record key).imp_right fun h => ⟨h.1, .inl h.2⟩
    · exact Or.inr ⟨hnone, .inr heq⟩
  · change (s₁.pruned v.key).local_dram key = _
    rw [Core.local_dram_pruned]
    have hlocal : s₁.local_dram key =
        if s.record key = some v.record then none else s.local_dram key := by
      unfold Core.local_dram
      rw [hrecord, hrecs]
      cases s.record key with
      | none => rfl
      | some record =>
        by_cases heq : record = v.record
        · simp [heq, hx]
        · simp [heq]
    have hiff : (∃ v' ∈ gone ++ [v], s₀.record key = some v'.record) ↔
        (∃ v' ∈ gone, s₀.record key = some v'.record) ∨ s₀.record key = some v.record := by
      simp [or_and_right, exists_or]
    rw [hlocal]
    rcases he.record key with hrec | ⟨hrec, -⟩
    · rw [hrec, he.local_dram]
      by_cases h : s₀.record key = some v.record
      · rw [if_pos h, if_pos (hiff.mpr (Or.inr h))]
      · rw [if_neg h]
        simp only [hiff, h, or_false]
    · -- a record that was pruned has no residency to lose
      have hnone : s.local_dram key = none := by rw [Core.local_dram, hrec]; rfl
      rw [hnone, ite_self]
      rw [he.local_dram] at hnone
      split
      · rfl
      · rename_i hnot
        rw [if_neg fun h => hnot (hiff.mpr (Or.inl h))] at hnone
        exact hnone.symm

/-- One more victim goes. -/
theorem wp_evict_victim_spec {gone : List Victim} {v : Victim} (he : Evicted s₀ gone s) :
    wp W (evict_victim K v)
      (fun _ s' t' => Evicted s₀ (gone ++ [v]) s' ∧ ∃ u, t' = t ++ u ∧
        ∃ e ∈ u, e.act = .evict v.key v.record v.residency ∧
          e.state.residencies = s₀.residencies) s t := by
  unfold evict_victim
  rw [wp_bind, wp_remove_evictable, wp_bind, wp_act, wp_bind, wp_modify_rec]
  refine wp_seq wp_residency_observer_frame ?_
  rintro _ s₁ t₁ ⟨⟨tick, enabled, rfl⟩, u, rfl⟩
  rw [wp_bind, wp_read]
  have hlogged : ∀ u' : List Ev, ∃ u'', (t ++ [(⟨.evict v.key v.record v.residency,
      s.unranked v.key v.residency⟩ : Ev)]) ++ u ++ u' = t ++ u'' ∧
      ∃ e ∈ u'', e.act = .evict v.key v.record v.residency ∧
        e.state.residencies = s₀.residencies := by
    intro u'
    exact ⟨[_] ++ (u ++ u'), by rw [List.append_assoc, List.append_assoc], _,
      List.mem_append_left _ (List.mem_singleton_self _), rfl, he.residencies⟩
  unfold on_remove
  rw [wp_bind]
  refine wp_ite.mpr ⟨fun _ => ?_, fun _ => ?_⟩
  · rw [wp_act, wp_bind, wp_prune_block_record, wp_free]
    refine ⟨he.evict rfl rfl rfl rfl rfl, ?_⟩
    rw [List.append_assoc (_ ++ u)]
    exact hlogged _
  · rw [wp_pure, wp_bind, wp_prune_block_record, wp_free]
    exact ⟨he.evict rfl rfl rfl rfl rfl, hlogged _⟩

/-- All victims go, each told of on the way. -/
theorem wp_evict_victims_spec (victims : List Victim) :
    wp W (forEach victims (evict_victim K))
      (fun _ s' t' => Evicted s victims s' ∧ ∃ u, t' = t ++ u ∧
        ∀ v ∈ victims, ∃ e ∈ u, e.act = .evict v.key v.record v.residency ∧
          e.state.residencies = s.residencies) s t := by
  refine wp_forEach (fun rest s' t' => ∃ gone, victims = gone ++ rest ∧ Evicted s gone s' ∧
      ∃ u, t' = t ++ u ∧ ∀ v ∈ gone, ∃ e ∈ u, e.act = .evict v.key v.record v.residency ∧
        e.state.residencies = s.residencies) ?_ ?_ _ _ _
    ⟨[], rfl, .nil, [], (List.append_nil t).symm, fun _ hv => (nomatch hv)⟩
  · rintro v rest s₁ t₁ ⟨gone, hvictims, he, u, rfl, hu⟩
    refine wp_mono (wp_evict_victim_spec he) ?_
    rintro _ s₂ t₂ ⟨he', u', rfl, e, hmem, hact, hstate⟩
    refine ⟨gone ++ [v], ?_, he', u ++ u', List.append_assoc _ _ _, fun v' hv' => ?_⟩
    · rw [hvictims, List.append_assoc, List.singleton_append]
    · rcases List.mem_append.mp hv' with hv' | hv'
      · obtain ⟨e', hmem', hrest⟩ := hu v' hv'
        exact ⟨e', List.mem_append_left _ hmem', hrest⟩
      · rw [List.mem_singleton.mp hv']
        exact ⟨e, List.mem_append_right _ hmem, hact, hstate⟩
  · rintro s₁ t₁ ⟨gone, hvictims, he, hlog⟩
    rw [List.append_nil] at hvictims
    rw [hvictims]
    exact ⟨he, hlog⟩

end Evict

/-! ## All or nothing -/

section Allocate

/-- The slots were granted: one for each label, in order, from the front of what its pool
had and what the victims left. Each victim was readable, unclaimed, unread and not
protected when it went, had slots of a pool that was still short when it was chosen, and
is gone as a whole; every other block stays. -/
structure Granted (layout : List Label) (protected_keys : List BlockKey) (s s' : Core) (t : List Ev)
    (locations : List (Label × Nat)) (evicted : List BlockKey) : Prop where
  labels : locations.map Prod.fst = layout
  apart : (locations.map location_slot).Nodup
  slots : ∀ pool, s.free_of pool ++ evicted.flatMap (fun key => s.slots_of key pool) =
    (locations.filter fun p => p.1.pool = pool).map Prod.snd ++ s'.free_of pool
  distinct : evicted.Nodup
  chosen : Chosen layout s evicted
  victims : ∀ key ∈ evicted, key ∉ protected_keys ∧ ∃ record r,
    s.record key = some record ∧ (s.recs record).local_dram = some r ∧
    ∃ e ∈ t, e.act = .evict key record r ∧ (e.state.residencies r).state = .READY ∧
      (e.state.residencies r).claim_count = 0 ∧ (e.state.residencies r).source_readers = 0
  gone : ∀ key ∈ evicted, s'.local_dram key = none ∧ s'.pools.index.get? key = none ∧
    s'.pools.evictable.live.get? key = none ∧ key ∉ s'.pools.unscored
  others : ∀ key ∉ evicted, s'.local_dram key = s.local_dram key

/-- The slots were refused: the progress thread may have acquired readers and keys that
had no score may have got one, and nothing else has happened. What is there falls short,
or a victim the scan had selected gained a reader. -/
structure Refused (K : Knot) (layout : List Label) (protected_keys : List BlockKey)
    (deadline : Time) (s s' : Core) (t : List Ev) : Prop where
  unchanged : ∃ residencies evictable evictable_slots unscored active operations completions readers
      capacity_pressure_pools tick,
    s' =
      { s with
        residencies := residencies
        pools.evictable := evictable
        pools.evictable_slots := evictable_slots
        pools.unscored := unscored
        pools.active := active
        pools.operations := operations
        pools.completions := completions
        pools.readers := readers
        capacity_pressure_pools := capacity_pressure_pools
        tick := tick } ∧
    ∀ r, ∃ n, residencies r = { s.residencies r with source_readers := n }
  scores : ∀ key ∉ s.pools.unscored,
    s'.pools.evictable.live.get? key = s.pools.evictable.live.get? key
  silent : ∀ e ∈ t, ∃ key r refs, e.act = .read_from key r refs
  reason : ∃ s₀ u scan₀, retry_unscored K s = .ok () s₀ u ∧
    scan₀ = { candidates := { excluded := protected_keys }
              deficient := short s₀ (required_slots layout) Dict.empty } ∧
    (FallsShort K layout protected_keys deadline scan₀ s₀ ∨
      ∃ scan s₁, Passes (scan_body K (required_slots layout) deadline) scan₀ s₀ scan s₁ ∧
        scan.deficient = [] ∧ ∃ v ∈ scan.victims, (s'.residencies v.residency).source_readers ≠ 0)

variable {K : Knot} {layout : List Label} {protected_keys : List BlockKey} {deadline : Time}
  {s s₀ s' : Core}

theorem nodup_append_flatMap {α β : Type} [DecidableEq α] {xs : List β} {keys sub : List α}
    {f : α → List β} (h : (xs ++ keys.flatMap f).Nodup) (hnodup : sub.Nodup) (hsub : sub ⊆ keys) :
    (xs ++ sub.flatMap f).Nodup := by
  obtain ⟨l, hperm, hsublist⟩ := hnodup.subperm hsub
  refine ((hperm.flatMap_right f).append_left xs).nodup_iff.mp (h.sublist ?_)
  exact (hsublist.flatMap f).append_left xs

/-- Two keys with slots of one pool do not share a record. -/
theorem Consistent.record_inj (hs : Consistent s) {key key' : BlockKey} {record : RecId}
    {pool : String} (hrec : s.record key = some record) (hrec' : s.record key' = some record)
    (hslots : s.slots_of key pool ≠ []) : key = key' := by
  by_contra hne
  have hmem : ∀ k, s.record k = some record → k ∈ s.block_record_map.keys :=
    fun k hk => Dict.mem_keys.mpr ⟨record, hk⟩
  have hsame : s.slots_of key' pool = s.slots_of key pool := by
    unfold Core.slots_of Core.local_dram
    rw [hrec, hrec']
  have hpair : [key, key'] ⊆ s.block_record_map.keys := by simp [hmem key hrec, hmem key' hrec']
  have hnodup := nodup_append_flatMap (hs.apart pool) (by simp [hne]) hpair
  have htwice := (List.nodup_append.mp hnodup).2.1
  rw [List.flatMap_cons, List.flatMap_cons, List.flatMap_nil, List.append_nil, hsame] at htwice
  obtain ⟨slot, hslot⟩ := List.exists_mem_of_ne_nil _ hslots
  exact List.disjoint_of_nodup_append htwice hslot hslot

/-- What the scan leaves is consistent once its iteration is closed. -/
theorem Consistent.scanned (hs : Consistent s) (honly : ScanOnly s s')
    (hqueue : s'.pools.evictable.Settled) : Consistent s' := by
  have hslots := honly.slots_of
  have hfree := honly.free_of
  obtain ⟨queue, hlive, _, _, _, _, _, _, _, rfl, hres, -⟩ := honly
  refine ⟨hqueue, fun key hkey => ?_, hs.recorded, hs.settled, fun pool => ?_⟩
  · have hkey' : s.pools.evictable.live.contains key = true := hlive ▸ hkey
    obtain ⟨record, r, hrec, hlocal, hready, hunclaimed⟩ := hs.ranked key hkey'
    obtain ⟨n, hn⟩ := hres r
    dsimp only at hn ⊢
    refine ⟨record, r, hrec, hlocal, ?_, ?_⟩
    · rw [hn]
      exact hready
    · rw [hn]
      exact hunclaimed
  · rw [hslots, hfree]
    exact hs.apart pool

/-- Slots that are taken from the pools are in the hand of the caller. -/
theorem Consistent.popped {locations : List (Label × Nat)} (hs : Consistent s)
    (hpopped : ∀ pool, s.free_of pool =
      (locations.filter fun p => p.1.pool = pool).map Prod.snd ++ s'.free_of pool)
    (hs' : ∃ free_slots, s' = { s with pools.free_slots := free_slots }) :
    Holding s' locations := by
  have hhand : ∀ pool, ((locations.filter fun p => p.1.pool = pool).map Prod.snd ++
      (s'.free_of pool ++ s.block_record_map.keys.flatMap fun key => s.slots_of key pool)).Nodup :=
    fun pool => by
      rw [← List.append_assoc, ← hpopped]
      exact hs.apart pool
  obtain ⟨free_slots, rfl⟩ := hs'
  exact ⟨⟨hs.queue, hs.ranked, hs.recorded, hs.settled, fun pool => (hhand pool).of_append_right⟩,
    hhand⟩

/-- The victim is a block of the table, and has slots. -/
structure Victim.Listed (s : Core) (v : Victim) : Prop where
  record : s.record v.key = some v.record
  local_dram : (s.recs v.record).local_dram = some v.residency
  slots : ∃ pool, s.slots_of v.key pool ≠ []

section Evicted

variable {gone : List Victim}

/-- A victim has no residency any more. -/
theorem Evicted.no_residency (he : Evicted s₀ gone s) (hlisted : ∀ v ∈ gone, v.Listed s₀)
    {key : BlockKey} (hkey : key ∈ gone.map (·.key)) : s.local_dram key = none := by
  obtain ⟨v, hv, rfl⟩ := List.mem_map.mp hkey
  exact (he.local_dram v.key).trans (if_pos ⟨v, hv, (hlisted v hv).record⟩)

/-- The other blocks keep theirs: none of them shares a record with a victim. -/
theorem Evicted.others (he : Evicted s₀ gone s) (hs₀ : Consistent s₀)
    (hlisted : ∀ v ∈ gone, v.Listed s₀) {key : BlockKey} (hkey : key ∉ gone.map (·.key)) :
    s.local_dram key = s₀.local_dram key := by
  refine (he.local_dram key).trans (if_neg ?_)
  rintro ⟨v, hv, hrec⟩
  obtain ⟨pool, hne⟩ := (hlisted v hv).slots
  exact hkey (hs₀.record_inj (hlisted v hv).record hrec hne ▸ List.mem_map_of_mem hv)

/-- Who has the slots after an eviction. -/
theorem Evicted.slots_of (he : Evicted s₀ gone s) (hs₀ : Consistent s₀)
    (hlisted : ∀ v ∈ gone, v.Listed s₀) (key : BlockKey) (pool : String) :
    s.slots_of key pool = if key ∈ gone.map (·.key) then [] else s₀.slots_of key pool := by
  unfold Core.slots_of
  rw [he.residencies]
  by_cases hkey : key ∈ gone.map (·.key)
  · rw [if_pos hkey, he.no_residency hlisted hkey]
  · rw [if_neg hkey, he.others hs₀ hlisted hkey]

theorem flatMap_ite_nil {α β : Type} {p : α → Prop} [DecidablePred p] {f : α → List β}
    {xs : List α} :
    (xs.flatMap fun x => if p x then [] else f x) = (xs.filter fun x => ¬ p x).flatMap f := by
  induction xs with
  | nil => rfl
  | cons x xs ih =>
    rw [List.flatMap_cons, ih, List.filter_cons]
    by_cases hx : p x
    · rw [if_pos hx, if_neg (by simpa using hx), List.nil_append]
    · rw [if_neg hx, if_pos (by simpa using hx), List.flatMap_cons]

/-- Evicting blocks of the table leaves a consistent state. -/
theorem Consistent.evicted (hs₀ : Consistent s₀) (he : Evicted s₀ gone s)
    (hdistinct : (gone.map (·.key)).Nodup) (hlisted : ∀ v ∈ gone, v.Listed s₀) :
    Consistent s := by
  refine ⟨he.queue hs₀.queue, fun key hkey => ?_, fun key hkey => ?_, he.marker.trans hs₀.settled,
    fun pool => ?_⟩
  · have hlive := he.live key
    unfold Dict.contains at hkey
    rw [hlive] at hkey
    split at hkey
    · cases hkey
    · next hstays =>
      obtain ⟨record, r, hrec, hlocal, hready, hunclaimed⟩ := hs₀.ranked key hkey
      have hsame := (he.others hs₀ hlisted hstays).trans (Core.local_dram_of hrec hlocal)
      obtain ⟨record', hrec', hlocal'⟩ := Option.bind_eq_some_iff.mp hsame
      exact ⟨record', r, hrec', hlocal', by rw [he.residencies]; exact hready,
        by rw [he.residencies]; exact hunclaimed⟩
  · obtain ⟨hunscored, hstays⟩ := (he.unscored key).mp hkey
    obtain ⟨record, hrec⟩ := hs₀.recorded key hunscored
    exact ⟨record, ((he.record key).resolve_right fun h => hstays h.2).trans hrec⟩
  · -- what the victims had is free now, and the rest is where it was
    have hfreed : (gone.flatMap fun v => v.slots_in s₀ pool) =
        (gone.map (·.key)).flatMap fun key => s₀.slots_of key pool := by
      rw [List.flatMap_map]
      refine List.flatMap_congr fun v hv => ?_
      rw [Core.slots_of_record (hlisted v hv).record (hlisted v hv).local_dram, Victim.slots_in]
    simp only [he.slots_of hs₀ hlisted]
    rw [he.free_of, hfreed, flatMap_ite_nil, List.append_assoc, ← List.flatMap_append]
    refine nodup_append_flatMap (hs₀.apart pool) ?_ fun key hkey => ?_
    · refine List.Nodup.append hdistinct (s.block_record_map.nodup.filter _) ?_
      exact fun key hgone hstays => of_decide_eq_true (List.mem_filter.mp hstays).2 hgone
    · rw [Dict.mem_keys]
      rcases List.mem_append.mp hkey with hkey | hkey
      · obtain ⟨v, hv, rfl⟩ := List.mem_map.mp hkey
        exact ⟨v.record, (hlisted v hv).record⟩
      · obtain ⟨record, hrec⟩ := Dict.mem_keys.mp (List.mem_of_mem_filter hkey)
        refine ⟨record, ?_⟩
        rcases he.record key with hsame | ⟨hnone, -⟩
        · exact hsame.symm.trans hrec
        · exact absurd (hnone.symm.trans hrec) (by simp)

end Evicted

theorem Chosen.congr {keys : List BlockKey} (h : Chosen layout s₀ keys)
    (hslots : s₀.slots_of = s.slots_of) (hfree : s₀.free_of = s.free_of) :
    Chosen layout s keys := by
  unfold Chosen Core.freeable at h ⊢
  rwa [hslots, hfree] at h

/-- No victim is a source any more. -/
def Core.unlisted (s : Core) (victims : List Victim) : Core :=
  { s with pools.index := victims.foldl (fun d v => d.erase v.key) s.pools.index }

theorem Consistent.unlisted (hs : Consistent s) (victims : List Victim) :
    Consistent (s.unlisted victims) :=
  ⟨hs.queue, hs.ranked, hs.recorded, hs.settled, hs.apart⟩

/-- The scan picks blocks of the table that have slots. -/
theorem Tally.listed {scan₀ scan : Scan}
    (ht : Tally K layout protected_keys deadline scan₀ s₀ scan) (honly : ScanOnly s₀ s) :
    ∀ v ∈ scan.victims, v.Listed (s.unlisted scan.victims) := by
  intro v hv
  obtain ⟨-, -, -, hrec, hlocal⟩ := ht.victims v hv
  refine ⟨(congrFun honly.record v.key).trans hrec, ?_, ?_⟩
  · exact (congrArg BlockRecord.local_dram (congrFun honly.recs v.record)).trans hlocal
  · obtain ⟨before, after, hsplit⟩ := List.append_of_mem (List.mem_map_of_mem (f := (·.key)) hv)
    obtain ⟨pool, hne, -⟩ := ht.chosen before v.key after hsplit
    exact ⟨pool, honly.slots_of ▸ hne⟩

theorem get?_foldl_erase {victims : List Victim} {d : Dict BlockKey (Option ResId)} {key : BlockKey}
    (hkey : key ∈ victims.map (·.key) ∨ d.get? key = none) :
    (victims.foldl (fun d v => d.erase v.key) d).get? key = none := by
  induction victims generalizing d with
  | nil => exact hkey.resolve_left List.not_mem_nil
  | cons v victims ih =>
    rw [List.foldl_cons]
    refine ih ?_
    rw [Dict.get?_erase, List.map_cons, List.mem_cons] at *
    rcases hkey with (rfl | hkey) | hkey
    · exact Or.inr (if_pos rfl)
    · exact Or.inl hkey
    · exact Or.inr (by rw [hkey, ite_self])

/-- With enough in every pool, each label gets a slot. -/
theorem wp_pop_slots_spec {W : Watch Core Err Ev} {t : List Ev}
    (henough : ∀ pool, needed layout pool ≤ (s.free_of pool).length) :
    wp W (pop_slots layout)
      (fun locations s' t' => locations.map Prod.fst = layout ∧
        (∀ pool, s.free_of pool =
          (locations.filter fun p => p.1.pool = pool).map Prod.snd ++ s'.free_of pool) ∧
        (∃ free_slots, s' = { s with pools.free_slots := free_slots }) ∧ ∃ u, t' = t ++ u) s t := by
  obtain ⟨locations, free_slots, htake, hlabels, hpools⟩ := take_slots_of_enough henough
  unfold pop_slots
  rw [wp_bind, wp_read]
  simp only [htake, wp_bind, wp_act, wp_change, wp_pure]
  exact ⟨hlabels, hpools, ⟨_, rfl⟩, _, rfl⟩

/-- What eviction and allocation have done together. -/
theorem Granted.of_evicted {s₃ s₅ : Core} {t : List Ev} {scan₀ scan : Scan}
    {locations : List (Label × Nat)} (hs : Consistent s) (hrank : RankOnly s s₀)
    (hs₀ : Consistent s₀) (honly : ScanOnly s₀ s₃)
    (ht : Tally K layout protected_keys deadline scan₀ s₀ scan)
    (hs₃ : Consistent s₃)
    (hunread : ∀ v ∈ scan.victims, (s₃.residencies v.residency).source_readers = 0)
    (he : Evicted (s₃.unlisted scan.victims) scan.victims s₅)
    (htold : ∀ v ∈ scan.victims, ∃ e ∈ t, e.act = .evict v.key v.record v.residency ∧
      e.state.residencies = s₃.residencies)
    (hlabels : locations.map Prod.fst = layout)
    (hpopped : ∀ pool, s₅.free_of pool =
      (locations.filter fun p => p.1.pool = pool).map Prod.snd ++ s'.free_of pool)
    (hs' : ∃ free_slots, s' = { s₅ with pools.free_slots := free_slots }) :
    Granted layout protected_keys s s' t locations (scan.victims.map (·.key)) := by
  have hslots : s₀.slots_of = s.slots_of := hrank.slots_of
  have hfree : s₃.free_of = s.free_of := honly.free_of.trans hrank.free_of
  have hlocal : s₃.local_dram = s.local_dram := by
    rw [honly.local_dram]
    obtain ⟨_, _, _, _, rfl⟩ := hrank
    rfl
  have hvictim : ∀ v ∈ scan.victims, s.record v.key = some v.record ∧
      (s.recs v.record).local_dram = some v.residency := by
    intro v hv
    obtain ⟨-, -, -, hrec, hheld⟩ := ht.victims v hv
    obtain ⟨_, _, _, _, rfl⟩ := hrank
    exact ⟨hrec, hheld⟩
  have hin : ∀ v ∈ scan.victims, ∀ pool, v.slots_in s₃ pool = s.slots_of v.key pool := by
    intro v hv pool
    obtain ⟨n, hres⟩ := honly.residency v.residency
    rw [← hslots, Core.slots_of_record (ht.victims v hv).2.2.2.1 (ht.victims v hv).2.2.2.2,
      Victim.slots_in, hres]
  have hall : ∀ pool, s.free_of pool ++
      (scan.victims.map (·.key)).flatMap (fun key => s.slots_of key pool) =
        (locations.filter fun p => p.1.pool = pool).map Prod.snd ++ s'.free_of pool := by
    intro pool
    rw [← hpopped, he.free_of, List.flatMap_map]
    change _ = s₃.free_of pool ++ scan.victims.flatMap fun v => v.slots_in s₃ pool
    rw [hfree]
    congr 1
    exact List.flatMap_congr fun v hv => (hin v hv pool).symm
  obtain ⟨free_slots, rfl⟩ := hs'
  refine ⟨hlabels, nodup_map_location_slot fun pool => ?_, hall, ht.distinct,
    ht.chosen.congr hslots hrank.free_of,
    fun key hkey => ?_, fun key hkey => ?_, fun key hkey => ?_⟩
  · have hsub : scan.victims.map (·.key) ⊆ s.block_record_map.keys := by
      intro key hkey
      obtain ⟨v, hv, rfl⟩ := List.mem_map.mp hkey
      exact Dict.mem_keys.mpr ⟨_, (hvictim v hv).1⟩
    have hnodup := nodup_append_flatMap (hs.apart pool) ht.distinct hsub
    rw [hall] at hnodup
    exact (List.nodup_append.mp hnodup).1
  · obtain ⟨v, hv, rfl⟩ := List.mem_map.mp hkey
    obtain ⟨-, hunprotected, hlive, hrec, hheld⟩ := ht.victims v hv
    obtain ⟨e, hmem, hact, hstate⟩ := htold v hv
    obtain ⟨record, r, hrec', hheld', hready, hunclaimed⟩ := hs₀.ranked v.key hlive
    cases hrec.symm.trans hrec'
    cases hheld.symm.trans hheld'
    obtain ⟨n, hres⟩ := honly.residency v.residency
    refine ⟨hunprotected, v.record, v.residency, (hvictim v hv).1, (hvictim v hv).2, e, hmem,
      hact, ?_⟩
    rw [hstate]
    refine ⟨?_, ?_, hunread v hv⟩
    · rw [hres]
      exact hready
    · rw [hres]
      exact hunclaimed
  · obtain ⟨v, hv, rfl⟩ := List.mem_map.mp hkey
    refine ⟨?_, ?_, ?_, fun h => ((he.unscored v.key).mp h).2 hkey⟩
    · exact he.no_residency (ht.listed honly) hkey
    · exact (congrArg (Dict.get? · v.key) he.index).trans (get?_foldl_erase (Or.inl hkey))
    · exact (he.live v.key).trans (if_pos hkey)
  · exact (he.others (hs₃.unlisted _) (ht.listed honly) hkey).trans (congrFun hlocal key)

/-- Nothing has to go. -/
theorem Granted.of_free {t : List Ev} {locations : List (Label × Nat)} (hs : Consistent s)
    (hlabels : locations.map Prod.fst = layout)
    (hpopped : ∀ pool, s.free_of pool =
      (locations.filter fun p => p.1.pool = pool).map Prod.snd ++ s'.free_of pool)
    (hs' : ∃ free_slots, s' = { s with pools.free_slots := free_slots }) :
    Granted layout protected_keys s s' t locations [] where
  labels := hlabels
  apart := by
    refine nodup_map_location_slot fun pool => ?_
    have hnodup := (List.nodup_append.mp (hs.apart pool)).1
    rw [hpopped] at hnodup
    exact (List.nodup_append.mp hnodup).1
  slots := fun pool => (List.append_nil _).trans (hpopped pool)
  distinct := List.nodup_nil
  chosen := fun before key after heq => absurd heq (by simp)
  victims := fun _ hkey => (nomatch hkey)
  gone := fun _ hkey => (nomatch hkey)
  others := by
    obtain ⟨free_slots, rfl⟩ := hs'
    exact fun _ _ => rfl

/-- A scan that picks nothing has changed nothing. -/
theorem Refused.of_scan {t : List Ev} (hrank : RankOnly s s₀)
    (hscores : ∀ key ∉ s.pools.unscored,
      s₀.pools.evictable.live.get? key = s.pools.evictable.live.get? key)
    (honly : ScanOnly s₀ s') (hreads : Reads [] t)
    (hreason : ∃ s₀ u scan₀, retry_unscored K s = .ok () s₀ u ∧
      scan₀ = { candidates := { excluded := protected_keys }
                deficient := short s₀ (required_slots layout) Dict.empty } ∧
      (FallsShort K layout protected_keys deadline scan₀ s₀ ∨
        ∃ scan s₁, Passes (scan_body K (required_slots layout) deadline) scan₀ s₀ scan s₁ ∧
          scan.deficient = [] ∧
          ∃ v ∈ scan.victims, (s'.residencies v.residency).source_readers ≠ 0)) :
    Refused K layout protected_keys deadline s s' t where
  unchanged := by
    obtain ⟨_, _, _, _, rfl⟩ := hrank
    obtain ⟨queue, -, _, _, _, _, _, _, _, rfl, hres, -⟩ := honly
    exact ⟨_, _, _, _, _, _, _, _, _, _, rfl, hres⟩
  scores := by
    intro key hkey
    rw [honly.live]
    exact hscores key hkey
  silent := by
    obtain ⟨u, rfl, hu⟩ := hreads
    exact hu
  reason := hreason

/-- What an allocation without a disk tier ends with, granted or refused; it raises only if a
score is too large. -/
theorem wp_allocate_slots_spec (hg3 : K.cfg.g3 = none) (hs : Consistent s)
    (hfuel : s.pools.evictable.size + s.pools.unscored.elems.length < K.fuel) :
    wp ⟨fun e s' t => (e = .overflow_error ∧ t = [] ∧ Overflowed K s s') ∧ Consistent s',
        fun _ => False⟩
      (allocate_slots K layout protected_keys deadline)
      (fun result s' t =>
        (∃ locations evicted, result = (some locations, evicted, false) ∧
          Granted layout protected_keys s s' t locations evicted ∧ Holding s' locations) ∨
        (result = (none, [], false) ∧ Refused K layout protected_keys deadline s s' t ∧
          Consistent s')) s [] := by
  unfold allocate_slots
  rw [wp_bind, wp_read]
  dsimp only
  refine wp_ite.mpr ⟨fun hnone => ?_, fun hshort => ?_⟩
  · -- enough is free
    rw [short_eq_nil] at hnone
    refine wp_seq (wp_pop_slots_spec hnone) ?_
    rintro locations s' t' ⟨hlabels, hpopped, hs', -⟩
    exact wp_pure.mpr (Or.inl ⟨locations, [], rfl, .of_free hs hlabels hpopped hs',
      hs.popped hpopped hs'⟩)
  rw [hs.settled]
  simp only [Option.isSome_none, Bool.false_eq_true, if_false]
  refine wp_seq (wp_run (wp_retry_unscored_consistent hs fun s' h hs' => ⟨⟨rfl, rfl, h⟩, hs'⟩)) ?_
  rintro _ s₀ t₀ ⟨⟨rfl, hrank, hs₀, hscores, hsize⟩, u₀, hretry, -⟩
  rw [wp_bind, wp_read]
  refine wp_seq (wp_scan_candidates_spec hg3 hs₀ (by omega) rfl) ?_
  rintro outcome s₂ t₂ ⟨hreads, honly, hsettled, houtcome⟩
  rcases outcome with victims | pending
  · obtain ⟨scan, s₁, hpass, htally, rfl, hdone⟩ := houtcome
    dsimp only
    refine wp_seq wp_lock_reads ?_
    rintro _ s₃ t₃ ⟨hreaders, hreads₃⟩
    have honly₃ : ScanOnly s₀ s₃ := honly.trans (.readers hreaders)
    have hs₃ : Consistent s₃ :=
      hs₀.scanned honly₃ (by rw [ReadersOnly.evictable hreaders]; exact hsettled)
    rw [wp_bind, wp_read]
    refine wp_ite.mpr ⟨fun hread => ?_, fun hunread => ?_⟩
    · -- a selected victim has gained a reader
      obtain ⟨v, hv, hread⟩ := List.any_eq_true.mp hread
      refine wp_pure.mpr (Or.inr ⟨rfl, .of_scan hrank hscores honly₃ (hreads.trans hreads₃)
        ⟨s₀, u₀, _, hretry, rfl, Or.inr ⟨scan, s₁, hpass, hdone, v, hv, ?_⟩⟩, hs₃⟩)
      exact of_decide_eq_true hread
    · have hunread' : ∀ v ∈ scan.victims, (s₃.residencies v.residency).source_readers = 0 := by
        intro v hv
        by_contra hne
        exact hunread (List.any_eq_true.mpr ⟨v, hv, decide_eq_true hne⟩)
      rw [wp_bind, wp_change]
      refine wp_seq (wp_evict_victims_spec (s := s₃.unlisted scan.victims) scan.victims) ?_
      rintro _ s₅ t₅ ⟨he, u, rfl, htold⟩
      have hs₅ : Consistent s₅ :=
        (hs₃.unlisted _).evicted he htally.distinct (htally.listed honly₃)
      have henough : ∀ pool, needed layout pool ≤ (s₅.free_of pool).length := by
        intro pool
        have h := hdone
        rw [htally.deficient, short_eq_nil] at h
        have hpool := h pool
        rw [htally.freed, ← honly₃.free_of] at hpool
        rw [he.free_of, List.length_append, List.length_flatMap]
        refine hpool.trans (le_of_eq ?_)
        congr 1
        unfold Core.freeable
        rw [List.map_map]
        congr 1
        refine List.map_congr_left fun v hv => ?_
        obtain ⟨n, hres⟩ := honly₃.residency v.residency
        change (s₀.slots_of v.key pool).length = (v.slots_in s₃ pool).length
        rw [Core.slots_of_record (htally.victims v hv).2.2.2.1 (htally.victims v hv).2.2.2.2,
          Victim.slots_in, hres]
      refine wp_seq (wp_pop_slots_spec henough) ?_
      rintro locations s' t' ⟨hlabels, hpopped, hs', u', rfl⟩
      refine wp_pure.mpr (Or.inl ⟨locations, _, rfl,
        .of_evicted hs hrank hs₀ honly₃ htally hs₃ hunread' he (fun v hv => ?_) hlabels hpopped hs',
        hs₅.popped hpopped hs'⟩)
      obtain ⟨e, hmem, he'⟩ := htold v hv
      exact ⟨e, List.mem_append_left _ (List.mem_append_right _ hmem), he'⟩
  · obtain ⟨rfl, hfalls⟩ := houtcome
    exact wp_pure.mpr (Or.inr ⟨rfl, .of_scan hrank hscores honly hreads
      ⟨s₀, u₀, _, hretry, rfl, Or.inl hfalls⟩, hs₀.scanned honly hsettled⟩)

/-- `_allocate_slots` without a disk tier grants all slots or changes nothing; it raises only if
a score is too large. -/
theorem allocate_slots_all_or_nothing (K : Knot) (hg3 : K.cfg.g3 = none) (layout : List Label)
    (protected_keys : List BlockKey) (deadline : Time) (s : Core) (hs : Consistent s)
    (hfuel : s.pools.evictable.size + s.pools.unscored.elems.length < K.fuel) :
    (∃ result s' t, allocate_slots K layout protected_keys deadline s = .ok result s' t ∧
      ((∃ locations evicted, result = (some locations, evicted, false) ∧
          Granted layout protected_keys s s' t locations evicted) ∨
        (result = (none, [], false) ∧ Refused K layout protected_keys deadline s s' t))) ∨
    ∃ e s' t, allocate_slots K layout protected_keys deadline s = .err e s' t ∧
      e = .overflow_error ∧ t = [] ∧ Overflowed K s s' := by
  refine ok_or_err_of_wp (wp_conseq (wp_allocate_slots_spec hg3 hs hfuel) (fun _ _ _ h => h.1)
    (fun _ h => h) ?_)
  rintro result s' t (⟨locations, evicted, hresult, hgranted, -⟩ | ⟨hresult, hrefused, -⟩)
  · exact Or.inl ⟨locations, evicted, hresult, hgranted⟩
  · exact Or.inr ⟨hresult, hrefused⟩

/-- An allocation leaves a consistent state, however it ends, and the slots it grants are in
nobody else's hands. -/
theorem allocate_slots_consistent (hg3 : K.cfg.g3 = none) (hs : Consistent s)
    (hfuel : s.pools.evictable.size + s.pools.unscored.elems.length < K.fuel) :
    (∃ result s' t, allocate_slots K layout protected_keys deadline s = .ok result s' t ∧
      Holding s' (result.1.getD [])) ∨
    ∃ e s' t, allocate_slots K layout protected_keys deadline s = .err e s' t ∧
      Consistent s' := by
  refine ok_or_err_of_wp (wp_conseq (wp_allocate_slots_spec hg3 hs hfuel) (fun _ _ _ h => h.2)
    (fun _ h => h) ?_)
  rintro result s' t (⟨locations, evicted, rfl, -, hholding⟩ | ⟨rfl, -, hs'⟩)
  · exact hholding
  · exact ⟨hs', hs'.apart⟩

/-- A policy that drops whatever it is asked about, and nobody else; one pool has one slot and
the other two. -/
def dropping : Knot where
  cfg :=
    { nixl_agent_name := "a", pool_layouts := [("kv", 8), ("aux", 4)]
      local_dram := some ⟨[("kv", 0, 8), ("aux", 8, 8)]⟩ }
  env :=
    { clock := fun _ => 0, order := fun _ => [], eviction_score := fun _ _ _ => .invalid
      decide_ingest := fun _ _ _ _ => none
      decide_eviction := fun _ _ _ => some (.DROP, none)
      decide_recovery := fun _ _ => none, readers := fun _ => [], progress_failed := fun _ => false
      journal_accepts := fun _ => true, recovery_preflight := fun _ => true
      route_changed := fun _ => false, request_pin := fun _ => none
      poll_pin_results := fun _ => [], release_pin := fun _ => true }
  fuel := 2
  resume_capacity_waiters := pure ()
  fail_local_dram_fill := fun _ => pure ()

/-- One block has the only slot of one pool and one of the two of the other. -/
def one_block : Core where
  recs := fun _ => { local_dram := some 0 }
  residencies := fun _ =>
    { slots := [(⟨"kv", none⟩, 0), (⟨"aux", none⟩, 0)], state := .READY
      key_layout := [⟨"kv", none⟩, ⟨"aux", none⟩] }
  block_record_map := Dict.empty.set ⟨[1]⟩ 0
  pools :=
    { free_slots := (Dict.empty.set "kv" []).set "aux" [1]
      evictable := (({} : EvictionQueue Score).insert ⟨[1]⟩ 0).1 }

theorem one_block_consistent : Consistent one_block where
  queue := ⟨[.insert ⟨[1]⟩ 0], fun _ hit => (nomatch hit), rfl⟩
  ranked := by
    intro key hkey
    have heq : key = ⟨[1]⟩ := by
      by_contra hne
      have hget : one_block.pools.evictable.live.get? key = none :=
        EvictionQueue.insert_get?_ne hne
      rw [Dict.contains, hget] at hkey
      cases hkey
    exact ⟨0, 0, by rw [heq]; rfl, rfl, rfl, rfl⟩
  recorded := fun key hkey => absurd hkey (OrderedSet.notMem_empty key)
  settled := rfl
  apart := by
    intro pool
    by_cases hkv : "kv" = pool
    · subst hkv
      decide
    by_cases haux : "aux" = pool
    · subst haux
      decide
    have hfree : one_block.free_of pool = [] := by
      unfold Core.free_of one_block
      rw [Dict.get?_set_ne _ _ (Ne.symm haux), Dict.get?_set_ne _ _ (Ne.symm hkv)]
      rfl
    have hslots : one_block.slots_of ⟨[1]⟩ pool = [] := by
      change (([(⟨"kv", none⟩, 0), (⟨"aux", none⟩, 0)] : List (Label × Nat)).filter
        fun p => p.1.pool = pool).map Prod.snd = []
      simp [hkv, haux]
    change (one_block.free_of pool ++
      [(⟨[1]⟩ : BlockKey)].flatMap fun key => one_block.slots_of key pool).Nodup
    rw [hfree, List.flatMap_cons, hslots]
    exact List.nodup_nil

/-- A group over both pools gets the slot of the block that has to go and the free one. -/
theorem allocate_slots_from_one_block :
    ∃ s' t, allocate_slots dropping [⟨"kv", none⟩, ⟨"aux", none⟩] [] 0 one_block =
        .ok (some [(⟨"kv", none⟩, 0), (⟨"aux", none⟩, 1)], [⟨[1]⟩], false) s' t ∧
      Granted [⟨"kv", none⟩, ⟨"aux", none⟩] [] one_block s' t
        [(⟨"kv", none⟩, 0), (⟨"aux", none⟩, 1)] [⟨[1]⟩] := by
  obtain ⟨s', t, hrun⟩ : ∃ s' t, allocate_slots dropping [⟨"kv", none⟩, ⟨"aux", none⟩] [] 0
      one_block = .ok (some [(⟨"kv", none⟩, 0), (⟨"aux", none⟩, 1)], [⟨[1]⟩], false) s' t :=
    ⟨_, _, rfl⟩
  have hspec := allocate_slots_all_or_nothing dropping rfl [⟨"kv", none⟩, ⟨"aux", none⟩] [] 0
    one_block one_block_consistent (by decide)
  rw [hrun] at hspec
  rcases hspec with ⟨result, s₁, t₁, hok, hgranted⟩ | ⟨e, s₁, t₁, herr, -⟩
  · cases hok
    rcases hgranted with ⟨locations, evicted, heq, hgranted⟩ | ⟨heq, -⟩
    · cases heq
      exact ⟨s', t, hrun, hgranted⟩
    · cases heq
  · cases herr

end Allocate

end Kvcr
