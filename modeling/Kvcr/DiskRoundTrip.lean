/-
What is stored on disk comes back.

A core is put next to its memory and its files, and next to a record of what was stored: for
each residency the block it is of and the labelled pieces, as they were when a store moved them.
The core makes its own events, as in every run; the transfers it has in flight move bytes at any
time until they are reported; and memory, which is shared with the framework and with peers, may
change at any time. The record is not kept by the core. It is what the theorem is about: the
blocks a core has on disk are those of the record, and a read fetches its pieces from there,
whatever was stored, evicted, overwritten or rolled back before.

Two things are taken for granted. A transfer copies descriptor by descriptor, writes only while it
is in flight, and is a success only if it has copied everything (`Disk.Step`). And the framework
has not registered files as its memory.

The books (`Kvcr.DiskBooks`) do the work; what is left is that they are right when a core starts,
also from the table of a mirror, and that a move keeps them right about the bytes.
-/
import Mathlib.Data.List.Pairwise
import Kvcr.DiskFrame
import Kvcr.MemorySafety

set_option autoImplicit false

namespace Kvcr

open Prog

/-! ## Accepted references -/

section Accepted

variable {cfg : Config} {ref : TransferRef}

/-- The local pools are those of the layouts, so the slots of a pool have its block size. -/
theorem Config.Valid.region_block_size (hvalid : cfg.Valid) {region : String × Nat × Nat × Nat}
    (hregion : region ∈ cfg.regions) : cfg.block_size region.1 = some region.2.2.2 := by
  unfold Config.regions at hregion
  cases hlocal : cfg.local_dram with
  | none =>
    rw [hlocal] at hregion
    cases hregion
  | some options =>
    rw [hlocal] at hregion
    obtain ⟨⟨pool, layout⟩, hmem, rfl⟩ := List.mem_map.mp hregion
    obtain ⟨i, hi⟩ := List.mem_iff_getElem?.mp hmem
    obtain ⟨hpool, hlayout⟩ := List.getElem?_zip_eq_some.mp hi
    have hname : layout.1 = pool.1 := by
      have hnames := congrArg (·[i]?) (hvalid.local_pools options hlocal)
      rw [List.getElem?_map, List.getElem?_map, hpool, hlayout] at hnames
      exact (Option.some.inj hnames).symm
    unfold Config.block_size
    rw [← hname, find?_of_nodup hvalid.pool_names (List.mem_of_getElem? hlayout)]
    rfl

/-- A slot of the core's own pools is memory the disk tier accepts. -/
theorem accepted_own (hvalid : cfg.Valid) (h : Own cfg (books cfg).P ref) : Accepted cfg ref := by
  have hslot : ref.element_index < cfg.slot_count ref.label.pool := h.slot
  unfold Config.slot_count at hslot
  cases hfind : cfg.regions.find? fun p => p.1 = ref.label.pool with
  | none =>
    rw [hfind] at hslot
    exact absurd hslot (Nat.not_lt_zero _)
  | some region =>
    rw [hfind] at hslot
    have hname : region.1 = ref.label.pool := by simpa using List.find?_some hfind
    have hlabels : (cfg.memory_regions.map (·.label)).Nodup := by
      have hmap : cfg.memory_regions.map (·.label) =
          (cfg.regions.map Prod.fst).map fun pool => ⟨pool, none⟩ := by
        rw [Config.memory_regions, List.map_map, List.map_map]
        rfl
      rw [hmap]
      exact hvalid.regions_nodup.map fun _ _ heq => congrArg Label.pool heq
    have hfound : find_region cfg.region_maps ref = some
        { addr := region.2.1
          count := region.2.2.1 / region.2.2.2
          size := region.2.2.2
          label := ⟨region.1, none⟩ } := by
      unfold find_region Config.region_maps
      rw [h.local_memory, if_neg Bool.false_ne_true, get?_region_map hlabels,
        Config.memory_regions, List.find?_map]
      simp only [Function.comp_def, Label.mk.injEq, and_true]
      rw [hfind]
      rfl
    refine ⟨_, (address_descriptor_eq_ok cfg).mpr ⟨_, resolve_region_eq_ok.mpr
      ⟨h.agent, hfound, hslot⟩, rfl⟩, ?_, ?_⟩
    · rw [← hname]
      exact hvalid.region_block_size (List.mem_of_find?_eq_some hfind)
    · show "DRAM" ≠ "FILE"
      decide

/-- So is framework memory that passed the checks of a call, unless files were registered as
memory. -/
theorem accepted_validated (hmemory : ∀ region ∈ cfg.framework_regions, region.mem_type ≠ "FILE")
    (h : Validated cfg ref) : Accepted cfg ref := by
  obtain ⟨region, hregion, hsize⟩ := h.sized
  have hresolve : resolve_region cfg.region_maps cfg.nixl_agent_name ref = .ok region := by
    unfold own_region at hregion
    cases hr : resolve_region cfg.region_maps cfg.nixl_agent_name ref with
    | error message =>
      rw [hr] at hregion
      cases hregion
    | ok found =>
      rw [hr] at hregion
      exact congrArg _ (Except.ok.inj hregion)
  obtain ⟨-, hfound, -⟩ := resolve_region_eq_ok.mp hresolve
  refine ⟨_, (address_descriptor_eq_ok cfg).mpr ⟨region, hresolve, rfl⟩, hsize,
    hmemory region ?_⟩
  unfold find_region at hfound
  rw [if_pos h.framework] at hfound
  split at hfound
  next other hget =>
    cases hfound
    exact (mem_of_region_map hget).1
  next =>
    split at hfound
    next => exact (mem_of_region_map hfound).1
    next => cases hfound

end Accepted

/-! ## The books of a new core -/

/-- The records are those of different blocks. -/
abbrev Tabled (a : Shelf) : Prop := Table (fun _ _ => True) a.records a.next_record a.held

/-- A shelf that nobody has read or written yet: a residency has one record, of one block, and
nothing is claimed or under way. -/
structure Unread (a : Shelf) : Prop where
  issued : ∀ r g, a.held r = some g → g < a.next
  holder : ∀ r r' g, a.held r = some g → a.held r' = some g → r = r'
  tabled : Tabled a
  listed : ∀ r g, a.held r = some g → ∃ key, a.records key = some r
  claims : ∀ g, (a.residencies g).claim_count = 0
  transfers : a.transfers = []
  ended : a.ended = []

/-- The slots of what is held were checked, and only the others are free. -/
structure Placed (cfg : Config) (a : Shelf) : Prop where
  free : a.free.Nodup
  inside : ∀ slot ∈ a.free, slot < cfg.g3_total_slots
  rows : ∀ r g, a.held r = some g → WellSized cfg (a.residencies g) ∧
    (∀ slot ∈ (a.residencies g).slots, slot < cfg.g3_total_slots) ∧
    (a.residencies g).slots.Nodup ∧ (a.residencies g).slots.Disjoint a.free
  apart : ∀ r r' g g', a.held r = some g → a.held r' = some g' → g ≠ g' →
    (a.residencies g).slots.Disjoint (a.residencies g').slots

/-- There may be more records, or less, but none that holds something new. -/
def Shelf.Shrunk (a a' : Shelf) : Prop :=
  ∃ records next_record held,
    a' = { a with records := records, next_record := next_record, held := held } ∧
    (∀ r g, held r = some g → a.held r = some g) ∧
    (∀ key r g, held r = some g → a.records key = some r → records key = some r) ∧
    (Tabled a → Tabled a')

theorem Shelf.Shrunk.refl {a : Shelf} : a.Shrunk a :=
  ⟨_, _, _, rfl, fun _ _ h => h, fun _ _ _ _ h => h, id⟩

theorem Shelf.Shrunk.trans {a a' a'' : Shelf} (h : a.Shrunk a') (h' : a'.Shrunk a'') :
    a.Shrunk a'' := by
  obtain ⟨_, _, _, rfl, hheld, hlisted, htabled⟩ := h
  obtain ⟨_, _, _, rfl, hheld', hlisted', htabled'⟩ := h'
  exact ⟨_, _, _, rfl, fun r g hr => hheld r g (hheld' r g hr),
    fun key r g hr hkey => hlisted' key r g hr (hlisted key r g (hheld' r g hr) hkey),
    fun h => htabled' (htabled h)⟩

section New

variable {cfg : Config} {T : Facts} {a a' : Shelf}

theorem Unread.shrunk (h : Unread a) (hshrunk : a.Shrunk a') : Unread a' := by
  obtain ⟨_, _, held, rfl, hheld, hlisted, htabled⟩ := hshrunk
  refine ⟨fun r g hr => h.issued r g (hheld r g hr),
    fun r r' g hr hr' => h.holder r r' g (hheld r g hr) (hheld r' g hr'), htabled h.tabled,
    fun r g hr => ?_, h.claims, h.transfers, h.ended⟩
  obtain ⟨key, hkey⟩ := h.listed r g (hheld r g hr)
  exact ⟨key, hlisted key r g hr hkey⟩

theorem Placed.shrunk (h : Placed cfg a) (hshrunk : a.Shrunk a') : Placed cfg a' := by
  obtain ⟨_, _, held, rfl, hheld, -, -⟩ := hshrunk
  exact ⟨h.free, h.inside, fun r g hr => h.rows r g (hheld r g hr),
    fun r r' g g' hr hr' => h.apart r r' g g' (hheld r g hr) (hheld r' g' hr')⟩

/-- A shelf with nothing on it. -/
theorem Placed.of_empty (hfree : a.free = List.range cfg.g3_total_slots)
    (hheld : ∀ r, a.held r = none) : Placed cfg a := by
  refine ⟨?_, fun slot hslot => ?_, fun r g hr => ?_, fun r r' g g' hr => ?_⟩
  · rw [hfree]
    exact List.nodup_range
  · rw [hfree] at hslot
    exact List.mem_range.mp hslot
  · rw [hheld r] at hr
    cases hr
  · rw [hheld r] at hr
    cases hr

/-- The books of a new core are right, for all that is known of what it holds. -/
theorem Unread.books (h : Unread a) (hplaced : Placed cfg a)
    (hshape : ∀ r g, a.held r = some g →
      T.shape g (a.residencies g).layout (a.residencies g).slots)
    (hunissued : ∀ g, a.next ≤ g → ∀ layout slots, T.shape g layout slots)
    (howner : ∀ key r g, a.records key = some r → a.held r = some g → T.owner g key)
    (hunowned : ∀ g, a.next ≤ g → ∀ key, T.owner g key)
    (hstored : ∀ r g, a.held r = some g → T.stored g) : Books cfg T {} a := by
  have hnil {α : Type} {f : G3TransferOp → List α} :
      [] ++ (a.transfers ++ a.ended).flatMap f = [] := by
    rw [h.transfers, h.ended]
    rfl
  have huse : ∀ g, (a.ledger {}).InUse g → ∃ r, a.held r = some g := by
    rintro g (hheld | hpin)
    · exact hheld
    · have hzero : (a.ledger {}).pins g = 0 := h.claims g
      exact absurd hpin (by rw [hzero]; exact Nat.lt_irrefl 0)
  have hstands : ∀ g, (a.ledger {}).Stands g → ∃ r, a.held r = some g := by
    rintro g (hin | hmem)
    · exact huse g hin
    · rw [show (a.ledger {}).reserved = [] from hnil] at hmem
      cases hmem
  have hrow : ∀ g, (a.ledger {}).Stands g → ∃ r, a.held r = some g ∧
      WellSized cfg (a.residencies g) ∧
      (∀ slot ∈ (a.residencies g).slots, slot < cfg.g3_total_slots) ∧
      (a.residencies g).slots.Nodup ∧ (a.residencies g).slots.Disjoint a.free := by
    intro g hg
    obtain ⟨r, hr⟩ := hstands g hg
    exact ⟨r, hr, hplaced.rows r g hr⟩
  refine ⟨⟨hplaced.free, ?_, ?_, fun g hg => ?_, fun g hg => ?_, fun g g' hg hg' => ?_, h.holder,
    fun g => ?_⟩, hplaced.inside, fun g hg => ?_, hunissued, hunowned,
    ⟨h.tabled.known, h.tabled.alone, howner⟩, ?_, fun g hg => ?_, ?_, ?_⟩
  · rw [show (a.ledger {}).reserved = [] from hnil]
    exact List.nodup_nil
  · rw [show (a.ledger {}).reserved = [] from hnil]
    exact fun _ hmem => absurd hmem List.not_mem_nil
  · obtain ⟨r, hr, -, -, hnodup, -⟩ := hrow g hg
    exact hnodup
  · obtain ⟨r, hr, -, -, -, hfree⟩ := hrow g hg
    exact hfree
  · obtain ⟨r, hr⟩ := hstands g hg
    obtain ⟨r', hr'⟩ := hstands g' hg'
    exact hplaced.apart r r' g g' hr hr'
  · rw [show (a.ledger {}).readers = [] from hnil]
    exact Nat.zero_le _
  · obtain ⟨r, hr, hsized, hinside, -, -⟩ := hrow g hg
    exact ⟨h.issued r g hr, hinside, hsized, hshape r g hr⟩
  · have hnone : ({} : Hand).named ++ (a.transfers ++ a.ended).flatMap G3TransferOp.names = [] :=
      hnil
    rw [hnone]
    exact fun _ hmem => absurd hmem List.not_mem_nil
  · obtain ⟨r, hr⟩ := huse g hg
    exact hstored r g hr
  · rw [h.ended]
    exact fun _ hmem => absurd hmem List.not_mem_nil
  · rw [h.transfers]
    exact fun _ hmem => absurd hmem List.not_mem_nil

end New

/-- The shelf is left alone, but for records. -/
def shelved (cfg : Config) : Frame cfg where
  P pool slot := slot < cfg.slot_count pool
  Q s s' := s.shelf.Shrunk s'.shelf
  refl _ := .refl
  trans := .trans
  still _ hsame := by
    rw [shelf_of_watched (hsame.trans rfl)]
    exact .refl
  new_record {s key} _ hnone := by
    refine ⟨_, _, _, rfl, fun r g hr => (new_record_held r g hr).2, fun key' r g _ hr => ?_,
      fun h => h.new new_record_records new_record_held⟩
    have hne : key' ≠ key := by
      rintro rfl
      exact nomatch hnone.symm.trans hr
    exact (Dict.get?_set_ne _ _ hne).trans hr
  prune {s key record} _ hrecord _ _ hdisk _ := by
    refine ⟨_, _, _, rfl, fun _ _ hg => hg, fun key' r g hg hr => ?_,
      fun h => h.lose (fun key' r hr => ?_) fun _ _ hg => hg⟩
    · have hne : key' ≠ key := by
        rintro rfl
        rw [Option.some.inj (hrecord.symm.trans hr)] at hdisk
        exact nomatch hdisk.symm.trans hg
      exact (Dict.get?_erase_ne _ hne).trans hr
    · change (s.block_record_map.erase key).get? key' = some r at hr
      rw [Dict.get?_erase] at hr
      split at hr
      · cases hr
      · exact hr
  copy _ _ := by
    rw [shelf_submit rfl]
    exact .refl
  pull _ _ := by
    rw [shelf_submit rfl]
    exact .refl
  handle _ := .refl

/-- The core while the records of a table enter it, and the keys that are still to come. -/
structure Filling (cfg : Config) (keys : List BlockKey) (s : Core) : Prop where
  unread : Unread s.shelf
  free : s.g3.free_slots = List.range cfg.g3_total_slots
  fresh : ∀ key ∈ keys, s.record key = none

section Start

variable {cfg : Config} {K : Knot} {s : Core} {t : List Ev}

theorem filling_initial {seed : Nat} {keys : List BlockKey} :
    Filling cfg keys (Core.initial cfg seed) :=
  ⟨⟨fun _ _ h => (nomatch h), fun _ _ _ h => (nomatch h),
    ⟨fun _ _ h => (nomatch h), fun _ _ _ h => (nomatch h), fun _ _ _ _ _ => trivial⟩,
    fun _ _ h => (nomatch h), fun _ => rfl, rfl, rfl⟩, rfl, fun _ _ => rfl⟩

/-- A record enters, with a residency nobody else has. -/
theorem Filling.install {key : BlockKey} {keys : List BlockKey} {block : RecoveryBlock}
    (h : Filling cfg (key :: keys) s) (hkey : key ∉ keys) :
    Filling cfg keys (installed key block s) := by
  have hheld : ∀ r g, ((installed key block s).recs r).g3 = some g →
      (r = s.next_rec ∧ g = s.next_g3) ∨ (r ≠ s.next_rec ∧ (s.recs r).g3 = some g) := by
    intro r g hr
    unfold installed at hr
    change (Function.update s.recs s.next_rec _ r).g3 = some g at hr
    by_cases heq : r = s.next_rec
    · rw [heq, Function.update_self] at hr
      obtain ⟨_, _, rfl⟩ := Option.map_eq_some_iff.mp hr
      exact .inl ⟨heq, rfl⟩
    · rw [Function.update_of_ne heq] at hr
      exact .inr ⟨heq, hr⟩
  have htable : Table (fun _ _ => True) (installed key block s).record (s.next_rec + 1)
      (fun _ => none) := h.unread.tabled.new new_record_records fun _ _ h => nomatch h
  have hset (key' : BlockKey) (hne : key' ≠ key) :
      (installed key block s).record key' = s.record key' := Dict.get?_set_ne _ _ hne
  refine ⟨⟨fun r g hr => ?_, fun r r' g hr hr' => ?_, ⟨htable.known, htable.alone,
    fun _ _ _ _ _ => trivial⟩, fun r g hr => ?_, fun g => ?_, h.unread.transfers,
    h.unread.ended⟩, h.free, fun key' hkey' => ?_⟩
  · rcases hheld r g hr with ⟨-, rfl⟩ | ⟨-, hr⟩
    · exact Nat.lt_succ_self _
    · exact Nat.lt_succ_of_lt (h.unread.issued r g hr)
  · rcases hheld r g hr with ⟨rfl, rfl⟩ | ⟨-, hr⟩ <;>
      rcases hheld r' _ hr' with ⟨rfl, hg⟩ | ⟨-, hr'⟩
    · rfl
    · exact absurd (h.unread.issued r' _ hr') (Nat.lt_irrefl _)
    · rw [hg] at hr
      exact absurd (h.unread.issued r _ hr) (Nat.lt_irrefl _)
    · exact h.unread.holder r r' g hr hr'
  · rcases hheld r g hr with ⟨rfl, -⟩ | ⟨-, hr⟩
    · exact ⟨key, Dict.get?_set_self _ _ _⟩
    · obtain ⟨key', hkey'⟩ := h.unread.listed r g hr
      refine ⟨key', (hset key' fun heq => ?_).trans hkey'⟩
      rw [heq] at hkey'
      exact nomatch (h.fresh key List.mem_cons_self).symm.trans hkey'
  · change ((installed key block s).g3_residencies g).claim_count = 0
    unfold installed
    cases block.g3 with
    | none => exact h.unread.claims g
    | some d =>
      dsimp only
      by_cases heq : g = s.next_g3
      · rw [heq, Function.update_self]
      · rw [Function.update_of_ne heq]
        exact h.unread.claims g
  · rw [hset key' fun heq => hkey (heq ▸ hkey')]
    exact h.fresh key' (List.mem_cons_of_mem _ hkey')

theorem wp_install_filling {W : Watch Core Err Ev} {table : Dict BlockKey RecoveryBlock}
    (h : Filling cfg table.keys s) :
    wp W (forEach table.entries fun p => install_record p.1 p.2)
      (fun _ s' _ => Filling cfg [] s') s t := by
  refine wp_forEach (fun rest s' _ => (rest.map Prod.fst).Nodup ∧
    Filling cfg (rest.map Prod.fst) s') ?_ (fun _ _ h => h.2) _ _ _ ⟨table.nodup, h⟩
  rintro ⟨key, block⟩ rest s₁ t₁ ⟨hnodup, h₁⟩
  obtain ⟨hkey, hrest⟩ := List.nodup_cons.mp hnodup
  exact wp_change.mpr ⟨hrest, h₁.install hkey⟩

/-- Adoption checks the slots of all that is held, and frees the others. -/
theorem wp_g3_adopt_recovery_slots_placed {records : List (BlockKey × RecId)}
    (hlisted : ∀ r g, (s.recs r).g3 = some g → ∃ key, (key, r) ∈ records) :
    wp Watch.any (g3_adopt_recovery_slots K records)
      (fun _ s' _ =>
        Placed K.cfg s'.shelf ∧ ∃ free, s' = { s with g3.free_slots := free }) s t := by
  unfold g3_adopt_recovery_slots
  -- the slots seen so far are those of the residencies seen so far
  refine wp_seq (wp_foldEach (fun rest occupied s' _ => s' = s ∧ occupied.Nodup ∧ ∃ seen,
    occupied.Perm (seen.flatMap fun g => (s.g3_residencies g).slots) ∧
    (∀ g ∈ seen, WellSized K.cfg (s.g3_residencies g) ∧
      ∀ slot ∈ (s.g3_residencies g).slots, slot < K.cfg.g3_total_slots) ∧
    ∀ entry ∈ records, entry ∈ rest ∨ ∀ g, (s.recs entry.2).g3 = some g → g ∈ seen) ?_
    (fun _ _ _ h => h) _ _ _ _ ⟨rfl, List.nodup_nil, [], .refl _, by simp, fun _ h => .inl h⟩)
    fun occupied s₁ t₁ h₁ => wp_change.mpr ?_
  · rintro ⟨key, record⟩ rest occupied s₁ t₁ ⟨rfl, hnodup, seen, hperm, hrows, hseen⟩
    have hnext {seen'} (hsub : seen ⊆ seen')
        (hnew : ∀ g, (s₁.recs record).g3 = some g → g ∈ seen') :
        ∀ entry ∈ records, entry ∈ rest ∨ ∀ g, (s₁.recs entry.2).g3 = some g → g ∈ seen' := by
      intro entry hentry
      rcases hseen entry hentry with hmem | hold
      · rcases List.mem_cons.mp hmem with rfl | hmem
        · exact .inr hnew
        · exact .inl hmem
      · exact .inr fun g hg => hsub (hold g hg)
    refine wp_bind.mpr (wp_read.mpr ?_)
    cases hg : (s₁.recs record).g3 with
    | none =>
      refine wp_pure.mpr ⟨rfl, hnodup, seen, hperm, hrows, hnext (List.Subset.refl _) fun g h => ?_⟩
      rw [hg] at h
      cases h
    | some g =>
      dsimp only
      cases hadopt : g3_adopt_residency K.cfg (s₁.g3_residencies g)
          ((s₁.recs record).local_dram.map fun r => (s₁.residencies r).key_layout) occupied with
      | error e => exact wp_raise.mpr trivial
      | ok occupied' =>
        obtain ⟨hsized, hinside, rfl, hnodup'⟩ := adopted_row hadopt
        refine wp_pure.mpr ⟨rfl, hnodup' hnodup, g :: seen, hperm.append_left _, ?_,
          hnext (List.subset_cons_self _ _) fun g' h => ?_⟩
        · rintro g' hg'
          rcases List.mem_cons.mp hg' with rfl | hg'
          · exact ⟨hsized, hinside⟩
          · exact hrows g' hg'
        · rw [hg] at h
          cases h
          exact List.mem_cons_self
  · obtain ⟨rfl, hnodup, seen, hperm, hrows, hseen⟩ := h₁
    obtain ⟨hslots, hapart⟩ := List.nodup_flatMap.mp (hperm.nodup_iff.mp hnodup)
    have hmem : ∀ r g, (s₁.recs r).g3 = some g → g ∈ seen := by
      intro r g hr
      obtain ⟨key, hkey⟩ := hlisted r g hr
      exact (hseen (key, r) hkey).resolve_left List.not_mem_nil g hr
    refine ⟨⟨List.nodup_range.filter _, fun slot hslot => ?_, fun r g hr => ?_,
      fun r r' g g' hr hr' hne => ?_⟩, _, rfl⟩
    · exact List.mem_range.mp (List.mem_filter.mp hslot).1
    · have hg := hmem r g hr
      refine ⟨(hrows g hg).1, (hrows g hg).2, hslots g hg, fun slot hslot hfree => ?_⟩
      refine of_decide_eq_true (List.mem_filter.mp hfree).2 (hperm.mem_iff.mpr ?_)
      exact List.mem_flatMap.mpr ⟨g, hg, hslot⟩
    · have : Std.Symm (Function.onFun List.Disjoint fun g => (s₁.g3_residencies g).slots) :=
        ⟨fun _ _ h => h.symm⟩
      exact hapart.forall (hmem r g hr) (hmem r' g' hr') hne

/-- The shelf of a new core. -/
theorem start_shelf {env : Env} {seed fuel : Nat} {table : Dict BlockKey RecoveryBlock}
    (hvalid : cfg.Valid) (adopted : start cfg env seed fuel table = .ok () s t) :
    Unread s.shelf ∧ Placed cfg s.shelf := by
  obtain ⟨fuel', resume, fail, heq, _⟩ := tied_knot env (ground cfg (shelved cfg).P) fuel
  have hslots := start_range adopted
  unfold start at adopted
  rw [heq] at adopted
  refine ok_of_wp (W := Watch.any)
    (Q := fun _ s _ => Unread s.shelf ∧ Placed cfg s.shelf) ?_ adopted
  generalize hK : (⟨cfg, env, fuel', resume, fail⟩ : Knot) = K
  have hcfg : K.cfg = cfg := by rw [← hK]
  subst hcfg
  unfold adopt_recovery_records
  refine wp_bind.mpr (wp_read.mpr (wp_ite.mpr ⟨fun _ => wp_pure.mpr ?_, fun _ => ?_⟩))
  · have hinitial : Filling K.cfg [] (Core.initial K.cfg seed) := filling_initial
    exact ⟨hinitial.unread, .of_empty rfl fun _ => rfl⟩
  refine wp_ite.mpr ⟨fun _ => wp_raise.mpr trivial, fun hlocal => ?_⟩
  refine wp_ite.mpr ⟨fun _ => wp_raise.mpr trivial, fun hdisk => ?_⟩
  refine wp_ite.mpr ⟨fun _ => wp_raise.mpr trivial, fun _ => ?_⟩
  refine wp_seq (wp_and (wp_install_filling filling_initial) (install_records_moves
    (F := ground K.cfg (shelved K.cfg).P) (fun _ _ => trivial) hlocal hdisk hslots).returned)
    fun _ s₁ t₁ ⟨h₁, hgood₁⟩ => ?_
  refine wp_bind.mpr (wp_read.mpr (wp_seq (adopt_recovery_slots_moves (F := shelved K.cfg)
    (free_slots_without_range hvalid)).returned fun _ s₂ t₂ h₂ => ?_))
  obtain ⟨hgood₂, hshrunk₂⟩ := h₂ (hgood₁ (good_initial (free_slots_without_range hvalid))).1
  have hunread₂ := h₁.unread.shrunk hshrunk₂
  obtain ⟨_, _, held, hshelf, hheld, -, -⟩ := hshrunk₂
  -- the disk's turn: without one no record holds anything there
  refine wp_if_then (P := fun s₃ _ => Good K.cfg (shelved K.cfg).P s₃ ∧ Unread s₃.shelf ∧
    Placed K.cfg s₃.shelf) (fun _ => ?_) (fun hnone => ?_)
    fun s₃ t₃ ⟨hgood₃, hunread, hplaced⟩ => ?_
  · have hlisted : ∀ r g, (s₂.recs r).g3 = some g → ∃ key, (key, r) ∈
        s₁.block_record_map.entries := by
      intro r g hr
      have hr : s₂.shelf.held r = some g := hr
      rw [hshelf] at hr
      obtain ⟨key, hkey⟩ := h₁.unread.listed r g (hheld r g hr)
      exact ⟨key, Dict.get?_eq_some.mp hkey⟩
    refine wp_mono (wp_g3_adopt_recovery_slots_placed hlisted) ?_
    rintro _ _ _ ⟨hplaced, free, rfl⟩
    exact ⟨hgood₂.same rfl, ⟨hunread₂.issued, hunread₂.holder, hunread₂.tabled, hunread₂.listed,
      hunread₂.claims, hunread₂.transfers, hunread₂.ended⟩, hplaced⟩
  · have hnone : K.cfg.g3 = none := by simpa using hnone
    refine ⟨hgood₂, hunread₂, .of_empty ?_ (hgood₂.fit.disk hnone)⟩
    rw [hshelf]
    exact h₁.free
  have hrest : Moves (shelved K.cfg).R (do
      forEach s₁.block_record_map.entries fun entry => announce_recovered K entry.1 entry.2
      rank_recovered K s₁.block_record_map.entries
      if K.cfg.g3.isSome then g3_rank_recovered K s₁.block_record_map.entries else pure ()) := by
    refine .bind (.forEach fun _ => .bind .read fun _ => .ite .raise act_moves) fun _ =>
      .bind rank_recovered_moves fun _ =>
      .ite (.forEach fun _ => .bind .read fun _ => .ite ?_ .pure)
        .pure
    refine g3_make_evictable_idle.mono fun s s' hidle hs => ⟨hs.same hidle.grounds, ?_⟩
    change s.shelf.Shrunk s'.shelf
    rw [hidle.shelf]
    exact .refl
  refine wp_mono hrest.returned fun _ s₄ _ h₄ => ?_
  have hshrunk := (h₄ hgood₃).2
  exact ⟨hunread.shrunk hshrunk, hplaced.shrunk hshrunk⟩

/-- A new core has right books, for all that is known of what it holds. -/
theorem start_has {T : Facts} {env : Env} {seed fuel : Nat} {table : Dict BlockKey RecoveryBlock}
    (hvalid : cfg.Valid) (adopted : start cfg env seed fuel table = .ok () s t)
    (hshape : ∀ r g, (s.recs r).g3 = some g →
      T.shape g (s.g3_residencies g).layout (s.g3_residencies g).slots)
    (hunissued : ∀ g, s.next_g3 ≤ g → ∀ layout slots, T.shape g layout slots)
    (howner : ∀ key r g, s.record key = some r → (s.recs r).g3 = some g → T.owner g key)
    (hunowned : ∀ g, s.next_g3 ≤ g → ∀ key, T.owner g key)
    (hstored : ∀ r g, (s.recs r).g3 = some g → T.stored g) : Has cfg T {} s := by
  obtain ⟨hunread, hplaced⟩ := start_shelf hvalid adopted
  refine ⟨?_, hunread.books hplaced hshape hunissued howner hunowned hstored⟩
  exact (start_follows (F := ground cfg (books cfg).P) (fun _ _ => trivial) (start_range adopted)
    (free_slots_without_range hvalid) adopted).1

end Start

/-! ## The core and its disk -/

/-- A block as it was stored: its pieces, each with its label. -/
structure StoredBlock (β : Type) where
  key : BlockKey
  pieces : List (Label × List β)

/-- A core, what its memory and its files hold, and what was stored in each residency, as it
was when a store moved it. -/
structure Disk (β : Type) where
  core : Core
  image : Image (String × Nat) β
  contents : G3Id → Option (StoredBlock β)

namespace Disk

variable {β : Type}

/-- A new core takes what it recovered as it is. -/
def adopted (cfg : Config) (core : Core) (image : Image (String × Nat) β) : Disk β where
  core := core
  image := image
  contents g := (core.block_record_map.entries.find? fun e => (core.recs e.2).g3 = some g).map
    fun e =>
      ⟨e.1, (core.g3_residencies g).layout.zip (disk_pieces cfg image (core.g3_residencies g))⟩

/-- What a store that moves its blocks now stores. -/
def moved (cfg : Config) (d : Disk β) (op : G3TransferOp) (g : G3Id) : Option (StoredBlock β) :=
  (op.reservations.find? fun p => p.2 = g).map fun p =>
    ⟨p.1, (block_refs op.blocks p.1).map fun ref => (ref.label, (ref_range cfg ref).read d.image)⟩

/-- What can happen. The core makes any event of its own; a store is reported as a success only
if it has moved what it was to. A transfer in flight moves its descriptors, the first to the
first and so on, as often as it likes, and while a store is under way its files can be in any
state. Memory is everybody's. -/
inductive Step (cfg : Config) (env : Env) (d : Disk β) : Disk β → Prop
  | event (event : Event) {core : Core} (ended : (event.run cfg env d.core).EndsIn core)
      (moved : ∀ op ∈ core.shelf.ended, op ∉ d.core.shelf.ended →
        ∀ g ∈ op.landed, (d.contents g).isSome) : Step cfg env d { d with core := core }
  | check (fuel : Nat) {core : Core}
      (ended : (raise_if_failed (knot cfg env fuel) d.core).EndsIn core) :
      Step cfg env d { d with core := core }
  | memory (image : Image (String × Nat) β)
      (files : ∀ slot, (file_range cfg slot).read image = (file_range cfg slot).read d.image) :
      Step cfg env d { d with image := image }
  | write {op : G3TransferOp} (flies : .g3_transfer op ∈ d.core.progress.in_flight)
      (kind : op.kind = .store) (image : Image (String × Nat) β)
      (others : ∀ slot, (∀ p ∈ op.reservations, slot ∉ (d.core.g3_residencies p.2).slots) →
        (file_range cfg slot).read image = (file_range cfg slot).read d.image) :
      Step cfg env d
        { d with
          image := image
          contents := fun g => if g ∈ op.stores then none else d.contents g }
  | store {op : G3TransferOp} (flies : .g3_transfer op ∈ d.core.progress.in_flight)
      (kind : op.kind = .store) :
      Step cfg env d
        { d with
          image := move op.memory_descriptors op.file_descriptors d.image
          contents := fun g => (d.moved cfg op g).or (d.contents g) }
  | fetch {op : G3TransferOp} (flies : .g3_transfer op ∈ d.core.progress.in_flight)
      (kind : op.kind ≠ .store) :
      Step cfg env d { d with image := move op.file_descriptors op.memory_descriptors d.image }

/-- Every state a core and its disk can come to. -/
inductive Run (cfg : Config) (env : Env) (table : Dict BlockKey RecoveryBlock) : Disk β → Prop
  | start (seed fuel : Nat) {core : Core} {t : List Ev} (image : Image (String × Nat) β)
      (started : Kvcr.start cfg env seed fuel table = .ok () core t) :
      Run cfg env table (adopted cfg core image)
  | step {d d' : Disk β} (run : Run cfg env table d) (step : Step cfg env d d') :
      Run cfg env table d'

/-! ## The books are right about the disk -/

/-- What the books are to know: a stored block is on disk, and is the one it is taken for. -/
def facts (cfg : Config) (d : Disk β) : Facts where
  shape g layout slots := ∀ b, d.contents g = some b → b.pieces.map Prod.fst = layout ∧
    b.pieces.map Prod.snd = disk_pieces cfg d.image ⟨layout, slots, 0⟩
  owner g key := ∀ b, d.contents g = some b → b.key = key
  stored g := (d.contents g).isSome

def Right (cfg : Config) (d : Disk β) : Prop := Has cfg (d.facts cfg) {} d.core

theorem mem_transfers {s : Core} {op : G3TransferOp} :
    op ∈ s.shelf.transfers ↔ .g3_transfer op ∈ s.progress.in_flight := by
  refine ⟨fun h => ?_, fun h => List.mem_filterMap.mpr ⟨_, h, rfl⟩⟩
  obtain ⟨x, hx, htransfer⟩ := List.mem_filterMap.mp h
  cases x with
  | g3_transfer op' =>
    cases htransfer
    exact hx
  | local_copy copy => cases htransfer
  | target_pull pull => cases htransfer
  | source_write write => cases htransfer

section Right

variable {cfg : Config} {env : Env} {d : Disk β} {op : G3TransferOp} (h : d.Right cfg)
include h

/-- Nothing is known of what has not been issued. -/
theorem Right.unissued {g : G3Id} (hg : d.core.next_g3 ≤ g) : d.contents g = none := by
  cases hcontents : d.contents g with
  | none => rfl
  | some b =>
    have hnone := (h.books.unissued g hg [] [] b hcontents).1
    have hone := (h.books.unissued g hg [default] [] b hcontents).1
    rw [hnone] at hone
    cases hone

/-- A residency is written by one transfer, for one block. -/
theorem Right.one_block {op' : G3TransferOp} {p p' : BlockKey × G3Id}
    (hop : op ∈ d.core.shelf.transfers ++ d.core.shelf.ended) (hp : p ∈ op.reservations)
    (hop' : op' ∈ d.core.shelf.transfers ++ d.core.shelf.ended) (hp' : p' ∈ op'.reservations)
    (heq : p.2 = p'.2) : p = p' := by
  have hnodup : ((d.core.shelf.transfers ++ d.core.shelf.ended).flatMap
    G3TransferOp.stores).Nodup := h.books.sound.reserved
  unfold G3TransferOp.stores at hnodup
  rw [← List.map_flatMap] at hnodup
  exact List.inj_on_of_nodup_map hnodup (List.mem_flatMap.mpr ⟨op, hop, hp⟩)
    (List.mem_flatMap.mpr ⟨op', hop', hp'⟩) heq

section Flying

variable (hop : .g3_transfer op ∈ d.core.progress.in_flight)
include hop

theorem Right.stands {g : G3Id} (hg : g ∈ op.stores ++ op.reads) :
    (d.core.shelf.ledger {}).Stands g :=
  h.books.stands_of_transfer (mem_transfers.mpr hop) hg

/-- What is written is not in use. -/
theorem Right.unused {p : BlockKey × G3Id} (hp : p ∈ op.reservations) :
    ¬ (d.core.shelf.ledger {}).InUse p.2 :=
  h.books.sound.unpublished p.2 (List.mem_append_right _ (List.mem_flatMap.mpr
    ⟨op, List.mem_append_left _ (mem_transfers.mpr hop), List.mem_map_of_mem hp⟩))

theorem Right.sized_reservations :
    ∀ p ∈ op.reservations, WellSized cfg (d.core.g3_residencies p.2) := fun p hp =>
  (h.books.entries p.2 (h.stands hop (List.mem_append_left _ (List.mem_map_of_mem hp)))).sized

theorem Right.sized_claims : ∀ p ∈ op.claims, WellSized cfg (d.core.g3_residencies p.2) :=
  fun p hp =>
    (h.books.entries p.2 (h.stands hop (List.mem_append_right _ (List.mem_map_of_mem hp)))).sized

theorem Right.store_fits (hkind : op.kind = .store) : op.StoreFits cfg d.core.g3_residencies :=
  (h.books.fits op (mem_transfers.mpr hop)).store hkind

theorem Right.read_fits (hkind : op.kind ≠ .store) : op.ReadFits cfg d.core.g3_residencies :=
  (h.books.fits op (mem_transfers.mpr hop)).read hkind

/-- No two blocks of a store share a slot. -/
theorem Right.nodup_reservations :
    (op.reservations.flatMap fun p => (d.core.g3_residencies p.2).slots).Nodup := by
  have hstands : ∀ g ∈ op.stores, (d.core.shelf.ledger {}).Stands g := fun g hg =>
    h.stands hop (List.mem_append_left _ hg)
  have hstores : op.stores.Nodup := by
    have hnodup : ((d.core.shelf.transfers ++ d.core.shelf.ended).flatMap
      G3TransferOp.stores).Nodup := h.books.sound.reserved
    exact (List.nodup_flatMap.mp hnodup).1 op (List.mem_append_left _ (mem_transfers.mpr hop))
  have hall : (op.stores.flatMap fun g => (d.core.g3_residencies g).slots).Nodup :=
    List.nodup_flatMap.mpr ⟨fun g hg => h.books.sound.slots g (hstands g hg),
      hstores.imp_of_mem fun hg hg' hne =>
        h.books.sound.apart _ _ (hstands _ hg) (hstands _ hg') hne⟩
  rw [G3TransferOp.stores, List.flatMap_map] at hall
  exact hall

end Flying

/-- The files change in the slots of blocks that stores in flight write, and nowhere else. -/
theorem Right.rewrite (written : List (BlockKey × G3Id)) {image : Image (String × Nat) β}
    {contents : G3Id → Option (StoredBlock β)}
    (hwritten : ∀ p ∈ written, ∃ op, .g3_transfer op ∈ d.core.progress.in_flight ∧
      p ∈ op.reservations)
    (hothers : ∀ g, (∀ p ∈ written, p.2 ≠ g) → contents g = d.contents g)
    (hslots : ∀ slot, (∀ p ∈ written, slot ∉ (d.core.g3_residencies p.2).slots) →
      (file_range cfg slot).read image = (file_range cfg slot).read d.image)
    (hnew : ∀ p ∈ written, ∀ b, contents p.2 = some b → b.key = p.1 ∧
      b.pieces.map Prod.fst = (d.core.g3_residencies p.2).layout ∧
      b.pieces.map Prod.snd = disk_pieces cfg image (d.core.g3_residencies p.2)) :
    Right cfg { d with image := image, contents := contents } := by
  have hstands : ∀ p ∈ written, (d.core.shelf.ledger {}).Stands p.2 := by
    intro p hp
    obtain ⟨op, hop, hmem⟩ := hwritten p hp
    exact h.stands hop (List.mem_append_left _ (List.mem_map_of_mem hmem))
  -- what is in use, or has ended, or is yet to come, is none of what is written
  have hused : ∀ g, (d.core.shelf.ledger {}).InUse g → contents g = d.contents g := by
    refine fun g hg => hothers g fun p hp heq => ?_
    obtain ⟨op, hop, hmem⟩ := hwritten p hp
    exact h.unused hop hmem (heq ▸ hg)
  have hunissued : ∀ g, d.core.next_g3 ≤ g → contents g = none := by
    refine fun g hg => (hothers g fun p hp heq => ?_).trans (h.unissued hg)
    have hlt : p.2 < d.core.next_g3 := (h.books.entries p.2 (hstands p hp)).issued
    exact absurd hlt (heq ▸ Nat.not_lt.mpr hg)
  have hsame {g : G3Id} {key : BlockKey} (heq : contents g = d.contents g)
      (howner : (d.facts cfg).owner g key) :
      (facts cfg { d with image := image, contents := contents }).owner g key := fun b hb =>
    howner b (heq.symm.trans hb)
  refine ⟨h.good, h.books.know (fun g hg => ?_) (fun g hg layout slots b hb => ?_)
    (fun g hg key b hb => ?_) (fun key r g hr hg => ?_) (fun q hq => ?_) (fun g hg => ?_)
    fun g hg => ?_⟩
  · by_cases hmem : ∃ p ∈ written, p.2 = g
    · obtain ⟨p, hp, rfl⟩ := hmem
      exact fun b hb => (hnew p hp b hb).2
    · have hne : ∀ p ∈ written, p.2 ≠ g := fun p hp heq => hmem ⟨p, hp, heq⟩
      intro b hb
      have hentry := h.books.entries g hg
      obtain ⟨hlabels, hbytes⟩ := hentry.shape b ((hothers g hne).symm.trans hb)
      refine ⟨hlabels, hbytes.trans (disk_pieces_congr (g := ⟨_, _, 0⟩) hentry.sized
        fun slot hslot => ?_).symm⟩
      refine hslots slot fun p hp hslot' => ?_
      exact h.books.sound.apart g p.2 hg (hstands p hp) (hne p hp).symm hslot hslot'
  · exact nomatch (hunissued g hg).symm.trans hb
  · exact nomatch (hunissued g hg).symm.trans hb
  · exact hsame (hused g (.inl ⟨r, hg⟩)) (h.books.table.owner key r g hr hg)
  · obtain ⟨op', hop', hnames⟩ := List.mem_flatMap.mp hq
    rcases List.mem_append.mp hnames with hnames | hnames
    · by_cases hmem : ∃ p ∈ written, p.2 = q.2
      · obtain ⟨p, hp, heq⟩ := hmem
        obtain ⟨op, hop, hmem⟩ := hwritten p hp
        obtain rfl :=
          h.one_block (List.mem_append_left _ (mem_transfers.mpr hop)) hmem hop' hnames heq
        exact fun b hb => (hnew p hp b hb).1
      · exact hsame (hothers q.2 fun p hp heq => hmem ⟨p, hp, heq⟩) (h.books.named q hq)
    · refine hsame (hused q.2 (h.books.sound.in_use_of_reader ?_)) (h.books.named q hq)
      exact List.mem_append_right _ (List.mem_flatMap.mpr ⟨op', hop', List.mem_map_of_mem hnames⟩)
  · change (contents g).isSome
    rw [hused g hg]
    exact h.books.stored g hg
  · obtain ⟨ended, hended, hlanded⟩ := List.mem_flatMap.mp hg
    have hstores : g ∈ ended.stores := by
      unfold G3TransferOp.landed at hlanded
      split at hlanded
      · exact hlanded
      · cases hlanded
    have hne : ∀ p ∈ written, p.2 ≠ g := by
      rintro p hp rfl
      obtain ⟨op, hop, hmem⟩ := hwritten p hp
      have hnodup : ((d.core.shelf.transfers ++ d.core.shelf.ended).flatMap
        G3TransferOp.stores).Nodup := h.books.sound.reserved
      rw [List.flatMap_append, List.nodup_append'] at hnodup
      exact hnodup.2.2 (List.mem_flatMap.mpr ⟨op, mem_transfers.mpr hop, List.mem_map_of_mem hmem⟩)
        (List.mem_flatMap.mpr ⟨ended, hended, hstores⟩)
    change (contents g).isSome
    rw [hothers g hne]
    exact h.books.landed g hg

/-- Only memory changes. -/
theorem Right.remember {image : Image (String × Nat) β}
    (hfiles : ∀ slot, (file_range cfg slot).read image = (file_range cfg slot).read d.image) :
    Right cfg { d with image := image } :=
  h.rewrite [] (fun _ hp => absurd hp List.not_mem_nil) (fun _ _ => rfl)
    (fun slot _ => hfiles slot) fun _ hp => absurd hp List.not_mem_nil

end Right

/-- A store that moves its blocks leaves them on disk. -/
theorem Right.store {cfg : Config} {d : Disk β} {op : G3TransferOp} (h : d.Right cfg)
    (hop : .g3_transfer op ∈ d.core.progress.in_flight) (hkind : op.kind = .store) :
    Right cfg
      { d with
        image := move op.memory_descriptors op.file_descriptors d.image
        contents := fun g => (d.moved cfg op g).or (d.contents g) } := by
  have hfits := h.store_fits hop hkind
  refine h.rewrite op.reservations (fun p hp => ⟨op, hop, hp⟩) (fun g hg => ?_)
    (fun slot hslot => hfits.read_other d.image hslot) fun p hp b hb => ?_
  · have hnone : (op.reservations.find? fun p => p.2 = g) = none :=
      List.find?_eq_none.mpr fun p hp heq => hg p hp (of_decide_eq_true heq)
    rw [moved, hnone]
    rfl
  · cases hfind : op.reservations.find? fun q => q.2 = p.2 with
    | none => exact absurd (decide_eq_true rfl) (List.find?_eq_none.mp hfind p hp)
    | some q =>
      have hmem := List.mem_append_left d.core.shelf.ended (mem_transfers.mpr hop)
      obtain rfl : q = p := h.one_block hmem (List.mem_of_find?_eq_some hfind) hmem hp
        (by simpa using List.find?_some hfind)
      rw [moved, hfind] at hb
      cases hb
      refine ⟨rfl, ?_, ?_⟩
      · rw [hfits.layout q hp, List.map_map]
        rfl
      · rw [hfits.stored (h.sized_reservations hop) (h.nodup_reservations hop) d.image hp,
          List.map_map]
        rfl

section Runs

variable {cfg : Config} {env : Env} {d d' : Disk β} (hvalid : cfg.Valid)
  (hmemory : ∀ region ∈ cfg.framework_regions, region.mem_type ≠ "FILE")
include hvalid hmemory

/-- One step keeps the books right about the disk. -/
theorem Right.step (h : d.Right cfg) (hstep : Step cfg env d d') : d'.Right cfg := by
  cases hstep with
  | event event ended moved =>
    refine event_books (fun _ => accepted_own hvalid) (fun _ => accepted_validated hmemory) h ended
      fun g hg => ?_
    obtain ⟨op, hop, hlanded⟩ := List.mem_flatMap.mp hg
    by_cases hold : op ∈ d.core.shelf.ended
    · exact h.books.landed g (List.mem_flatMap.mpr ⟨op, hold, hlanded⟩)
    · exact moved op hop hold g hlanded
  | check fuel ended =>
    obtain ⟨hgood, hbooks⟩ := (check_moves (F := books cfg)).ends ended h.good
    exact ⟨hgood, hbooks _ _ h.books⟩
  | memory image files => exact h.remember files
  | @write op flies kind image others =>
    refine h.rewrite op.reservations (fun p hp => ⟨op, flies, hp⟩) (fun g hg => ?_)
      others fun p hp b hb => ?_
    · refine if_neg fun hmem => ?_
      obtain ⟨p, hp, heq⟩ := List.mem_map.mp hmem
      exact hg p hp heq
    · have hmem : p.2 ∈ op.stores := List.mem_map_of_mem hp
      rw [if_pos hmem] at hb
      cases hb
  | store flies kind => exact h.store flies kind
  | fetch flies kind =>
    exact h.remember ((h.read_fits flies kind).read_file (h.sized_claims flies) d.image)

omit hmemory in
/-- A new core's books are right about what it recovered. -/
theorem right_adopted {seed fuel : Nat} {table : Dict BlockKey RecoveryBlock} {core : Core}
    {t : List Ev} (image : Image (String × Nat) β)
    (started : Kvcr.start cfg env seed fuel table = .ok () core t) :
    (adopted cfg core image).Right cfg := by
  obtain ⟨hissued, hholder, htabled, hlisted, -, -, -⟩ := (start_shelf hvalid started).1
  -- what is stored is what the record of a block holds
  have hcontents : ∀ g b, (adopted cfg core image).contents g = some b →
      ∃ r, core.record b.key = some r ∧ (core.recs r).g3 = some g ∧ b.pieces =
        (core.g3_residencies g).layout.zip (disk_pieces cfg image (core.g3_residencies g)) := by
    intro g b hb
    obtain ⟨e, he, rfl⟩ := Option.map_eq_some_iff.mp hb
    exact ⟨e.2, Dict.get?_eq_some.mpr (List.mem_of_find?_eq_some he),
      by simpa using List.find?_some he, rfl⟩
  have hunissued : ∀ g, core.next_g3 ≤ g → (adopted cfg core image).contents g = none := by
    intro g hg
    cases hb : (adopted cfg core image).contents g with
    | none => rfl
    | some b =>
      obtain ⟨r, -, hr, -⟩ := hcontents g b hb
      exact absurd (hissued r g hr) (Nat.not_lt.mpr hg)
  refine start_has hvalid started (fun r g hr b hb => ?_) (fun g hg layout slots b hb => ?_)
    (fun key r g hkey hr b hb => ?_) (fun g hg key b hb => ?_) fun r g hr => ?_
  · obtain ⟨-, -, -, hpieces⟩ := hcontents g b hb
    rw [hpieces]
    exact ⟨List.map_fst_zip length_disk_pieces.symm.le,
      List.map_snd_zip length_disk_pieces.le⟩
  · exact nomatch (hunissued g hg).symm.trans hb
  · obtain ⟨r', hkey', hr', -⟩ := hcontents g b hb
    rw [hholder r' r g hr' hr] at hkey'
    exact htabled.alone b.key key r hkey' hkey
  · exact nomatch (hunissued g hg).symm.trans hb
  · obtain ⟨key, hkey⟩ := hlisted r g hr
    change (Option.map _ _).isSome
    rw [Option.isSome_map, List.find?_isSome]
    exact ⟨(key, r), Dict.get?_eq_some.mp hkey, decide_eq_true hr⟩

/-- In every state of a run the books are right about the disk. -/
theorem Run.right {table : Dict BlockKey RecoveryBlock} (hrun : Run cfg env table d) :
    d.Right cfg := by
  induction hrun with
  | start seed fuel image started => exact right_adopted hvalid image started
  | step _ hstep ih => exact ih.step hvalid hmemory hstep

end Runs

/-! ## What comes back -/

/-- What a read asks for: the memory of each piece, and the piece as it was stored. -/
def asked (d : Disk β) (op : G3TransferOp) : List (TransferRef × Option (Label × List β)) :=
  op.claims.flatMap fun p => (block_refs op.blocks p.1).zip
    ((read_indices (d.core.g3_residencies p.2) (block_refs op.blocks p.1)).map fun i =>
      (d.contents p.2).bind fun b => b.pieces[i]?)

section Reads

variable {cfg : Config} {env : Env} {d d' : Disk β} {op : G3TransferOp} (h : d.Right cfg)
include h

/-- A residency in use has what was stored in it. -/
theorem Right.known {key : BlockKey} {g : G3Id} (hg : (d.core.shelf.ledger {}).InUse g)
    (howner : (d.facts cfg).owner g key) :
    ∃ pieces, d.contents g = some ⟨key, pieces⟩ ∧
      pieces.map Prod.fst = (d.core.g3_residencies g).layout ∧
      pieces.map Prod.snd = disk_pieces cfg d.image (d.core.g3_residencies g) := by
  obtain ⟨b, hb⟩ := Option.isSome_iff_exists.mp (h.books.stored g hg)
  obtain rfl := howner b hb
  exact ⟨b.pieces, hb, (h.books.entries g (.inl hg)).shape b hb⟩

/-- No step changes what was stored in a residency in use. -/
theorem Right.kept (hstep : Step cfg env d d') {g : G3Id} (hg : (d.core.shelf.ledger {}).InUse g) :
    d'.contents g = d.contents g := by
  cases hstep with
  | event => rfl
  | check => rfl
  | memory => rfl
  | write flies =>
    refine if_neg fun hmem => ?_
    obtain ⟨p, hp, rfl⟩ := List.mem_map.mp hmem
    exact h.unused flies hp hg
  | @store op flies kind =>
    have hnone : (op.reservations.find? fun p => p.2 = g) = none :=
      List.find?_eq_none.mpr fun p hp heq => h.unused flies hp (of_decide_eq_true heq ▸ hg)
    change (d.moved cfg op g).or (d.contents g) = d.contents g
    rw [moved, hnone]
    rfl
  | fetch => rfl

section Flying

variable (hop : .g3_transfer op ∈ d.core.progress.in_flight)
include hop

/-- Both sides of a transfer have the same sizes. -/
theorem Right.sizes :
    op.memory_descriptors.map (·.size) = op.file_descriptors.map (·.size) := by
  by_cases hkind : op.kind = .store
  · exact ((h.store_fits hop hkind).carries (h.sized_reservations hop)).sizes
  · exact ((h.read_fits hop hkind).carries (h.sized_claims hop)).sizes

/-- A block that is read is the one it is read for. -/
theorem Right.claimed {p : BlockKey × G3Id} (hp : p ∈ op.claims) :
    ∃ pieces, d.contents p.2 = some ⟨p.1, pieces⟩ ∧
      pieces.map Prod.fst = (d.core.g3_residencies p.2).layout ∧
      pieces.map Prod.snd = disk_pieces cfg d.image (d.core.g3_residencies p.2) := by
  have hmem : op ∈ d.core.shelf.transfers ++ d.core.shelf.ended :=
    List.mem_append_left _ (mem_transfers.mpr hop)
  refine h.known (h.books.sound.in_use_of_reader (List.mem_append_right _ ?_))
    (h.books.named p (List.mem_append_right _ ?_))
  · exact List.mem_flatMap.mpr ⟨op, hmem, List.mem_map_of_mem hp⟩
  · exact List.mem_flatMap.mpr ⟨op, hmem, List.mem_append_right _ hp⟩

variable (hkind : op.kind ≠ .store)
include hkind

/-- The requested labels, at their places among the stored pieces. -/
theorem Right.labels {p : BlockKey × G3Id} (hp : p ∈ op.claims) :
    ((read_indices (d.core.g3_residencies p.2) (block_refs op.blocks p.1)).map fun i =>
      (d.contents p.2).bind fun b => b.pieces[i]?).map (Option.map Prod.fst) =
      (block_refs op.blocks p.1).map fun ref => some ref.label := by
  obtain ⟨pieces, hcontents, hlabels, -⟩ := h.claimed hop hp
  have hfound := layout_indices_getElem? ((h.read_fits hop hkind).found p hp)
  rw [List.map_map] at hfound
  rw [hcontents, List.map_map]
  refine Eq.trans (List.map_congr_left fun i _ => ?_) hfound
  rw [← hlabels, List.getElem?_map]
  rfl

/-- Every piece that is asked for was stored under its label. -/
theorem Right.asked_stored : ∀ q ∈ d.asked op, ∃ bytes, q.2 = some (q.1.label, bytes) := by
  intro q hq
  obtain ⟨p, hp, hq⟩ := List.mem_flatMap.mp hq
  obtain ⟨i, hi⟩ := List.mem_iff_getElem?.mp hq
  obtain ⟨href, hpiece⟩ := List.getElem?_zip_eq_some.mp hi
  have hlabel := congrArg (·[i]?) (h.labels hop hkind hp)
  rw [List.getElem?_map, hpiece, List.getElem?_map, href] at hlabel
  obtain ⟨piece, hpiece, hlabel⟩ := Option.map_eq_some_iff.mp (Option.some.inj hlabel)
  exact ⟨piece.2, hpiece.trans (congrArg some (Prod.ext hlabel rfl))⟩

theorem Right.asked_fst :
    (d.asked op).map Prod.fst = op.claims.flatMap fun p => block_refs op.blocks p.1 := by
  unfold asked
  rw [List.map_flatMap]
  refine List.flatMap_congr fun p hp => List.map_fst_zip ?_
  have hlength := congrArg List.length (h.labels hop hkind hp)
  simp only [List.length_map] at hlength
  rw [List.length_map, hlength]

/-- The memory of a piece gets what was stored, unless the same read writes another piece over
it. -/
theorem Right.fetched {before after : List (TransferRef × Option (Label × List β))}
    {ref : TransferRef} {bytes : List β}
    (hasked : d.asked op = before ++ (ref, some (ref.label, bytes)) :: after)
    (halone : ∀ other ∈ after, (ref_range cfg ref).Apart (ref_range cfg other.1)) :
    (ref_range cfg ref).read (move op.file_descriptors op.memory_descriptors d.image) = bytes := by
  -- what is asked for, without the labels
  have hwanted : op.wanted d.core.g3_residencies
      (fun g => ((d.contents g).map fun b => b.pieces.map Prod.snd).getD []) =
      (d.asked op).map fun q => (q.1, (q.2.map Prod.snd).getD []) := by
    unfold G3TransferOp.wanted asked
    rw [List.map_flatMap]
    refine List.flatMap_congr fun p hp => ?_
    obtain ⟨pieces, hcontents, -, -⟩ := h.claimed hop hp
    refine Eq.trans ?_ (List.zip_map_right (f := fun x => (Option.map Prod.snd x).getD []) ..)
    beta_reduce
    rw [hcontents, List.map_map]
    congr 1
    refine List.map_congr_left fun i _ => ?_
    change (pieces.map Prod.snd).getD i [] = (pieces[i]?.map Prod.snd).getD []
    rw [List.getD_eq_getElem?_getD, List.getElem?_map]
  rw [hasked, List.map_append, List.map_cons] at hwanted
  refine (h.read_fits hop hkind).fetched (h.sized_claims hop) (fun p hp => ?_) hwanted
    fun other hother => ?_
  · obtain ⟨pieces, hcontents, -, hbytes⟩ := h.claimed hop hp
    rw [hcontents]
    exact hbytes.symm
  · obtain ⟨q, hq, rfl⟩ := List.mem_map.mp hother
    exact halone q hq

end Flying

end Reads

end Disk

/-- Whatever a core has done since it started, from whatever table, and however the transfers and
the rest of the world have behaved:

* The block of a key that is on disk is there as it was stored, and no step changes what was
  stored as long as a record holds it or a read has claimed it.
* A read in flight is of the blocks of its keys, as they were stored. It asks for stored pieces,
  by their labels, at different places of the block; and when it moves its descriptors, the memory
  of each piece gets the bytes of that piece, unless a later piece of the same read is to go to
  memory that overlaps it.
* The two descriptor lists of a transfer in flight are of the same length and pairwise of the same
  sizes.
* Different slots are apart, and inside the registered files. -/
theorem stored_pieces_come_back {β : Type} {cfg : Config} {env : Env}
    {table : Dict BlockKey RecoveryBlock} {d : Disk β} (hvalid : cfg.Valid)
    (hmemory : ∀ region ∈ cfg.framework_regions, region.mem_type ≠ "FILE")
    (hrun : Disk.Run cfg env table d) :
    (∀ key record g, d.core.record key = some record → (d.core.recs record).g3 = some g →
      ∃ pieces, d.contents g = some ⟨key, pieces⟩ ∧
        pieces.map Prod.fst = (d.core.g3_residencies g).layout ∧
        pieces.map Prod.snd = disk_pieces cfg d.image (d.core.g3_residencies g)) ∧
    (∀ d', Disk.Step cfg env d d' → ∀ g, ((∃ record, (d.core.recs record).g3 = some g) ∨
      0 < (d.core.g3_residencies g).claim_count) → d'.contents g = d.contents g) ∧
    (∀ op, .g3_transfer op ∈ d.core.progress.in_flight → op.kind ≠ .store →
      (∀ p ∈ op.claims, ∃ pieces, d.contents p.2 = some ⟨p.1, pieces⟩ ∧
        layout_indices (pieces.map Prod.fst) ((block_refs op.blocks p.1).map (·.label)) =
          some (read_indices (d.core.g3_residencies p.2) (block_refs op.blocks p.1)) ∧
        (read_indices (d.core.g3_residencies p.2) (block_refs op.blocks p.1)).Nodup) ∧
      (d.asked op).map Prod.fst = op.claims.flatMap (fun p => block_refs op.blocks p.1) ∧
      (∀ q ∈ d.asked op, ∃ bytes, q.2 = some (q.1.label, bytes)) ∧
      ∀ before ref bytes after, d.asked op = before ++ (ref, some (ref.label, bytes)) :: after →
        (∀ other ∈ after, (ref_range cfg ref).Apart (ref_range cfg other.1)) →
        (ref_range cfg ref).read (move op.file_descriptors op.memory_descriptors d.image) = bytes) ∧
    (∀ op, .g3_transfer op ∈ d.core.progress.in_flight →
      op.memory_descriptors.map (·.size) = op.file_descriptors.map (·.size)) ∧
    (∀ slot slot', slot ≠ slot' → (file_range cfg slot).Apart (file_range cfg slot')) ∧
    ∀ slot < cfg.g3_total_slots,
      (file_range cfg slot).addr + (file_range cfg slot).size ≤ bytes_per_file cfg := by
  have h := hrun.right hvalid hmemory
  refine ⟨fun key record g hkey hg => ?_, fun d' hstep g hg => h.kept hstep hg,
    fun op hop hkind => ⟨fun p hp => ?_, h.asked_fst hop hkind, h.asked_stored hop hkind,
      fun before ref bytes after => h.fetched hop hkind⟩, fun op hop => h.sizes hop,
    fun _ _ => file_range_apart cfg, fun _ => file_range_inside cfg⟩
  · exact h.known (.inl ⟨record, hg⟩) (h.books.table.owner key record g hkey hg)
  · obtain ⟨pieces, hcontents, hlabels, -⟩ := h.claimed hop hp
    have hfound := (h.read_fits hop hkind).found p hp
    refine ⟨pieces, hcontents, ?_, layout_indices_nodup hfound⟩
    rw [hlabels]
    exact hfound

/-! ## A block that is spilled and delivered -/

/-- A step that is given by what happens: an event, or a move of the first transfer in flight. -/
inductive Turn where
  | event (event : Event)
  | store

namespace Disk

variable {β : Type} {cfg : Config} {env : Env} {d d' : Disk β}

/-- An event that returns, if it reports no store that was not made. -/
def returns (cfg : Config) (env : Env) (event : Event) (d : Disk β) : Option (Disk β) :=
  (returned_in (event.run cfg env d.core)).bind fun core =>
    if core.shelf.ended.all fun op => op.landed.all fun g => (d.contents g).isSome then
      some { d with core := core }
    else none

theorem step_of_returns {event : Event} (h : d.returns cfg env event = some d') :
    Step cfg env d d' := by
  obtain ⟨core, hcore, hd'⟩ := Option.bind_eq_some_iff.mp h
  split at hd'
  next hmoved =>
    cases hd'
    obtain ⟨t, hok⟩ := ok_of_returned_in hcore
    refine .event event (by rw [hok]; exact .ok () core t) fun op hop _ g hg => ?_
    exact List.all_eq_true.mp (List.all_eq_true.mp hmoved op hop) g hg
  next => cases hd'

/-- The first disk transfer in flight, if it is a store, moves its blocks. -/
def stores (cfg : Config) (d : Disk β) : Option (Disk β) :=
  match d.core.shelf.transfers with
  | [] => none
  | op :: _ =>
    if op.kind = .store then
      some
        { d with
          image := move op.memory_descriptors op.file_descriptors d.image
          contents := fun g => (d.moved cfg op g).or (d.contents g) }
    else none

theorem step_of_stores (h : d.stores cfg = some d') : Step cfg env d d' := by
  unfold stores at h
  split at h
  next => cases h
  next op _ htransfers =>
    split at h
    next hkind =>
      cases h
      refine .store (mem_transfers.mp ?_) hkind
      rw [htransfers]
      exact List.mem_cons_self
    next => cases h

def takes (cfg : Config) (env : Env) : List Turn → Disk β → Option (Disk β)
  | [], d => some d
  | .event event :: turns, d => (d.returns cfg env event).bind (takes cfg env turns)
  | .store :: turns, d => (d.stores cfg).bind (takes cfg env turns)

theorem Run.takes {table : Dict BlockKey RecoveryBlock} {turns : List Turn}
    (hrun : Run cfg env table d) (h : d.takes cfg env turns = some d') : Run cfg env table d' := by
  induction turns generalizing d with
  | nil =>
    cases h
    exact hrun
  | cons turn turns ih =>
    cases turn with
    | event event =>
      obtain ⟨d₁, h₁, h⟩ := Option.bind_eq_some_iff.mp h
      exact ih (hrun.step (step_of_returns h₁)) h
    | store =>
      obtain ⟨d₁, h₁, h⟩ := Option.bind_eq_some_iff.mp h
      exact ih (hrun.step (step_of_stores h₁)) h

end Disk

/-- Two pools, of blocks of two bytes and of four, with room for one of each, and two files of
two slots each. -/
def small_tiers : Config where
  nixl_agent_name := "n"
  pool_layouts := [("k", 2), ("v", 4)]
  local_dram := some ⟨[("k", 100, 2), ("v", 200, 4)]⟩
  g3 := some { paths := 2, capacity_bytes_per_file := 4 }
  framework_regions :=
    [{ addr := 300, stride := 2, count := 2, size := 2, label := ⟨"k", none⟩ },
      { addr := 400, stride := 4, count := 2, size := 4, label := ⟨"v", none⟩ }]

theorem small_tiers_valid : small_tiers.Valid where
  pools_nonempty := by decide
  pool_names := by decide
  pool_sizes := by decide
  local_pools := by decide
  local_sizes := by decide
  g3_local _ := rfl
  g3_files := by decide
  timeout := by decide
  abandon := by decide

/-- The policy has what is evicted moved to disk. -/
def spilling : Env := { calm with decide_eviction := fun _ _ _ => some (.MOVE_TO, some .G3) }

/-- A block in local DRAM. -/
def resident_block : Dict BlockKey RecoveryBlock :=
  Dict.empty.set ⟨[1]⟩ { g2 := some [(⟨"k", none⟩, 0), (⟨"v", none⟩, 0)] }

/-- A reference to the second framework element of a pool. -/
def second_of (pool : String) : MemoryRef := ⟨"n", ⟨pool, none⟩, 1⟩

/-- The resident block is spilled for one that is deposited, and then delivered, its pieces in
the other order. -/
def spill_and_deliver : List Turn :=
  [.event (.call 2 (.deposit (Dict.empty.set ⟨[2]⟩
      [⟨"n", ⟨"k", none⟩, 0⟩, ⟨"n", ⟨"v", none⟩, 0⟩]) false none)),
    .store,
    .event (.progress 0 (.transfer ⟨0, some (0, true), 0, some true, 0⟩)),
    .event (.call 2 (.poll_completed 8)),
    .event (.call 2 (.deliver (Dict.empty.set ⟨[1]⟩ [second_of "v", second_of "k"]) none))]

/-- What becomes of it, if at first each byte of memory is its own address. -/
def delivered : Option (Disk Nat) :=
  (returned_in (start small_tiers spilling 1 0 resident_block)).bind fun core =>
    (Disk.adopted small_tiers core fun device addr => if device.1 = "FILE" then 0 else addr).takes
      small_tiers spilling spill_and_deliver

/-- The block comes back as it was in local DRAM, each piece at its new place. -/
theorem spilled_block_comes_back :
    ∃ d op, Disk.Run small_tiers spilling resident_block d ∧
      .g3_transfer op ∈ d.core.progress.in_flight ∧
      (ref_range small_tiers ⟨"n", 1, ⟨"v", none⟩, true⟩).read
        (move op.file_descriptors op.memory_descriptors d.image) = [200, 201, 202, 203] ∧
      (ref_range small_tiers ⟨"n", 1, ⟨"k", none⟩, true⟩).read
        (move op.file_descriptors op.memory_descriptors d.image) = [100, 101] := by
  have hdelivered : delivered.any (fun d => d.core.shelf.transfers.any fun op =>
      op.kind ≠ .store ∧ d.asked op =
        [(⟨"n", 1, ⟨"v", none⟩, true⟩, some (⟨"v", none⟩, [200, 201, 202, 203])),
          (⟨"n", 1, ⟨"k", none⟩, true⟩, some (⟨"k", none⟩, [100, 101]))]) = true := by
    decide +kernel
  obtain ⟨d, hd⟩ := Option.isSome_iff_exists.mp (Option.isSome_of_any hdelivered)
  rw [hd] at hdelivered
  obtain ⟨op, hop, hasked⟩ := List.any_eq_true.mp hdelivered
  obtain ⟨hkind, hasked⟩ := of_decide_eq_true hasked
  unfold delivered at hd
  obtain ⟨core, hcore, hd⟩ := Option.bind_eq_some_iff.mp hd
  obtain ⟨t, hstart⟩ := ok_of_returned_in hcore
  have hrun := (Disk.Run.start 1 0 _ hstart).takes hd
  have hflies := Disk.mem_transfers.mp hop
  obtain ⟨-, -, hreads, -⟩ := stored_pieces_come_back small_tiers_valid (by decide) hrun
  obtain ⟨-, -, -, hfetched⟩ := hreads op hflies hkind
  refine ⟨d, op, hrun, hflies, hfetched [] _ _ _ hasked fun other hother => ?_,
    hfetched [_] _ _ [] hasked fun other hother => absurd hother List.not_mem_nil⟩
  rw [List.mem_singleton.mp hother]
  exact fun _ => .inr (by decide +kernel)

end Kvcr
