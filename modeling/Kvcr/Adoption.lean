/-
Which recovered tables a new core adopts.

`adopt_recovery_records` checks a table record by record, first the rows in local DRAM and then
those on disk, with the slots seen so far in hand. Nothing in that says what a table must be as
a whole. `ConsistentTable` does: every residency fits the core it comes to, no slot is named
twice, and the tiers agree on the layout of a key. The checks are shown to accept these tables
and no others, one loop at a time; what the core is after that is `Adopted`.

The checks carry the occupied slots as a list. That list is, up to its order, the slots of the
records already seen, so a slot that is refused because it is occupied is one that the table
names twice.
-/
import Kvcr.GroupAllocation
import Kvcr.QueryRouting

set_option autoImplicit false

namespace Kvcr

open Prog

/-! ## Layouts -/

/-- The labels that name a part of a block. -/
def part_labels (layout : List Label) : List Label := layout.filter fun label => label.part.isSome

/-- A layout a core with these pools can declare. -/
structure ValidLayout (cfg : Config) (layout : List Label) : Prop where
  nonempty : layout ≠ []
  pools : ∀ label ∈ layout, (cfg.block_size label.pool).isSome = true
  parts : ∀ label ∈ layout, label.bad_part = false
  unique : (part_labels layout).Nodup

theorem part_labels_cons {label : Label} {layout : List Label} :
    part_labels (label :: layout) =
      if label.part.isSome = true then label :: part_labels layout else part_labels layout :=
  List.filter_cons

/-- A label may come next if it names no part, or one that was not seen. -/
theorem nodup_part_labels_cons {label : Label} {layout labels : List Label} :
    (part_labels (label :: layout)).Nodup ∧ (∀ l ∈ part_labels (label :: layout), l ∉ labels) ↔
      ¬ (label.part.isSome = true ∧ label ∈ labels) ∧ (part_labels layout).Nodup ∧
        ∀ l ∈ part_labels layout, l ∉ label :: labels := by
  rw [part_labels_cons]
  by_cases hpart : label.part.isSome = true
  · rw [if_pos hpart, List.nodup_cons]
    simp only [List.mem_cons, not_or, forall_eq_or_imp]
    constructor
    · rintro ⟨⟨hnot, hnodup⟩, hlabel, hrest⟩
      exact ⟨fun h => hlabel h.2, hnodup, fun l hl => ⟨fun h => hnot (h ▸ hl), hrest l hl⟩⟩
    · rintro ⟨hlabel, hnodup, hrest⟩
      exact ⟨⟨fun h => (hrest label h).1 rfl, hnodup⟩, fun h => hlabel ⟨hpart, h⟩,
        fun l hl => (hrest l hl).2⟩
  · rw [if_neg hpart]
    constructor
    · rintro ⟨hnodup, hrest⟩
      refine ⟨fun h => hpart h.1, hnodup, fun l hl hmem => ?_⟩
      rcases List.mem_cons.mp hmem with rfl | hmem
      · exact hpart (List.mem_filter.mp hl).2
      · exact hrest l hl hmem
    · rintro ⟨_, hnodup, hrest⟩
      exact ⟨hnodup, fun l hl hmem => hrest l hl (List.mem_cons_of_mem _ hmem)⟩

theorem validate_layout_loop_ok {cfg : Config} {layout labels : List Label} :
    validate_layout_loop cfg layout labels = .ok () ↔
      (∀ label ∈ layout, (cfg.block_size label.pool).isSome = true) ∧
      (∀ label ∈ layout, label.bad_part = false) ∧ (part_labels layout).Nodup ∧
      ∀ label ∈ part_labels layout, label ∉ labels := by
  induction layout generalizing labels with
  | nil => simp [validate_layout_loop, part_labels]
  | cons label layout ih =>
    rw [nodup_part_labels_cons, List.forall_mem_cons, List.forall_mem_cons, validate_layout_loop]
    by_cases hpool : cfg.block_size label.pool = none
    · simp [hpool]
    · have hsome : (cfg.block_size label.pool).isSome = true := Option.isSome_iff_ne_none.mpr hpool
      by_cases hbad : label.bad_part = true
      · simp [hbad]
      · by_cases hseen : label.part.isSome = true ∧ label ∈ labels
        · simp [hpool, hbad, hseen]
        · rw [if_neg (by simp [hpool, hbad]), if_neg hseen, ih]
          simp only [hsome, hbad, hseen, true_and, not_false_eq_true]

theorem validate_expected_layout_ok {cfg : Config} {layout : List Label} :
    validate_expected_layout cfg layout = .ok () ↔ ValidLayout cfg layout := by
  unfold validate_expected_layout
  by_cases hnil : layout = []
  · rw [if_pos hnil]
    exact ⟨fun h => (by cases h), fun h => absurd hnil h.nonempty⟩
  · rw [if_neg hnil, validate_layout_loop_ok]
    refine ⟨fun ⟨hpools, hparts, hunique, _⟩ => ⟨hnil, hpools, hparts, hunique⟩, fun h => ?_⟩
    exact ⟨h.pools, h.parts, h.unique, fun _ _ => List.not_mem_nil⟩

/-! ## Rows -/

/-- What a core asks of the rows of one block in local DRAM. -/
structure LocalRows (cfg : Config) (slots : List (Label × Nat)) : Prop where
  layout : ValidLayout cfg (slots.map Prod.fst)
  range : ∀ p ∈ slots, p.2 < cfg.slot_count p.1.pool

/-- What it asks of the slots of one block on disk. -/
structure DiskRows (cfg : Config) (g : List Label × List Nat) : Prop where
  layout : ValidLayout cfg g.1
  size : g.2.length * cfg.g3_slot_size =
    (g.1.map fun label => (cfg.block_size label.pool).getD 0).sum
  range : ∀ slot ∈ g.2, slot < cfg.g3_total_slots

/-- A pool that has slots is one of the regions. -/
theorem region_of_slot {cfg : Config} {pool : String} {slot : Nat}
    (h : slot < cfg.slot_count pool) :
    (cfg.regions.find? fun p => p.1 = pool).isNone = false := by
  unfold Config.slot_count at h
  cases hfind : cfg.regions.find? fun p => p.1 = pool with
  | none =>
    rw [hfind] at h
    exact absurd h (Nat.not_lt_zero slot)
  | some p => rfl

/-- The slots taken by the rows, the latest in front. -/
def occupy (slots : List (Label × Nat)) (occupied : List Slot) : List Slot :=
  (slots.map location_slot).reverse ++ occupied

theorem occupy_cons {p : Label × Nat} {slots : List (Label × Nat)} {occupied : List Slot} :
    occupy (p :: slots) occupied = occupy slots (location_slot p :: occupied) := by
  simp [occupy]

theorem occupy_perm {slots : List (Label × Nat)} {occupied : List Slot} :
    (occupy slots occupied).Perm (occupied ++ slots.map location_slot) :=
  (List.perm_append_comm).trans (List.Perm.append_left _ (List.reverse_perm _))

theorem adopt_slots_loop_ok {cfg : Config} {slots : List (Label × Nat)} {labels : List Label}
    {occupied occupied' : List Slot} (hnodup : occupied.Nodup) :
    adopt_slots_loop cfg slots labels occupied = .ok occupied' ↔
      (∀ p ∈ slots, p.2 < cfg.slot_count p.1.pool) ∧
      (∀ p ∈ slots, p.1.part.isSome = true → p.1.bad_part = false) ∧
      ((part_labels (slots.map Prod.fst)).Nodup ∧
        ∀ label ∈ part_labels (slots.map Prod.fst), label ∉ labels) ∧
      (occupy slots occupied).Nodup ∧ occupied' = occupy slots occupied := by
  induction slots generalizing labels occupied with
  | nil =>
    simp only [adopt_slots_loop, occupy, part_labels, List.map_nil, List.filter_nil,
      List.reverse_nil, List.nil_append, List.not_mem_nil, List.nodup_nil, false_implies,
      implies_true, true_and, hnodup, Except.ok.injEq]
    exact eq_comm
  | cons p slots ih =>
    obtain ⟨label, slot⟩ := p
    rw [List.map_cons, nodup_part_labels_cons, List.forall_mem_cons, List.forall_mem_cons,
      occupy_cons, adopt_slots_loop]
    by_cases hslot : slot < cfg.slot_count label.pool
    · have hregion := region_of_slot hslot
      by_cases hpart : label.part.isSome = true ∧ (label.bad_part = true ∨ label ∈ labels)
      · rw [if_pos (.inr (.inl hpart))]
        refine ⟨fun h => (by cases h), fun ⟨_, hbad, hunique, _⟩ => ?_⟩
        rcases hpart.2 with h | h
        · rw [hbad.1 hpart.1] at h
          cases h
        · exact absurd ⟨hpart.1, h⟩ hunique.1
      · by_cases htaken : (label.pool, slot) ∈ occupied
        · rw [if_pos (.inr (.inr (.inr htaken)))]
          refine ⟨fun h => (by cases h), fun ⟨_, _, _, hfree, _⟩ => ?_⟩
          have hperm := (occupy_perm.nodup_iff.mp hfree).of_append_left
          exact absurd htaken (List.nodup_cons.mp hperm).1
        · have hcond : ¬ ((cfg.regions.find? fun p => p.1 = label.pool).isNone = true ∨
              (label.part.isSome = true ∧ (label.bad_part = true ∨ label ∈ labels)) ∨
              ¬ slot < cfg.slot_count label.pool ∨ (label.pool, slot) ∈ occupied) := by
            rintro (h | h | h | h)
            · rw [hregion] at h
              cases h
            · exact hpart h
            · exact h hslot
            · exact htaken h
          rw [if_neg hcond, ih (List.nodup_cons.mpr ⟨htaken, hnodup⟩)]
          have hgood : label.part.isSome = true → label.bad_part = false := fun h =>
            Bool.eq_false_iff.mpr fun hbad => hpart ⟨h, .inl hbad⟩
          have hnew : ¬ (label.part.isSome = true ∧ label ∈ labels) := fun h =>
            hpart ⟨h.1, .inr h.2⟩
          exact ⟨fun ⟨h₁, h₂, h₃, h₄⟩ => ⟨⟨hslot, h₁⟩, ⟨hgood, h₂⟩, ⟨hnew, h₃⟩, h₄⟩,
            fun ⟨h₁, h₂, h₃, h₄⟩ => ⟨h₁.2, h₂.2, h₃.2, h₄⟩⟩
    · rw [if_pos (.inr (.inr (.inl hslot)))]
      exact ⟨fun h => (by cases h), fun h => absurd h.1.1 hslot⟩

/-- A residency as a record of the mirror describes it. -/
structure Row (d : LocalDramResidency) (slots : List (Label × Nat)) : Prop where
  rows : d.slots = slots
  state : d.state = .READY
  key_layout : d.key_layout = slots.map Prod.fst
  pending : d.pending_labels = OrderedSet.empty
  unclaimed : d.claim_count = 0
  stays : d.retire_on_release = false

theorem adopt_residency_ok {cfg : Config} {d : LocalDramResidency} {slots : List (Label × Nat)}
    (hrow : Row d slots) {occupied occupied' : List Slot} (hnodup : occupied.Nodup) :
    adopt_residency cfg d occupied = .ok occupied' ↔
      LocalRows cfg slots ∧ (occupy slots occupied).Nodup ∧ occupied' = occupy slots occupied := by
  unfold adopt_residency LocalDramResidency.layout
  rw [hrow.rows, hrow.state, hrow.key_layout, hrow.pending]
  by_cases hnil : slots = []
  · rw [if_pos (.inr (.inl hnil))]
    refine ⟨fun h => (by cases h), fun h => ?_⟩
    rw [hnil] at h
    exact absurd rfl h.1.layout.nonempty
  · rw [if_neg (by simp [hnil, OrderedSet.empty])]
    cases hloop : adopt_slots_loop cfg slots [] occupied with
    | error e =>
      refine ⟨fun h => (by cases h), ?_⟩
      rintro ⟨hrows, hfree, _⟩
      have hok : adopt_slots_loop cfg slots [] occupied = .ok _ := (adopt_slots_loop_ok hnodup).mpr
        ⟨hrows.range, fun p hp _ => hrows.layout.parts p.1 (List.mem_map_of_mem hp),
          ⟨hrows.layout.unique, fun _ _ => List.not_mem_nil⟩, hfree, rfl⟩
      rw [hloop] at hok
      cases hok
    | ok occ =>
      obtain ⟨hrange, _, _, hfree, rfl⟩ := (adopt_slots_loop_ok hnodup).mp hloop
      cases hlayout : validate_expected_layout cfg (slots.map Prod.fst) with
      | error e =>
        refine ⟨fun h => (by cases h), fun h => ?_⟩
        rw [validate_expected_layout_ok.mpr h.1.layout] at hlayout
        cases hlayout
      | ok u =>
        refine ⟨fun h => ?_, fun h => ?_⟩
        · refine ⟨⟨validate_expected_layout_ok.mp hlayout, hrange⟩, hfree, ?_⟩
          simpa [bind, Except.bind, pure, Except.pure, hlayout] using h.symm
        · simp [bind, Except.bind, pure, Except.pure, h.2.2]

theorem g3_adopt_residency_ok {cfg : Config} {d : G3Residency} {g : List Label × List Nat}
    (hd : d = { layout := g.1, slots := g.2 }) {local_layout : Option (List Label)}
    {occupied occupied' : List Nat} (hnodup : occupied.Nodup) :
    g3_adopt_residency cfg d local_layout occupied = .ok occupied' ↔
      DiskRows cfg g ∧ (∀ layout, local_layout = some layout → g.1 = layout) ∧
        (g.2 ++ occupied).Nodup ∧ occupied' = g.2 ++ occupied := by
  subst hd
  unfold g3_adopt_residency g3_size_bytes
  dsimp only
  cases hlayout : validate_expected_layout cfg g.1 with
  | error e =>
    refine ⟨fun h => (by cases h), fun ⟨hrows, _⟩ => ?_⟩
    rw [validate_expected_layout_ok.mpr hrows.layout] at hlayout
    cases hlayout
  | ok u =>
    have hvalid := validate_expected_layout_ok.mp hlayout
    simp only [bind, Except.bind]
    by_cases hsize : g.2.length * cfg.g3_slot_size =
        (g.1.map fun label => (cfg.block_size label.pool).getD 0).sum
    · rw [if_neg (not_not.mpr hsize)]
      by_cases hslots : (∀ slot ∈ g.2, slot < cfg.g3_total_slots) ∧ (g.2 ++ occupied).Nodup
      · obtain ⟨hrange, hfree⟩ := hslots
        have hdisjoint := List.nodup_append'.mp hfree
        rw [if_neg]
        · by_cases hagree : ∀ layout, local_layout = some layout → g.1 = layout
          · rw [if_neg]
            · refine ⟨fun h => ⟨⟨hvalid, hsize, hrange⟩, hagree, hfree, ?_⟩, fun ⟨_, _, _, h⟩ => ?_⟩
              · cases h
                rfl
              · rw [h]
            · cases local_layout with
              | none => simp
              | some layout => simp [hagree layout rfl]
          · rw [if_pos]
            · exact ⟨fun h => (by cases h), fun h => absurd h.2.1 hagree⟩
            · cases local_layout with
              | none => exact absurd (fun _ h => (by cases h)) hagree
              | some layout =>
                simp only [Option.some.injEq, forall_eq'] at hagree
                simp [hagree]
        · simp only [List.all_eq_true, decide_eq_true_eq, List.any_eq_true, not_or, not_not]
          exact ⟨hrange, hdisjoint.1, fun ⟨slot, hmem, htaken⟩ => hdisjoint.2.2 hmem htaken⟩
      · rw [if_pos]
        · exact ⟨fun h => (by cases h), fun h => absurd ⟨h.1.range, h.2.2.1⟩ hslots⟩
        · simp only [List.all_eq_true, decide_eq_true_eq, List.any_eq_true]
          by_contra hnot
          simp only [not_or, not_not, not_exists, not_and] at hnot
          exact hslots ⟨hnot.1, List.nodup_append'.mpr ⟨hnot.2.1, hnodup, fun x hx hx' =>
            hnot.2.2 x hx hx'⟩⟩
    · rw [if_pos hsize]
      exact ⟨fun h => (by cases h), fun h => absurd h.1.size hsize⟩

/-! ## Refusals -/

/-- An argument is refused. -/
def Refusal (e : Err) : Prop := ∃ message, e = .value_error message

theorem validate_layout_loop_error {cfg : Config} {layout labels : List Label} {e : Err}
    (h : validate_layout_loop cfg layout labels = .error e) : Refusal e := by
  induction layout generalizing labels with
  | nil => cases h
  | cons label layout ih =>
    rw [validate_layout_loop] at h
    split at h
    · cases h
      exact ⟨_, rfl⟩
    · split at h
      · cases h
        exact ⟨_, rfl⟩
      · exact ih h

theorem validate_expected_layout_error {cfg : Config} {layout : List Label} {e : Err}
    (h : validate_expected_layout cfg layout = .error e) : Refusal e := by
  unfold validate_expected_layout at h
  split at h
  · cases h
    exact ⟨_, rfl⟩
  · exact validate_layout_loop_error h

theorem adopt_slots_loop_error {cfg : Config} {slots : List (Label × Nat)} {labels : List Label}
    {occupied : List Slot} {e : Err} (h : adopt_slots_loop cfg slots labels occupied = .error e) :
    Refusal e := by
  induction slots generalizing labels occupied with
  | nil => cases h
  | cons p slots ih =>
    rw [adopt_slots_loop] at h
    split at h
    · cases h
      exact ⟨_, rfl⟩
    · exact ih h

theorem adopt_residency_error {cfg : Config} {d : LocalDramResidency} {occupied : List Slot}
    {e : Err} (h : adopt_residency cfg d occupied = .error e) : Refusal e := by
  unfold adopt_residency at h
  split at h
  · cases h
    exact ⟨_, rfl⟩
  · cases hloop : adopt_slots_loop cfg d.slots [] occupied with
    | error e' =>
      rw [hloop] at h
      cases h
      exact adopt_slots_loop_error hloop
    | ok occ =>
      rw [hloop] at h
      cases hlayout : validate_expected_layout cfg d.key_layout with
      | error e' =>
        simp only [bind, Except.bind, hlayout] at h
        cases h
        exact validate_expected_layout_error hlayout
      | ok u =>
        simp only [bind, Except.bind, hlayout] at h
        split at h <;> cases h
        exact ⟨_, rfl⟩

theorem g3_adopt_residency_error {cfg : Config} {d : G3Residency}
    {local_layout : Option (List Label)} {occupied : List Nat} {e : Err}
    (h : g3_adopt_residency cfg d local_layout occupied = .error e) : Refusal e := by
  unfold g3_adopt_residency at h
  cases hlayout : validate_expected_layout cfg d.layout with
  | error e' =>
    rw [hlayout] at h
    cases h
    exact validate_expected_layout_error hlayout
  | ok u =>
    rw [hlayout] at h
    simp only [bind, Except.bind] at h
    split at h
    · cases h
      exact ⟨_, rfl⟩
    · split at h
      · cases h
        exact ⟨_, rfl⟩
      · split at h <;> cases h
        exact ⟨_, rfl⟩

/-! ## Tables -/

/-- The rows of local DRAM that the blocks name. -/
def local_slots (blocks : List RecoveryBlock) : List Slot :=
  blocks.flatMap fun block => (block.g2.getD []).map location_slot

/-- The disk slots that the blocks name. -/
def disk_slots (blocks : List RecoveryBlock) : List Nat :=
  blocks.flatMap fun block => (block.g3.map Prod.snd).getD []

/-- A table a core with this configuration can hold. -/
structure ConsistentTable (cfg : Config) (blocks : List RecoveryBlock) : Prop where
  local_rows : ∀ block ∈ blocks, ∀ slots, block.g2 = some slots → LocalRows cfg slots
  local_disjoint : (local_slots blocks).Nodup
  disk_rows : ∀ block ∈ blocks, ∀ g, block.g3 = some g → DiskRows cfg g
  disk_disjoint : (disk_slots blocks).Nodup
  agree : ∀ block ∈ blocks, ∀ slots g, block.g2 = some slots → block.g3 = some g →
    g.1 = slots.map Prod.fst

theorem local_slots_append {blocks blocks' : List RecoveryBlock} :
    local_slots (blocks ++ blocks') = local_slots blocks ++ local_slots blocks' :=
  List.flatMap_append

theorem disk_slots_append {blocks blocks' : List RecoveryBlock} :
    disk_slots (blocks ++ blocks') = disk_slots blocks ++ disk_slots blocks' :=
  List.flatMap_append

/-- The occupied rows stand for the blocks seen, all of which passed. -/
structure LocalSeen (cfg : Config) (blocks : List RecoveryBlock) (occupied : List Slot) : Prop where
  rows : ∀ block ∈ blocks, ∀ slots, block.g2 = some slots → LocalRows cfg slots
  nodup : occupied.Nodup
  perm : occupied.Perm (local_slots blocks)

theorem LocalSeen.nil {cfg : Config} : LocalSeen cfg [] [] :=
  ⟨fun _ h => (by cases h), List.nodup_nil, List.Perm.nil⟩

theorem LocalSeen.absent {cfg : Config} {blocks : List RecoveryBlock} {occupied : List Slot}
    {block : RecoveryBlock} (h : LocalSeen cfg blocks occupied) (hg2 : block.g2 = none) :
    LocalSeen cfg (blocks ++ [block]) occupied := by
  refine ⟨fun b hb slots hslots => ?_, h.nodup, ?_⟩
  · rcases List.mem_append.mp hb with hb | hb
    · exact h.rows b hb slots hslots
    · rw [List.mem_singleton.mp hb, hg2] at hslots
      cases hslots
  · rw [local_slots_append]
    simpa [local_slots, hg2] using h.perm

theorem LocalSeen.next {cfg : Config} {blocks : List RecoveryBlock} {occupied : List Slot}
    {block : RecoveryBlock} {slots : List (Label × Nat)} (h : LocalSeen cfg blocks occupied)
    (hg2 : block.g2 = some slots) (hrows : LocalRows cfg slots)
    (hfree : (occupy slots occupied).Nodup) :
    LocalSeen cfg (blocks ++ [block]) (occupy slots occupied) := by
  refine ⟨fun b hb slots' hslots => ?_, hfree, occupy_perm.trans ?_⟩
  · rcases List.mem_append.mp hb with hb | hb
    · exact h.rows b hb slots' hslots
    · rw [List.mem_singleton.mp hb, hg2] at hslots
      cases hslots
      exact hrows
  · have hblock : local_slots [block] = slots.map location_slot := by simp [local_slots, hg2]
    rw [local_slots_append, hblock]
    exact h.perm.append_right _

/-- A block that is refused with these rows occupied makes every table inconsistent that goes on
from the blocks seen. -/
theorem LocalSeen.refused {cfg : Config} {blocks rest : List RecoveryBlock} {occupied : List Slot}
    {block : RecoveryBlock} {slots : List (Label × Nat)} (h : LocalSeen cfg blocks occupied)
    (hg2 : block.g2 = some slots)
    (hrefused : ¬ (LocalRows cfg slots ∧ (occupy slots occupied).Nodup)) :
    ¬ ConsistentTable cfg (blocks ++ block :: rest) := by
  intro htable
  refine hrefused ⟨htable.local_rows block (by simp) slots hg2, ?_⟩
  have hall := htable.local_disjoint
  have hblock : local_slots [block] = slots.map location_slot := by simp [local_slots, hg2]
  rw [← List.singleton_append, ← List.append_assoc, local_slots_append, local_slots_append,
    hblock] at hall
  exact (occupy_perm.trans (h.perm.append_right _)).nodup_iff.mpr hall.of_append_left

/-- The same on disk. -/
structure DiskSeen (cfg : Config) (blocks : List RecoveryBlock) (occupied : List Nat) : Prop where
  rows : ∀ block ∈ blocks, ∀ g, block.g3 = some g → DiskRows cfg g
  agree : ∀ block ∈ blocks, ∀ slots g, block.g2 = some slots → block.g3 = some g →
    g.1 = slots.map Prod.fst
  nodup : occupied.Nodup
  perm : occupied.Perm (disk_slots blocks)

theorem DiskSeen.nil {cfg : Config} : DiskSeen cfg [] [] :=
  ⟨fun _ h => (by cases h), fun _ h => (by cases h), List.nodup_nil, List.Perm.nil⟩

theorem DiskSeen.absent {cfg : Config} {blocks : List RecoveryBlock} {occupied : List Nat}
    {block : RecoveryBlock} (h : DiskSeen cfg blocks occupied) (hg3 : block.g3 = none) :
    DiskSeen cfg (blocks ++ [block]) occupied := by
  refine ⟨fun b hb g hg => ?_, fun b hb slots g hslots hg => ?_, h.nodup, ?_⟩
  · rcases List.mem_append.mp hb with hb | hb
    · exact h.rows b hb g hg
    · rw [List.mem_singleton.mp hb, hg3] at hg
      cases hg
  · rcases List.mem_append.mp hb with hb | hb
    · exact h.agree b hb slots g hslots hg
    · rw [List.mem_singleton.mp hb, hg3] at hg
      cases hg
  · rw [disk_slots_append]
    simpa [disk_slots, hg3] using h.perm

theorem DiskSeen.next {cfg : Config} {blocks : List RecoveryBlock} {occupied : List Nat}
    {block : RecoveryBlock} {g : List Label × List Nat} (h : DiskSeen cfg blocks occupied)
    (hg3 : block.g3 = some g) (hrows : DiskRows cfg g)
    (hagree : ∀ layout, block.g2.map (·.map Prod.fst) = some layout → g.1 = layout)
    (hfree : (g.2 ++ occupied).Nodup) : DiskSeen cfg (blocks ++ [block]) (g.2 ++ occupied) := by
  refine ⟨fun b hb g' hg => ?_, fun b hb slots g' hslots hg => ?_, hfree, ?_⟩
  · rcases List.mem_append.mp hb with hb | hb
    · exact h.rows b hb g' hg
    · rw [List.mem_singleton.mp hb, hg3] at hg
      cases hg
      exact hrows
  · rcases List.mem_append.mp hb with hb | hb
    · exact h.agree b hb slots g' hslots hg
    · rw [List.mem_singleton.mp hb] at hslots hg
      rw [hg3] at hg
      cases hg
      exact hagree _ (by rw [hslots, Option.map_some])
  · have hblock : disk_slots [block] = g.2 := by simp [disk_slots, hg3]
    rw [disk_slots_append, hblock]
    exact List.perm_append_comm.trans (h.perm.append_right _)

theorem DiskSeen.refused {cfg : Config} {blocks rest : List RecoveryBlock} {occupied : List Nat}
    {block : RecoveryBlock} {g : List Label × List Nat} (h : DiskSeen cfg blocks occupied)
    (hg3 : block.g3 = some g)
    (hrefused : ¬ (DiskRows cfg g ∧
      (∀ layout, block.g2.map (·.map Prod.fst) = some layout → g.1 = layout) ∧
      (g.2 ++ occupied).Nodup)) : ¬ ConsistentTable cfg (blocks ++ block :: rest) := by
  intro htable
  refine hrefused ⟨htable.disk_rows block (by simp) g hg3, fun layout hlayout => ?_, ?_⟩
  · obtain ⟨slots, hslots, rfl⟩ := Option.map_eq_some_iff.mp hlayout
    exact htable.agree block (by simp) slots g hslots hg3
  · have hall := htable.disk_disjoint
    have hblock : disk_slots [block] = g.2 := by simp [disk_slots, hg3]
    rw [← List.singleton_append, ← List.append_assoc, disk_slots_append, disk_slots_append,
      hblock] at hall
    exact (List.perm_append_comm.trans (h.perm.append_right _)).nodup_iff.mpr hall.of_append_left

/-- The table is consistent once all of it was seen in both tiers. -/
theorem consistent_of_seen {cfg : Config} {blocks : List RecoveryBlock} {rows : List Slot}
    {occupied : List Nat} (hlocal : LocalSeen cfg blocks rows)
    (hdisk : DiskSeen cfg blocks occupied) : ConsistentTable cfg blocks :=
  ⟨hlocal.rows, hlocal.perm.nodup_iff.mp hlocal.nodup, hdisk.rows,
    hdisk.perm.nodup_iff.mp hdisk.nodup, hdisk.agree⟩

theorem DiskSeen.of_diskless {cfg : Config} {blocks : List RecoveryBlock}
    (h : ∀ block ∈ blocks, block.g3 = none) : DiskSeen cfg blocks [] := by
  have hslots : disk_slots blocks = [] :=
    List.flatMap_eq_nil_iff.mpr fun block hmem => by rw [h block hmem]; rfl
  refine ⟨fun b hb g hg => ?_, fun b hb slots g _ hg => ?_, List.nodup_nil, ?_⟩
  · rw [h b hb] at hg
    cases hg
  · rw [h b hb] at hg
    cases hg
  · rw [hslots]

/-! ## The table in the core -/

/-- The record holds what the block says. -/
structure Stored (s : Core) (record : RecId) (block : RecoveryBlock) : Prop where
  local_dram : Option.Rel Row ((s.recs record).local_dram.map s.residencies) block.g2
  g3 : (s.recs record).g3.map s.g3_residencies =
    block.g3.map fun g => { layout := g.1, slots := g.2 }

/-- The records hold the table, in its order. -/
def Stores (s : Core) : List (BlockKey × RecId) → List (BlockKey × RecoveryBlock) → Prop :=
  List.Forall₂ fun p q => p.1 = q.1 ∧ Stored s p.2 q.2

theorem keys_of_forall₂ {R : BlockKey × RecId → BlockKey × RecoveryBlock → Prop}
    {records : List (BlockKey × RecId)} {entries : List (BlockKey × RecoveryBlock)}
    (h : List.Forall₂ (fun p q => p.1 = q.1 ∧ R p q) records entries) :
    records.map Prod.fst = entries.map Prod.fst := by
  induction h with
  | nil => rfl
  | cons hp _ ih => rw [List.map_cons, List.map_cons, hp.1, ih]

/-- From `s` to `s'` the records and what they say stayed. -/
structure Kept (s s' : Core) : Prop where
  map : s'.block_record_map = s.block_record_map
  recs : s'.recs = s.recs
  g3_residencies : s'.g3_residencies = s.g3_residencies
  rows : ∀ r slots, Row (s.residencies r) slots → Row (s'.residencies r) slots

theorem Kept.refl {s : Core} : Kept s s := ⟨rfl, rfl, rfl, fun _ _ h => h⟩

theorem Kept.trans {s s' s'' : Core} (h : Kept s s') (h' : Kept s' s'') : Kept s s'' :=
  ⟨h'.map.trans h.map, h'.recs.trans h.recs, h'.g3_residencies.trans h.g3_residencies,
    fun r slots hrow => h'.rows r slots (h.rows r slots hrow)⟩

theorem Kept.of_eq {s s' : Core} (hmap : s'.block_record_map = s.block_record_map)
    (hrecs : s'.recs = s.recs) (hg3 : s'.g3_residencies = s.g3_residencies)
    (hres : s'.residencies = s.residencies) : Kept s s' :=
  ⟨hmap, hrecs, hg3, fun _ _ h => by rw [hres]; exact h⟩

theorem Stored.kept {s s' : Core} {record : RecId} {block : RecoveryBlock}
    (h : Stored s record block) (hkept : Kept s s') : Stored s' record block := by
  constructor
  · rw [hkept.recs]
    have hlocal := h.local_dram
    cases hr : (s.recs record).local_dram with
    | none =>
      rw [hr] at hlocal
      exact hlocal
    | some r =>
      rw [hr, Option.map_some] at hlocal
      rw [Option.map_some]
      generalize block.g2 = g2 at hlocal ⊢
      cases hlocal with
      | some hrow => exact .some (hkept.rows r _ hrow)
  · rw [hkept.recs, hkept.g3_residencies]
    exact h.g3

/-- What the record holds in local DRAM. -/
theorem Stored.cases_local {s : Core} {record : RecId} {block : RecoveryBlock}
    (h : Stored s record block) :
    ((s.recs record).local_dram = none ∧ block.g2 = none) ∨
      ∃ r slots, (s.recs record).local_dram = some r ∧ block.g2 = some slots ∧
        Row (s.residencies r) slots := by
  have hlocal := h.local_dram
  cases hr : (s.recs record).local_dram with
  | none =>
    rw [hr, Option.map_none] at hlocal
    generalize block.g2 = g2 at hlocal
    cases hlocal
    exact .inl ⟨rfl, rfl⟩
  | some r =>
    rw [hr, Option.map_some] at hlocal
    generalize block.g2 = g2 at hlocal
    cases hlocal with
    | some hrow => exact .inr ⟨r, _, rfl, rfl, hrow⟩

/-- What it holds on disk. -/
theorem Stored.cases_disk {s : Core} {record : RecId} {block : RecoveryBlock}
    (h : Stored s record block) :
    ((s.recs record).g3 = none ∧ block.g3 = none) ∨
      ∃ g d, (s.recs record).g3 = some g ∧ block.g3 = some d ∧
        s.g3_residencies g = { layout := d.1, slots := d.2 } := by
  have hdisk := h.g3
  cases hg : (s.recs record).g3 with
  | none =>
    rw [hg, Option.map_none] at hdisk
    exact .inl ⟨rfl, Option.map_eq_none_iff.mp hdisk.symm⟩
  | some g =>
    rw [hg, Option.map_some] at hdisk
    obtain ⟨d, hd, heq⟩ := Option.map_eq_some_iff.mp hdisk.symm
    exact .inr ⟨g, d, rfl, hd, heq.symm⟩

/-- The layout the disk residency is compared with. -/
theorem Stored.local_layout {s : Core} {record : RecId} {block : RecoveryBlock}
    (h : Stored s record block) :
    ((s.recs record).local_dram.map fun r => (s.residencies r).key_layout) =
      block.g2.map (·.map Prod.fst) := by
  rcases h.cases_local with ⟨hr, hg2⟩ | ⟨r, slots, hr, hg2, hrow⟩
  · rw [hr, hg2]
    rfl
  · rw [hr, hg2, Option.map_some, Option.map_some, hrow.key_layout]

/-! ## Installing -/

/-- What the record refers to was allocated. -/
structure Allocated (s : Core) (record : RecId) : Prop where
  known : record < s.next_rec
  local_dram : ∀ r, (s.recs record).local_dram = some r → r < s.next_res
  g3 : ∀ g, (s.recs record).g3 = some g → g < s.next_g3

section Installing

variable {s : Core} {key : BlockKey} {block : RecoveryBlock} {record : RecId}

theorem residencies_installed {r : ResId} (h : r < s.next_res) :
    (installed key block s).residencies r = s.residencies r := by
  unfold installed
  cases block.g2 with
  | none => rfl
  | some slots => exact Function.update_of_ne (Nat.ne_of_lt h) _ _

theorem g3_residencies_installed {g : G3Id} (h : g < s.next_g3) :
    (installed key block s).g3_residencies g = s.g3_residencies g := by
  unfold installed
  cases block.g3 with
  | none => rfl
  | some d => exact Function.update_of_ne (Nat.ne_of_lt h) _ _

theorem recs_installed (h : record < s.next_rec) :
    (installed key block s).recs record = s.recs record :=
  Function.update_of_ne (Nat.ne_of_lt h) _ _

theorem Allocated.installed (h : Allocated s record) :
    Allocated (installed key block s) record := by
  refine ⟨Nat.lt_succ_of_lt h.known, fun r hr => ?_, fun g hg => ?_⟩
  · rw [recs_installed h.known] at hr
    exact Nat.lt_succ_of_lt (h.local_dram r hr)
  · rw [recs_installed h.known] at hg
    exact Nat.lt_succ_of_lt (h.g3 g hg)

/-- Installing a record leaves what the earlier ones hold. -/
theorem Stored.installed {other : RecoveryBlock} (h : Stored s record other)
    (halloc : Allocated s record) : Stored (installed key block s) record other := by
  constructor
  · rw [recs_installed halloc.known]
    have hlocal := h.local_dram
    cases hr : (s.recs record).local_dram with
    | none =>
      rw [hr] at hlocal
      exact hlocal
    | some r =>
      rw [hr, Option.map_some] at hlocal
      rw [Option.map_some, residencies_installed (halloc.local_dram r hr)]
      exact hlocal
  · rw [recs_installed halloc.known, ← h.g3]
    cases hg : (s.recs record).g3 with
    | none => rfl
    | some g => rw [Option.map_some, Option.map_some, g3_residencies_installed (halloc.g3 g hg)]

theorem rec_installed : (installed key block s).recs s.next_rec =
    { local_dram := block.g2.map fun _ => s.next_res
      g3 := block.g3.map fun _ => s.next_g3
      position := block.position } :=
  Function.update_self _ _ _

/-- The installed record holds its block. -/
theorem stored_installed : Stored (installed key block s) s.next_rec block := by
  constructor
  · rw [rec_installed]
    unfold installed
    cases block.g2 with
    | none => exact .none
    | some slots =>
      refine .some ?_
      dsimp only
      rw [Function.update_self]
      exact ⟨rfl, rfl, rfl, rfl, rfl, rfl⟩
  · rw [rec_installed]
    unfold installed
    cases block.g3 with
    | none => rfl
    | some d =>
      dsimp only [Option.map_some]
      rw [Function.update_self]

theorem allocated_installed : Allocated (installed key block s) s.next_rec := by
  refine ⟨Nat.lt_succ_self _, fun r hr => ?_, fun g hg => ?_⟩
  · rw [rec_installed] at hr
    obtain ⟨_, _, rfl⟩ := Option.map_eq_some_iff.mp hr
    exact Nat.lt_succ_self _
  · rw [rec_installed] at hg
    obtain ⟨_, _, rfl⟩ := Option.map_eq_some_iff.mp hg
    exact Nat.lt_succ_self _

end Installing

/-- The tiers of `s'` are those of `s`: the records came in, and nothing else happened. -/
structure Tiers (s s' : Core) : Prop where
  pools : s'.pools = s.pools
  g3 : s'.g3 = s.g3

/-- Once all records are installed the core holds the table. -/
theorem wp_install_records {W : Watch Core Err Ev} {table : Dict BlockKey RecoveryBlock}
    {s : Core} {t : List Ev} (hempty : s.block_record_map.entries = []) :
    wp W (forEach table.entries fun p => install_record p.1 p.2)
      (fun _ s' t' => Stores s' s'.block_record_map.entries table.entries ∧ Tiers s s' ∧ t' = t)
      s t := by
  refine wp_forEach (fun rest s' t' => ∃ done, table.entries = done ++ rest ∧
    List.Forall₂ (fun p q => p.1 = q.1 ∧ Stored s' p.2 q.2 ∧ Allocated s' p.2)
      s'.block_record_map.entries done ∧ Tiers s s' ∧ t' = t) ?_ ?_ _ _ _ ?_
  · rintro ⟨key, block⟩ rest s₁ t₁ ⟨done, hentries, hstores, htiers, ht⟩
    refine wp_change.mpr ⟨done ++ [(key, block)], by rw [hentries, List.append_assoc]; rfl, ?_,
      ⟨htiers.pools, htiers.g3⟩, ht⟩
    -- the keys of the table differ, so the record goes to the end
    have hkeys := keys_of_forall₂ hstores
    have hnew : key ∉ s₁.block_record_map.keys := by
      have hnodup := table.nodup
      rw [hentries, List.map_append, List.map_cons] at hnodup
      rw [Dict.keys, hkeys]
      intro hmem
      exact (List.nodup_append'.mp hnodup).2.2 hmem List.mem_cons_self
    have hset : (installed key block s₁).block_record_map.entries =
        s₁.block_record_map.entries ++ [(key, s₁.next_rec)] :=
      Dict.entries_set_of_notMem hnew _
    rw [hset]
    refine List.rel_append ?_ ?_
    · exact hstores.imp fun p q h => ⟨h.1, h.2.1.installed h.2.2, h.2.2.installed⟩
    · exact .cons ⟨rfl, stored_installed, allocated_installed⟩ .nil
  · rintro s₁ t₁ ⟨done, hentries, hstores, htiers, ht⟩
    rw [List.append_nil] at hentries
    refine ⟨?_, htiers, ht⟩
    rw [hentries]
    exact hstores.imp fun p q h => ⟨h.1, h.2.1⟩
  · refine ⟨[], rfl, ?_, ⟨rfl, rfl⟩, rfl⟩
    rw [hempty]
    exact .nil

/-! ## Adopting the slots -/

/-- The events that announce a block to the policy, in their order. -/
def announced (t : List Ev) : List (BlockKey × CacheTier) :=
  t.filterMap fun e => match e.act with
    | .on_ingest key source => some (key, source)
    | _ => none

theorem announced_append {t u : List Ev} : announced (t ++ u) = announced t ++ announced u :=
  List.filterMap_append

/-- From `s` to `s'` rows were adopted: the records stayed, nothing was ranked, and the disk tier
is as it was. -/
structure Adopts (s s' : Core) : Prop extends Kept s s' where
  evictable : s'.pools.evictable = s.pools.evictable
  unscored : s'.pools.unscored = s.pools.unscored
  marker : s'.pools.capacity_eviction_key = s.pools.capacity_eviction_key
  g3 : s'.g3 = s.g3

theorem Adopts.refl {s : Core} : Adopts s s := ⟨.refl, rfl, rfl, rfl, rfl⟩

theorem Adopts.trans {s s' s'' : Core} (h : Adopts s s') (h' : Adopts s' s'') : Adopts s s'' :=
  ⟨h.toKept.trans h'.toKept, h'.evictable.trans h.evictable, h'.unscored.trans h.unscored,
    h'.marker.trans h.marker, h'.g3.trans h.g3⟩

/-- One residency changes what no record of the mirror says. -/
theorem Adopts.set_residency {s : Core} {r : ResId} {d : LocalDramResidency}
    (h : ∀ slots, Row (s.residencies r) slots → Row d slots) :
    Adopts s { s with residencies := Function.update s.residencies r d } := by
  refine ⟨⟨rfl, rfl, rfl, fun r' slots hrow => ?_⟩, rfl, rfl, rfl, rfl⟩
  dsimp only
  by_cases heq : r' = r
  · subst heq
    rw [Function.update_self]
    exact h slots hrow
  · rw [Function.update_of_ne heq]
    exact hrow

theorem Row.refs {d : LocalDramResidency} {slots : List (Label × Nat)}
    {refs : Option (List TransferRef)} (h : Row d slots) : Row { d with refs := refs } slots :=
  ⟨h.rows, h.state, h.key_layout, h.pending, h.unclaimed, h.stays⟩

theorem Row.with_label_index {d : LocalDramResidency} {slots : List (Label × Nat)}
    (h : Row d slots) : Row d.with_label_index slots := by
  unfold LocalDramResidency.with_label_index
  split
  · exact h
  · exact ⟨h.rows, h.state, h.key_layout, h.pending, h.unclaimed, h.stays⟩

section Adopting

variable {K : Knot} {s : Core} {t : List Ev}

/-- A tick of the environment. -/
theorem Adopts.ticked : Adopts s { s with tick := s.tick + 1 } :=
  ⟨.of_eq rfl rfl rfl rfl, rfl, rfl, rfl, rfl⟩

theorem wp_modify_residency_adopts {W : Watch Core Err Ev} {r : ResId}
    {f : LocalDramResidency → LocalDramResidency}
    (h : ∀ slots, Row (s.residencies r) slots → Row (f (s.residencies r)) slots) :
    wp W (modify_residency r f) (fun _ s' t' => Adopts s s' ∧ t' = t) s t :=
  wp_change.mpr ⟨.set_residency h, rfl⟩

/-- Publishing a source before the progress thread runs. -/
theorem wp_publish_source_adopts {W : Watch Core Err Ev}
    (hreaders : ∀ tick, K.env.readers tick = [])
    {key : BlockKey} {r : ResId} :
    wp W (publish_source K key r) (fun _ s' t' => Adopts s s' ∧ t' = t) s t := by
  unfold publish_source
  refine wp_bind.mpr (wp_read.mpr (wp_ite.mpr ⟨fun _ => ?_, fun _ => wp_pure.mpr ⟨.refl, rfl⟩⟩))
  refine wp_seq (P := fun _ s' t' => Adopts s s' ∧ t' = t) ?_ fun _ s₁ t₁ ⟨hadopts, ht⟩ => ?_
  · refine wp_bind.mpr (wp_step.mpr ?_)
    rw [hreaders]
    exact wp_pure.mpr ⟨.ticked, rfl⟩
  · refine wp_ite.mpr ⟨fun _ => ?_, fun _ => wp_pure.mpr ⟨hadopts, ht⟩⟩
    refine wp_seq (wp_modify_residency_adopts fun _ hrow => hrow.refs) fun _ s₂ t₂ ⟨hrow, ht₂⟩ =>
      wp_change.mpr ⟨(hadopts.trans hrow).trans ?_, ht₂.trans ht⟩
    exact ⟨.of_eq rfl rfl rfl rfl, rfl, rfl, rfl, rfl⟩

/-- How adoption ends early: it refuses the table, which is inconsistent. -/
def refuses (cfg : Config) (blocks : List RecoveryBlock) : Watch Core Err Ev :=
  ⟨fun e _ _ => Refusal e ∧ ¬ ConsistentTable cfg blocks, fun _ => False⟩

theorem wp_adopt_recovery_slots (hreaders : ∀ tick, K.env.readers tick = [])
    {records : List (BlockKey × RecId)} {entries : List (BlockKey × RecoveryBlock)}
    (hstores : Stores s records entries) :
    wp (refuses K.cfg (entries.map Prod.snd)) (adopt_recovery_slots K records)
      (fun _ s' t' => ∃ occupied, LocalSeen K.cfg (entries.map Prod.snd) occupied ∧ Adopts s s' ∧
        s'.pools.free_slots = free_slots_without K.cfg occupied ∧ announced t' = announced t)
      s t := by
  unfold adopt_recovery_slots
  refine wp_seq (P := fun occupied s' t' => LocalSeen K.cfg (entries.map Prod.snd) occupied ∧
    Adopts s s' ∧ announced t' = announced t) ?_ fun occupied s₁ t₁ ⟨hseen, hadopts, ht⟩ => ?_
  · refine wp_foldEach (fun rest occupied s' t' => ∃ done left, entries = done ++ left ∧
      Stores s rest left ∧ LocalSeen K.cfg (done.map Prod.snd) occupied ∧ Adopts s s' ∧
        announced t' = announced t) ?_ ?_ _ _ _ _ ⟨[], entries, rfl, hstores, .nil, .refl, rfl⟩
    · rintro ⟨key, record⟩ rest occupied s₁ t₁ ⟨done, left, hentries, hleft, hseen, hadopts, ht⟩
      cases hleft with
      | @cons _ q _ left hq hleft =>
        obtain ⟨_, block⟩ := q
        obtain ⟨rfl, hstored⟩ := hq
        have hnext : entries = (done ++ [(key, block)]) ++ left := by
          rw [hentries, List.append_assoc]
          rfl
        have hblocks : (done ++ [(key, block)]).map Prod.snd = done.map Prod.snd ++ [block] :=
          List.map_append
        refine wp_bind.mpr (wp_read.mpr ?_)
        rcases (hstored.kept hadopts.toKept).cases_local with
          ⟨hr, hg2⟩ | ⟨r, slots, hr, hg2, hrow⟩
        · rw [hr]
          refine wp_pure.mpr ⟨_, left, hnext, hleft, ?_, hadopts, ht⟩
          rw [hblocks]
          exact hseen.absent hg2
        · rw [hr]
          have hiff (occupied' : List Slot) : adopt_residency K.cfg (s₁.residencies r) occupied =
              .ok occupied' ↔ LocalRows K.cfg slots ∧ (occupy slots occupied).Nodup ∧
                occupied' = occupy slots occupied := adopt_residency_ok hrow hseen.nodup
          dsimp only
          cases hadopt : adopt_residency K.cfg (s₁.residencies r) occupied with
          | error e =>
            -- the occupied rows are those of the blocks before, so the table is at fault
            refine wp_bind.mpr (wp_raise.mpr ⟨adopt_residency_error hadopt, ?_⟩)
            rw [hentries, List.map_append]
            refine hseen.refused hg2 fun ⟨hrows, hfree⟩ => ?_
            rw [(hiff _).mpr ⟨hrows, hfree, rfl⟩] at hadopt
            cases hadopt
          | ok occupied' =>
            obtain ⟨hrows, hfree, rfl⟩ := (hiff _).mp hadopt
            refine wp_bind.mpr (wp_pure.mpr ?_)
            refine wp_seq (wp_modify_residency_adopts fun _ h => h.refs.with_label_index)
              fun _ s₂ t₂ ⟨hindexed, ht₂⟩ => wp_bind.mpr (wp_emit.mpr ?_)
            refine wp_seq (wp_publish_source_adopts hreaders) fun _ s₃ t₃ ⟨hpublished, ht₃⟩ =>
              wp_pure.mpr ⟨_, left, hnext, hleft, ?_, (hadopts.trans hindexed).trans hpublished, ?_⟩
            · rw [hblocks]
              exact hseen.next hg2 hrows hfree
            · rw [ht₃, announced_append, ht₂, ht]
              exact List.append_nil _
    · rintro occupied s₁ t₁ ⟨done, left, hentries, hleft, hseen, hadopts, ht⟩
      cases hleft
      rw [hentries, List.append_nil]
      exact ⟨hseen, hadopts, ht⟩
  · refine wp_change.mpr ⟨occupied, hseen, hadopts.trans ?_, rfl, ht⟩
    exact ⟨.of_eq rfl rfl rfl rfl, rfl, rfl, rfl, rfl⟩

theorem wp_g3_adopt_recovery_slots {records : List (BlockKey × RecId)}
    {entries : List (BlockKey × RecoveryBlock)} (hstores : Stores s records entries) :
    wp (refuses K.cfg (entries.map Prod.snd)) (g3_adopt_recovery_slots K records)
      (fun _ s' t' => ∃ occupied, DiskSeen K.cfg (entries.map Prod.snd) occupied ∧
        s' = { s with g3.free_slots :=
          (List.range K.cfg.g3_total_slots).filter fun slot => slot ∉ occupied } ∧ t' = t) s t := by
  unfold g3_adopt_recovery_slots
  refine wp_seq (P := fun occupied s' t' => DiskSeen K.cfg (entries.map Prod.snd) occupied ∧
    s' = s ∧ t' = t) ?_ fun occupied s₁ t₁ ⟨hseen, hs, ht⟩ => ?_
  · refine wp_foldEach (fun rest occupied s' t' => ∃ done left, entries = done ++ left ∧
      Stores s rest left ∧ DiskSeen K.cfg (done.map Prod.snd) occupied ∧ s' = s ∧ t' = t)
      ?_ ?_ _ _ _ _ ⟨[], entries, rfl, hstores, .nil, rfl, rfl⟩
    · rintro ⟨key, record⟩ rest occupied s₁ t₁ ⟨done, left, hentries, hleft, hseen, rfl, ht⟩
      cases hleft with
      | @cons _ q _ left hq hleft =>
        obtain ⟨_, block⟩ := q
        obtain ⟨rfl, hstored⟩ := hq
        have hnext : entries = (done ++ [(key, block)]) ++ left := by
          rw [hentries, List.append_assoc]
          rfl
        have hblocks : (done ++ [(key, block)]).map Prod.snd = done.map Prod.snd ++ [block] :=
          List.map_append
        refine wp_bind.mpr (wp_read.mpr ?_)
        rcases hstored.cases_disk with ⟨hg, hg3⟩ | ⟨g, d, hg, hg3, hd⟩
        · rw [hg]
          refine wp_pure.mpr ⟨_, left, hnext, hleft, ?_, rfl, ht⟩
          rw [hblocks]
          exact hseen.absent hg3
        · rw [hg, hstored.local_layout]
          have hiff (occupied' : List Nat) : g3_adopt_residency K.cfg (s₁.g3_residencies g)
              (block.g2.map (·.map Prod.fst)) occupied = .ok occupied' ↔
                DiskRows K.cfg d ∧ (∀ layout, block.g2.map (·.map Prod.fst) = some layout →
                  d.1 = layout) ∧ (d.2 ++ occupied).Nodup ∧ occupied' = d.2 ++ occupied :=
            g3_adopt_residency_ok hd hseen.nodup
          dsimp only
          cases hadopt : g3_adopt_residency K.cfg (s₁.g3_residencies g)
              (block.g2.map (·.map Prod.fst)) occupied with
          | error e =>
            refine wp_raise.mpr ⟨g3_adopt_residency_error hadopt, ?_⟩
            rw [hentries, List.map_append]
            refine hseen.refused hg3 fun ⟨hrows, hagree, hfree⟩ => ?_
            rw [(hiff _).mpr ⟨hrows, hagree, hfree, rfl⟩] at hadopt
            cases hadopt
          | ok occupied' =>
            obtain ⟨hrows, hagree, hfree, rfl⟩ := (hiff _).mp hadopt
            refine wp_pure.mpr ⟨_, left, hnext, hleft, ?_, rfl, ht⟩
            rw [hblocks]
            exact hseen.next hg3 hrows hagree hfree
    · rintro occupied s₁ t₁ ⟨done, left, hentries, hleft, hseen, hs, ht⟩
      cases hleft
      rw [hentries, List.append_nil]
      exact ⟨hseen, hs, ht⟩
  · subst hs
    exact wp_change.mpr ⟨occupied, hseen, rfl, ht⟩

/-! ## Announcing -/

/-- The block is in some tier. -/
def RecoveryBlock.Held (block : RecoveryBlock) : Prop :=
  block.g2.isSome = true ∨ block.g3.isSome = true

/-- The tier a recovered block is announced for. -/
def source_tier (cfg : Config) (block : RecoveryBlock) : CacheTier :=
  if block.g2.isSome ∨ cfg.g3.isNone then .LOCAL_G2 else .G3

theorem wp_announce {W : Watch Core Err Ev} {records : List (BlockKey × RecId)}
    {entries : List (BlockKey × RecoveryBlock)} (hstores : Stores s records entries)
    (hheld : ∀ p ∈ entries, p.2.Held) (hnone : announced t = []) :
    wp W (forEach records fun p => announce_recovered K p.1 p.2)
      (fun _ s' t' => s' = s ∧ announced t' = entries.map (fun p => (p.1, source_tier K.cfg p.2)) ∧
        ∀ e ∈ t', ∀ key source, e.act = .on_ingest key source → e.state = s) s t := by
  refine wp_forEach (fun rest s' t' => ∃ done left, entries = done ++ left ∧ Stores s rest left ∧
    s' = s ∧ announced t' = done.map (fun p => (p.1, source_tier K.cfg p.2)) ∧
      ∀ e ∈ t', ∀ key source, e.act = .on_ingest key source → e.state = s) ?_ ?_ _ _ _ ?_
  · rintro ⟨key, record⟩ rest s₁ t₁ ⟨done, left, hentries, hleft, rfl, hannounced, hstates⟩
    cases hleft with
    | @cons _ q _ left hq hleft =>
      obtain ⟨_, block⟩ := q
      obtain ⟨rfl, hstored⟩ := hq
      have hblock : block.Held :=
        hheld _ (by rw [hentries]; exact List.mem_append_right _ List.mem_cons_self)
      have hsized : ¬ ((s₁.recs record).local_dram.isNone = true ∧
          (s₁.recs record).g3.isNone = true) := by
        rw [Option.isNone_iff_eq_none, Option.isNone_iff_eq_none]
        rintro ⟨hlocal, hdisk⟩
        rcases hstored.cases_local with ⟨_, hg2⟩ | ⟨r, slots, hr, _⟩
        · rcases hstored.cases_disk with ⟨_, hg3⟩ | ⟨g, d, hg, _⟩
          · rcases hblock with h | h
            · rw [hg2] at h
              cases h
            · rw [hg3] at h
              cases h
          · rw [hdisk] at hg
            cases hg
        · rw [hlocal] at hr
          cases hr
      unfold announce_recovered
      refine wp_bind.mpr (wp_read.mpr ?_)
      rw [if_neg hsized]
      refine wp_emit.mpr ⟨done ++ [(key, block)], left, ?_, hleft, rfl, ?_, ?_⟩
      · rw [hentries, List.append_assoc]
        rfl
      · have hsome : (s₁.recs record).local_dram.isSome = block.g2.isSome := by
          rcases hstored.cases_local with ⟨hr, hg2⟩ | ⟨r, slots, hr, hg2, _⟩ <;>
            rw [hr, hg2] <;> rfl
        rw [announced_append, hannounced, List.map_append, hsome]
        rfl
      · intro e he key' source hact
        rcases List.mem_append.mp he with he | he
        · exact hstates e he key' source hact
        · rw [List.mem_singleton.mp he]
  · rintro s₁ t₁ ⟨done, left, hentries, hleft, hs, hannounced, hstates⟩
    cases hleft
    rw [hentries, List.append_nil]
    exact ⟨hs, hannounced, hstates⟩
  · refine ⟨[], entries, rfl, hstores, rfl, hnone, fun e he key source hact => ?_⟩
    have hmem : (key, source) ∈ announced t := List.mem_filterMap.mpr ⟨e, he, by rw [hact]⟩
    rw [hnone] at hmem
    cases hmem

/-! ## Ranking -/

/-- The key can be evicted from local DRAM, or waits for a score. -/
def Ranked (s : Core) (key : BlockKey) : Prop :=
  (s.pools.evictable.score key).isSome = true ∨ key ∈ s.pools.unscored

/-- The same on disk. -/
def DiskRanked (s : Core) (key : BlockKey) : Prop :=
  (s.g3.evictable.score key).isSome = true ∨ key ∈ s.g3.unscored

/-- From `s` to `s'` keys were ranked, and nothing else happened. -/
structure Ranks (s s' : Core) : Prop extends Kept s s' where
  free : s'.pools.free_slots = s.pools.free_slots
  disk_free : s'.g3.free_slots = s.g3.free_slots
  ranked : ∀ key, Ranked s key → Ranked s' key
  disk_ranked : ∀ key, DiskRanked s key → DiskRanked s' key

theorem Ranks.refl : Ranks s s := ⟨.refl, rfl, rfl, fun _ h => h, fun _ h => h⟩

theorem Ranks.trans {s' s'' : Core} (h : Ranks s s') (h' : Ranks s' s'') : Ranks s s'' :=
  ⟨h.toKept.trans h'.toKept, h'.free.trans h.free, h'.disk_free.trans h.disk_free,
    fun key hkey => h'.ranked key (h.ranked key hkey),
    fun key hkey => h'.disk_ranked key (h.disk_ranked key hkey)⟩

/-- A key that enters the queue is in it. -/
theorem score_insert_self {q : EvictionQueue Score} {key : BlockKey} {score : Score} :
    ((q.insert key score).1.score key).isSome = true := by
  by_cases h : q.score key = some score
  · rw [EvictionQueue.insert_same h, h]
    rfl
  · obtain ⟨heap, heq, _⟩ := EvictionQueue.insert_changed h
    rw [heq, EvictionQueue.score, Dict.get?_set_self]
    rfl

/-- The other keys of the queue stay. -/
theorem score_insert_ne {q : EvictionQueue Score} {key other : BlockKey} {score : Score}
    (h : other ≠ key) : (q.insert key score).1.score other = q.score other := by
  rw [EvictionQueue.score, EvictionQueue.insert_get?_ne h]
  rfl

/-- No score of the policy is too large for a float. -/
def Env.ScoresFit (env : Env) : Prop := ∀ tick m tier, env.eviction_score tick m tier ≠ .too_large

/-- Ranking a recovered block in local DRAM. -/
theorem wp_make_evictable_ranks {W : Watch Core Err Ev} {key : BlockKey} {record : RecId}
    {r : ResId} {slots : List (Label × Nat)} (hrecord : s.record key = some record)
    (hlocal : (s.recs record).local_dram = some r) (hrow : Row (s.residencies r) slots)
    (hscores : K.env.ScoresFit) :
    wp W (make_evictable K key) (fun _ s' t' => Ranks s s' ∧ Ranked s' key ∧ t' = t) s t := by
  unfold make_evictable
  refine wp_bind.mpr (wp_read.mpr ?_)
  rw [hrecord]
  dsimp only
  rw [hlocal]
  have hstays : ¬ ((s.residencies r).state ≠ .READY ∨ (s.residencies r).claim_count ≠ 0 ∨
      (s.residencies r).retire_on_release = true ∨
      (s.residencies r).pending_labels.elems ≠ []) := by
    rw [hrow.state, hrow.unclaimed, hrow.stays, hrow.pending]
    simp [OrderedSet.empty]
  dsimp only
  rw [if_neg hstays]
  refine wp_bind.mpr (wp_step.mpr ?_)
  split
  · next e hscore => exact absurd (eviction_score_error hscore).1 (hscores _ _ _)
  · -- no score: the key waits
    refine wp_change.mpr ⟨⟨.of_eq rfl rfl rfl rfl, rfl, rfl, fun other h => ?_, fun _ h => h⟩,
      .inr (OrderedSet.mem_insert.mpr (.inl rfl)), rfl⟩
    exact h.imp id fun h => OrderedSet.mem_insert.mpr (.inr h)
  · next score _ =>
    refine wp_bind.mpr (wp_change.mpr (wp_bind.mpr (wp_read.mpr ?_)))
    have hranks (s' : Core) (hkept : Kept s s')
        (hfree : s'.pools.free_slots = s.pools.free_slots) (hg3 : s'.g3 = s.g3)
        (hunscored : s'.pools.unscored = s.pools.unscored.erase key)
        (hqueue : s'.pools.evictable = (s.pools.evictable.insert key score).1) :
        Ranks s s' ∧ Ranked s' key := by
      refine ⟨⟨hkept, hfree, by rw [hg3], fun other h => ?_, fun other h => ?_⟩, .inl ?_⟩
      · by_cases heq : other = key
        · rw [heq]
          exact .inl (by rw [hqueue]; exact score_insert_self)
        · refine h.imp (fun h => ?_) fun h => ?_
          · rw [hqueue, score_insert_ne heq]
            exact h
          · rw [hunscored]
            exact OrderedSet.mem_erase.mpr ⟨h, heq⟩
      · unfold DiskRanked
        rw [hg3]
        exact h
      · rw [hqueue]
        exact score_insert_self
    refine wp_bind.mpr (wp_change.mpr (wp_ite.mpr ⟨fun _ => wp_change.mpr ?_, fun _ =>
      wp_pure.mpr ?_⟩))
    · exact and_assoc.mp ⟨hranks _ (.of_eq rfl rfl rfl rfl) rfl rfl rfl rfl, rfl⟩
    · exact and_assoc.mp ⟨hranks _ (.of_eq rfl rfl rfl rfl) rfl rfl rfl rfl, rfl⟩

/-- Ranking a recovered block on disk. -/
theorem wp_g3_make_evictable_ranks {W : Watch Core Err Ev} {key : BlockKey} {record : RecId}
    {g : G3Id} {d : List Label × List Nat} (hrecord : s.record key = some record)
    (hdisk : (s.recs record).g3 = some g)
    (hd : s.g3_residencies g = { layout := d.1, slots := d.2 }) (hscores : K.env.ScoresFit) :
    wp W (g3_make_evictable K key)
      (fun _ s' t' => Ranks s s' ∧ DiskRanked s' key ∧ t' = t) s t := by
  unfold g3_make_evictable
  refine wp_bind.mpr (wp_read.mpr ?_)
  rw [hrecord]
  dsimp only
  rw [hdisk]
  dsimp only
  rw [if_neg (by rw [hd]; exact not_not.mpr rfl)]
  refine wp_bind.mpr (wp_step.mpr ?_)
  split
  · next e hscore => exact absurd (eviction_score_error hscore).1 (hscores _ _ _)
  · refine wp_change.mpr ⟨⟨.of_eq rfl rfl rfl rfl, rfl, rfl, fun _ h => h, fun other h => ?_⟩,
      .inr (OrderedSet.mem_insert.mpr (.inl rfl)), rfl⟩
    exact h.imp id fun h => OrderedSet.mem_insert.mpr (.inr h)
  · next score _ =>
    refine wp_bind.mpr (wp_change.mpr (wp_bind.mpr (wp_read.mpr ?_)))
    have hranks (s' : Core) (hkept : Kept s s')
        (hfree : s'.g3.free_slots = s.g3.free_slots) (hpools : s'.pools = s.pools)
        (hunscored : s'.g3.unscored = s.g3.unscored.erase key)
        (hqueue : s'.g3.evictable = (s.g3.evictable.insert key score).1) :
        Ranks s s' ∧ DiskRanked s' key := by
      refine ⟨⟨hkept, by rw [hpools], hfree, fun other h => ?_, fun other h => ?_⟩, .inl ?_⟩
      · unfold Ranked
        rw [hpools]
        exact h
      · by_cases heq : other = key
        · rw [heq]
          exact .inl (by rw [hqueue]; exact score_insert_self)
        · refine h.imp (fun h => ?_) fun h => ?_
          · rw [hqueue, score_insert_ne heq]
            exact h
          · rw [hunscored]
            exact OrderedSet.mem_erase.mpr ⟨h, heq⟩
      · rw [hqueue]
        exact score_insert_self
    refine wp_bind.mpr (wp_change.mpr (wp_ite.mpr ⟨fun _ => wp_change.mpr ?_, fun _ =>
      wp_pure.mpr ?_⟩))
    · exact and_assoc.mp ⟨hranks _ (.of_eq rfl rfl rfl rfl) rfl rfl rfl rfl, rfl⟩
    · exact and_assoc.mp ⟨hranks _ (.of_eq rfl rfl rfl rfl) rfl rfl rfl rfl, rfl⟩

/-- What the loops of ranking share: each record of the table is ranked where it is held, and no
record is taken out of the ranking again. -/
theorem wp_rank {W : Watch Core Err Ev} {f : BlockKey × RecId → KM Unit}
    {T : Core → BlockKey → RecoveryBlock → Prop}
    {records : List (BlockKey × RecId)} {entries : List (BlockKey × RecoveryBlock)}
    (hmap : s.block_record_map.entries = records) (hstores : Stores s records entries)
    (hstep : ∀ (s' : Core) (t' : List Ev) key record block, s'.record key = some record →
      Stored s' record block →
      wp W (f (key, record)) (fun _ s'' t'' => Ranks s' s'' ∧ T s'' key block ∧ t'' = t') s' t')
    (hlasts : ∀ s' s'' key block, Ranks s' s'' → T s' key block → T s'' key block) :
    wp W (forEach records f)
      (fun _ s' t' => Ranks s s' ∧ (∀ p ∈ entries, T s' p.1 p.2) ∧ t' = t) s t := by
  refine wp_forEach (fun rest s' t' => ∃ done left past, entries = done ++ left ∧
    records = past ++ rest ∧ Stores s rest left ∧ Ranks s s' ∧
      (∀ p ∈ done, T s' p.1 p.2) ∧ t' = t) ?_ ?_ _ _ _
      ⟨[], entries, [], rfl, rfl, hstores, .refl, fun _ h => (by cases h), rfl⟩
  · rintro ⟨key, record⟩ rest s₁ t₁ ⟨done, left, past, hentries, hrecords, hleft, hranks, hdone, ht⟩
    cases hleft with
    | @cons _ q _ left hq hleft =>
      obtain ⟨_, block⟩ := q
      obtain ⟨rfl, hstored⟩ := hq
      have hrecord : s₁.record key = some record := by
        rw [Core.record, hranks.map]
        refine Dict.get?_eq_some.mpr ?_
        rw [hmap, hrecords]
        exact List.mem_append_right _ List.mem_cons_self
      refine wp_mono (hstep s₁ t₁ key record block hrecord (hstored.kept hranks.toKept))
        fun _ s₂ t₂ ⟨hranks₂, htarget, ht₂⟩ => ?_
      refine ⟨done ++ [(key, block)], left, past ++ [(key, record)], ?_, ?_, hleft,
        hranks.trans hranks₂, fun p hp => ?_, ht₂.trans ht⟩
      · rw [hentries, List.append_assoc]
        rfl
      · rw [hrecords, List.append_assoc]
        rfl
      · rcases List.mem_append.mp hp with hp | hp
        · exact hlasts s₁ s₂ p.1 p.2 hranks₂ (hdone p hp)
        · rw [List.mem_singleton.mp hp]
          exact htarget
  · rintro s₁ t₁ ⟨done, left, past, hentries, _, hleft, hranks, hdone, ht⟩
    cases hleft
    rw [List.append_nil] at hentries
    rw [hentries]
    exact ⟨hranks, hdone, ht⟩

theorem wp_rank_recovered {W : Watch Core Err Ev} {records : List (BlockKey × RecId)}
    {entries : List (BlockKey × RecoveryBlock)} (hmap : s.block_record_map.entries = records)
    (hstores : Stores s records entries) (hscores : K.env.ScoresFit) :
    wp W (rank_recovered K records)
      (fun _ s' t' => Ranks s s' ∧ (∀ p ∈ entries, p.2.g2.isSome = true → Ranked s' p.1) ∧ t' = t)
      s t := by
  unfold rank_recovered
  refine wp_rank (T := fun s' key block => block.g2.isSome = true → Ranked s' key) hmap hstores
    (fun s' t' key record block hrecord hstored => ?_)
    fun s' s'' key block hranks htarget hsome => hranks.ranked key (htarget hsome)
  refine wp_bind.mpr (wp_read.mpr ?_)
  rcases hstored.cases_local with ⟨hr, hg2⟩ | ⟨r, slots, hr, hg2, hrow⟩
  · rw [hr, hg2]
    exact wp_pure.mpr ⟨.refl, fun h => (by cases h), rfl⟩
  · rw [if_pos (by rw [hr]; rfl)]
    exact wp_mono (wp_make_evictable_ranks hrecord hr hrow hscores) fun _ _ _ ⟨hranks, hkey, ht⟩ =>
      ⟨hranks, fun _ => hkey, ht⟩

/-- Ranking keeps a consistent state consistent. -/
theorem wp_rank_recovered_consistent {W : Watch Core Err Ev} {records : List (BlockKey × RecId)}
    (hs : Consistent s) (hrecords : ∀ p ∈ records, s.record p.1 = some p.2)
    (hscores : K.env.ScoresFit) :
    wp W (rank_recovered K records) (fun _ s' _ => Consistent s') s t := by
  unfold rank_recovered
  refine wp_forEach (fun rest s' _ => RankOnly s s' ∧ Consistent s' ∧ ∀ p ∈ rest, p ∈ records)
    ?_ (fun _ _ h => h.2.1) _ _ _ ⟨.refl, hs, fun _ hp => hp⟩
  rintro ⟨key, record⟩ rest s₁ t₁ ⟨hrank, hs₁, hsub⟩
  have hrest : ∀ p ∈ rest, p ∈ records := fun p hp => hsub p (List.mem_cons_of_mem _ hp)
  have hrecord : s₁.record key = some record := by
    obtain ⟨_, _, _, _, rfl⟩ := hrank
    exact hrecords _ (hsub _ List.mem_cons_self)
  refine wp_bind.mpr (wp_read.mpr (wp_ite.mpr ⟨fun _ => ?_,
    fun _ => wp_pure.mpr ⟨hrank, hs₁, hrest⟩⟩))
  refine wp_mono (wp_make_evictable_consistent hs₁ ⟨record, hrecord⟩
    fun tick m hlarge => absurd hlarge (hscores tick m _)) ?_
  rintro _ s₂ t₂ ⟨-, hrank₂, hs₂, -⟩
  exact ⟨hrank.trans hrank₂, hs₂, hrest⟩

theorem wp_g3_rank_recovered {W : Watch Core Err Ev} {records : List (BlockKey × RecId)}
    {entries : List (BlockKey × RecoveryBlock)} (hmap : s.block_record_map.entries = records)
    (hstores : Stores s records entries) (hscores : K.env.ScoresFit) :
    wp W (g3_rank_recovered K records)
      (fun _ s' t' => Ranks s s' ∧ (∀ p ∈ entries, p.2.g3.isSome = true → DiskRanked s' p.1) ∧
        t' = t) s t := by
  unfold g3_rank_recovered
  refine wp_rank (T := fun s' key block => block.g3.isSome = true → DiskRanked s' key) hmap
    hstores (fun s' t' key record block hrecord hstored => ?_)
    fun s' s'' key block hranks htarget hsome => hranks.disk_ranked key (htarget hsome)
  refine wp_bind.mpr (wp_read.mpr ?_)
  rcases hstored.cases_disk with ⟨hg, hg3⟩ | ⟨g, d, hg, hg3, hd⟩
  · rw [hg, hg3]
    exact wp_pure.mpr ⟨.refl, fun h => (by cases h), rfl⟩
  · rw [if_pos (by rw [hg]; rfl)]
    exact wp_mono (wp_g3_make_evictable_ranks hrecord hg hd hscores) fun _ _ _ ⟨hranks, hkey, ht⟩ =>
      ⟨hranks, fun _ => hkey, ht⟩

end Adopting

/-! ## Free slots -/

/-- Assigning each key once leaves each its value. -/
theorem get?_foldl_set_of_mem {α β : Type} {f : α → String} {g : α → β} {xs : List α} {x : α}
    (hnodup : (xs.map f).Nodup) (hx : x ∈ xs) (d : Dict String β) :
    (xs.foldl (fun d x => d.set (f x) (g x)) d).get? (f x) = some (g x) := by
  induction xs generalizing d with
  | nil => cases hx
  | cons y ys ih =>
    rw [List.map_cons, List.nodup_cons] at hnodup
    rw [List.foldl_cons]
    rcases List.mem_cons.mp hx with rfl | hx
    · -- the keys after it are others
      have hrest (d : Dict String β) (hd : d.get? (f x) = some (g x)) :
          (ys.foldl (fun d x => d.set (f x) (g x)) d).get? (f x) = some (g x) := by
        have hne := hnodup.1
        clear ih hx hnodup
        induction ys generalizing d with
        | nil => exact hd
        | cons z zs ih =>
          rw [List.map_cons, List.mem_cons, not_or] at hne
          refine ih (d.set (f z) (g z)) ?_ hne.2
          rw [Dict.get?_set_ne _ _ hne.1]
          exact hd
      exact hrest _ (Dict.get?_set_self _ _ _)
    · exact ih hnodup.2 hx _

/-- A name that is there once is found. -/
theorem find?_of_nodup {α β : Type} [DecidableEq α] {xs : List (α × β)}
    (hnodup : (xs.map Prod.fst).Nodup) {p : α × β} (hp : p ∈ xs) :
    (xs.find? fun q => q.1 = p.1) = some p := by
  refine (List.find?_eq_some_iff_append).mpr ⟨by simp, ?_⟩
  obtain ⟨before, after, hsplit⟩ := List.append_of_mem hp
  refine ⟨before, after, hsplit, fun q hq => ?_⟩
  rw [hsplit, List.map_append, List.map_cons] at hnodup
  have hne : q.1 ≠ p.1 := fun heq => (List.nodup_append'.mp hnodup).2.2
    (List.mem_map_of_mem hq) (by rw [heq]; exact List.mem_cons_self)
  simp [hne]

theorem Config.Valid.regions_nodup {cfg : Config} (h : cfg.Valid) :
    (cfg.regions.map Prod.fst).Nodup := by
  unfold Config.regions
  cases hlocal : cfg.local_dram with
  | none => exact List.nodup_nil
  | some options =>
    have hnames := h.local_pools options hlocal
    have hlength : options.pools.length ≤ cfg.pool_layouts.length := by
      have hlengths := congrArg List.length hnames
      rw [List.length_map, List.length_map] at hlengths
      exact hlengths.le
    have hmap : (((options.pools.zip cfg.pool_layouts).map fun p =>
        (p.1.1, p.1.2.1, p.1.2.2, p.2.2)).map Prod.fst) = options.pools.map Prod.fst := by
      rw [List.map_map, ← List.map_fst_zip hlength, List.map_map]
      rw [List.map_fst_zip hlength]
      rfl
    dsimp only
    rw [hmap, hnames]
    exact h.pool_names

/-- The free queue of a pool. -/
theorem free_slots_without_get? {cfg : Config} (h : cfg.Valid) {pool : String}
    (hpool : pool ∈ cfg.regions.map Prod.fst) (occupied : List Slot) :
    (free_slots_without cfg occupied).get? pool =
      some ((List.range (cfg.slot_count pool)).filter fun slot => (pool, slot) ∉ occupied) := by
  obtain ⟨p, hp, rfl⟩ := List.mem_map.mp hpool
  have hget := get?_foldl_set_of_mem (f := Prod.fst) (g := fun p : String × Nat × Nat × Nat =>
    (List.range (p.2.2.1 / p.2.2.2)).filter fun slot => (p.1, slot) ∉ occupied)
    h.regions_nodup hp Dict.empty
  have hcount : cfg.slot_count p.1 = p.2.2.1 / p.2.2.2 := by
    unfold Config.slot_count
    rw [find?_of_nodup h.regions_nodup hp]
  rw [hcount]
  exact hget

/-- Which slots are free does not depend on the order of the occupied ones. -/
theorem filter_notMem_congr {α : Type} [DecidableEq α] {xs occupied occupied' : List α}
    (h : occupied.Perm occupied') :
    (xs.filter fun x => x ∉ occupied) = xs.filter fun x => x ∉ occupied' :=
  List.filter_congr fun x _ => by rw [decide_eq_decide, h.mem_iff]

theorem free_slots_without_congr {cfg : Config} {occupied occupied' : List Slot}
    (h : occupied.Perm occupied') :
    free_slots_without cfg occupied = free_slots_without cfg occupied' := by
  unfold free_slots_without
  congr 1
  funext d p
  congr 1
  exact List.filter_congr fun x _ => by rw [decide_eq_decide, h.mem_iff]

/-- A free slot of a pool is none of the occupied ones. -/
theorem free_slots_without_eq (cfg : Config) (occupied : List Slot) (pool : String) :
    ∃ n, ((free_slots_without cfg occupied).get? pool).getD [] =
      (List.range n).filter fun slot => (pool, slot) ∉ occupied := by
  unfold free_slots_without
  generalize hd : (Dict.empty : Dict String (List Nat)) = d
  have hfree : ∃ n, (d.get? pool).getD [] =
      (List.range n).filter fun slot => (pool, slot) ∉ occupied := ⟨0, by rw [← hd]; rfl⟩
  clear hd
  generalize cfg.regions = regions
  induction regions generalizing d with
  | nil => exact hfree
  | cons region regions ih =>
    rw [List.foldl_cons]
    refine ih _ ?_
    rw [Dict.get?_set]
    split
    · next heq => exact ⟨_, by rw [heq]; rfl⟩
    · exact hfree

/-! ## Adoption -/

/-- The slots the records have in one pool are those the table names. -/
theorem Stores.flatMap_slots_of {s : Core} {records : List (BlockKey × RecId)}
    {entries : List (BlockKey × RecoveryBlock)} (h : Stores s records entries)
    (hrecords : ∀ p ∈ records, s.record p.1 = some p.2) (pool : String) :
    ((records.map Prod.fst).flatMap fun key => s.slots_of key pool) =
      ((local_slots (entries.map Prod.snd)).filter fun slot => slot.1 = pool).map Prod.snd := by
  induction h with
  | nil => rfl
  | @cons p q records entries hpq hrest ih =>
    have hslots : s.slots_of p.1 pool =
        (((q.2.g2.getD []).map location_slot).filter fun slot => slot.1 = pool).map Prod.snd := by
      rw [List.filter_map, List.map_map, Core.slots_of, Core.local_dram,
        hrecords p List.mem_cons_self, Option.bind_some]
      rcases hpq.2.cases_local with ⟨hr, hg2⟩ | ⟨r, slots, hr, hg2, hrow⟩
      · rw [hr, hg2]
        rfl
      · rw [hr, hg2]
        dsimp only
        rw [hrow.rows]
        rfl
    rw [List.map_cons, List.flatMap_cons, ih fun p hp => hrecords p (List.mem_cons_of_mem _ hp),
      hslots, ← List.map_append, ← List.filter_append]
    rfl

/-- A core that holds a table of distinct slots, with the others free and nothing ranked. -/
theorem consistent_of_stores {cfg : Config} {s : Core} {entries : List (BlockKey × RecoveryBlock)}
    {occupied : List Slot} (hstores : Stores s s.block_record_map.entries entries)
    (hseen : LocalSeen cfg (entries.map Prod.snd) occupied)
    (hfree : s.pools.free_slots = free_slots_without cfg occupied)
    (hevictable : s.pools.evictable = {}) (hunscored : s.pools.unscored = OrderedSet.empty)
    (hmarker : s.pools.capacity_eviction_key = none) : Consistent s where
  queue := ⟨[], fun _ hit => absurd hit List.not_mem_nil, hevictable.symm⟩
  ranked key hkey := by
    rw [hevictable] at hkey
    cases hkey
  recorded key hkey := by
    rw [hunscored] at hkey
    exact absurd hkey (OrderedSet.notMem_empty key)
  settled := hmarker
  apart pool := by
    obtain ⟨n, hn⟩ := free_slots_without_eq cfg occupied pool
    have hslots : ∀ p ∈ s.block_record_map.entries, s.record p.1 = some p.2 :=
      fun p hp => Dict.get?_eq_some.mpr hp
    have howned := hstores.flatMap_slots_of hslots pool
    have hnodup := hseen.perm.nodup_iff.mp hseen.nodup
    rw [Core.free_of, hfree, hn]
    change (_ ++ (s.block_record_map.entries.map Prod.fst).flatMap _).Nodup
    rw [howned]
    refine List.Nodup.append (List.nodup_range.filter _) ?_ fun slot hslot hmem => ?_
    · refine (hnodup.filter _).map_on fun a ha b hb heq => ?_
      have hpools := (of_decide_eq_true (List.mem_filter.mp ha).2).trans
        (of_decide_eq_true (List.mem_filter.mp hb).2).symm
      exact Prod.ext hpools heq
    · obtain ⟨a, ha, rfl⟩ := List.mem_map.mp hmem
      obtain ⟨hmem, hpool⟩ := List.mem_filter.mp ha
      refine of_decide_eq_true (List.mem_filter.mp hslot).2 (hseen.perm.mem_iff.mpr ?_)
      rw [← of_decide_eq_true hpool]
      exact hmem

/-- Nothing was ranked yet, in neither tier. -/
structure Unranked (s : Core) : Prop where
  evictable : s.pools.evictable = {}
  unscored : s.pools.unscored = OrderedSet.empty
  disk_evictable : s.g3.evictable = {}
  disk_unscored : s.g3.unscored = OrderedSet.empty

/-- A core that has adopted the table, after the events `t`. -/
structure Adopted (cfg : Config) (table : Dict BlockKey RecoveryBlock) (s : Core) (t : List Ev) :
    Prop where
  /-- the core holds the table -/
  stores : Stores s s.block_record_map.entries table.entries
  /-- the free slots are those no record names -/
  free : ∀ pool ∈ cfg.regions.map Prod.fst, s.pools.free_slots.get? pool =
    some ((List.range (cfg.slot_count pool)).filter fun slot =>
      (pool, slot) ∉ local_slots table.values)
  disk_free : s.g3.free_slots =
    (List.range cfg.g3_total_slots).filter fun slot => slot ∉ disk_slots table.values
  /-- every block is announced once, in the table's order -/
  announced : announced t = table.entries.map fun p => (p.1, source_tier cfg p.2)
  /-- and before any is ranked -/
  unranked : ∀ e ∈ t, ∀ key source, e.act = .on_ingest key source → Unranked e.state
  /-- then every residency is ranked in its tier -/
  ranked : ∀ p ∈ table.entries, p.2.g2.isSome = true → Ranked s p.1
  disk_ranked : ∀ p ∈ table.entries, p.2.g3.isSome = true → DiskRanked s p.1

/-- The core has the tiers the table needs. -/
structure Offered (cfg : Config) (table : Dict BlockKey RecoveryBlock) : Prop where
  local_dram : table.entries ≠ [] → cfg.local_dram.isSome = true
  g3 : ∀ block ∈ table.values, block.g3.isSome = true → cfg.g3.isSome = true

theorem Stores.kept {s s' : Core} {records : List (BlockKey × RecId)}
    {entries : List (BlockKey × RecoveryBlock)} (h : Stores s records entries)
    (hkept : Kept s s') : Stores s' records entries :=
  h.imp fun _ _ ⟨hkey, hstored⟩ => ⟨hkey, hstored.kept hkept⟩

section Adoption

variable {cfg : Config} {env : Env} {table : Dict BlockKey RecoveryBlock} {seed fuel : Nat}

/-- Adoption ends in the table, or refuses it. -/
theorem wp_adopt_recovery_records {K : Knot} (seed : Nat) (hvalid : K.cfg.Valid)
    (hreaders : ∀ tick, K.env.readers tick = []) (hscores : K.env.ScoresFit)
    (hheld : ∀ p ∈ table.entries, p.2.Held) (hoffered : Offered K.cfg table) :
    wp (refuses K.cfg table.values) (adopt_recovery_records K table)
      (fun _ s t => ConsistentTable K.cfg table.values ∧ Adopted K.cfg table s t ∧
        (K.cfg.g3 = none → Consistent s)) (Core.initial K.cfg seed) [] := by
  unfold adopt_recovery_records
  refine wp_bind.mpr (wp_read.mpr (wp_ite.mpr ⟨fun hempty => wp_pure.mpr ?_, fun hsome => ?_⟩))
  · -- an empty table leaves the core as it is
    have hvalues : table.values = [] := by rw [Dict.values, hempty]; rfl
    refine ⟨?_, ⟨?_, fun pool hpool => ?_, ?_, ?_, fun e he => (by cases he), ?_, ?_⟩,
      fun _ => consistent_of_stores .nil .nil rfl rfl rfl rfl⟩
    · rw [hvalues]
      exact consistent_of_seen .nil .nil
    · rw [hempty]
      exact .nil
    · rw [hvalues]
      exact free_slots_without_get? hvalid hpool []
    · rw [hvalues]
      exact (List.filter_eq_self.mpr fun _ _ => by simp [disk_slots]).symm
    · rw [hempty]
      rfl
    · rw [hempty]
      exact fun _ h => (by cases h)
    · rw [hempty]
      exact fun _ h => (by cases h)
  · have hlocal : ¬ K.cfg.local_dram.isNone = true := by
      rw [Option.isNone_iff_eq_none]
      exact Option.isSome_iff_ne_none.mp (hoffered.local_dram hsome)
    have hg3 : ¬ (K.cfg.g3.isNone = true ∧
        (table.values.any fun block => block.g3.isSome) = true) := by
      rintro ⟨hnone, hany⟩
      obtain ⟨block, hmem, hblock⟩ := List.any_eq_true.mp hany
      rw [Option.isNone_iff_eq_none] at hnone
      have hsome := hoffered.g3 block hmem hblock
      rw [hnone] at hsome
      cases hsome
    have hfresh : ¬ (Core.initial K.cfg seed).block_record_map.entries ≠ [] := not_not.mpr rfl
    rw [if_neg hlocal, if_neg hg3, if_neg hfresh]
    refine wp_seq (wp_install_records rfl) ?_
    rintro _ s₁ t₁ ⟨hstores, htiers, ht₁⟩
    refine wp_bind.mpr (wp_read.mpr ?_)
    dsimp only
    refine wp_seq (wp_adopt_recovery_slots hreaders hstores) ?_
    rintro _ s₂ t₂ ⟨occupied, hseen, hadopts, hfree, ht₂⟩
    have hstores₂ := hstores.kept hadopts.toKept
    have hunranked₂ : Unranked s₂ := by
      refine ⟨?_, ?_, ?_, ?_⟩
      · rw [hadopts.evictable, htiers.pools]
        rfl
      · rw [hadopts.unscored, htiers.pools]
        rfl
      · rw [hadopts.g3, htiers.g3]
        rfl
      · rw [hadopts.g3, htiers.g3]
        rfl
    have hmarker₂ : s₂.pools.capacity_eviction_key = none := by
      rw [hadopts.marker, htiers.pools]
      rfl
    have hdisk₂ : s₂.g3.free_slots = List.range K.cfg.g3_total_slots := by
      rw [hadopts.g3, htiers.g3]
      rfl
    rw [ht₁] at ht₂
    -- the disk tier, if there is one
    refine wp_if_then (P := fun s₃ t₃ => (∃ rows, DiskSeen K.cfg table.values rows) ∧ Kept s₂ s₃ ∧
      s₃.pools = s₂.pools ∧ Unranked s₃ ∧ s₃.g3.free_slots =
        ((List.range K.cfg.g3_total_slots).filter fun slot => slot ∉ disk_slots table.values) ∧
      t₃ = t₂) (fun _ => ?_) (fun hnone => ?_) ?_
    · refine wp_mono (wp_g3_adopt_recovery_slots hstores₂) ?_
      rintro _ s₃ t₃ ⟨rows, hrows, rfl, ht₃⟩
      refine ⟨⟨rows, hrows⟩, .of_eq rfl rfl rfl rfl, rfl, ?_, filter_notMem_congr hrows.perm, ht₃⟩
      exact ⟨hunranked₂.evictable, hunranked₂.unscored, hunranked₂.disk_evictable,
        hunranked₂.disk_unscored⟩
    · have hdiskless : ∀ block ∈ table.values, block.g3 = none := fun block hmem =>
        Option.not_isSome_iff_eq_none.mp fun hsome => hnone (hoffered.g3 block hmem hsome)
      have hrows : DiskSeen K.cfg table.values [] := .of_diskless hdiskless
      refine ⟨⟨[], hrows⟩, .refl, rfl, hunranked₂, ?_, rfl⟩
      rw [hdisk₂, ← filter_notMem_congr hrows.perm]
      exact (List.filter_eq_self.mpr fun _ _ => by simp).symm
    · rintro s₃ t₃ ⟨⟨rows, hrows⟩, hkept₃, hpools₃, hunranked₃, hdisk₃, ht₃⟩
      have hstores₃ := hstores₂.kept hkept₃
      have hmap₃ : s₃.block_record_map = s₁.block_record_map := hkept₃.map.trans hadopts.map
      have hnone : announced t₃ = [] := by rw [ht₃, ht₂]; rfl
      have hconsistent : Consistent s₃ := by
        rw [← hmap₃] at hstores₃
        exact consistent_of_stores hstores₃ hseen (by rw [hpools₃, hfree]) hunranked₃.evictable
          hunranked₃.unscored (by rw [hpools₃, hmarker₂])
      have hrecords : ∀ p ∈ s₁.block_record_map.entries, s₃.record p.1 = some p.2 := by
        intro p hp
        rw [Core.record, hmap₃]
        exact Dict.get?_eq_some.mpr hp
      refine wp_seq (wp_announce hstores₃ hheld hnone) ?_
      rintro _ s₄ t₄ ⟨hs₄, hannounced, hstates⟩
      subst hs₄
      refine wp_seq (wp_and (wp_rank_recovered (by rw [hmap₃]) hstores₃ hscores)
        (wp_rank_recovered_consistent hconsistent hrecords hscores)) ?_
      rintro _ s₅ t₅ ⟨⟨hranks, hranked, ht₅⟩, hconsistent₅⟩
      have hstores₅ := hstores₃.kept hranks.toKept
      have hmap₅ : s₅.block_record_map = s₁.block_record_map := hranks.map.trans hmap₃
      have hresult (s₆ : Core) (hranks₆ : Ranks s₅ s₆)
          (hdisk_ranked : ∀ p ∈ table.entries, p.2.g3.isSome = true → DiskRanked s₆ p.1)
          (hconsistent₆ : K.cfg.g3 = none → Consistent s₆) :
          ConsistentTable K.cfg table.values ∧ Adopted K.cfg table s₆ t₅ ∧
            (K.cfg.g3 = none → Consistent s₆) := by
        refine ⟨consistent_of_seen hseen hrows, ⟨?_, fun pool hpool => ?_, ?_, ?_, ?_, ?_,
          hdisk_ranked⟩, hconsistent₆⟩
        · rw [hranks₆.map, hmap₅]
          exact hstores₅.kept hranks₆.toKept
        · rw [hranks₆.free, hranks.free, hpools₃, hfree, free_slots_without_congr hseen.perm]
          exact free_slots_without_get? hvalid hpool _
        · rw [hranks₆.disk_free, hranks.disk_free]
          exact hdisk₃
        · rw [ht₅]
          exact hannounced
        · intro e he key source hact
          rw [ht₅] at he
          rw [hstates e he key source hact]
          exact hunranked₃
        · exact fun p hp hsome => hranks₆.ranked p.1 (hranked p hp hsome)
      refine wp_ite.mpr ⟨fun hsome => ?_, fun hnone =>
        wp_pure.mpr (hresult s₅ .refl ?_ fun _ => hconsistent₅)⟩
      · refine wp_mono (wp_g3_rank_recovered (by rw [hmap₅]) hstores₅ hscores) ?_
        rintro _ s₆ t₆ ⟨hranks₆, hdisk_ranked, rfl⟩
        refine hresult s₆ hranks₆ hdisk_ranked fun hdiskless => ?_
        rw [hdiskless] at hsome
        cases hsome
      · intro p hp hsome
        exact absurd (hoffered.g3 p.2 (List.mem_map_of_mem hp) hsome) hnone

/-- A table that needs a tier the core lacks is not looked at. -/
theorem wp_adopt_recovery_records_lacking {K : Knot} {E : Err → Core → List Ev → Prop} {s : Core}
    {t : List Ev} (hnot : ¬ Offered K.cfg table)
    (hexc : ∀ message, E (.recovery_mirror_error message) s t) :
    wp ⟨E, fun _ => False⟩ (adopt_recovery_records K table) (fun _ _ _ => False) s t := by
  unfold adopt_recovery_records
  refine wp_bind.mpr (wp_read.mpr (wp_ite.mpr ⟨fun hempty => absurd ?_ hnot, fun _ => ?_⟩))
  · refine ⟨fun hsome => absurd hempty hsome, fun block hblock => ?_⟩
    rw [Dict.values, hempty] at hblock
    cases hblock
  refine wp_ite.mpr ⟨fun _ => wp_raise.mpr (hexc _), fun hlocal => ?_⟩
  refine wp_ite.mpr ⟨fun _ => wp_raise.mpr (hexc _), fun hg3 => absurd ?_ hnot⟩
  refine ⟨fun _ => ?_, fun block hblock hdisk => ?_⟩
  · rw [Option.isNone_iff_eq_none] at hlocal
    exact Option.isSome_iff_ne_none.mpr hlocal
  · by_contra hnone
    refine hg3 ⟨?_, List.any_eq_true.mpr ⟨block, hblock, hdisk⟩⟩
    rwa [Option.isNone_iff_eq_none, ← Option.not_isSome_iff_eq_none]

/-- A start ends with a table that was adopted, or refuses it. -/
theorem wp_start (seed fuel : Nat) (hvalid : cfg.Valid)
    (hreaders : ∀ tick, env.readers tick = []) (hscores : env.ScoresFit)
    (hheld : ∀ p ∈ table.entries, p.2.Held)
    (hoffered : Offered cfg table) :
    wp (refuses cfg table.values) (adopt_recovery_records (knot cfg env fuel) table)
      (fun _ s t => ConsistentTable cfg table.values ∧ Adopted cfg table s t ∧
        (cfg.g3 = none → Consistent s)) (Core.initial cfg seed) [] := by
  have hcfg : (knot cfg env fuel).cfg = cfg := knot_cfg
  have hvalid' : (knot cfg env fuel).cfg.Valid := by rwa [hcfg]
  have hreaders' : ∀ tick, (knot cfg env fuel).env.readers tick = [] := by rwa [knot_env]
  have hscores' : (knot cfg env fuel).env.ScoresFit := by rwa [knot_env]
  have hoffered' : Offered (knot cfg env fuel).cfg table := by rwa [hcfg]
  have h := wp_adopt_recovery_records seed hvalid' hreaders' hscores' hheld hoffered'
  rwa [hcfg] at h

/-- A core without a disk tier starts in a state an allocation can begin in. -/
theorem start_consistent (hvalid : cfg.Valid) (hreaders : ∀ tick, env.readers tick = [])
    (hscores : env.ScoresFit) (hheld : ∀ p ∈ table.entries, p.2.Held)
    (hoffered : Offered cfg table) (hdiskless : cfg.g3 = none) {s : Core} {t : List Ev}
    (hstart : start cfg env seed fuel table = .ok () s t) : Consistent s :=
  (ok_of_wp (wp_start seed fuel hvalid hreaders hscores hheld hoffered) hstart).2.2 hdiskless

/-- A core whose progress thread does not run yet adopts exactly the consistent tables, if the
policy's scores fit a float. After a consistent table it holds the table, its free slots are those
no record names, and each block was announced to the policy once, before any was ranked, and then
ranked in every tier that holds it. Any other table is refused as an argument; a table that needs
a tier the core does not have is refused as a recovery error. -/
theorem adoption_accepts_consistent_tables (hvalid : cfg.Valid)
    (hreaders : ∀ tick, env.readers tick = []) (hscores : env.ScoresFit)
    (hheld : ∀ p ∈ table.entries, p.2.Held) :
    (Offered cfg table → ConsistentTable cfg table.values →
      ∃ s t, start cfg env seed fuel table = .ok () s t ∧ Adopted cfg table s t) ∧
    (Offered cfg table → ¬ ConsistentTable cfg table.values →
      ∃ message s t, start cfg env seed fuel table = .err (.value_error message) s t) ∧
    (¬ Offered cfg table →
      ∃ message s t,
        start cfg env seed fuel table = .err (.recovery_mirror_error message) s t) := by
  have hcfg : (knot cfg env fuel).cfg = cfg := knot_cfg
  have hwp (hoffered : Offered cfg table) :=
    wp_start seed fuel hvalid hreaders hscores hheld hoffered
  refine ⟨fun hoffered hconsistent => ?_, fun hoffered hnot => ?_, fun hnot => ?_⟩
  · refine (exists_of_wp (Q := fun _ s t => Adopted cfg table s t) ?_).elim fun _ h => h
    exact wp_conseq (hwp hoffered) (fun _ _ _ h => h.2 hconsistent) (fun _ h => h)
      fun _ _ _ h => h.2.1
  · obtain ⟨e, s, t, hrun, message, rfl⟩ := exists_err_of_wp (E := fun e _ _ => Refusal e)
      (wp_conseq (hwp hoffered) (fun _ _ _ h => h.1) (fun _ h => h) fun _ _ _ h => hnot h.1)
    exact ⟨message, s, t, hrun⟩
  · obtain ⟨e, s, t, hrun, message, rfl⟩ := exists_err_of_wp
      (E := fun e _ _ => ∃ message, e = .recovery_mirror_error message)
      (wp_adopt_recovery_records_lacking (s := Core.initial cfg seed) (t := [])
        (by rwa [hcfg]) fun message => ⟨message, rfl⟩)
    exact ⟨message, s, t, hrun⟩

/-- A core with four rows in one pool and four slots on disk. -/
def two_tiers : Config where
  nixl_agent_name := "n"
  pool_layouts := [("p", 16)]
  local_dram := some ⟨[("p", 16, 64)]⟩
  g3 := some { paths := 1, capacity_bytes_per_file := 64 }

theorem two_tiers_valid : two_tiers.Valid where
  pools_nonempty := by decide
  pool_names := by decide
  pool_sizes := by decide
  local_pools := by decide
  local_sizes := by decide
  g3_local _ := rfl
  g3_files := by decide
  timeout := by decide
  abandon := by decide

/-- A block in both tiers and one on disk only, the latter in the given slot. -/
def two_blocks (slot : Nat) : Dict BlockKey RecoveryBlock :=
  (Dict.empty.set ⟨[1]⟩
    { g2 := some [(⟨"p", none⟩, 2)], g3 := some ([⟨"p", none⟩], [0]) }).set ⟨[2]⟩
    { g3 := some ([⟨"p", none⟩], [slot]) }

theorem two_blocks_offered (slot : Nat) : Offered two_tiers (two_blocks slot) where
  local_dram _ := rfl
  g3 _ _ _ := rfl

theorem two_blocks_held (slot : Nat) : ∀ p ∈ (two_blocks slot).entries, p.2.Held := by
  intro p hp
  rcases List.mem_cons.mp hp with rfl | hp
  · exact .inl rfl
  · rw [List.mem_singleton.mp hp]
    exact .inr rfl

/-- Two slots are adopted, the same slot twice is refused, and so is a block on disk by a core
that has local DRAM only. -/
theorem adoption_accepts_consistent_tables_two :
    (∃ s t, start two_tiers calm 1 0 (two_blocks 3) = .ok () s t ∧
      Adopted two_tiers (two_blocks 3) s t) ∧
    (∃ message s t, start two_tiers calm 1 0 (two_blocks 0) = .err (.value_error message) s t) ∧
    ∃ message s t, start { two_tiers with g3 := none } calm 1 0 (two_blocks 3) =
      .err (.recovery_mirror_error message) s t := by
  have hreaders : ∀ tick, calm.readers tick = [] := fun _ => rfl
  have hscores : calm.ScoresFit := fun _ _ _ h => (by cases h)
  have hdiskless : ({ two_tiers with g3 := none } : Config).Valid :=
    { two_tiers_valid with
      g3_local := fun h => (by cases h)
      g3_files := fun _ h => (by cases h) }
  refine ⟨(adoption_accepts_consistent_tables two_tiers_valid hreaders hscores
      (two_blocks_held 3)).1 (two_blocks_offered 3) ?_,
    (adoption_accepts_consistent_tables two_tiers_valid hreaders hscores
      (two_blocks_held 0)).2.1 (two_blocks_offered 0) fun h => absurd h.disk_disjoint (by decide),
    (adoption_accepts_consistent_tables hdiskless hreaders hscores
      (two_blocks_held 3)).2.2 fun h => absurd (h.g3 _ List.mem_cons_self rfl) Bool.false_ne_true⟩
  have hlayout : ValidLayout two_tiers [⟨"p", none⟩] :=
    ⟨by decide, by decide, by decide, by decide⟩
  refine ⟨fun block h slots hslots => ?_, by decide, fun block h g hg => ?_, by decide,
    fun block h slots g hslots hg => ?_⟩
  · rcases List.mem_cons.mp h with rfl | h
    · cases hslots
      exact ⟨hlayout, by decide⟩
    · rw [List.mem_singleton.mp h] at hslots
      cases hslots
  · rcases List.mem_cons.mp h with rfl | h
    · cases hg
      exact ⟨hlayout, by decide, by decide⟩
    · rw [List.mem_singleton.mp h] at hg
      cases hg
      exact ⟨hlayout, by decide, by decide⟩
  · rcases List.mem_cons.mp h with rfl | h
    · cases hslots
      cases hg
      rfl
    · rw [List.mem_singleton.mp h] at hslots
      cases hslots

end Adoption

end Kvcr
