/-
What the elements of a prepared grid are (`prepare_memory`, `_prepared_indices`).

The registered regions of one memory type are handed to NIXL as the rows of a grid, which
NIXL expands row by row; a transfer then names elements by their position in that
expansion. The positions are computed here a second time, from offsets that are kept by
label. This file shows that the two agree: the position computed for a reference is that
of the element the reference's own address resolves to. Where offsets and labels meet, the
argument is by position in the list of rows, since a label stands for one row only.
-/
import Kvcr.Base
import Kvcr.Progress
import Mathlib.Data.List.Basic

set_option autoImplicit false

namespace Kvcr

open Prog

/-! ## Catalogs -/

/-- Registrations as they are accepted from the framework, the pools or a peer: each is
filed under its own label, and all of them together passed validation. -/
structure Catalog where
  maps : RegionMaps
  named : ∀ framework label region,
    (in_namespace framework maps).get? label = some region → region.label = label
  accepted : validate_memory_regions (maps.1.values ++ maps.2.values) = .ok ()

/-- The regions of one memory type. -/
def regions_of_type (regions : RegionMaps) (mem_type : String) : List (Bool × RegionDescriptor) :=
  (tagged_regions regions).filter fun entry => entry.2.mem_type = mem_type

theorem mem_tagged_regions {regions : RegionMaps} {entry : Bool × RegionDescriptor} :
    entry ∈ tagged_regions regions ↔ entry.2 ∈ (in_namespace entry.1 regions).values := by
  obtain ⟨framework, region⟩ := entry
  cases framework <;> simp [tagged_regions, in_namespace]

theorem mem_values {κ α : Type} [DecidableEq κ] {d : Dict κ α} {v : α} :
    v ∈ d.values ↔ ∃ k, d.get? k = some v := by
  constructor
  · intro hv
    obtain ⟨⟨k, v'⟩, hp, rfl⟩ := List.mem_map.mp hv
    exact ⟨k, Dict.get?_eq_some.mpr hp⟩
  · rintro ⟨k, hk⟩
    exact List.mem_map.mpr ⟨(k, v), Dict.get?_eq_some.mp hk, rfl⟩

namespace Catalog

variable (c : Catalog)

/-- The regions have different names. -/
theorem nodup_names : ((tagged_regions c.maps).map fun e => (e.1, e.2.label)).Nodup := by
  have hkeys : ∀ framework, (in_namespace framework c.maps).values.map (·.label) =
      (in_namespace framework c.maps).keys := by
    intro framework
    rw [Dict.values, Dict.keys, List.map_map]
    refine List.map_congr_left fun p hp => ?_
    exact c.named framework p.1 p.2 (Dict.get?_eq_some.mpr hp)
  have hside : ∀ framework,
      (((in_namespace framework c.maps).values.map fun r => (framework, r)).map
      fun e : Bool × RegionDescriptor => (e.1, e.2.label)).Nodup := by
    intro framework
    have hmap : ((in_namespace framework c.maps).values.map fun r => (framework, r)).map
        (fun e : Bool × RegionDescriptor => (e.1, e.2.label)) =
        (in_namespace framework c.maps).keys.map (Prod.mk framework) := by
      rw [← hkeys framework, List.map_map, List.map_map]
      rfl
    rw [hmap]
    exact (in_namespace framework c.maps).nodup.map fun _ _ h => (Prod.mk.inj h).2
  rw [tagged_regions, List.map_append, List.nodup_append]
  refine ⟨hside true, hside false, fun a ha b hb hab => ?_⟩
  obtain ⟨e, he, rfl⟩ := List.mem_map.mp ha
  obtain ⟨r, -, rfl⟩ := List.mem_map.mp he
  obtain ⟨e', he', rfl⟩ := List.mem_map.mp hb
  obtain ⟨r', -, rfl⟩ := List.mem_map.mp he'
  exact Bool.false_ne_true (Prod.mk.inj hab).1.symm

theorem nodup_names_of_type (mem_type : String) :
    ((regions_of_type c.maps mem_type).map fun e => (e.1, e.2.label)).Nodup :=
  (List.filter_sublist.map _).nodup c.nodup_names

end Catalog

/-! ## The grid -/

/-- The elements of a row, as NIXL expands it: address, size and device. -/
def GridRow.elements (row : GridRow) : List (Nat × Nat × Nat) :=
  (List.range row.count).map fun i => (row.addr + i * row.stride, row.size, row.device_Id)

/-- The elements of a grid, row by row. -/
def grid_elements (rows : List GridRow) : List (Nat × Nat × Nat) := rows.flatMap GridRow.elements

/-- The number of elements before a row. -/
def elements_before (entries : List (Bool × RegionDescriptor)) (p : Nat) : Nat :=
  ((entries.take p).map (·.2.count)).sum

section Grid

variable {entries : List (Bool × RegionDescriptor)} {entry : Bool × RegionDescriptor} {p : Nat}

theorem elements_before_cons_succ :
    elements_before (entry :: entries) (p + 1) = entry.2.count + elements_before entries p := by
  rw [elements_before, List.take_succ_cons, List.map_cons, List.sum_cons]
  rfl

/-- A region that is placed later does not move what was placed before. -/
theorem get?_place_other {acc : GridOffsets × Nat} {framework : Bool} {label : Label}
    (h : (entry.1, entry.2.label) ≠ (framework, label)) :
    (in_namespace framework (place_region acc entry).1).get? label =
      (in_namespace framework acc.1).get? label := by
  have hlabel : framework = entry.1 → label ≠ entry.2.label := by
    rintro rfl rfl
    exact h rfl
  unfold place_region in_namespace
  cases hentry : entry.1 <;> cases framework <;>
    first
    | rfl
    | exact Dict.get?_set_ne _ _ (hlabel hentry.symm)

theorem get?_placed_other {acc : GridOffsets × Nat} {framework : Bool} {label : Label}
    (h : (framework, label) ∉ entries.map fun e => (e.1, e.2.label)) :
    (in_namespace framework (entries.foldl place_region acc).1).get? label =
      (in_namespace framework acc.1).get? label := by
  induction entries generalizing acc with
  | nil => rfl
  | cons e entries ih =>
    rw [List.map_cons, List.mem_cons, not_or] at h
    rw [List.foldl_cons, ih h.2, get?_place_other fun he => h.1 he.symm]

/-- Each region starts after the elements of the regions before it. -/
theorem get?_placed {acc : GridOffsets × Nat}
    (hnames : (entries.map fun e => (e.1, e.2.label)).Nodup) (hp : entries[p]? = some entry) :
    (in_namespace entry.1 (entries.foldl place_region acc).1).get? entry.2.label =
      some (acc.2 + elements_before entries p) := by
  induction entries generalizing acc p with
  | nil => cases hp
  | cons e entries ih =>
    rw [List.map_cons, List.nodup_cons] at hnames
    rw [List.foldl_cons]
    cases p with
    | zero =>
      rw [List.getElem?_cons_zero] at hp
      obtain rfl := Option.some.inj hp
      rw [get?_placed_other hnames.1]
      unfold place_region in_namespace
      cases e.1 <;> exact Dict.get?_set_self _ _ _
    | succ p =>
      rw [List.getElem?_cons_succ] at hp
      rw [ih hnames.2 hp, elements_before_cons_succ, place_region, Nat.add_assoc]

theorem get?_grid_offsets (hnames : (entries.map fun e => (e.1, e.2.label)).Nodup)
    (hp : entries[p]? = some entry) :
    (in_namespace entry.1 (grid_offsets entries)).get? entry.2.label =
      some (elements_before entries p) := by
  rw [grid_offsets, get?_placed hnames hp, Nat.zero_add]

/-- The element at that place is the one the region's own arithmetic gives. -/
theorem getElem?_grid_elements (hp : entries[p]? = some entry) {i : Nat} (hi : i < entry.2.count) :
    (grid_elements (grid_rows entries))[elements_before entries p + i]? =
      some (entry.2.addr + i * entry.2.pitch, entry.2.size, entry.2.device_Id) := by
  induction entries generalizing p with
  | nil => cases hp
  | cons e entries ih =>
    have hexpand : grid_elements (grid_rows (e :: entries)) =
        (List.range e.2.count).map (fun i => (e.2.addr + i * e.2.pitch, e.2.size, e.2.device_Id)) ++
          grid_elements (grid_rows entries) := rfl
    rw [hexpand]
    cases p with
    | zero =>
      rw [List.getElem?_cons_zero] at hp
      obtain rfl := Option.some.inj hp
      have hstart : elements_before (e :: entries) 0 + i = i := Nat.zero_add i
      rw [hstart, List.getElem?_append_left (by rw [List.length_map, List.length_range]; exact hi),
        List.getElem?_map, List.getElem?_range hi, Option.map_some]
    | succ p =>
      rw [List.getElem?_cons_succ] at hp
      have hskip : elements_before (e :: entries) (p + 1) + i - e.2.count =
          elements_before entries p + i := by
        rw [elements_before_cons_succ]
        omega
      rw [List.getElem?_append_right, List.length_map, List.length_range, hskip, ih hp]
      rw [List.length_map, List.length_range, elements_before_cons_succ]
      omega

/-- The elements of a region end before those of the next one start. -/
theorem elements_before_le {q : Nat} (hp : entries[p]? = some entry) (hpq : p < q) :
    elements_before entries p + entry.2.count ≤ elements_before entries q := by
  induction entries generalizing p q with
  | nil => cases hp
  | cons e entries ih =>
    obtain ⟨q, rfl⟩ := Nat.exists_eq_succ_of_ne_zero (by omega : q ≠ 0)
    rw [Nat.succ_eq_add_one, elements_before_cons_succ]
    cases p with
    | zero =>
      rw [List.getElem?_cons_zero] at hp
      obtain rfl := Option.some.inj hp
      have hstart : elements_before (e :: entries) 0 = 0 := rfl
      omega
    | succ p =>
      rw [List.getElem?_cons_succ] at hp
      rw [elements_before_cons_succ]
      have hle := ih hp (by omega : p < q)
      omega

/-- No two elements of the grid have one index. -/
theorem index_injective {entry' : Bool × RegionDescriptor} {q i j : Nat}
    (hp : entries[p]? = some entry) (hi : i < entry.2.count) (hq : entries[q]? = some entry')
    (hj : j < entry'.2.count)
    (hsame : elements_before entries p + i = elements_before entries q + j) : p = q ∧ i = j := by
  rcases Nat.lt_trichotomy p q with hlt | rfl | hlt
  · have hle := elements_before_le hp hlt
    omega
  · exact ⟨rfl, by omega⟩
  · have hle := elements_before_le hq hlt
    omega

/-- An index is below the number of elements. -/
theorem index_lt (hp : entries[p]? = some entry) {i : Nat} (hi : i < entry.2.count) :
    elements_before entries p + i < (entries.map (·.2.count)).sum := by
  have hlt : p < entries.length := (List.getElem?_eq_some_iff.mp hp).1
  have hle := elements_before_le hp hlt
  have hall : elements_before entries entries.length = (entries.map (·.2.count)).sum := by
    rw [elements_before, List.take_length]
  omega

end Grid

/-! ## Validation

The checks are made region by region with a running count for each memory type; what they
leave is a bound on each region and one on each count. -/

/-- What validation asks of one region. -/
structure RegionDescriptor.Valid (region : RegionDescriptor) : Prop where
  nonempty : 1 ≤ region.count
  extent : region.addr + (region.size + (region.count - 1) * region.pitch) ≤ 2 ^ 64 - 1

/-- The elements of one memory type. -/
def count_of_type (regions : List RegionDescriptor) (mem_type : String) : Nat :=
  ((regions.filter fun r => r.mem_type = mem_type).map (·.count)).sum

theorem validate_memory_region_ok {region : RegionDescriptor} {counts counts' : Dict String Nat}
    (h : validate_memory_region region counts = .ok counts') :
    region.Valid ∧ (counts.get? region.mem_type).getD 0 + region.count ≤ 2 ^ 31 ∧
      counts' =
        counts.set region.mem_type ((counts.get? region.mem_type).getD 0 + region.count) := by
  unfold validate_memory_region at h
  split at h
  next => cases h
  next hfields =>
    have hcount := List.find?_eq_none.mp hfields ("count", 1, region.count)
      (by simp [RegionDescriptor.uint64_fields])
    simp only [decide_not, Bool.not_eq_true', decide_eq_false_iff_not, not_not] at hcount
    split at h
    next => cases h
    split at h
    next => cases h
    next hextent =>
      split at h
      next => cases h
      split at h
      next => cases h
      dsimp only at h
      split at h
      next => cases h
      next hlimit =>
        exact ⟨⟨hcount.1, Nat.not_lt.mp hextent⟩, Nat.not_lt.mp hlimit, (Except.ok.inj h).symm⟩

theorem validate_memory_regions_ok {regions : List RegionDescriptor} {counts : Dict String Nat}
    (h : validate_memory_regions regions counts = .ok ()) :
    (∀ region ∈ regions, region.Valid) ∧
      ∀ mem_type, count_of_type regions mem_type = 0 ∨
        (counts.get? mem_type).getD 0 + count_of_type regions mem_type ≤ 2 ^ 31 := by
  induction regions generalizing counts with
  | nil => exact ⟨fun region hmem => absurd hmem List.not_mem_nil, fun _ => .inl rfl⟩
  | cons region regions ih =>
    unfold validate_memory_regions at h
    split at h
    next => cases h
    next counts' hregion =>
      obtain ⟨hvalid, hlimit, rfl⟩ := validate_memory_region_ok hregion
      obtain ⟨hrest, hcounts⟩ := ih h
      refine ⟨fun r hr => ?_, fun mem_type => ?_⟩
      · rcases List.mem_cons.mp hr with rfl | hr
        · exact hvalid
        · exact hrest r hr
      · by_cases htype : region.mem_type = mem_type
        · subst htype
          have hcons : count_of_type (region :: regions) region.mem_type =
              region.count + count_of_type regions region.mem_type := by
            rw [count_of_type, List.filter_cons, if_pos (decide_eq_true rfl), List.map_cons,
              List.sum_cons]
            rfl
          rw [hcons]
          rcases hcounts region.mem_type with hzero | hle
          · exact .inr (by omega)
          · rw [Dict.get?_set_self, Option.getD_some] at hle
            exact .inr (by omega)
        · have hcons :
              count_of_type (region :: regions) mem_type = count_of_type regions mem_type := by
            rw [count_of_type, List.filter_cons, if_neg fun h => htype (of_decide_eq_true h)]
            rfl
          rw [hcons]
          have hcount := hcounts mem_type
          rwa [Dict.get?_set_ne _ _ fun h => htype h.symm] at hcount

namespace Catalog

variable (c : Catalog)

theorem valid {framework : Bool} {region : RegionDescriptor}
    (h : (framework, region) ∈ tagged_regions c.maps) : region.Valid := by
  refine (validate_memory_regions_ok c.accepted).1 region (List.mem_append.mpr ?_)
  have hmem := mem_tagged_regions.mp h
  cases framework
  · exact .inr hmem
  · exact .inl hmem

/-- The elements of one memory type have indices of 31 bits. -/
theorem sum_counts_le (mem_type : String) :
    ((regions_of_type c.maps mem_type).map (·.2.count)).sum ≤ 2 ^ 31 := by
  have hcount : ((regions_of_type c.maps mem_type).map (·.2.count)).sum =
      count_of_type (c.maps.1.values ++ c.maps.2.values) mem_type := by
    rw [regions_of_type, tagged_regions, count_of_type, List.filter_append, List.filter_append,
      List.map_append, List.map_append, List.filter_map, List.filter_map, List.map_map,
      List.map_map]
    rfl
  rw [hcount]
  rcases (validate_memory_regions_ok c.accepted).2 mem_type with hzero | hle
  · omega
  · exact (Nat.le_add_left _ _).trans hle

end Catalog

/-- The last byte of every element has a 64-bit address. -/
theorem RegionDescriptor.Valid.element_end {region : RegionDescriptor} (h : region.Valid) {i : Nat}
    (hi : i < region.count) : region.addr + i * region.pitch + region.size ≤ 2 ^ 64 - 1 := by
  have hmul : i * region.pitch ≤ (region.count - 1) * region.pitch :=
    Nat.mul_le_mul_right _ (by omega)
  have hextent := h.extent
  omega

/-! ## What preparing leaves -/

/-- Grouping a list by a key keeps the order in each group. -/
theorem get?_grouped {α : Type} (key : α → String) (xs : List α) (d : Dict String (List α))
    (k : String) :
    ((xs.foldl (fun d x => d.set (key x) ((d.get? (key x)).getD [] ++ [x])) d).get? k).getD [] =
      (d.get? k).getD [] ++ xs.filter fun x => key x = k := by
  induction xs generalizing d with
  | nil => exact (List.append_nil _).symm
  | cons x xs ih =>
    rw [List.foldl_cons, ih]
    by_cases hk : key x = k
    · subst hk
      rw [Dict.get?_set_self, Option.getD_some, List.filter_cons, if_pos (decide_eq_true rfl),
        List.append_assoc]
      rfl
    · rw [Dict.get?_set_ne _ _ fun h => hk h.symm, List.filter_cons,
        if_neg fun h => hk (of_decide_eq_true h)]

theorem get?_entries_by_type (regions : RegionMaps) (mem_type : String) :
    ((entries_by_type regions).get? mem_type).getD [] = regions_of_type regions mem_type :=
  get?_grouped (fun entry : Bool × RegionDescriptor => entry.2.mem_type) (tagged_regions regions)
    Dict.empty mem_type

/-- The grid of one memory type was handed to NIXL and is kept with its offsets. -/
def GridKept (agent : NixlAgent) (agent_name mem_type : String)
    (entries : List (Bool × RegionDescriptor)) (s : KVCRProgress) : Prop :=
  ∃ handle tick,
    agent.prep_xfer_dlist tick agent_name (grid_rows entries) mem_type = .returned (some handle) ∧
    (s.prepared.get? agent_name).bind (·.get? mem_type) = some (handle, grid_offsets entries)

/-- The registrations of an agent are prepared: its catalog is kept, unless it is empty, and
so is a grid for each memory type. -/
structure Prepared (agent : NixlAgent) (agent_name owner : String) (maps : RegionMaps)
    (s : KVCRProgress) : Prop where
  catalog : tagged_regions maps ≠ [] → s.catalogs.get? agent_name = some (owner, maps)
  absent : tagged_regions maps = [] → s.catalogs.get? agent_name = none
  grids : ∀ mem_type, regions_of_type maps mem_type ≠ [] →
    GridKept agent agent_name mem_type (regions_of_type maps mem_type) s

section Prepare

variable {agent : NixlAgent} {s : KVCRProgress} {t : List NixlEv} {agent_name owner : String}
  {maps : RegionMaps}

theorem wp_prepare_grid {mem_type : String} {entries : List (Bool × RegionDescriptor)}
    (hopen : (s.prepared.get? agent_name).isSome = true) :
    wp Watch.any (prepare_grid agent agent_name mem_type entries)
      (fun _ s' _ => s'.catalogs = s.catalogs ∧ (s'.prepared.get? agent_name).isSome = true ∧
        GridKept agent agent_name mem_type entries s' ∧
        ∀ other ≠ mem_type, (s'.prepared.get? agent_name).bind (·.get? other) =
          (s.prepared.get? agent_name).bind (·.get? other)) s t := by
  obtain ⟨grids, hgrids⟩ := Option.isSome_iff_exists.mp hopen
  unfold prepare_grid
  rw [wp_bind, wp_native, wp_bind]
  cases hanswer : agent.prep_xfer_dlist s.tick agent_name (grid_rows entries) mem_type with
  | raised => exact wp_raise.mpr trivial
  | disconnected => exact wp_raise.mpr trivial
  | returned created =>
    refine wp_pure.mpr ?_
    cases created with
    | none => exact wp_raise.mpr trivial
    | some handle =>
      refine wp_change.mpr ⟨rfl, ?_, ⟨handle, s.tick, hanswer, ?_⟩, fun other hother => ?_⟩
      · rw [Dict.get?_set_self]
        rfl
      · rw [Dict.get?_set_self, Option.bind_some, Dict.get?_set_self]
      · rw [Dict.get?_set_self, Option.bind_some, Dict.get?_set_ne _ _ hother, hgrids]
        rfl

theorem get?_entries_of_type {mem_type : String} {entries : List (Bool × RegionDescriptor)}
    (h : (entries_by_type maps).get? mem_type = some entries) :
    entries = regions_of_type maps mem_type := by
  rw [← get?_entries_by_type, h, Option.getD_some]

theorem wp_prepare_memory {owner_name : Option String}
    (howner : owner_name.getD (if agent_name = "" then s.nixl_agent_name else agent_name) = owner) :
    wp Watch.any (prepare_memory agent agent_name maps owner_name)
      (fun _ s' _ => Prepared agent agent_name owner maps s') s t := by
  unfold prepare_memory
  rw [wp_bind, wp_read]
  refine wp_ite.mpr ⟨fun _ => wp_raise.mpr trivial, fun _ => ?_⟩
  dsimp only
  rw [howner, wp_bind, wp_change]
  -- the types that were gone through have their grids
  refine wp_seq (P := fun _ s' _ => s'.catalogs.get? agent_name = some (owner, maps) ∧
    ((entries_by_type maps).entries = [] → s'.prepared.get? agent_name = some Dict.empty) ∧
    ∀ mem_type entries, (entries_by_type maps).get? mem_type = some entries →
      GridKept agent agent_name mem_type entries s') ?_ ?_
  · refine wp_handle.mpr (wp_conseq (W := Watch.any) ?_ ?_ (fun _ h => h) fun _ _ _ h => h)
    rotate_left
    · intro e s' t' _
      dsimp only
      exact wp_any_raise
    refine wp_forEach (fun rest s' _ => s'.catalogs.get? agent_name = some (owner, maps) ∧
      ((entries_by_type maps).entries = [] → s'.prepared.get? agent_name = some Dict.empty) ∧
      (s'.prepared.get? agent_name).isSome = true ∧
      (∀ p ∈ rest, (entries_by_type maps).get? p.1 = some p.2) ∧
      ∀ mem_type entries, (entries_by_type maps).get? mem_type = some entries →
        (mem_type, entries) ∈ rest ∨ GridKept agent agent_name mem_type entries s')
      ?_ ?_ _ _ _ ⟨Dict.get?_set_self _ _ _, fun _ => Dict.get?_set_self _ _ _, ?_, ?_, ?_⟩
    · rintro ⟨mem_type, entries⟩ rest s' t' ⟨hcatalog, -, hopen, hrest, hkept⟩
      refine wp_mono (wp_prepare_grid hopen) ?_
      rintro _ s'' t'' ⟨hcatalogs, hopen', hgrid, hothers⟩
      have hsome := Dict.get?_eq_some.mp (hrest _ List.mem_cons_self)
      refine ⟨by rw [hcatalogs, hcatalog], fun hempty => absurd hempty (List.ne_nil_of_mem hsome),
        hopen', fun p hp => hrest p (List.mem_cons_of_mem _ hp), ?_⟩
      intro mem_type' entries' hget'
      by_cases htype : mem_type' = mem_type
      · subst htype
        have hsame := Option.some.inj (hget'.symm.trans (hrest _ List.mem_cons_self))
        rw [hsame]
        exact .inr hgrid
      · rcases hkept mem_type' entries' hget' with hmem | ⟨handle, tick, hanswer, hstored⟩
        · rcases List.mem_cons.mp hmem with heq | hmem
          · exact absurd (Prod.mk.inj heq).1 htype
          · exact .inl hmem
        · exact .inr ⟨handle, tick, hanswer, (hothers mem_type' htype).trans hstored⟩
    · rintro s' t' ⟨hcatalog, hempty, -, -, hkept⟩
      exact ⟨hcatalog, hempty, fun mem_type entries hget =>
        (hkept mem_type entries hget).resolve_left List.not_mem_nil⟩
    · rw [Dict.get?_set_self]
      rfl
    · exact fun p hp => Dict.get?_eq_some.mpr hp
    · exact fun mem_type entries hget => .inl (Dict.get?_eq_some.mp hget)
  · rintro _ s' t' ⟨hcatalog, hempty, hkept⟩
    rw [wp_bind, wp_read]
    have hgrid : ∀ mem_type, regions_of_type maps mem_type ≠ [] →
        GridKept agent agent_name mem_type (regions_of_type maps mem_type) s' := by
      intro mem_type hsome
      cases hget : (entries_by_type maps).get? mem_type with
      | none =>
        refine absurd ?_ hsome
        rw [← get?_entries_by_type, hget]
        rfl
      | some entries =>
        rw [← get?_entries_of_type hget]
        exact hkept mem_type entries hget
    have hkeptsome : tagged_regions maps ≠ [] →
        ((s'.prepared.get? agent_name).getD Dict.empty).entries ≠ [] := by
      intro hregions
      obtain ⟨entry, hentry⟩ := List.exists_mem_of_ne_nil _ hregions
      obtain ⟨handle, tick, -, hstored⟩ := hgrid entry.2.mem_type
        (List.ne_nil_of_mem (List.mem_filter.mpr ⟨hentry, decide_eq_true rfl⟩))
      obtain ⟨grids, hgrids, hget⟩ := Option.bind_eq_some_iff.mp hstored
      rw [hgrids, Option.getD_some]
      exact List.ne_nil_of_mem (Dict.get?_eq_some.mp hget)
    have hnone : tagged_regions maps = [] → ∀ mem_type, regions_of_type maps mem_type = [] := by
      intro hregions mem_type
      rw [regions_of_type, hregions]
      rfl
    refine wp_ite.mpr ⟨fun hunkept => wp_change.mpr ?_, fun hsome => wp_pure.mpr ?_⟩
    · have hregions : tagged_regions maps = [] := by
        by_contra h
        exact hkeptsome h hunkept
      exact ⟨fun h => absurd hregions h, fun _ => Dict.get?_erase_self _ _,
        fun mem_type h => absurd (hnone hregions mem_type) h⟩
    · refine ⟨fun _ => hcatalog, fun hregions => absurd ?_ hsome, hgrid⟩
      rw [hempty (by rw [entries_by_type, hregions]; rfl), Option.getD_some]
      rfl

end Prepare

/-! ## Indices

The references of a transfer are resolved one after the other, and the region of a label
only once. The computation without that cache is defined here; it is the one the indices
are read off from. -/

/-- The loop of `_prepared_indices`, resolving every reference. -/
def uncached_indices_loop (regions : RegionMaps) (owner mem_type : String) (offsets : GridOffsets)
    (indices : List Nat) : List TransferRef → Except NixlError (List Nat)
  | [] => .ok indices
  | ref :: refs =>
    match resolve_region regions owner ref with
    | .error message => .error (.value_error message)
    | .ok region =>
      if region.mem_type ≠ mem_type then
        .error (.value_error "one NIXL descriptor list cannot mix memory types")
      else
        match (in_namespace ref.framework offsets).get? region.label with
        | none => .error .key_error
        | some offset =>
          uncached_indices_loop regions owner mem_type offsets
            (indices ++ [offset + ref.element_index]) refs

/-- `_prepared_indices` without its cache. -/
def uncached_indices (s : KVCRProgress) (agent_name : String) (refs : List TransferRef) :
    Except NixlError (Nat × List Nat) :=
  match s.catalogs.get? agent_name, refs with
  | none, _ => .error (.value_error ("no prepared memory for agent " ++ quoted agent_name))
  | some _, [] => .error (.runtime_error "StopIteration")
  | some (owner, regions), first_ref :: refs =>
    match resolve_region regions owner first_ref with
    | .error message => .error (.value_error message)
    | .ok first =>
      match (s.prepared.get? agent_name).bind fun grids => grids.get? first.mem_type with
      | none => .error .key_error
      | some (handle, offsets) =>
        (uncached_indices_loop regions owner first.mem_type offsets [] (first_ref :: refs)).map
          fun indices => (handle, indices)

section Indices

variable {regions : RegionMaps} {owner mem_type : String} {offsets : GridOffsets}
  {resolved : ResolvedLabels} {ref : TransferRef} {refs : List TransferRef}

/-- Which region a reference finds depends on its namespace and label only. -/
theorem find_region_congr {ref' : TransferRef} (hframework : ref.framework = ref'.framework)
    (hlabel : ref.label = ref'.label) : find_region regions ref = find_region regions ref' := by
  unfold find_region
  rw [hframework, hlabel]

/-- A reference of the agent resolves when its region exists and its element is in it. -/
theorem resolve_region_ok {region : RegionDescriptor} (howned : ref.end_point_name = owner) :
    resolve_region regions owner ref = .ok region ↔
      find_region regions ref = some region ∧ ref.element_index < region.count := by
  rw [resolve_region_eq_ok, and_iff_right howned]

/-- What the cache remembers is what resolving again would find. -/
def Remembers (regions : RegionMaps) (mem_type : String) (offsets : GridOffsets)
    (resolved : ResolvedLabels) : Prop :=
  ∀ (ref : TransferRef) (count offset : Nat),
    (in_namespace ref.framework resolved).get? ref.label = some (count, offset) →
    ∃ region, find_region regions ref = some region ∧ region.count = count ∧
      region.mem_type = mem_type ∧
      (in_namespace ref.framework offsets).get? region.label = some offset

theorem get?_note (framework framework' : Bool) (label label' : Label) (entry : Nat × Nat) :
    (in_namespace framework' (resolved.note framework label entry)).get? label' =
      if framework' = framework ∧ label' = label then some entry
      else (in_namespace framework' resolved).get? label' := by
  unfold ResolvedLabels.note in_namespace
  cases framework <;> cases framework' <;> simp [Dict.get?_set]

theorem Remembers.note (h : Remembers regions mem_type offsets resolved)
    {region : RegionDescriptor} {offset : Nat} (hfound : find_region regions ref = some region)
    (htype : region.mem_type = mem_type)
    (hoffset : (in_namespace ref.framework offsets).get? region.label = some offset) :
    Remembers regions mem_type offsets
      (resolved.note ref.framework ref.label (region.count, offset)) := by
  intro ref' count' offset' hget
  rw [get?_note] at hget
  split at hget
  next hsame =>
    obtain ⟨rfl, rfl⟩ := Prod.mk.inj (Option.some.inj hget)
    refine ⟨region, (find_region_congr hsame.1 hsame.2).trans hfound, rfl, htype, ?_⟩
    rwa [hsame.1]
  next => exact h ref' count' offset' hget

/-- The cache changes nothing. -/
theorem prepared_indices_loop_eq (h : Remembers regions mem_type offsets resolved)
    (howned : ∀ ref ∈ refs, ref.end_point_name = owner) (indices : List Nat) :
    prepared_indices_loop regions owner mem_type offsets resolved indices refs =
      uncached_indices_loop regions owner mem_type offsets indices refs := by
  induction refs generalizing resolved indices with
  | nil => rfl
  | cons ref refs ih =>
    have hrest : ∀ ref ∈ refs, ref.end_point_name = owner :=
      fun ref' href' => howned ref' (List.mem_cons_of_mem _ href')
    unfold prepared_indices_loop uncached_indices_loop
    cases hcached : (in_namespace ref.framework resolved).get? ref.label with
    | none =>
      dsimp only
      cases hresolve : resolve_region regions owner ref with
      | error e => rfl
      | ok region =>
        dsimp only
        by_cases htype : region.mem_type = mem_type
        · rw [if_neg (not_not_intro htype), if_neg (not_not_intro htype)]
          cases hoffset : (in_namespace ref.framework offsets).get? region.label with
          | none => rfl
          | some offset =>
            have hfound := ((resolve_region_ok (howned ref List.mem_cons_self)).mp hresolve).1
            exact ih (h.note hfound htype hoffset) hrest _
        · rw [if_pos htype, if_pos htype]
    | some entry =>
      obtain ⟨count, offset⟩ := entry
      obtain ⟨region, hfound, hcount, htype, hoffset⟩ := h ref count offset hcached
      have hresolve : resolve_region regions owner ref = if ref.element_index < count then
          .ok region else .error "memory reference element_index is outside its region" := by
        unfold resolve_region
        rw [if_neg (not_not_intro (howned ref List.mem_cons_self)), hfound]
        dsimp only
        rw [hcount]
      dsimp only
      rw [hresolve]
      by_cases hlt : ref.element_index < count
      · rw [if_pos hlt, if_pos hlt]
        dsimp only
        rw [if_neg (not_not_intro htype), hoffset]
        exact ih h hrest _
      · rw [if_neg hlt, if_neg hlt]

theorem prepared_indices_eq {s : KVCRProgress} {agent_name : String} {refs : List TransferRef}
    (howned : ∀ owner regions, s.catalogs.get? agent_name = some (owner, regions) →
      ∀ ref ∈ refs, ref.end_point_name = owner) :
    prepared_indices s agent_name refs = uncached_indices s agent_name refs := by
  unfold prepared_indices uncached_indices
  cases hcatalog : s.catalogs.get? agent_name with
  | none => rfl
  | some catalog =>
    obtain ⟨owner, regions⟩ := catalog
    cases refs with
    | nil => rfl
    | cons first_ref refs =>
      have hfirst := howned owner regions hcatalog first_ref List.mem_cons_self
      dsimp only
      cases hresolve : resolve_region regions owner first_ref with
      | error e => rfl
      | ok first =>
        dsimp only
        cases (s.prepared.get? agent_name).bind fun grids => grids.get? first.mem_type with
        | none => rfl
        | some grid =>
          obtain ⟨handle, offsets⟩ := grid
          dsimp only
          rw [uncached_indices_loop, hresolve]
          dsimp only
          rw [if_neg (not_not_intro rfl)]
          cases hoffset : (in_namespace first_ref.framework offsets).get? first.label with
          | none => rfl
          | some offset =>
            have hempty : Remembers regions first.mem_type offsets (Dict.empty, Dict.empty) := by
              intro ref count offset hget
              unfold in_namespace at hget
              split at hget <;> cases hget
            have hfound := ((resolve_region_ok hfirst).mp hresolve).1
            dsimp only
            rw [prepared_indices_loop_eq (hempty.note hfound rfl hoffset) fun ref href =>
              howned owner regions hcatalog ref (List.mem_cons_of_mem _ href)]
            rfl

/-! ## The memory an index names -/

/-- Corresponding elements of related lists. -/
theorem forall₂_getElem? {α β : Type} {R : α → β → Prop} {xs : List α} {ys : List β}
    (h : List.Forall₂ R xs ys) {a : Nat} {x : α} (hx : xs[a]? = some x) :
    ∃ y, ys[a]? = some y ∧ R x y := by
  induction h generalizing a with
  | nil => cases hx
  | cons hr _ ih =>
    cases a with
    | zero =>
      obtain rfl := Option.some.inj hx
      exact ⟨_, rfl, hr⟩
    | succ a => exact ih hx

theorem forall₂_imp_of_mem {α β : Type} {R S : α → β → Prop} {xs : List α} {ys : List β}
    (h : List.Forall₂ R xs ys) (himp : ∀ x ∈ xs, ∀ y, R x y → S x y) : List.Forall₂ S xs ys := by
  induction h with
  | nil => exact .nil
  | cons hr _ ih =>
    exact .cons (himp _ List.mem_cons_self _ hr) (ih fun x hx => himp x (List.mem_cons_of_mem _ hx))

/-- The region and the element a reference names. -/
def named_element (regions : RegionMaps) (ref : TransferRef) : Option (Bool × Label × Nat) :=
  (find_region regions ref).map fun region => (ref.framework, region.label, ref.element_index)

/-- A reference resolves to memory of the given type. -/
def ResolvesTo (regions : RegionMaps) (mem_type : String) (ref : TransferRef) : Prop :=
  ∃ region, find_region regions ref = some region ∧ ref.element_index < region.count ∧
    region.mem_type = mem_type

/-- The index is that of the reference's element: so many elements into its region, which
is the `p`-th row. -/
def Places (regions : RegionMaps) (mem_type : String) (ref : TransferRef) (i : Nat) : Prop :=
  ∃ region p, find_region regions ref = some region ∧ ref.element_index < region.count ∧
    (regions_of_type regions mem_type)[p]? = some (ref.framework, region) ∧
    i = elements_before (regions_of_type regions mem_type) p + ref.element_index

theorem mem_tagged_of_find {region : RegionDescriptor} (h : find_region regions ref = some region) :
    (ref.framework, region) ∈ tagged_regions regions := by
  refine mem_tagged_regions.mpr (mem_values.mpr ?_)
  unfold find_region at h
  unfold in_namespace
  split at h
  next hframework =>
    rw [if_pos hframework]
    split at h
    next found hget =>
      rw [← h]
      exact ⟨_, hget⟩
    next =>
      split at h
      next => exact ⟨_, h⟩
      next => cases h
  next hframework =>
    rw [if_neg hframework]
    exact ⟨_, h⟩

/-- A reference that resolves has its place in the grid, at the offset kept for its region. -/
theorem Catalog.place (c : Catalog) {region : RegionDescriptor}
    (hfound : find_region c.maps ref = some region) (hlt : ref.element_index < region.count)
    (htype : region.mem_type = mem_type) :
    ∃ offset, (in_namespace ref.framework (grid_offsets (regions_of_type c.maps mem_type))).get?
        region.label = some offset ∧
      Places c.maps mem_type ref (offset + ref.element_index) := by
  have hmem : (ref.framework, region) ∈ regions_of_type c.maps mem_type :=
    List.mem_filter.mpr ⟨mem_tagged_of_find hfound, decide_eq_true htype⟩
  obtain ⟨p, hp⟩ := List.mem_iff_getElem?.mp hmem
  exact ⟨_, get?_grid_offsets (c.nodup_names_of_type mem_type) hp, region, p, hfound, hlt, hp, rfl⟩

theorem places_of_loop (c : Catalog) (howned : ∀ ref ∈ refs, ref.end_point_name = owner)
    {indices result : List Nat}
    (h : uncached_indices_loop c.maps owner mem_type
      (grid_offsets (regions_of_type c.maps mem_type)) indices refs = .ok result) :
    ∃ more, result = indices ++ more ∧ List.Forall₂ (Places c.maps mem_type) refs more := by
  induction refs generalizing indices with
  | nil => exact ⟨[], by rw [List.append_nil]; exact (Except.ok.inj h).symm, .nil⟩
  | cons ref refs ih =>
    unfold uncached_indices_loop at h
    cases hresolve : resolve_region c.maps owner ref with
    | error e =>
      rw [hresolve] at h
      cases h
    | ok region =>
      rw [hresolve] at h
      dsimp only at h
      split at h
      next => cases h
      next htype =>
        obtain ⟨hfound, hlt⟩ := (resolve_region_ok (howned ref List.mem_cons_self)).mp hresolve
        obtain ⟨offset, hoffset, hplaces⟩ := c.place hfound hlt (not_not.mp htype)
        rw [hoffset] at h
        dsimp only at h
        obtain ⟨more, rfl, hmore⟩ :=
          ih (fun ref' href' => howned ref' (List.mem_cons_of_mem _ href')) h
        exact ⟨(offset + ref.element_index) :: more, by rw [List.append_assoc]; rfl,
          .cons hplaces hmore⟩

theorem loop_succeeds (c : Catalog) (howned : ∀ ref ∈ refs, ref.end_point_name = owner)
    (hresolve : ∀ ref ∈ refs, ResolvesTo c.maps mem_type ref) (indices : List Nat) :
    ∃ result, uncached_indices_loop c.maps owner mem_type
      (grid_offsets (regions_of_type c.maps mem_type)) indices refs = .ok result := by
  induction refs generalizing indices with
  | nil => exact ⟨indices, rfl⟩
  | cons ref refs ih =>
    obtain ⟨region, hfound, hlt, htype⟩ := hresolve ref List.mem_cons_self
    have hok := (resolve_region_ok (howned ref List.mem_cons_self)).mpr ⟨hfound, hlt⟩
    obtain ⟨offset, hoffset, -⟩ := c.place hfound hlt htype
    unfold uncached_indices_loop
    rw [hok]
    dsimp only
    rw [if_neg (not_not_intro htype), hoffset]
    exact ih (fun ref' href' => howned ref' (List.mem_cons_of_mem _ href'))
      (fun ref' href' => hresolve ref' (List.mem_cons_of_mem _ href')) _

/-- What a place in the grid holds. -/
theorem Places.element (c : Catalog) {i : Nat} (h : Places c.maps mem_type ref i)
    (howned : ref.end_point_name = owner) :
    ∃ d, address_descriptor_in c.maps owner ref = .ok d ∧ d.mem_type = mem_type ∧
      (grid_elements (grid_rows (regions_of_type c.maps mem_type)))[i]? =
        some (d.addr, d.size, d.device_Id) ∧
      i < 2 ^ 31 ∧ d.addr + d.size ≤ 2 ^ 64 - 1 := by
  obtain ⟨region, p, hfound, hlt, hp, rfl⟩ := h
  have hmem := List.mem_filter.mp (List.mem_of_getElem? hp)
  have hresolve := (resolve_region_ok howned).mpr ⟨hfound, hlt⟩
  refine ⟨_, by rw [address_descriptor_in, hresolve]; rfl, of_decide_eq_true hmem.2,
    getElem?_grid_elements hp hlt, ?_, (c.valid hmem.1).element_end hlt⟩
  exact (index_lt hp hlt).trans_le (c.sum_counts_le mem_type)

/-- Two references with one place name one element of one region. -/
theorem Places.injective {ref' : TransferRef} {i : Nat} (h : Places regions mem_type ref i)
    (h' : Places regions mem_type ref' i) :
    named_element regions ref = named_element regions ref' := by
  obtain ⟨region, p, hfound, hlt, hp, rfl⟩ := h
  obtain ⟨region', q, hfound', hlt', hq, hsame⟩ := h'
  obtain ⟨rfl, helement⟩ := index_injective hp hlt hq hlt' hsame
  obtain ⟨hframework, rfl⟩ := Prod.mk.inj (Option.some.inj (hp.symm.trans hq))
  rw [named_element, named_element, hfound, hfound', hframework, helement]

variable {agent : NixlAgent} {s s' : KVCRProgress} {agent_name : String}

/-- The computation succeeds when every reference resolves to one memory type. -/
theorem Prepared.succeeds {c : Catalog} (hp : Prepared agent agent_name owner c.maps s)
    (hrefs : refs ≠ []) (howned : ∀ ref ∈ refs, ref.end_point_name = owner)
    (hresolve : ∀ ref ∈ refs, ResolvesTo c.maps mem_type ref) :
    ∃ result, uncached_indices s agent_name refs = .ok result := by
  obtain ⟨first_ref, rest, rfl⟩ := List.exists_cons_of_ne_nil hrefs
  obtain ⟨first, hfound, hlt, rfl⟩ := hresolve first_ref List.mem_cons_self
  have hmem := mem_tagged_of_find hfound
  have hoftype : (first_ref.framework, first) ∈ regions_of_type c.maps first.mem_type :=
    List.mem_filter.mpr ⟨hmem, decide_eq_true rfl⟩
  obtain ⟨handle, tick, -, hstored⟩ := hp.grids first.mem_type (List.ne_nil_of_mem hoftype)
  obtain ⟨indices, hindices⟩ := loop_succeeds c howned hresolve []
  have hok := (resolve_region_ok (howned first_ref List.mem_cons_self)).mpr ⟨hfound, hlt⟩
  refine ⟨(handle, indices), ?_⟩
  unfold uncached_indices
  rw [hp.catalog (List.ne_nil_of_mem hmem)]
  dsimp only
  rw [hok]
  dsimp only
  rw [hstored]
  dsimp only
  rw [hindices]
  rfl

/-- What the computation returns: the grid of one memory type, and the place of each
reference in it. -/
theorem Prepared.places {c : Catalog} (hp : Prepared agent agent_name owner c.maps s)
    (hrefs : refs ≠ []) (howned : ∀ ref ∈ refs, ref.end_point_name = owner) {handle : Nat}
    {indices : List Nat} (h : uncached_indices s agent_name refs = .ok (handle, indices)) :
    ∃ mem_type tick, agent.prep_xfer_dlist tick agent_name
        (grid_rows (regions_of_type c.maps mem_type)) mem_type = .returned (some handle) ∧
      List.Forall₂ (Places c.maps mem_type) refs indices := by
  obtain ⟨first_ref, rest, rfl⟩ := List.exists_cons_of_ne_nil hrefs
  unfold uncached_indices at h
  by_cases hregions : tagged_regions c.maps = []
  · rw [hp.absent hregions] at h
    cases h
  rw [hp.catalog hregions] at h
  dsimp only at h
  cases hresolve : resolve_region c.maps owner first_ref with
  | error e =>
    rw [hresolve] at h
    cases h
  | ok first =>
    obtain ⟨hfound, -⟩ := (resolve_region_ok (howned first_ref List.mem_cons_self)).mp hresolve
    have hoftype : (first_ref.framework, first) ∈ regions_of_type c.maps first.mem_type :=
      List.mem_filter.mpr ⟨mem_tagged_of_find hfound, decide_eq_true rfl⟩
    obtain ⟨grid, tick, hgrid, hstored⟩ := hp.grids first.mem_type (List.ne_nil_of_mem hoftype)
    rw [hresolve] at h
    dsimp only at h
    rw [hstored] at h
    dsimp only at h
    cases hloop : uncached_indices_loop c.maps owner first.mem_type
        (grid_offsets (regions_of_type c.maps first.mem_type)) [] (first_ref :: rest) with
    | error e =>
      rw [hloop] at h
      cases h
    | ok result =>
      rw [hloop] at h
      obtain ⟨rfl, rfl⟩ := Prod.mk.inj (Except.ok.inj h)
      obtain ⟨more, rfl, hmore⟩ := places_of_loop c howned hloop
      exact ⟨first.mem_type, tick, hgrid, hmore⟩

theorem Places.resolves {i : Nat} (h : Places regions mem_type ref i) :
    ResolvesTo regions mem_type ref := by
  obtain ⟨region, p, hfound, hlt, hp, -⟩ := h
  exact ⟨region, hfound, hlt, of_decide_eq_true (List.mem_filter.mp (List.mem_of_getElem? hp)).2⟩

/-- Prepared indices name the right memory. Once the registrations of an agent are prepared,
indices are computed for references of that agent exactly when all of them resolve, to one
memory type. Each is then the position, in the grid that NIXL was given for that type, of
the element the reference's address resolves to; it has 31 bits, the element ends inside
the address space, and no two elements share an index. The cache changes no result. -/
theorem prepared_indices_name_memory (agent : NixlAgent) (c : Catalog)
    (owner_name : Option String) {u : List NixlEv}
    (hprepared : prepare_memory agent agent_name c.maps owner_name s = .ok () s' u)
    (howner : owner_name.getD (if agent_name = "" then s.nixl_agent_name else agent_name) = owner)
    (hrefs : refs ≠ []) (howned : ∀ ref ∈ refs, ref.end_point_name = owner) :
    ((∃ result, prepared_indices s' agent_name refs = .ok result) ↔
        ∃ mem_type, ∀ ref ∈ refs, ResolvesTo c.maps mem_type ref) ∧
      (∀ handle indices, prepared_indices s' agent_name refs = .ok (handle, indices) →
        ∃ mem_type tick rows,
          agent.prep_xfer_dlist tick agent_name rows mem_type = .returned (some handle) ∧
          List.Forall₂ (fun ref i => ∃ d, address_descriptor_in c.maps owner ref = .ok d ∧
            d.mem_type = mem_type ∧
            (grid_elements rows)[i]? = some (d.addr, d.size, d.device_Id) ∧
            i < 2 ^ 31 ∧ d.addr + d.size ≤ 2 ^ 64 - 1) refs indices ∧
          ∀ (a b i : Nat) (ref ref' : TransferRef), refs[a]? = some ref → refs[b]? = some ref' →
            indices[a]? = some i → indices[b]? = some i →
            named_element c.maps ref = named_element c.maps ref') ∧
      prepared_indices s' agent_name refs = uncached_indices s' agent_name refs := by
  have hp : Prepared agent agent_name owner c.maps s' := by
    have hwp : wp Watch.any (prepare_memory agent agent_name c.maps owner_name) _ s [] :=
      wp_prepare_memory howner
    unfold wp at hwp
    rwa [hprepared] at hwp
  have hsame : prepared_indices s' agent_name refs = uncached_indices s' agent_name refs := by
    refine prepared_indices_eq fun owner' regions hcatalog => ?_
    by_cases hregions : tagged_regions c.maps = []
    · exact absurd (hcatalog.symm.trans (hp.absent hregions)) (Option.some_ne_none _)
    · have heq := Option.some.inj (hcatalog.symm.trans (hp.catalog hregions))
      rw [(Prod.mk.inj heq).1]
      exact howned
  rw [hsame]
  refine ⟨⟨?_, fun ⟨mem_type, hresolve⟩ => hp.succeeds hrefs howned hresolve⟩, ?_, rfl⟩
  · rintro ⟨⟨handle, indices⟩, h⟩
    obtain ⟨mem_type, tick, -, hplaces⟩ := hp.places hrefs howned h
    refine ⟨mem_type, fun ref href => ?_⟩
    obtain ⟨a, ha⟩ := List.mem_iff_getElem?.mp href
    obtain ⟨i, -, hi⟩ := forall₂_getElem? hplaces ha
    exact hi.resolves
  · intro handle indices h
    obtain ⟨mem_type, tick, hgrid, hplaces⟩ := hp.places hrefs howned h
    refine ⟨mem_type, tick, _, hgrid, ?_, ?_⟩
    · refine forall₂_imp_of_mem hplaces fun ref href i hi => hi.element c (howned ref href)
    · intro a b i ref ref' ha hb hia hib
      obtain ⟨i₁, hi₁, hplace⟩ := forall₂_getElem? hplaces ha
      obtain ⟨i₂, hi₂, hplace'⟩ := forall₂_getElem? hplaces hb
      obtain rfl := Option.some.inj (hia.symm.trans hi₁)
      obtain rfl := Option.some.inj (hib.symm.trans hi₂)
      exact hplace.injective hplace'

end Indices

/-! ## A grid of two regions -/

/-- A framework buffer shared by the parts of `full`, and a pool of the cache. -/
def shared_buffer : RegionDescriptor :=
  { addr := 4096, count := 4, size := 16, stride := 32, label := ⟨"full", some "*"⟩ }

def pool_slots : RegionDescriptor :=
  { addr := 65536, count := 2, size := 16, label := ⟨"full", none⟩ }

def two_regions : Catalog where
  maps := (⟨[(⟨"full", some "*"⟩, shared_buffer)], by decide⟩,
    ⟨[(⟨"full", none⟩, pool_slots)], by decide⟩)
  named := by
    intro framework label region hget
    cases framework <;>
    · obtain ⟨rfl, rfl⟩ := Prod.mk.inj (List.mem_singleton.mp (Dict.get?_eq_some.mp hget))
      rfl
  accepted := by decide

/-- NIXL prepares every grid under one handle. -/
def preparing_agent : NixlAgent where
  create_xfer _ _ := .raised
  transfer _ _ := .raised
  check_xfer_state _ _ := .raised
  release_xfer_handle := none
  get_xfer_telemetry := none
  prep_xfer_dlist _ _ _ _ := .returned (some 7)
  release_dlist_handle _ _ := .returned true

/-- What is prepared of the two regions: one grid, the framework's buffer first. -/
def two_prepared : KVCRProgress where
  nixl_agent_name := "self"
  prepared := Dict.empty.set "peer" (Dict.empty.set "DRAM"
    (7, (Dict.empty.set ⟨"full", some "*"⟩ 0, Dict.empty.set ⟨"full", none⟩ 4)))
  catalogs := Dict.empty.set "peer" ("worker", two_regions.maps)
  tick := 1

/-- The second slot of the pool comes after the four elements of the shared buffer, and a part
of `full` is found in that buffer; both are where their references resolve to. -/
theorem prepared_indices_of_two_regions :
    prepare_memory preparing_agent "peer" two_regions.maps (some "worker")
        { nixl_agent_name := "self" } = .ok () two_prepared [] ∧
      prepared_indices two_prepared "peer" [⟨"worker", 1, ⟨"full", none⟩, false⟩,
        ⟨"worker", 3, ⟨"full", some "k"⟩, true⟩] = .ok (7, [5, 3]) ∧
      ∃ rows, (∃ d, address_descriptor_in two_regions.maps "worker"
          ⟨"worker", 1, ⟨"full", none⟩, false⟩ = .ok d ∧
          (grid_elements rows)[5]? = some (d.addr, d.size, d.device_Id)) ∧
        ∃ d, address_descriptor_in two_regions.maps "worker"
          ⟨"worker", 3, ⟨"full", some "k"⟩, true⟩ = .ok d ∧
          (grid_elements rows)[3]? = some (d.addr, d.size, d.device_Id) := by
  have hprepared : prepare_memory preparing_agent "peer" two_regions.maps (some "worker")
      { nixl_agent_name := "self" } = .ok () two_prepared [] := rfl
  have hindices : prepared_indices two_prepared "peer" [⟨"worker", 1, ⟨"full", none⟩, false⟩,
      ⟨"worker", 3, ⟨"full", some "k"⟩, true⟩] = .ok (7, [5, 3]) := rfl
  have howned : ∀ ref ∈ ([⟨"worker", 1, ⟨"full", none⟩, false⟩,
      ⟨"worker", 3, ⟨"full", some "k"⟩, true⟩] : List TransferRef),
      ref.end_point_name = "worker" := by
    decide
  obtain ⟨-, hnames, -⟩ := prepared_indices_name_memory preparing_agent two_regions
    (some "worker") hprepared rfl (List.cons_ne_nil _ _) howned
  obtain ⟨mem_type, tick, rows, -, hplaces, -⟩ := hnames 7 [5, 3] hindices
  rw [List.forall₂_cons, List.forall₂_cons] at hplaces
  obtain ⟨⟨d, hd, -, hslot, -⟩, ⟨d', hd', -, hpart, -⟩, -⟩ := hplaces
  exact ⟨hprepared, hindices, rows, ⟨d, hd, hslot⟩, d', hd', hpart⟩

end Kvcr
