/-
Registered memory, and the element of it that a reference names.

A core resolves references in its own registrations, its progress thread also in those of
its peers. Both look a label up in two dictionaries, of which one has the regions of the
framework and one the pools of the cache.
-/
import Kvcr.Types

set_option autoImplicit false

namespace Kvcr

/-! ## Definitions -/

/-- `_RegionMaps`: the framework's registrations and the cache's own, by label. -/
abbrev RegionMaps := Dict Label RegionDescriptor × Dict Label RegionDescriptor

/-- A label as it is written. -/
def Label.text (label : Label) : String :=
  match label.part with
  | none => label.pool
  | some part => label.pool ++ ":" ++ part

/-- `!r` of a plain string. -/
def quoted (text : String) : String := "'" ++ text ++ "'"

/-- The lookup of `_resolve_region`: the exact label or the wildcard of its pool in the
framework's registrations, the parent pool in the cache's own. -/
def find_region (regions : RegionMaps) (ref : TransferRef) : Option RegionDescriptor :=
  if ref.framework then
    match regions.1.get? ref.label with
    | some region => some region
    | none =>
      if ref.label.part.isSome then regions.1.get? ⟨ref.label.pool, some "*"⟩ else none
  else regions.2.get? ⟨ref.label.pool, none⟩

/-- `_resolve_region`; the error is the message of the `ValueError`. -/
def resolve_region (regions : RegionMaps) (agent_name : String) (ref : TransferRef) :
    Except String RegionDescriptor :=
  if ref.end_point_name ≠ agent_name then
    .error "memory reference has the wrong owning agent"
  else
    match find_region regions ref with
    | none =>
      .error ("no " ++ (if ref.framework then "framework" else "KVCR") ++
        " registration for " ++ quoted ref.label.text)
    | some region =>
      if ref.element_index < region.count then .ok region
      else .error "memory reference element_index is outside its region"

/-- `stride or size`. -/
def RegionDescriptor.pitch (region : RegionDescriptor) : Nat :=
  if region.stride = 0 then region.size else region.stride

/-- One element of a region. -/
def RegionDescriptor.element (region : RegionDescriptor) (index : Nat) : MemDescriptor :=
  { mem_type := region.mem_type
    addr := region.addr + index * region.pitch
    size := region.size
    device_Id := region.device_Id }

/-- The memory a reference names, in the registrations of its agent. -/
def address_descriptor_in (regions : RegionMaps) (agent_name : String) (ref : TransferRef) :
    Except String MemDescriptor := do
  let region ← resolve_region regions agent_name ref
  pure (region.element ref.element_index)

/-- `{region.label: region for region in regions}`. -/
def region_map (regions : List RegionDescriptor) : Dict Label RegionDescriptor :=
  regions.foldl (fun d region => d.set region.label region) Dict.empty

/-- `_memory_regions` of a core. -/
def Config.region_maps (cfg : Config) : RegionMaps :=
  (region_map cfg.framework_regions, region_map cfg.memory_regions)

/-! ## What resolves -/

/-- What a dictionary of regions finds is a region of that label. -/
theorem mem_of_region_map {regions : List RegionDescriptor} {label : Label}
    {region : RegionDescriptor} (h : (region_map regions).get? label = some region) :
    region ∈ regions ∧ region.label = label := by
  have hfold : ∀ d : Dict Label RegionDescriptor,
      (regions.foldl (fun d region => d.set region.label region) d).get? label = some region →
        (region ∈ regions ∧ region.label = label) ∨ d.get? label = some region := by
    clear h
    induction regions with
    | nil => exact fun d h => .inr h
    | cons first regions ih =>
      intro d h
      rcases ih _ h with ⟨hmem, hlabel⟩ | hset
      · exact .inl ⟨List.mem_cons_of_mem _ hmem, hlabel⟩
      · rw [Dict.get?_set] at hset
        split at hset
        next heq =>
          obtain rfl := Option.some.inj hset
          exact .inl ⟨List.mem_cons_self, heq.symm⟩
        next => exact .inr hset
  exact (hfold _ h).resolve_right (by simp)

/-- If no two regions have one label, the dictionary has all of them. -/
theorem get?_region_map {regions : List RegionDescriptor} (hlabels : (regions.map (·.label)).Nodup)
    (label : Label) :
    (region_map regions).get? label = regions.find? fun r => r.label = label := by
  have hfold : ∀ d : Dict Label RegionDescriptor,
      (regions.foldl (fun d region => d.set region.label region) d).get? label =
        (regions.find? fun r => r.label = label).or (d.get? label) := by
    induction regions with
    | nil => exact fun d => rfl
    | cons region regions ih =>
      intro d
      rw [List.map_cons, List.nodup_cons] at hlabels
      rw [List.foldl_cons, ih hlabels.2, List.find?_cons, Dict.get?_set]
      by_cases hlabel : region.label = label
      · have hlater : regions.find? (fun r => r.label = label) = none := by
          refine List.find?_eq_none.mpr fun r hr hsame => hlabels.1 ?_
          rw [hlabel, ← of_decide_eq_true hsame]
          exact List.mem_map_of_mem hr
        rw [hlater, decide_eq_true hlabel, if_pos hlabel.symm]
        rfl
      · rw [decide_eq_false hlabel, if_neg fun h => hlabel h.symm]
  rw [region_map, hfold]
  exact Option.or_none

section Resolve

variable {regions : RegionMaps} {agent_name : String} {ref : TransferRef}

/-- A reference resolves when it is the agent's, its region exists and its element is in it. -/
theorem resolve_region_eq_ok {region : RegionDescriptor} :
    resolve_region regions agent_name ref = .ok region ↔
      ref.end_point_name = agent_name ∧ find_region regions ref = some region ∧
        ref.element_index < region.count := by
  unfold resolve_region
  by_cases howned : ref.end_point_name = agent_name
  · rw [if_neg (not_not_intro howned)]
    cases find_region regions ref with
    | none => simp
    | some found =>
      dsimp only
      split
      next hlt =>
        rw [Except.ok.injEq, Option.some.injEq]
        exact ⟨fun h => ⟨howned, h, h ▸ hlt⟩, fun h => h.2.1⟩
      next hge =>
        refine iff_of_false (fun h => by cases h) fun h => hge ?_
        rw [Option.some.inj h.2.1]
        exact h.2.2
  · rw [if_pos howned]
    exact iff_of_false (fun h => by cases h) fun h => howned h.1

theorem address_descriptor_in_eq_ok {d : MemDescriptor} :
    address_descriptor_in regions agent_name ref = .ok d ↔
      ∃ region, resolve_region regions agent_name ref = .ok region ∧
        region.element ref.element_index = d := by
  unfold address_descriptor_in
  cases resolve_region regions agent_name ref with
  | error message => exact iff_of_false (fun h => by cases h) fun ⟨_, h, _⟩ => by cases h
  | ok region =>
    refine ⟨fun h => ⟨region, rfl, Except.ok.inj h⟩, ?_⟩
    rintro ⟨_, hregion, rfl⟩
    cases hregion
    rfl

end Resolve

end Kvcr
