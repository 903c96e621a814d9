/-
Matching a request against the layout of a block (`_layout_indices`).

A request names the whole layout, or labels that each occur once, or, when it repeats a
label, every occurrence of its labels in layout order. The three searches are written
differently in the source, and the second one has two forms: with an index prepared once
per residency, and without. What the callers rely on is the same for all of them: the
positions stand for the requested labels in order, and a label is answered for at all of
its occurrences or at none. Clearing a pending label is sound because of the latter: the
copies that were made for it wrote every slot that carries it.
-/
import Kvcr.Types
import Mathlib.Data.List.Induction
import Mathlib.Data.List.GetD

set_option autoImplicit false

namespace Kvcr

variable {layout requested : List Label} {indices : List Nat}

/-! ## The prepared index

The index is made in one pass over the layout, so what it holds is shown by induction on
the layout from its end: one more label is one more assignment. -/

theorem prepare_label_index_append (layout : List Label) (label : Label) :
    prepare_label_index (layout ++ [label]) = (prepare_label_index layout).set label
      (if (prepare_label_index layout).contains label then none else some layout.length) := by
  rw [prepare_label_index, List.zipIdx_append, List.foldl_append, Nat.zero_add]
  rfl

theorem contains_prepare_label_index (layout : List Label) (label : Label) :
    (prepare_label_index layout).contains label = true ↔ label ∈ layout := by
  induction layout using List.reverseRecOn with
  | nil => exact ⟨fun h => absurd h Bool.false_ne_true, fun h => absurd h List.not_mem_nil⟩
  | append_singleton layout last ih =>
    rw [prepare_label_index_append, Dict.contains, Dict.get?_set, List.mem_append,
      List.mem_singleton]
    by_cases hlast : label = last
    · rw [if_pos hlast]
      exact ⟨fun _ => .inr hlast, fun _ => rfl⟩
    · rw [if_neg hlast]
      exact ⟨fun h => .inl (ih.mp h), fun h => ih.mpr (h.resolve_right hlast)⟩

/-- The index answers for the labels that occur once, with the position they occur at. -/
theorem get?_prepare_label_index (layout : List Label) (label : Label) :
    ((prepare_label_index layout).get? label).join =
      if layout.count label = 1 then some (layout.idxOf label) else none := by
  induction layout using List.reverseRecOn with
  | nil => rfl
  | append_singleton layout last ih =>
    rw [prepare_label_index_append, Dict.get?_set, List.count_append]
    by_cases hlast : label = last
    · subst hlast
      rw [if_pos rfl, Option.join_some, List.count_singleton_self]
      by_cases hmem : label ∈ layout
      · -- a second occurrence: the entry is there, and is struck out
        have hcount : layout.count label ≠ 0 := (List.count_pos_iff.mpr hmem).ne'
        rw [if_pos ((contains_prepare_label_index layout label).mpr hmem), if_neg (by omega)]
      · have hcontains : ¬ (prepare_label_index layout).contains label = true :=
          fun h => hmem ((contains_prepare_label_index layout label).mp h)
        rw [if_neg hcontains, List.count_eq_zero_of_not_mem hmem, if_pos rfl,
          List.idxOf_append_of_notMem hmem, List.idxOf_cons_self, Nat.add_zero]
    · have hother : [last].count label = 0 :=
        List.count_eq_zero_of_not_mem fun h => hlast (List.mem_singleton.mp h)
      rw [if_neg hlast, ih, hother, Nat.add_zero]
      by_cases hmem : label ∈ layout
      · rw [List.idxOf_append_of_mem hmem]
      · rw [List.count_eq_zero_of_not_mem hmem]
        rfl

/-- A partial map that succeeds exactly where `p` holds is a test and a map. -/
theorem mapM_eq_ite {α β : Type} (p : α → Prop) [DecidablePred p] (f : α → β) (xs : List α) :
    xs.mapM (fun x => if p x then some (f x) else none) =
      if xs.any (fun x => ¬ p x) then none else some (xs.map f) := by
  induction xs with
  | nil => rfl
  | cons x xs ih =>
    rw [List.mapM_cons, ih, List.any_cons]
    by_cases hx : p x
    · rw [if_pos hx, decide_eq_false (not_not_intro hx), Bool.false_or]
      split <;> rfl
    · rw [if_neg hx, decide_eq_true hx]
      rfl

/-- Matching with the prepared index is matching without it. -/
theorem layout_indices_prepared (layout requested : List Label) :
    layout_indices layout requested (some (prepare_label_index layout)) =
      layout_indices layout requested := by
  have hsearch : requested.mapM (fun label => ((prepare_label_index layout).get? label).join) =
      if requested.any (fun label => layout.count label ≠ 1) then none
      else some (requested.map fun label => layout.idxOf label) := by
    simp only [get?_prepare_label_index]
    exact mapM_eq_ite (fun label => layout.count label = 1) _ requested
  unfold layout_indices
  dsimp -zeta only
  rw [hsearch]

/-! ## What an answer selects -/

/-- The positions of the labels that are asked for, in layout order. -/
theorem mem_occurrences {i : Nat} :
    i ∈ (layout.zipIdx.filter fun p => p.1 ∈ requested).map Prod.snd ↔
      ∃ label ∈ requested, layout[i]? = some label := by
  constructor
  · intro hi
    obtain ⟨⟨label, j⟩, hp, rfl⟩ := List.mem_map.mp hi
    obtain ⟨hp, hlabel⟩ := List.mem_filter.mp hp
    exact ⟨label, of_decide_eq_true hlabel, List.mem_zipIdx_iff_getElem?.mp hp⟩
  · rintro ⟨label, hlabel, hget⟩
    exact List.mem_map.mpr ⟨(label, i), List.mem_filter.mpr
      ⟨List.mem_zipIdx_iff_getElem?.mpr hget, decide_eq_true hlabel⟩, rfl⟩

/-- Reading the layout at those positions leaves out the other labels. -/
theorem map_occurrences (layout requested : List Label) :
    ((layout.zipIdx.filter fun p => p.1 ∈ requested).map Prod.snd).map
      (fun i => layout.getD i default) = layout.filter (· ∈ requested) := by
  have hread : ∀ p ∈ layout.zipIdx.filter (fun p => p.1 ∈ requested),
      layout.getD p.2 default = p.1 := by
    intro p hp
    have hget := List.mem_zipIdx_iff_getElem?.mp (List.mem_filter.mp hp).1
    rw [List.getD_eq_getElem?_getD, hget, Option.getD_some]
  calc ((layout.zipIdx.filter fun p => p.1 ∈ requested).map Prod.snd).map
        (fun i => layout.getD i default)
      = (layout.zipIdx.filter fun p => p.1 ∈ requested).map Prod.fst := by
        rw [List.map_map]
        exact List.map_congr_left hread
    _ = (layout.zipIdx.map Prod.fst).filter (· ∈ requested) := by
        rw [List.filter_map]
        rfl
    _ = layout.filter (· ∈ requested) := by
        rw [List.zipIdx_map_fst]

/-- The three ways a request is answered. -/
theorem layout_indices_cases (h : layout_indices layout requested = some indices) :
    (layout = requested ∧ indices = List.range layout.length) ∨
    (indices = (layout.zipIdx.filter fun p => p.1 ∈ requested).map Prod.snd ∧
      layout.filter (· ∈ requested) = requested) ∨
    (requested.Nodup ∧ (∀ label ∈ requested, layout.count label = 1) ∧
      indices = requested.map fun label => layout.idxOf label) := by
  unfold layout_indices at h
  split at h
  next hwhole => exact .inl ⟨hwhole, (Option.some.inj h).symm⟩
  split at h
  next => cases h
  split at h
  next =>
    dsimp only at h
    rw [map_occurrences] at h
    split at h
    next hfound => exact .inr (.inl ⟨(Option.some.inj h).symm, hfound⟩)
    next => cases h
  next hnodup =>
    dsimp only at h
    split at h
    next => cases h
    next honce =>
      refine .inr (.inr ⟨not_not.mp hnodup, fun label hlabel => ?_, (Option.some.inj h).symm⟩)
      by_contra hcount
      exact honce (List.any_eq_true.mpr ⟨label, hlabel, decide_eq_true hcount⟩)

theorem mem_of_count_eq_one {label : Label} (h : layout.count label = 1) : label ∈ layout :=
  List.count_pos_iff.mp (by omega)

/-- A label that occurs once occurs at one position. -/
theorem eq_idxOf_of_count_eq_one {label : Label} {j : Nat} (h : layout.count label = 1)
    (hj : layout[j]? = some label) : j = layout.idxOf label := by
  induction layout generalizing j with
  | nil => cases hj
  | cons first layout ih =>
    by_cases hfirst : first = label
    · subst hfirst
      rw [List.count_cons_self] at h
      rw [List.idxOf_cons_self]
      cases j with
      | zero => rfl
      | succ j =>
        rw [List.getElem?_cons_succ] at hj
        have hcount : layout.count first ≠ 0 :=
          (List.count_pos_iff.mpr (List.mem_of_getElem? hj)).ne'
        omega
    · rw [List.count_cons_of_ne hfirst] at h
      rw [List.idxOf_cons_ne _ hfirst]
      cases j with
      | zero =>
        rw [List.getElem?_cons_zero] at hj
        exact absurd (Option.some.inj hj) hfirst
      | succ j =>
        rw [List.getElem?_cons_succ] at hj
        rw [ih h hj]

/-- The indices stand for the requested labels, in their order. -/
theorem layout_indices_getElem? (h : layout_indices layout requested = some indices) :
    indices.map (layout[·]?) = requested.map some := by
  rcases layout_indices_cases h with ⟨rfl, rfl⟩ | ⟨rfl, hfound⟩ | ⟨-, honce, rfl⟩
  · refine List.ext_getElem? fun i => ?_
    rw [List.getElem?_map, List.getElem?_map]
    rcases Nat.lt_or_ge i layout.length with hlt | hge
    · rw [List.getElem?_range hlt, List.getElem?_eq_getElem hlt]
      exact congrArg some (List.getElem?_eq_getElem hlt)
    · rw [List.getElem?_eq_none hge, List.getElem?_eq_none (by rwa [List.length_range])]
      rfl
  · have hget : ∀ i ∈ (layout.zipIdx.filter fun p => p.1 ∈ requested).map Prod.snd,
        layout[i]? = some (layout.getD i default) := by
      intro i hi
      obtain ⟨label, -, hlabel⟩ := mem_occurrences.mp hi
      rw [List.getD_eq_getElem?_getD, hlabel, Option.getD_some]
    rw [List.map_congr_left hget]
    conv_rhs => rw [← hfound, ← map_occurrences]
    rw [List.map_map (f := fun i => layout.getD i default)]
    rfl
  · rw [List.map_map]
    refine List.map_congr_left fun label hlabel => ?_
    exact List.getElem?_idxOf (mem_of_count_eq_one (honce label hlabel))

theorem layout_indices_nodup (h : layout_indices layout requested = some indices) :
    indices.Nodup := by
  rcases layout_indices_cases h with ⟨-, rfl⟩ | ⟨rfl, -⟩ | ⟨hnodup, honce, rfl⟩
  · exact List.nodup_range
  · refine (List.filter_sublist.map Prod.snd).nodup ?_
    rw [List.zipIdx_map_snd]
    exact List.nodup_range'
  · refine List.Nodup.map_on ?_ hnodup
    intro label hlabel label' hlabel' hsame
    exact (List.idxOf_inj (mem_of_count_eq_one (honce label hlabel))).mp hsame

/-- Where one occurrence of a label is selected, all of them are. -/
theorem layout_indices_closed (h : layout_indices layout requested = some indices) {i j : Nat}
    (hi : i ∈ indices) (hj : j < layout.length) (hsame : layout[j]? = layout[i]?) :
    j ∈ indices := by
  rcases layout_indices_cases h with ⟨-, rfl⟩ | ⟨rfl, -⟩ | ⟨-, honce, rfl⟩
  · exact List.mem_range.mpr hj
  · obtain ⟨label, hlabel, hget⟩ := mem_occurrences.mp hi
    exact mem_occurrences.mpr ⟨label, hlabel, hsame.trans hget⟩
  · obtain ⟨label, hlabel, rfl⟩ := List.mem_map.mp hi
    have hcount := honce label hlabel
    rw [List.getElem?_idxOf (mem_of_count_eq_one hcount)] at hsame
    exact List.mem_map.mpr ⟨label, hlabel, (eq_idxOf_of_count_eq_one hcount hsame).symm⟩

/-- The positions are positions of the layout, whichever index was used. -/
theorem layout_indices_lt {table : Option (Dict Label (Option Nat))}
    (htable : table = none ∨ table = some (prepare_label_index layout))
    (h : layout_indices layout requested table = some indices) :
    ∀ i ∈ indices, i < layout.length := by
  have hplain : layout_indices layout requested = some indices := by
    rcases htable with rfl | rfl
    · exact h
    · exact (layout_indices_prepared layout requested).symm.trans h
  intro i hi
  have hget : layout[i]? ∈ requested.map some := by
    rw [← layout_indices_getElem? hplain]
    exact List.mem_map_of_mem hi
  obtain ⟨label, -, hlabel⟩ := List.mem_map.mp hget
  exact (List.getElem?_eq_some_iff.mp hlabel.symm).1

/-! ## What is refused -/

/-- None of the three kinds of request is refused. -/
theorem layout_indices_complete (hasked : requested ≠ [])
    (h : layout = requested ∨ (requested.Nodup ∧ ∀ label ∈ requested, layout.count label = 1) ∨
      (¬ requested.Nodup ∧ layout.filter (· ∈ requested) = requested)) :
    layout_indices layout requested ≠ none := by
  unfold layout_indices
  by_cases hwhole : layout = requested
  · rw [if_pos hwhole]
    exact Option.some_ne_none _
  rw [if_neg hwhole, if_neg hasked]
  rcases h with hwhole' | ⟨hnodup, honce⟩ | ⟨hrepeats, hfound⟩
  · exact absurd hwhole' hwhole
  · have hall : ¬ (requested.any fun label => layout.count label ≠ 1) = true := by
      intro hany
      obtain ⟨label, hlabel, hcount⟩ := List.any_eq_true.mp hany
      exact of_decide_eq_true hcount (honce label hlabel)
    rw [if_neg (not_not_intro hnodup)]
    dsimp only
    rw [if_neg hall]
    exact Option.some_ne_none _
  · rw [if_pos hrepeats]
    dsimp only
    rw [map_occurrences, if_pos hfound]
    exact Option.some_ne_none _

/-- Layout matching does not depend on the index; what it answers is exactly what was asked
for, at distinct positions and closed under equal labels; and it refuses no request for the
whole layout, for labels that occur once, or for all occurrences of labels that repeat. -/
theorem layout_matching (layout requested : List Label) (hasked : requested ≠ []) :
    layout_indices layout requested (some (prepare_label_index layout)) =
        layout_indices layout requested ∧
      (∀ indices, layout_indices layout requested = some indices →
        indices.Nodup ∧ indices.map (layout[·]?) = requested.map some ∧
        ∀ i ∈ indices, ∀ j < layout.length, layout[j]? = layout[i]? → j ∈ indices) ∧
      (layout_indices layout requested = none →
        requested ≠ layout ∧
        ¬ (requested.Nodup ∧ ∀ label ∈ requested, layout.count label = 1) ∧
        ¬ (¬ requested.Nodup ∧ requested = layout.filter (· ∈ requested))) := by
  refine ⟨layout_indices_prepared layout requested, fun indices h => ?_, fun hrefused => ?_⟩
  · exact ⟨layout_indices_nodup h, layout_indices_getElem? h,
      fun i hi j hj hsame => layout_indices_closed h hi hj hsame⟩
  · refine ⟨fun hwhole => ?_, fun honce => ?_, fun ⟨hrepeats, hfound⟩ => ?_⟩
    · exact layout_indices_complete hasked (.inl hwhole.symm) hrefused
    · exact layout_indices_complete hasked (.inr (.inl honce)) hrefused
    · exact layout_indices_complete hasked (.inr (.inr ⟨hrepeats, hfound.symm⟩)) hrefused

/-- A request for all occurrences of a repeated label. -/
theorem layout_matching_repeated_label :
    [(⟨"swa", none⟩ : Label), ⟨"swa", none⟩] ≠ [] ∧
      layout_indices [⟨"", none⟩, ⟨"swa", some "a"⟩, ⟨"swa", none⟩, ⟨"swa", none⟩]
        [⟨"swa", none⟩, ⟨"swa", none⟩]
        (some (prepare_label_index [⟨"", none⟩, ⟨"swa", some "a"⟩, ⟨"swa", none⟩, ⟨"swa", none⟩])) =
        some [2, 3] :=
  ⟨List.cons_ne_nil _ _,
    (layout_matching _ [⟨"swa", none⟩, ⟨"swa", none⟩] (List.cons_ne_nil _ _)).1.trans (by decide)⟩

end Kvcr
