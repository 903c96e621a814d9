/-
Collections that remember their insertion order and hold nothing twice.

`OrderedSet` and `Dict` are what a dictionary with insertion order is to the
proofs: lists whose keys are pairwise distinct, the distinctness being a field,
so that no caller ever proves it again. Assigning to a key that is present keeps
its place, a new key goes to the end, removing a key keeps the order of the rest.

A sum or a concatenation over the entries is what an accounting invariant is made
of, and it must not care about the order. Two permutations carry all of that:
`Dict.perm_of_get?` takes one present entry out in front, `Dict.perm_set` says
that after an assignment the assigned entry can be taken out in front and what
remains is what removing the key would have left.
-/
import Mathlib.Algebra.Order.Ring.Nat
import Mathlib.Data.List.Basic
import Mathlib.Data.List.Dedup
import Mathlib.Data.List.Perm.Basic

set_option autoImplicit false

/-! ## Sets -/

/-- A list without duplicates. -/
structure OrderedSet (α : Type) where
  elems : List α
  nodup : elems.Nodup

namespace OrderedSet

variable {α : Type}

def empty : OrderedSet α := ⟨[], List.nodup_nil⟩

instance : Inhabited (OrderedSet α) := ⟨empty⟩

instance : Membership α (OrderedSet α) := ⟨fun s x => x ∈ s.elems⟩

theorem mem_def {x : α} {s : OrderedSet α} : x ∈ s ↔ x ∈ s.elems := Iff.rfl

@[simp] theorem notMem_empty (x : α) : x ∉ (empty : OrderedSet α) := by
  simp [mem_def, empty]

@[ext] theorem ext_elems {s s' : OrderedSet α} (h : s.elems = s'.elems) : s = s' := by
  cases s; cases s'; simp_all

/-- Keep the elements that satisfy `p`. -/
def filter (s : OrderedSet α) (p : α → Bool) : OrderedSet α :=
  ⟨s.elems.filter p, s.nodup.filter p⟩

@[simp] theorem mem_filter {s : OrderedSet α} {p : α → Bool} {x : α} :
    x ∈ s.filter p ↔ x ∈ s ∧ p x = true := by
  simp [filter, mem_def]

variable [DecidableEq α]

instance (x : α) (s : OrderedSet α) : Decidable (x ∈ s) :=
  inferInstanceAs (Decidable (x ∈ s.elems))

instance : DecidableEq (OrderedSet α) := fun s s' =>
  decidable_of_iff (s.elems = s'.elems) ⟨ext_elems, fun h => h ▸ rfl⟩

/-- Add `x` at the end unless it is there. -/
def insert (s : OrderedSet α) (x : α) : OrderedSet α :=
  if h : x ∈ s.elems then s
  else ⟨s.elems ++ [x], by
    refine List.nodup_append.mpr ⟨s.nodup, List.nodup_singleton x, ?_⟩
    intro a ha b hb hab
    rw [List.mem_singleton] at hb
    rw [hab, hb] at ha
    exact h ha⟩

/-- Drop `x`. -/
def erase (s : OrderedSet α) (x : α) : OrderedSet α :=
  ⟨s.elems.filter (fun y => decide (y ≠ x)), s.nodup.filter _⟩

/-- The elements of a list, each once. -/
def ofList (xs : List α) : OrderedSet α := xs.foldl insert empty

@[simp] theorem mem_insert {s : OrderedSet α} {x y : α} :
    y ∈ s.insert x ↔ y = x ∨ y ∈ s := by
  unfold insert
  split
  · rename_i hx
    simp only [mem_def]
    exact ⟨Or.inr, fun h => h.elim (fun e => e ▸ hx) id⟩
  · simp only [mem_def, List.mem_append, List.mem_singleton]
    tauto

theorem insert_elems {s : OrderedSet α} {x : α} (h : x ∉ s) :
    (s.insert x).elems = s.elems ++ [x] := by
  unfold insert
  rw [dif_neg (show x ∉ s.elems from h)]

@[simp] theorem mem_erase {s : OrderedSet α} {x y : α} :
    y ∈ s.erase x ↔ y ∈ s ∧ y ≠ x := by
  simp [erase, mem_def]

theorem mem_foldl_insert (xs : List α) (s : OrderedSet α) (x : α) :
    x ∈ xs.foldl insert s ↔ x ∈ s ∨ x ∈ xs := by
  induction xs generalizing s with
  | nil => simp
  | cons y ys ih =>
    rw [List.foldl_cons, ih, mem_insert, List.mem_cons]
    tauto

@[simp] theorem mem_ofList {xs : List α} {x : α} : x ∈ ofList xs ↔ x ∈ xs := by
  rw [ofList, mem_foldl_insert]
  simp

end OrderedSet

/-! ## Dictionaries -/

/-- Entries with pairwise distinct keys. -/
structure Dict (κ α : Type) where
  entries : List (κ × α)
  nodup : (entries.map Prod.fst).Nodup

namespace Dict

variable {κ α : Type}

def empty : Dict κ α := ⟨[], List.nodup_nil⟩

instance : Inhabited (Dict κ α) := ⟨empty⟩

/-- The keys, in order. -/
def keys (d : Dict κ α) : List κ := d.entries.map Prod.fst

/-- The values, in order. -/
def values (d : Dict κ α) : List α := d.entries.map Prod.snd

/-- Change or drop the values, keeping the keys' order. -/
def filterMap {β : Type} (d : Dict κ α) (f : α → Option β) : Dict κ β :=
  ⟨d.entries.filterMap fun p => (f p.2).map fun v => (p.1, v), by
    refine d.nodup.sublist ?_
    rw [List.map_filterMap]
    have hkeys : (fun p : κ × α => ((f p.2).map fun v => (p.1, v)).map Prod.fst) =
        fun p => ((f p.2).map fun _ => p.1) := by
      funext p
      cases f p.2 <;> rfl
    rw [hkeys]
    induction d.entries with
    | nil => exact List.Sublist.slnil
    | cons p l ih =>
      rw [List.filterMap_cons]
      cases f p.2 with
      | none => exact ih.cons p.1
      | some v => exact ih.cons_cons p.1⟩

variable [DecidableEq κ]

/-- `d.get(k)`. -/
def get? (d : Dict κ α) (k : κ) : Option α :=
  (d.entries.find? fun p => decide (p.1 = k)).map Prod.snd

/-- `k in d`. -/
def contains (d : Dict κ α) (k : κ) : Bool := (d.get? k).isSome

/-- `d.pop(k, None)`, the rest. -/
def erase (d : Dict κ α) (k : κ) : Dict κ α :=
  ⟨d.entries.filter fun p => decide (p.1 ≠ k), by
    refine d.nodup.sublist ?_
    exact List.Sublist.map _ List.filter_sublist⟩

/-- The entries with the value at `k` replaced. -/
def assign (k : κ) (v : α) (l : List (κ × α)) : List (κ × α) :=
  l.map fun p => if p.1 = k then (k, v) else p

theorem assign_keys (k : κ) (v : α) (l : List (κ × α)) :
    (assign k v l).map Prod.fst = l.map Prod.fst := by
  rw [assign, List.map_map]
  refine List.map_congr_left ?_
  intro p _
  simp only [Function.comp]
  split
  · simp_all
  · rfl

/-- `d[k] = v`. -/
def set (d : Dict κ α) (k : κ) (v : α) : Dict κ α :=
  if h : k ∈ d.entries.map Prod.fst then
    ⟨assign k v d.entries, by rw [assign_keys]; exact d.nodup⟩
  else
    ⟨d.entries ++ [(k, v)], by
      rw [List.map_append]
      refine List.nodup_append.mpr ⟨d.nodup, List.nodup_singleton k, ?_⟩
      intro a ha b hb hab
      rw [List.map_cons, List.map_nil, List.mem_singleton] at hb
      rw [hab, hb] at ha
      exact h ha⟩

theorem get?_eq_some {d : Dict κ α} {k : κ} {v : α} :
    d.get? k = some v ↔ (k, v) ∈ d.entries := by
  obtain ⟨l, hl⟩ := d
  simp only [get?]
  induction l with
  | nil => simp
  | cons p l ih =>
    rw [List.map_cons, List.nodup_cons] at hl
    rw [List.find?_cons]
    by_cases hp : p.1 = k
    · simp only [hp, decide_true, Option.map_some, Option.some.injEq, List.mem_cons]
      constructor
      · rintro rfl
        exact Or.inl (by rw [← hp])
      · rintro (h | h)
        · rw [← h]
        · exact absurd (List.mem_map_of_mem h) (hp ▸ hl.1)
    · simp only [hp, decide_false, List.mem_cons]
      rw [ih hl.2]
      constructor
      · exact Or.inr
      · rintro (h | h)
        · exact absurd (by rw [← h]) hp
        · exact h

theorem get?_eq_none {d : Dict κ α} {k : κ} : d.get? k = none ↔ k ∉ d.keys := by
  constructor
  · intro h hk
    obtain ⟨⟨k', v⟩, hv, rfl⟩ := List.mem_map.mp hk
    rw [get?_eq_some.mpr hv] at h
    exact absurd h (by simp)
  · intro h
    cases hv : d.get? k with
    | none => rfl
    | some v =>
      exact absurd (List.mem_map_of_mem (f := Prod.fst) (get?_eq_some.mp hv)) h

theorem mem_keys {d : Dict κ α} {k : κ} : k ∈ d.keys ↔ ∃ v, d.get? k = some v := by
  rw [← Option.isSome_iff_exists, ← not_iff_not, Option.not_isSome_iff_eq_none,
    get?_eq_none]

theorem get?_filterMap {β : Type} (d : Dict κ α) (f : α → Option β) (k : κ) :
    (d.filterMap f).get? k = (d.get? k).bind f := by
  refine Option.ext fun v => ?_
  rw [get?_eq_some, Option.bind_eq_some_iff]
  constructor
  · intro hmem
    obtain ⟨⟨k', a⟩, ha, hv⟩ := List.mem_filterMap.mp hmem
    obtain ⟨v', hv', heq⟩ := Option.map_eq_some_iff.mp hv
    obtain ⟨rfl, rfl⟩ := Prod.mk.inj heq
    exact ⟨a, get?_eq_some.mpr ha, hv'⟩
  · rintro ⟨a, ha, hv⟩
    refine List.mem_filterMap.mpr ⟨(k, a), get?_eq_some.mp ha, ?_⟩
    rw [hv, Option.map_some]

/-- Dictionaries whose entries look the same give answers that look the same. -/
theorem map_get?_eq {β : Type} {d d' : Dict κ α} {f : α → β}
    (h : (d.entries.map fun p => (p.1, f p.2)) = d'.entries.map fun p => (p.1, f p.2)) (k : κ) :
    (d.get? k).map f = (d'.get? k).map f := by
  have hmem : ∀ {d : Dict κ α} {v : β}, (d.get? k).map f = some v ↔
      (k, v) ∈ d.entries.map fun p => (p.1, f p.2) := by
    intro d v
    rw [Option.map_eq_some_iff, List.mem_map]
    constructor
    · rintro ⟨a, ha, rfl⟩
      exact ⟨(k, a), get?_eq_some.mp ha, rfl⟩
    · rintro ⟨⟨k', a⟩, ha, heq⟩
      obtain ⟨rfl, rfl⟩ := Prod.mk.inj heq
      exact ⟨a, get?_eq_some.mpr ha, rfl⟩
  exact Option.ext fun v => by rw [hmem, hmem, h]

@[simp] theorem get?_empty (k : κ) : (empty : Dict κ α).get? k = none := rfl

theorem get?_erase (d : Dict κ α) (k k' : κ) :
    (d.erase k).get? k' = if k' = k then none else d.get? k' := by
  apply Option.ext
  intro v
  rw [get?_eq_some]
  split
  · rename_i h
    simp [erase, h]
  · rename_i h
    rw [get?_eq_some]
    simp [erase, h]

@[simp] theorem get?_erase_self (d : Dict κ α) (k : κ) : (d.erase k).get? k = none := by
  rw [get?_erase, if_pos rfl]

theorem get?_erase_ne (d : Dict κ α) {k k' : κ} (h : k' ≠ k) :
    (d.erase k).get? k' = d.get? k' := by
  rw [get?_erase, if_neg h]

theorem get?_set (d : Dict κ α) (k : κ) (v : α) (k' : κ) :
    (d.set k v).get? k' = if k' = k then some v else d.get? k' := by
  apply Option.ext
  intro w
  rw [get?_eq_some]
  unfold set
  split
  · -- the key was there: its entry is rewritten in place
    rename_i hk
    simp only [assign, List.mem_map]
    obtain ⟨⟨k₀, v₀⟩, hv₀, rfl⟩ := List.mem_map.mp hk
    split
    · rename_i h
      subst h
      constructor
      · rintro ⟨p, hp, hpw⟩
        split at hpw
        · simp_all
        · rename_i hne
          exact absurd (by rw [hpw]) hne
      · intro h
        rw [Option.some.injEq] at h
        exact ⟨(k', v₀), hv₀, by simp [h]⟩
    · rename_i h
      rw [get?_eq_some]
      constructor
      · rintro ⟨p, hp, hpw⟩
        split at hpw
        · exact absurd (by rw [Prod.mk.injEq] at hpw; exact hpw.1.symm) h
        · rw [← hpw]; exact hp
      · intro hw
        exact ⟨(k', w), hw, by rw [if_neg h]⟩
  · rename_i hk
    simp only [List.mem_append, List.mem_singleton]
    split
    · rename_i h
      subst h
      constructor
      · rintro (hw | hw)
        · exact absurd (List.mem_map_of_mem (f := Prod.fst) hw) hk
        · rw [Prod.mk.injEq] at hw
          rw [hw.2]
      · intro hw
        rw [Option.some.injEq] at hw
        exact Or.inr (by rw [hw])
    · rename_i h
      rw [get?_eq_some]
      constructor
      · rintro (hw | hw)
        · exact hw
        · rw [Prod.mk.injEq] at hw
          exact absurd hw.1 h
      · exact Or.inl

@[simp] theorem get?_set_self (d : Dict κ α) (k : κ) (v : α) :
    (d.set k v).get? k = some v := by
  rw [get?_set, if_pos rfl]

theorem get?_set_ne (d : Dict κ α) {k k' : κ} (v : α) (h : k' ≠ k) :
    (d.set k v).get? k' = d.get? k' := by
  rw [get?_set, if_neg h]

/-- A new key goes to the end. -/
theorem entries_set_of_notMem {d : Dict κ α} {k : κ} (h : k ∉ d.keys) (v : α) :
    (d.set k v).entries = d.entries ++ [(k, v)] := by
  unfold set
  rw [dif_neg (show k ∉ d.entries.map Prod.fst from h)]

/-- A value after an assignment is the new one or an old one. -/
theorem mem_values_set {d : Dict κ α} {k : κ} {v w : α} (h : w ∈ (d.set k v).values) :
    w = v ∨ w ∈ d.values := by
  unfold values set at h
  split at h
  · obtain ⟨p, hp, rfl⟩ := List.mem_map.mp h
    obtain ⟨q, hq, rfl⟩ := List.mem_map.mp hp
    split
    · exact .inl rfl
    · exact .inr (List.mem_map_of_mem hq)
  · rw [List.map_append] at h
    rcases List.mem_append.mp h with h | h
    · exact .inr h
    · exact .inl (List.mem_singleton.mp h)

/-- A present entry can be taken out in front. -/
theorem perm_of_get? {d : Dict κ α} {k : κ} {v : α} (h : d.get? k = some v) :
    d.entries.Perm ((k, v) :: (d.erase k).entries) := by
  refine (List.perm_ext_iff_of_nodup d.nodup.of_map ?_).mpr ?_
  · refine List.nodup_cons.mpr ⟨?_, (d.erase k).nodup.of_map⟩
    simp [erase]
  · rintro ⟨k', v'⟩
    rw [List.mem_cons, ← get?_eq_some, ← get?_eq_some, get?_erase]
    by_cases hk : k' = k
    · subst hk
      simp only [h, Option.some.injEq, Prod.mk.injEq, true_and, if_true, reduceCtorEq,
        or_false]
      exact eq_comm
    · simp [hk]

/-- After an assignment the assigned entry can be taken out in front. -/
theorem perm_set (d : Dict κ α) (k : κ) (v : α) :
    (d.set k v).entries.Perm ((k, v) :: (d.erase k).entries) := by
  refine (perm_of_get? (get?_set_self d k v)).trans ?_
  refine List.Perm.cons _ ?_
  refine (List.perm_ext_iff_of_nodup ((d.set k v).erase k).nodup.of_map
    (d.erase k).nodup.of_map).mpr ?_
  rintro ⟨k', v'⟩
  rw [← get?_eq_some, ← get?_eq_some, get?_erase, get?_erase, get?_set]
  by_cases hk : k' = k <;> simp [hk]

theorem length_set_le (d : Dict κ α) (k : κ) (v : α) :
    (d.set k v).entries.length ≤ d.entries.length + 1 := by
  rw [(perm_set d k v).length_eq, List.length_cons]
  exact Nat.succ_le_succ (List.length_filter_le _ _)

end Dict
