/-
Ranges of an address space, and copying between them.

An image says what is at every address of every device. A transfer takes two lists of
ranges and copies the first of one to the first of the other, and so on; here it does so
one after the other. What it is used for is that the order does not matter: if the
destinations are apart from each other and from the sources, every destination ends up
with what its source had before, and every range apart from the destinations keeps what
it had. Cutting a range into chunks and reading the chunks in order is reading the range.
-/
import Mathlib.Algebra.Order.Ring.Nat
import Mathlib.Data.List.Basic

set_option autoImplicit false

/-- `size` addresses of a device, from `addr` on. -/
structure Range (δ : Type) where
  device : δ
  addr : Nat
  size : Nat
deriving DecidableEq

/-- What is at every address. -/
abbrev Image (δ β : Type) := δ → Nat → β

namespace Range

variable {δ β : Type}

/-- What a range holds, in order. -/
def read (b : Image δ β) (r : Range δ) : List β :=
  (List.range r.size).map fun i => b r.device (r.addr + i)

/-- The two share no address. -/
def Apart (r r' : Range δ) : Prop :=
  r.device = r'.device → r.addr + r.size ≤ r'.addr ∨ r'.addr + r'.size ≤ r.addr

theorem Apart.symm {r r' : Range δ} (h : r.Apart r') : r'.Apart r :=
  fun hdevice => (h hdevice.symm).symm

/-- Ranges of one device that differ only in being split hold the same. -/
theorem read_split (b : Image δ β) (device : δ) (addr m n : Nat) :
    read b ⟨device, addr, m + n⟩ = read b ⟨device, addr, m⟩ ++ read b ⟨device, addr + m, n⟩ := by
  unfold read
  dsimp only
  rw [List.range_add, List.map_append, List.map_map]
  congr 1
  refine List.map_congr_left fun i _ => ?_
  rw [Function.comp_apply, Nat.add_assoc]

/-- `n` chunks of `k` addresses each. -/
def chunks (r : Range δ) (n k : Nat) : List (Range δ) :=
  (List.range n).map fun i => ⟨r.device, r.addr + i * k, k⟩

theorem read_chunks (b : Image δ β) {r : Range δ} {n k : Nat} (hsize : r.size = n * k) :
    (r.chunks n k).flatMap (read b) = r.read b := by
  obtain ⟨device, addr, size⟩ := r
  dsimp only at hsize
  subst hsize
  unfold chunks
  induction n with
  | zero =>
    rw [Nat.zero_mul]
    rfl
  | succ n ih =>
    rw [Nat.succ_mul, read_split, ← ih, List.range_succ, List.map_append, List.flatMap_append]
    simp

/-- A chunk is apart from what the whole range is apart from. -/
theorem Apart.chunk {r r' c : Range δ} {n k : Nat} (h : r.Apart r') (hsize : r.size = n * k)
    (hc : c ∈ r.chunks n k) : c.Apart r' := by
  obtain ⟨i, hi, rfl⟩ := List.mem_map.mp hc
  rw [List.mem_range] at hi
  intro hdevice
  have hle : (i + 1) * k ≤ n * k := Nat.mul_le_mul_right k hi
  have hsucc : (i + 1) * k = i * k + k := Nat.succ_mul i k
  dsimp only at hdevice ⊢
  rcases h hdevice with h | h
  · left
    omega
  · right
    omega

/-- The chunks of one range are apart from each other. -/
theorem pairwise_chunks (r : Range δ) (n k : Nat) : (r.chunks n k).Pairwise Apart := by
  unfold chunks
  refine List.pairwise_map.mpr (List.pairwise_lt_range.imp ?_)
  intro i j hij _
  left
  have hle : (i + 1) * k ≤ j * k := Nat.mul_le_mul_right k hij
  have hsucc : (i + 1) * k = i * k + k := Nat.succ_mul i k
  dsimp only
  omega

/-! ## Tilings -/

/-- The ranges lie one behind the other from `start` to `stop`. -/
def Tiles (device : δ) (stop : Nat) : Nat → List (Range δ) → Prop
  | start, [] => start = stop
  | start, r :: rs => r.device = device ∧ r.addr = start ∧ Tiles device stop (start + r.size) rs

section Tiles

variable {device : δ} {start stop : Nat} {rs : List (Range δ)}

theorem Tiles.bounds (h : Tiles device stop start rs) :
    start ≤ stop ∧ ∀ r ∈ rs, r.device = device ∧ start ≤ r.addr ∧ r.addr + r.size ≤ stop := by
  induction rs generalizing start with
  | nil => exact ⟨Nat.le_of_eq h, fun r hr => absurd hr List.not_mem_nil⟩
  | cons first rs ih =>
    obtain ⟨hdevice, haddr, hrest⟩ := h
    obtain ⟨hle, hbounds⟩ := ih hrest
    refine ⟨by omega, fun r hr => ?_⟩
    rcases List.mem_cons.mp hr with rfl | hr
    · exact ⟨hdevice, by omega, by omega⟩
    · obtain ⟨hr, hlow, hhigh⟩ := hbounds r hr
      exact ⟨hr, by omega, hhigh⟩

/-- No two ranges of a tiling share an address; each ends where a later one can start. -/
theorem Tiles.ordered (h : Tiles device stop start rs) :
    rs.Pairwise fun r r' => r.addr + r.size ≤ r'.addr := by
  induction rs generalizing start with
  | nil => exact List.Pairwise.nil
  | cons first rs ih =>
    obtain ⟨-, haddr, hrest⟩ := h
    refine List.pairwise_cons.mpr ⟨fun r hr => ?_, ih hrest⟩
    have hlow := (hrest.bounds.2 r hr).2.1
    omega

theorem Tiles.pairwise (h : Tiles device stop start rs) : rs.Pairwise Apart :=
  h.ordered.imp fun hle _ => .inl hle

/-- Every address between the ends is in one of the ranges. -/
theorem Tiles.covers (h : Tiles device stop start rs) {addr : Nat} (hlow : start ≤ addr)
    (hhigh : addr < stop) : ∃ r ∈ rs, r.addr ≤ addr ∧ addr < r.addr + r.size := by
  induction rs generalizing start with
  | nil =>
    have hend : start = stop := h
    omega
  | cons first rs ih =>
    obtain ⟨-, haddr, hrest⟩ := h
    by_cases hin : addr < start + first.size
    · exact ⟨first, List.mem_cons_self, by omega, by omega⟩
    · obtain ⟨r, hr, hbounds⟩ := ih hrest (by omega)
      exact ⟨r, List.mem_cons_of_mem first hr, hbounds⟩

end Tiles

/-! ## Copying -/

variable [DecidableEq δ]

/-- Copy the first range to the second. -/
def copy (b : Image δ β) (p : Range δ × Range δ) : Image δ β := fun device addr =>
  if device = p.2.device ∧ p.2.addr ≤ addr ∧ addr < p.2.addr + p.2.size then
    b p.1.device (p.1.addr + (addr - p.2.addr))
  else b device addr

/-- Copy each range to the one at its place in the other list. -/
def transfer (source target : List (Range δ)) (b : Image δ β) : Image δ β :=
  (source.zip target).foldl copy b

theorem read_copy_self (b : Image δ β) {p : Range δ × Range δ} (hsize : p.1.size = p.2.size) :
    p.2.read (copy b p) = p.1.read b := by
  unfold read
  rw [hsize]
  refine List.map_congr_left fun i hi => ?_
  rw [List.mem_range] at hi
  unfold copy
  rw [if_pos ⟨rfl, Nat.le_add_right _ _, Nat.add_lt_add_left hi _⟩, Nat.add_sub_cancel_left]

theorem read_copy_apart (b : Image δ β) {p : Range δ × Range δ} {r : Range δ} (h : r.Apart p.2) :
    r.read (copy b p) = r.read b := by
  unfold read
  refine List.map_congr_left fun i hi => ?_
  rw [List.mem_range] at hi
  unfold copy
  rw [if_neg]
  rintro ⟨hdevice, hlow, hhigh⟩
  rcases h hdevice with h | h <;> omega

theorem read_foldl_copy_apart (b : Image δ β) {ps : List (Range δ × Range δ)} {r : Range δ}
    (h : ∀ p ∈ ps, r.Apart p.2) : r.read (ps.foldl copy b) = r.read b := by
  induction ps generalizing b with
  | nil => rfl
  | cons p ps ih =>
    rw [List.foldl_cons, ih _ fun q hq => h q (List.mem_cons_of_mem _ hq),
      read_copy_apart b (h p List.mem_cons_self)]

theorem read_foldl_copy (b : Image δ β) {ps : List (Range δ × Range δ)}
    (hsize : ∀ p ∈ ps, p.1.size = p.2.size) (htarget : (ps.map Prod.snd).Pairwise Apart)
    (hsource : ∀ p ∈ ps, ∀ q ∈ ps, p.1.Apart q.2) :
    ps.map (fun p => p.2.read (ps.foldl copy b)) = ps.map fun p => p.1.read b := by
  induction ps generalizing b with
  | nil => rfl
  | cons p ps ih =>
    rw [List.map_cons, List.pairwise_cons] at htarget
    rw [List.map_cons, List.map_cons, List.foldl_cons]
    -- the first destination keeps what it got; the other sources are as they were
    have hfirst : p.2.read (ps.foldl copy (copy b p)) = p.1.read b := by
      rw [read_foldl_copy_apart, read_copy_self b (hsize p List.mem_cons_self)]
      exact fun q hq => htarget.1 _ (List.mem_map_of_mem hq)
    have hrest := ih (copy b p) (fun q hq => hsize q (List.mem_cons_of_mem _ hq)) htarget.2
      fun q hq q' hq' => hsource q (List.mem_cons_of_mem _ hq) q' (List.mem_cons_of_mem _ hq')
    rw [hfirst, hrest]
    congr 1
    refine List.map_congr_left fun q hq => ?_
    exact read_copy_apart b (hsource q (List.mem_cons_of_mem _ hq) p List.mem_cons_self)

variable {source target : List (Range δ)}

/-- Every destination gets what its source had. -/
theorem map_read_transfer (b : Image δ β) (hsizes : source.map size = target.map size)
    (htarget : target.Pairwise Apart) (hsource : ∀ r ∈ source, ∀ r' ∈ target, r.Apart r') :
    target.map (read (transfer source target b)) = source.map (read b) := by
  have hlength : source.length = target.length := by
    simpa using congrArg List.length hsizes
  have hfst : (source.zip target).map Prod.fst = source := List.map_fst_zip (Nat.le_of_eq hlength)
  have hsnd : (source.zip target).map Prod.snd = target :=
    List.map_snd_zip (Nat.le_of_eq hlength.symm)
  have hboth : ∀ {γ : Type} (f : Range δ → γ),
      (source.zip target).map (fun p => f p.1) = source.map f ∧
      (source.zip target).map (fun p => f p.2) = target.map f := by
    intro γ f
    have hcomp := fun (g : Range δ × Range δ → Range δ) =>
      (List.map_map (f := g) (g := f) (l := source.zip target)).symm
    exact ⟨(hcomp Prod.fst).trans (by rw [hfst]), (hcomp Prod.snd).trans (by rw [hsnd])⟩
  have hsize : ∀ p ∈ source.zip target, p.1.size = p.2.size := by
    refine List.map_inj_left.mp ?_
    rw [(hboth size).1, (hboth size).2, hsizes]
  have hread := read_foldl_copy b hsize (by rw [hsnd]; exact htarget)
    fun p hp q hq => hsource p.1 (List.of_mem_zip hp).1 q.2 (List.of_mem_zip hq).2
  rwa [(hboth (read b)).1, (hboth (read _)).2] at hread

/-- What is apart from the destinations stays. -/
theorem read_transfer_apart (b : Image δ β) {r : Range δ} (h : ∀ r' ∈ target, r.Apart r') :
    r.read (transfer source target b) = r.read b :=
  read_foldl_copy_apart b fun _ hp => h _ (List.of_mem_zip hp).2

theorem transfer_append (b : Image δ β) {source' target' : List (Range δ)}
    (hlength : source.length = target.length) :
    transfer (source ++ source') (target ++ target') b =
      transfer source' target' (transfer source target b) := by
  unfold transfer
  rw [List.zip_append hlength, List.foldl_append]

/-- The middle of a transfer arrives if nothing after it writes over it. -/
theorem map_read_transfer_middle (b : Image δ β) {before after before' after' : List (Range δ)}
    (hlength : before.length = before'.length) (hsizes : source.map size = target.map size)
    (htarget : target.Pairwise Apart)
    (hsource : ∀ r ∈ source, ∀ r' ∈ before' ++ target, r.Apart r')
    (hafter : ∀ r ∈ target, ∀ r' ∈ after', r.Apart r') :
    target.map (read (transfer (before ++ (source ++ after)) (before' ++ (target ++ after')) b)) =
      source.map (read b) := by
  have hmiddle : source.length = target.length := by simpa using congrArg List.length hsizes
  rw [transfer_append b hlength, transfer_append _ hmiddle]
  calc
    target.map (read (transfer after after' (transfer source target (transfer before before' b))))
      = target.map (read (transfer source target (transfer before before' b))) :=
        List.map_congr_left fun r hr => read_transfer_apart _ (hafter r hr)
    _ = source.map (read (transfer before before' b)) :=
        map_read_transfer _ hsizes htarget fun r hr r' hr' =>
          hsource r hr r' (List.mem_append_right _ hr')
    _ = source.map (read b) :=
        List.map_congr_left fun r hr => read_transfer_apart b fun r' hr' =>
          hsource r hr r' (List.mem_append_left _ hr')

end Range
