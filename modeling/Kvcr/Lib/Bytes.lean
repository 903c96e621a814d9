/-
Byte strings as a file holds them: little-endian numbers, and the two ways a file
changes, by truncation and by assigning a slice.

A file that is made longer reads as zero bytes where nothing was written. A slice is
assigned inside the file, so it never changes the file's length; what lies outside the
slice stays. The lemmas below are the readings a parser makes of such a file: a range
that an assignment did not touch, a range that it covered, and the front of a file that
was cut or extended. A writer is the list of its steps, and what holds wherever it may
stop is proved step by step.
-/
import Mathlib.Algebra.Order.Ring.Nat
import Mathlib.Data.List.Basic

set_option autoImplicit false

namespace Bytes

/-! ## Little-endian numbers -/

/-- `n` in `k` bytes. -/
def pack_le : Nat → Nat → List UInt8
  | 0, _ => []
  | k + 1, n => UInt8.ofNat (n % 256) :: pack_le k (n / 256)

/-- The number some bytes stand for. -/
def unpack_le : List UInt8 → Nat
  | [] => 0
  | b :: bs => b.toNat + 256 * unpack_le bs

@[simp] theorem length_pack_le (k n : Nat) : (pack_le k n).length = k := by
  induction k generalizing n with
  | zero => rfl
  | succ k ih => rw [pack_le, List.length_cons, ih]

theorem unpack_pack_le {k n : Nat} (hn : n < 256 ^ k) : unpack_le (pack_le k n) = n := by
  induction k generalizing n with
  | zero =>
    rw [Nat.pow_zero, Nat.lt_one_iff] at hn
    rw [hn]
    rfl
  | succ k ih =>
    have hdiv : n / 256 < 256 ^ k := Nat.div_lt_of_lt_mul (by rwa [Nat.pow_succ'] at hn)
    have hlow : (UInt8.ofNat (n % 256)).toNat = n % 256 := by
      rw [UInt8.toNat_ofNat']
      omega
    rw [pack_le, unpack_le, ih hdiv, hlow]
    omega

theorem unpack_le_zeros (k : Nat) : unpack_le (List.replicate k 0) = 0 := by
  induction k with
  | zero => rfl
  | succ k ih =>
    rw [List.replicate_succ, unpack_le, ih]
    rfl

/-! ## Files -/

/-- `ftruncate`: the first `size` bytes, extended by zeros. -/
def truncate (size : Nat) (file : List UInt8) : List UInt8 :=
  file.take size ++ List.replicate (size - file.length) 0

/-- `file[start : start + len(bytes)] = bytes`. -/
def assign (start : Nat) (bytes file : List UInt8) : List UInt8 :=
  file.take start ++ bytes ++ file.drop (start + bytes.length)

@[simp] theorem length_truncate (size : Nat) (file : List UInt8) :
    (truncate size file).length = size := by
  rw [truncate, List.length_append, List.length_take, List.length_replicate]
  omega

@[simp] theorem truncate_zero (file : List UInt8) : truncate 0 file = [] := by
  rw [truncate, List.take_zero, Nat.zero_sub, List.replicate_zero, List.nil_append]

/-- Cutting or extending keeps what lies in front of both ends. -/
theorem take_truncate {size n : Nat} {file : List UInt8} (hsize : n ≤ size)
    (hfile : n ≤ file.length) : (truncate size file).take n = file.take n := by
  rw [truncate, List.take_append_of_le_length (by rw [List.length_take]; omega),
    List.take_take, Nat.min_eq_left hsize]

/-- The same for a range that does not start at the front. -/
theorem slice_truncate {size start n : Nat} {file : List UInt8} (hsize : start + n ≤ size)
    (hfile : start + n ≤ file.length) :
    ((truncate size file).drop start).take n = (file.drop start).take n := by
  have hslice (l : List UInt8) : (l.drop start).take n = (l.take (start + n)).drop start := by
    rw [List.drop_take, Nat.add_sub_cancel_left]
  rw [hslice, take_truncate hsize hfile, ← hslice]

/-- An empty file is extended by zeros only. -/
theorem truncate_nil (size : Nat) : truncate size [] = List.replicate size 0 := by
  rw [truncate, List.take_nil, List.nil_append, List.length_nil, Nat.sub_zero]

theorem length_assign {start : Nat} {bytes file : List UInt8}
    (hfits : start + bytes.length ≤ file.length) :
    (assign start bytes file).length = file.length := by
  rw [assign, List.length_append, List.length_append, List.length_take, List.length_drop]
  omega

/-- From where it was assigned on, a file reads as what was assigned and then the rest. -/
theorem drop_assign {start : Nat} {bytes file : List UInt8} (hstart : start ≤ file.length) :
    (assign start bytes file).drop start = bytes ++ file.drop (start + bytes.length) := by
  have hfront : (file.take start).length = start := by
    rw [List.length_take]
    omega
  rw [assign, List.append_assoc]
  exact List.drop_left' hfront

/-- What lies in front of an assignment stays. -/
theorem take_assign {start n : Nat} {bytes file : List UInt8} (hn : n ≤ start)
    (hstart : start ≤ file.length) : (assign start bytes file).take n = file.take n := by
  rw [assign, List.append_assoc,
    List.take_append_of_le_length (by rw [List.length_take]; omega),
    List.take_take, Nat.min_eq_left hn]

/-- An assignment at the front. -/
theorem assign_zero (bytes file : List UInt8) :
    assign 0 bytes file = bytes ++ file.drop bytes.length := by
  rw [assign, List.take_zero, List.nil_append, Nat.zero_add]

/-! ## Files that change step by step -/

/-- One change of a file. -/
inductive Step where
  | truncate (size : Nat)
  | assign (start : Nat) (bytes : List UInt8)
deriving DecidableEq

def Step.apply (file : List UInt8) : Step → List UInt8
  | .truncate size => Bytes.truncate size file
  | .assign start bytes => Bytes.assign start bytes file

/-- The file after some steps. -/
def run (steps : List Step) (file : List UInt8) : List UInt8 := steps.foldl Step.apply file

@[simp] theorem run_nil (file : List UInt8) : run [] file = file := rfl

@[simp] theorem run_cons (step : Step) (steps : List Step) (file : List UInt8) :
    run (step :: steps) file = run steps (step.apply file) := rfl

theorem run_append (front back : List Step) (file : List UInt8) :
    run (front ++ back) file = run back (run front file) := List.foldl_append

/-- `P` holds wherever a writer that takes these steps may stop. -/
def Throughout (P : List UInt8 → Prop) (steps : List Step) (file : List UInt8) : Prop :=
  ∀ taken, taken <+: steps → P (run taken file)

section Throughout

variable {P Q : List UInt8 → Prop} {steps : List Step} {file : List UInt8}

theorem throughout_nil : Throughout P [] file ↔ P file := by
  constructor
  · intro h
    exact h [] List.prefix_rfl
  · intro h taken htaken
    rw [List.prefix_nil.mp htaken]
    exact h

theorem throughout_cons {step : Step} :
    Throughout P (step :: steps) file ↔ P file ∧ Throughout P steps (step.apply file) := by
  constructor
  · intro h
    refine ⟨h [] List.nil_prefix, fun taken htaken => ?_⟩
    exact h (step :: taken) (List.cons_prefix_cons.mpr ⟨rfl, htaken⟩)
  · rintro ⟨hnow, hlater⟩ taken htaken
    cases taken with
    | nil => exact hnow
    | cons first taken =>
      obtain ⟨rfl, hrest⟩ := List.cons_prefix_cons.mp htaken
      exact hlater taken hrest

theorem Throughout.append {back : List Step} (hfront : Throughout P steps file)
    (hback : Throughout P back (run steps file)) : Throughout P (steps ++ back) file := by
  induction steps generalizing file with
  | nil => exact hback
  | cons step steps ih =>
    obtain ⟨hnow, hlater⟩ := throughout_cons.mp hfront
    exact throughout_cons.mpr ⟨hnow, ih hlater hback⟩

theorem Throughout.mono (h : Throughout P steps file) (himp : ∀ file, P file → Q file) :
    Throughout Q steps file := fun taken htaken => himp _ (h taken htaken)

/-- At the end of the steps. -/
theorem Throughout.last (h : Throughout P steps file) : P (run steps file) :=
  h steps List.prefix_rfl

/-- A writer that breaks off its steps and empties the file: `P` wherever it stops before
that, and an empty file after it. -/
theorem Throughout.abandon {cut taken : List Step} (h : Throughout P steps file)
    (hcut : cut <+: steps) (htaken : taken <+: cut ++ [.truncate 0]) :
    P (run taken file) ∨ (taken = cut ++ [.truncate 0] ∧ run taken file = []) := by
  rcases List.prefix_concat_iff.mp htaken with rfl | hfront
  · refine .inr ⟨rfl, ?_⟩
    rw [run_append]
    exact truncate_zero _
  · exact .inl (h taken (hfront.trans hcut))

end Throughout

end Bytes
