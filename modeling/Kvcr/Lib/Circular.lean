/-
Circular memory: `cap` cells addressed by ever-growing positions, position `p` living
in cell `p % cap`.

A window is what the cells hold for a range of positions, and it is what a reader of
that range sees. The two facts everything rests on: a store at a position behind the
window and less than one turn ahead of its start does not touch the window, and a
store right behind the window extends it by the stored value.
-/
import Mathlib.Logic.Function.Basic
import Mathlib.Data.Int.ModEq
import Mathlib.Tactic.Common

set_option autoImplicit false

namespace Circular

variable {β : Type} {cap : Nat}

/-- The cell of the `i`-th element of a transfer that starts in cell `cell` and
continues at cell 0 when it runs off the end. -/
def wrapped (cap cell i : Nat) : Nat := if cell + i < cap then cell + i else cell + i - cap

/-- What the cells hold for the positions `start .. start + len`. -/
def window (mem : Nat → β) (cap start len : Nat) : List β :=
  (List.range len).map fun i => mem ((start + i) % cap)

theorem wrapped_eq_mod {start i : Nat} (hi : i < cap) :
    wrapped cap (start % cap) i = (start + i) % cap := by
  have hcell : start % cap < cap := Nat.mod_lt start (by omega)
  have hsum : (start + i) % cap = (start % cap + i) % cap := (Nat.mod_add_mod ..).symm
  unfold wrapped
  by_cases hfit : start % cap + i < cap
  · rw [if_pos hfit, hsum]
    exact (Nat.mod_eq_of_lt hfit).symm
  · have hback : start % cap + i - cap < cap := by omega
    rw [if_neg hfit, hsum, ← Nat.mod_eq_of_lt hback]
    exact (Nat.mod_eq_sub_mod (by omega)).symm

/-- Positions less than one turn apart live in different cells. -/
theorem mod_ne {p q : Nat} (hpq : p < q) (hq : q < p + cap) : p % cap ≠ q % cap := by
  intro hsame
  have hdvd : cap ∣ q - p := (Nat.modEq_iff_dvd' hpq.le).mp hsame
  have hturn : cap ≤ q - p := Nat.le_of_dvd (by omega) hdvd
  omega

@[simp] theorem length_window (mem : Nat → β) (start len : Nat) :
    (window mem cap start len).length = len := by simp [window]

/-- A window is its first part followed by the window behind it. -/
theorem window_add (mem : Nat → β) (start m n : Nat) :
    window mem cap start (m + n) = window mem cap start m ++ window mem cap (start + m) n := by
  simp only [window, List.range_add, List.map_append, List.map_map]
  refine congrArg _ (List.map_congr_left fun i _ => ?_)
  rw [Function.comp_apply, Nat.add_assoc]

theorem window_succ (mem : Nat → β) (start n : Nat) :
    window mem cap start (n + 1) = window mem cap start n ++ [mem ((start + n) % cap)] := by
  rw [window_add]
  rfl

/-- A shorter window is a prefix of a longer one. -/
theorem window_eq_take (mem : Nat → β) {start m n : Nat} (h : m ≤ n) :
    window mem cap start m = (window mem cap start n).take m := by
  obtain ⟨k, rfl⟩ := Nat.exists_eq_add_of_le h
  rw [window_add, List.take_append_of_le_length (by simp), List.take_of_length_le (by simp)]

/-- A store behind a window, less than a turn from its start, leaves it alone. -/
theorem window_update_outside (mem : Nat → β) (b : β) {start len p : Nat} (hp : start + len ≤ p)
    (hturn : p < start + cap) :
    window (Function.update mem (p % cap) b) cap start len = window mem cap start len := by
  unfold window
  apply List.map_congr_left
  intro i hi
  have hi := List.mem_range.mp hi
  exact Function.update_of_ne (mod_ne (by omega) (by omega)) _ _

/-- A store right behind a window extends it. -/
theorem window_update_next (mem : Nat → β) (b : β) {start len : Nat} (hlen : len < cap) :
    window (Function.update mem ((start + len) % cap) b) cap start (len + 1) =
      window mem cap start len ++ [b] := by
  rw [window_succ, window_update_outside mem b (Nat.le_refl _) (by omega), Function.update_self]

end Circular
