/-
Encodings that can stand one after the other without a length in front.

An encoding is self-delimiting when no encoding of one value runs into an encoding of
another: whatever two strings follow, equal concatenations come from equal values and
equal rests. This is more than injectivity, and it is what a concatenation of parts needs,
since two parts may share their boundary in more than one way otherwise. It is closed
under concatenation, so a record is self-delimiting as soon as each field is.
-/
import Mathlib.Data.List.Basic
import Mathlib.Logic.Function.Basic

set_option autoImplicit false

namespace Codes

variable {σ α β γ : Type}

/-- At most one value can be read off the front of a string, and what is left is
determined. -/
def SelfDelimiting (encode : α → List σ) : Prop :=
  ∀ a b x y, encode a ++ x = encode b ++ y → a = b ∧ x = y

namespace SelfDelimiting

variable {f : α → List σ} {g : β → List σ}

theorem injective (hf : SelfDelimiting f) : Function.Injective f := by
  intro a b hab
  have hsame : f a ++ [] = f b ++ [] := by rw [hab]
  exact (hf a b [] [] hsame).1

/-- Encodings of one length. -/
theorem of_length {n : Nat} (hlength : ∀ a, (f a).length = n) (hf : Function.Injective f) :
    SelfDelimiting f := by
  intro a b x y h
  obtain ⟨hab, hxy⟩ := List.append_inj h (by rw [hlength, hlength])
  exact ⟨hf hab, hxy⟩

/-- One part after the other. -/
theorem seq (hf : SelfDelimiting f) (hg : SelfDelimiting g) :
    SelfDelimiting fun p : α × β => f p.1 ++ g p.2 := by
  rintro ⟨a, b⟩ ⟨a', b'⟩ x y h
  rw [List.append_assoc, List.append_assoc] at h
  obtain ⟨rfl, hrest⟩ := hf a a' _ _ h
  obtain ⟨rfl, hxy⟩ := hg b b' x y hrest
  exact ⟨rfl, hxy⟩

/-- A value with parts that determine it. -/
theorem comap (hf : SelfDelimiting f) {parts : γ → α} (hparts : Function.Injective parts) :
    SelfDelimiting fun c => f (parts c) := by
  intro c d x y h
  obtain ⟨hcd, hxy⟩ := hf _ _ x y h
  exact ⟨hparts hcd, hxy⟩

/-- A constant in front. -/
theorem after (front : List σ) (hf : SelfDelimiting f) :
    SelfDelimiting fun a => front ++ f a := by
  intro a b x y h
  rw [List.append_assoc, List.append_assoc] at h
  exact hf a b x y (List.append_cancel_left h)

/-- A symbol that no encoding contains marks the end. -/
theorem terminated {stop : σ} (hstop : ∀ a, stop ∉ f a) (hf : Function.Injective f) :
    SelfDelimiting fun a => f a ++ [stop] := by
  -- The first terminator of both strings ends both values.
  have hsplit : ∀ l m x y : List σ, stop ∉ l → stop ∉ m →
      l ++ stop :: x = m ++ stop :: y → l = m ∧ x = y := by
    intro l
    induction l with
    | nil =>
      intro m x y _ hm h
      cases m with
      | nil => exact ⟨rfl, (List.cons.inj h).2⟩
      | cons c m => exact absurd (List.mem_cons.mpr (.inl (List.cons.inj h).1)) hm
    | cons c l ih =>
      intro m x y hl hm h
      cases m with
      | nil => exact absurd (List.mem_cons.mpr (.inl (List.cons.inj h).1.symm)) hl
      | cons d m =>
        obtain ⟨rfl, hrest⟩ := List.cons.inj h
        obtain ⟨rfl, hxy⟩ := ih m x y (fun hc => hl (List.mem_cons_of_mem c hc))
          (fun hd => hm (List.mem_cons_of_mem c hd)) hrest
        exact ⟨rfl, hxy⟩
  intro a b x y h
  rw [List.append_assoc, List.append_assoc] at h
  obtain ⟨hab, hxy⟩ := hsplit (f a) (f b) x y (hstop a) (hstop b) h
  exact ⟨hf hab, hxy⟩

end SelfDelimiting

end Codes
