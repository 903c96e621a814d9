/-
Who has the slots of a store.

Blocks are kept in slots. A slot is loose, or it belongs to a block: one that is being
written, which only its writer knows, or one that a holder has published. A published block
is pinned while it is read; a holder that wants its slots back has to wait for the last pin.

A ledger says who has what, with the writers and the readers as lists of the blocks they have.
It is sound if no slot is in two places and no reader is without a pin. The rules are the
things that can happen to a slot. Each is about a ledger before and a ledger after, given by
what they have in common, so that a program that keeps its accounts in another form can use
it; and lists may come in any order. Whatever else a program does with slots, it may lose
them: that is the first rule.
-/
import Mathlib.Data.List.Nodup
import Mathlib.Data.List.Perm.Subperm

set_option autoImplicit false

/-- The accounts of a store: holders `ρ`, blocks `ι`, slots `σ`. -/
structure Ledger (ρ ι σ : Type) where
  loose : List σ
  /-- the blocks that are being written -/
  reserved : List ι
  /-- the blocks that are being read, each as often as it is -/
  readers : List ι
  held : ρ → Option ι
  pins : ι → Nat
  slots : ι → List σ

namespace Ledger

variable {ρ ι σ : Type}

/-- The block is published, or somebody still reads it. -/
def InUse (l : Ledger ρ ι σ) (b : ι) : Prop := (∃ r, l.held r = some b) ∨ 0 < l.pins b

/-- The slots of the block are its own. -/
def Stands (l : Ledger ρ ι σ) (b : ι) : Prop := l.InUse b ∨ b ∈ l.reserved

/-- No slot is in two places, and no reader is without a pin. -/
structure Sound [DecidableEq ι] (l : Ledger ρ ι σ) : Prop where
  loose : l.loose.Nodup
  reserved : l.reserved.Nodup
  unpublished : ∀ b ∈ l.reserved, ¬ l.InUse b
  slots : ∀ b, l.Stands b → (l.slots b).Nodup
  outside : ∀ b, l.Stands b → (l.slots b).Disjoint l.loose
  apart : ∀ b b', l.Stands b → l.Stands b' → b ≠ b' → (l.slots b).Disjoint (l.slots b')
  holder : ∀ r r' b, l.held r = some b → l.held r' = some b → r = r'
  readers : ∀ b, l.readers.count b ≤ l.pins b

variable [DecidableEq ι] {l l' : Ledger ρ ι σ} {b : ι}

omit [DecidableEq ι] in
/-- Part of a list without duplicates has none. -/
theorem nodup_of_subperm {α : Type} {xs ys : List α} (hsub : xs.Subperm ys) (hys : ys.Nodup) :
    xs.Nodup := by
  obtain ⟨zs, hperm, hzs⟩ := hsub
  exact hperm.nodup_iff.mp (hys.sublist hzs)

/-- What is read is in use. -/
theorem Sound.in_use_of_reader (h : l.Sound) (hb : b ∈ l.readers) : l.InUse b :=
  .inr (Nat.lt_of_lt_of_le (List.count_pos_iff.mpr hb) (h.readers b))

/-- Nothing new stands, and what is lost is lost. -/
theorem Sound.lose (h : l.Sound) (hloose : l'.loose.Subperm l.loose)
    (hreserved : l'.reserved.Subperm l.reserved) (hreaders : ∀ b, l'.readers.count b ≤ l'.pins b)
    (hheld : ∀ r, l'.held r = none ∨ l'.held r = l.held r) (hpins : ∀ b, 0 < l'.pins b → l.InUse b)
    (hslots : ∀ b, l'.Stands b → l'.slots b = l.slots b) : l'.Sound := by
  have hheld' : ∀ r b, l'.held r = some b → l.held r = some b := by
    intro r b hr
    rcases hheld r with hnone | hsame
    · rw [hnone] at hr
      cases hr
    · rw [← hsame, hr]
  have huse : ∀ b, l'.InUse b → l.InUse b := by
    rintro b (⟨r, hr⟩ | hpin)
    · exact .inl ⟨r, hheld' r b hr⟩
    · exact hpins b hpin
  have hstands : ∀ b, l'.Stands b → l.Stands b := fun b hb =>
    hb.imp (huse b) fun hmem => hreserved.subset hmem
  refine ⟨nodup_of_subperm hloose h.loose, nodup_of_subperm hreserved h.reserved,
    fun b hb hin => ?_, fun b hb => ?_,
    fun b hb => ?_, fun b b' hb hb' hne => ?_, fun r r' b hr hr' => ?_, hreaders⟩
  · exact h.unpublished b (hreserved.subset hb) (huse b hin)
  · rw [hslots b hb]
    exact h.slots b (hstands b hb)
  · rw [hslots b hb]
    exact fun slot hslot hmem => h.outside b (hstands b hb) hslot (hloose.subset hmem)
  · rw [hslots b hb, hslots b' hb']
    exact h.apart b b' (hstands b hb) (hstands b' hb') hne
  · exact h.holder r r' b (hheld' r b hr) (hheld' r' b hr')

/-! ## What can happen to a slot -/

omit [DecidableEq ι] in
/-- Being in use is about holders and pins only. -/
theorem in_use_congr (hheld : l'.held = l.held) (hpins : l'.pins = l.pins) :
    l'.InUse b ↔ l.InUse b := by
  unfold InUse
  rw [hheld, hpins]

/-- Loose slots become those of a new block. -/
theorem Sound.reserve (h : l.Sound) (hfresh : ¬ l.Stands b)
    (hloose : l.loose.Perm (l'.slots b ++ l'.loose))
    (hreserved : l'.reserved.Perm (b :: l.reserved))
    (hreaders : l'.readers.Perm l.readers) (hheld : l'.held = l.held) (hpins : l'.pins = l.pins)
    (hslots : ∀ b' ≠ b, l'.slots b' = l.slots b') : l'.Sound := by
  have huse : ∀ b', l'.InUse b' ↔ l.InUse b' := fun b' => in_use_congr hheld hpins
  obtain ⟨hnew, hrest, hnone⟩ := List.nodup_append'.mp (hloose.nodup_iff.mp h.loose)
  have hold : ∀ b', l'.Stands b' → b' ≠ b → l.Stands b' := by
    intro b' hb' hne
    refine hb'.imp (huse b').mp fun hmem => ?_
    exact (List.mem_cons.mp (hreserved.subset hmem)).resolve_left hne
  -- the slots of the others were not loose
  have hother : ∀ b', l'.Stands b' → b' ≠ b → (l'.slots b').Disjoint (l'.slots b) := by
    intro b' hb' hne slot hslot hmem
    rw [hslots b' hne] at hslot
    exact h.outside b' (hold b' hb' hne) hslot (hloose.symm.subset (List.mem_append_left _ hmem))
  refine ⟨hrest, ?_, fun b' hb' hin => ?_, fun b' hb' => ?_, fun b' hb' => ?_,
    fun b₁ b₂ h₁ h₂ hne => ?_, fun r r' b' hr hr' => ?_, fun b' => ?_⟩
  · refine hreserved.nodup_iff.mpr (List.nodup_cons.mpr ⟨fun hmem => ?_, h.reserved⟩)
    exact hfresh (.inr hmem)
  · rcases List.mem_cons.mp (hreserved.subset hb') with rfl | hmem
    · exact hfresh (.inl ((huse b').mp hin))
    · exact h.unpublished b' hmem ((huse b').mp hin)
  · by_cases heq : b' = b
    · rw [heq]
      exact hnew
    · rw [hslots b' heq]
      exact h.slots b' (hold b' hb' heq)
  · by_cases heq : b' = b
    · rw [heq]
      exact hnone
    · rw [hslots b' heq]
      intro slot hslot hmem
      exact h.outside b' (hold b' hb' heq) hslot (hloose.symm.subset (List.mem_append_right _ hmem))
  · by_cases h₁b : b₁ = b
    · rw [h₁b]
      exact List.disjoint_symm (hother b₂ h₂ fun h₂b => hne (h₁b.trans h₂b.symm))
    · by_cases h₂b : b₂ = b
      · rw [h₂b]
        exact hother b₁ h₁ h₁b
      · rw [hslots b₁ h₁b, hslots b₂ h₂b]
        exact h.apart b₁ b₂ (hold b₁ h₁ h₁b) (hold b₂ h₂ h₂b) hne
  · rw [hheld] at hr hr'
    exact h.holder r r' b' hr hr'
  · rw [hreaders.count_eq, hpins]
    exact h.readers b'

/-- The slots of a block become loose, once nothing is left that makes it stand. -/
theorem Sound.release (h : l.Sound) (hb : l.Stands b) (hgone : ¬ l'.Stands b)
    (hloose : l'.loose.Perm (l.slots b ++ l.loose)) (hreserved : l'.reserved.Subperm l.reserved)
    (hreaders : l'.readers.Perm l.readers)
    (hheld : ∀ r, l'.held r = none ∨ l'.held r = l.held r) (hpins : l'.pins = l.pins)
    (hslots : ∀ b' ≠ b, l'.slots b' = l.slots b') : l'.Sound := by
  -- all but the new loose slots is as if the block had been lost
  have hlost : Sound { l' with loose := l.loose } := by
    refine h.lose (List.Subperm.refl _) hreserved (fun b' => ?_) hheld (fun b' hpin => ?_)
      fun b' hb' => ?_
    · dsimp only
      rw [hreaders.count_eq, hpins]
      exact h.readers b'
    · exact .inr (hpins ▸ hpin)
    · exact hslots b' fun heq => hgone (heq ▸ hb')
  have hold : ∀ b', l'.Stands b' → b' ≠ b ∧ l.Stands b' := by
    intro b' hb'
    refine ⟨fun heq => hgone (heq ▸ hb'), ?_⟩
    rcases hb' with (⟨r, hr⟩ | hpin) | hmem
    · rcases hheld r with hnone | hsame
      · rw [hnone] at hr
        cases hr
      · exact .inl (.inl ⟨r, hsame ▸ hr⟩)
    · exact .inl (.inr (hpins ▸ hpin))
    · exact .inr (hreserved.subset hmem)
  refine ⟨?_, hlost.reserved, hlost.unpublished, hlost.slots, fun b' hb' => ?_, hlost.apart,
    hlost.holder, hlost.readers⟩
  · exact hloose.nodup_iff.mpr (List.nodup_append'.mpr ⟨h.slots b hb, h.loose, h.outside b hb⟩)
  · obtain ⟨hne, hstood⟩ := hold b' hb'
    intro slot hslot hmem
    rcases List.mem_append.mp (hloose.subset hmem) with hmem | hmem
    · rw [hslots b' hne] at hslot
      exact h.apart b' b hstood hb hne hslot hmem
    · exact hlost.outside b' hb' hslot hmem

/-- A block that was written gets a holder. -/
theorem Sound.publish [DecidableEq ρ] (h : l.Sound) {r : ρ} (hnone : l.held r = none)
    (hloose : l'.loose.Perm l.loose) (hreserved : l.reserved.Perm (b :: l'.reserved))
    (hreaders : l'.readers.Perm l.readers) (hheld : l'.held = Function.update l.held r (some b))
    (hpins : l'.pins = l.pins) (hslots : l'.slots = l.slots) : l'.Sound := by
  have hb : b ∈ l.reserved := hreserved.symm.subset List.mem_cons_self
  obtain ⟨hlast, hrest⟩ := List.nodup_cons.mp (hreserved.nodup_iff.mp h.reserved)
  have hself : ∀ r', l'.held r' = some b ↔ r' = r := by
    intro r'
    rw [hheld]
    by_cases heq : r' = r
    · rw [heq, Function.update_self]
      exact iff_of_true rfl rfl
    · rw [Function.update_of_ne heq]
      exact iff_of_false (fun hr' => h.unpublished b hb (.inl ⟨r', hr'⟩)) heq
  have hothers : ∀ r' b', b' ≠ b → (l'.held r' = some b' ↔ l.held r' = some b') := by
    intro r' b' hne
    rw [hheld]
    by_cases heq : r' = r
    · rw [heq, Function.update_self, hnone]
      exact iff_of_false (fun hsome => hne (Option.some.inj hsome).symm) (by simp)
    · rw [Function.update_of_ne heq]
  have huse : ∀ b', b' ≠ b → (l'.InUse b' ↔ l.InUse b') := by
    intro b' hne
    unfold InUse
    rw [hpins]
    exact or_congr_left (exists_congr fun r' => hothers r' b' hne)
  have hstands : ∀ b', l'.Stands b' → l.Stands b' := by
    intro b' hb'
    by_cases heq : b' = b
    · rw [heq]
      exact .inr hb
    · exact hb'.imp (huse b' heq).mp fun hmem => hreserved.symm.subset (List.mem_cons_of_mem b hmem)
  refine ⟨hloose.nodup_iff.mpr h.loose, hrest, fun b' hb' => ?_, fun b' hb' => ?_, fun b' hb' => ?_,
    fun b₁ b₂ h₁ h₂ hne => ?_, fun r₁ r₂ b' h₁ h₂ => ?_, fun b' => ?_⟩
  · have hne : b' ≠ b := fun heq => hlast (heq ▸ hb')
    rw [huse b' hne]
    exact h.unpublished b' (hreserved.symm.subset (List.mem_cons_of_mem b hb'))
  · rw [hslots]
    exact h.slots b' (hstands b' hb')
  · rw [hslots]
    exact fun slot hslot hmem => h.outside b' (hstands b' hb') hslot (hloose.subset hmem)
  · rw [hslots]
    exact h.apart b₁ b₂ (hstands b₁ h₁) (hstands b₂ h₂) hne
  · by_cases heq : b' = b
    · rw [heq] at h₁ h₂
      rw [(hself r₁).mp h₁, (hself r₂).mp h₂]
    · exact h.holder r₁ r₂ b' ((hothers r₁ b' heq).mp h₁) ((hothers r₂ b' heq).mp h₂)
  · rw [hreaders.count_eq, hpins]
    exact h.readers b'

/-- A reader comes to a block in use. -/
theorem Sound.pin (h : l.Sound) (hb : l.InUse b) (hloose : l'.loose.Perm l.loose)
    (hreserved : l'.reserved.Perm l.reserved) (hreaders : l'.readers.Perm (b :: l.readers))
    (hheld : l'.held = l.held) (hpin : l'.pins = Function.update l.pins b (l.pins b + 1))
    (hslots : l'.slots = l.slots) : l'.Sound := by
  refine h.lose hloose.subperm hreserved.subperm (fun b' => ?_) (fun r => .inr (by rw [hheld]))
    (fun b' hpos => ?_) fun b' _ => by rw [hslots]
  · have hcount := h.readers b'
    rw [hreaders.count_eq, hpin, List.count_cons]
    by_cases heq : b' = b
    · rw [heq, Function.update_self, if_pos (beq_self_eq_true b)]
      exact Nat.succ_le_succ (heq ▸ hcount)
    · rw [Function.update_of_ne heq, if_neg (by simpa using fun h => heq h.symm)]
      exact hcount
  · by_cases heq : b' = b
    · rw [heq]
      exact hb
    · rw [hpin, Function.update_of_ne heq] at hpos
      exact .inr hpos

/-- A reader leaves. -/
theorem Sound.unpin (h : l.Sound) (hloose : l'.loose.Perm l.loose)
    (hreserved : l'.reserved.Perm l.reserved) (hreaders : l.readers.Perm (b :: l'.readers))
    (hheld : l'.held = l.held) (hpin : l'.pins = Function.update l.pins b (l.pins b - 1))
    (hslots : l'.slots = l.slots) : l'.Sound := by
  refine h.lose hloose.subperm hreserved.subperm (fun b' => ?_) (fun r => .inr (by rw [hheld]))
    (fun b' hpos => ?_) fun b' _ => by rw [hslots]
  · have hcount := h.readers b'
    rw [hreaders.count_eq, List.count_cons] at hcount
    rw [hpin]
    by_cases heq : b' = b
    · rw [heq, Function.update_self]
      rw [heq, if_pos (beq_self_eq_true b)] at hcount
      omega
    · rw [Function.update_of_ne heq]
      rw [if_neg (by simpa using fun h => heq h.symm)] at hcount
      exact hcount
  · by_cases heq : b' = b
    · rw [heq, hpin, Function.update_self] at hpos
      rw [heq]
      exact .inr (by omega)
    · rw [hpin, Function.update_of_ne heq] at hpos
      exact .inr hpos

end Ledger
