/-
The functions of the disk tier keep the books.

Each function is given by what it takes from the hand of its caller and what it leaves there
(`Hands`), whatever else the caller has in hand and whatever is known of the disk. If it raises,
only what it was given may be lost. A function that gives nothing and takes nothing is within a
frame (`books`), and so is every function of the core that does not look at the disk.
-/
import Kvcr.DiskBooks
import Kvcr.Frame.Hints

set_option autoImplicit false

namespace Kvcr

open Prog

/-! ## The frame -/

/-- The books are not about pins. -/
theorem shelf_of_watched {s s' : Core} {pins : PinState}
    (hsame : s'.watched = { s.watched with pins := pins }) : s'.shelf = s.shelf := by
  have hshelf (s : Core) : s.shelf =
      { free := s.watched.disk.g3.free_slots
        residencies := s.watched.disk.residencies
        next := s.watched.disk.next
        records := s.watched.block_record_map.get?
        next_record := s.watched.next_rec
        held := s.watched.disk.held
        transfers := s.watched.in_flight.filterMap ProgressOp.transfer
        ended := s.watched.completed.filterMap Item.ended } := rfl
  rw [hshelf, hshelf, hsame]

/-- Submitting something else. -/
theorem shelf_submit {s : Core} {op : ProgressOp} (hop : op.transfer = none) :
    Core.shelf { s with progress.in_flight := s.progress.in_flight ++ [op] } = s.shelf := by
  unfold Core.shelf
  dsimp only
  rw [List.filterMap_append, List.filterMap_cons_none hop, List.filterMap_nil, List.append_nil]
  rfl

section NewRecord

variable {s : Core} {key : BlockKey}

/-- The records after a new one. -/
theorem new_record_records (key' : BlockKey) (r : RecId)
    (hr : (s.block_record_map.set key s.next_rec).get? key' = some r) :
    (key' = key ∧ r = s.next_rec) ∨ s.record key' = some r := by
  rw [Dict.get?_set] at hr
  split at hr
  · next heq => exact .inl ⟨heq, (Option.some.inj hr).symm⟩
  · exact .inr hr

/-- It holds nothing. -/
theorem new_record_held (r : RecId) (g : G3Id)
    (hg : (Function.update s.recs s.next_rec {} r).g3 = some g) :
    r ≠ s.next_rec ∧ (s.recs r).g3 = some g := by
  by_cases heq : r = s.next_rec
  · rw [heq, Function.update_self] at hg
    cases hg
  · rw [Function.update_of_ne heq] at hg
    exact ⟨heq, hg⟩

end NewRecord

/-- Whatever is in hand and whatever is known, the books stay right. -/
def books (cfg : Config) : Frame cfg where
  P pool slot := slot < cfg.slot_count pool
  Q s s' := ∀ T h, Books cfg T h s.shelf → Books cfg T h s'.shelf
  refl _ _ _ hb := hb
  trans hq hq' T h hb := hq' T h (hq T h hb)
  still _ hsame T h hb := by
    rw [shelf_of_watched (hsame.trans rfl)]
    exact hb
  new_record {s key} _ _ T h hb := by
    refine hb.lose (List.Subperm.refl _) (List.Subperm.refl _) (List.Subperm.refl _) (fun r => ?_)
      rfl rfl (hb.table.new new_record_records new_record_held) hb.named hb.landed
      fun op hop => .inl hop
    refine (Option.eq_none_or_eq_some _).imp_right fun ⟨g, hg⟩ => ?_
    exact hg.trans (new_record_held r g hg).2.symm
  prune {s key record} _ _ _ _ _ _ T h hb := by
    refine hb.lose (List.Subperm.refl _) (List.Subperm.refl _) (List.Subperm.refl _)
      (fun _ => .inr rfl) rfl rfl (hb.table.lose (fun key' r hr => ?_) fun _ _ hg => hg) hb.named
      hb.landed fun op hop => .inl hop
    change (s.block_record_map.erase key).get? key' = some r at hr
    rw [Dict.get?_erase] at hr
    split at hr
    · cases hr
    · exact hr
  copy _ _ T h hb := by
    rw [shelf_submit rfl]
    exact hb
  pull _ _ T h hb := by
    rw [shelf_submit rfl]
    exact hb
  handle _ _ _ hb := hb

instance open_pins_books {cfg : Config} : (books cfg).OpenPins where
  pins _ hsame T h hb := by
    rw [shelf_of_watched hsame]
    exact hb
  write _ T h hb := by
    rw [shelf_submit rfl]
    exact hb

instance open_pulls_books {cfg : Config} : (books cfg).OpenPulls where
  hint _ _ _ _ _ _ hb := hb

/-! ## Steps that are not about the books -/

/-- Neither the books nor the ground have changed. -/
structure DiskIdle (s s' : Core) : Prop where
  shelf : s'.shelf = s.shelf
  grounds : s'.grounds = s.grounds

instance refl_idle : Std.Refl DiskIdle := ⟨fun _ => ⟨rfl, rfl⟩⟩

instance trans_idle : IsTrans Core DiskIdle :=
  ⟨fun _ _ _ h h' => ⟨h'.shelf.trans h.shelf, h'.grounds.trans h.grounds⟩⟩

theorem DiskIdle.g3_residency {s s' : Core} (h : DiskIdle s s') :
    s'.g3_residency = s.g3_residency :=
  funext fun key => congrArg (fun a => (a.records key).bind a.held) h.shelf

theorem DiskIdle.residencies {s s' : Core} (h : DiskIdle s s') :
    s'.g3_residencies = s.g3_residencies :=
  congrArg Shelf.residencies h.shelf

theorem DiskIdle.within {cfg : Config} {s s' : Core} (h : DiskIdle s s') : (books cfg).R s s' :=
  fun hs => ⟨hs.same h.grounds, fun _ _ hb => h.shelf ▸ hb⟩

section DiskIdle

variable {K : Knot}

theorem ask_idle {α : Type} {answer : Nat → α} : Moves DiskIdle (ask answer) :=
  .step fun _ => ⟨rfl, rfl⟩

theorem visit_idle {α : Type} {xs : List α} : Moves DiskIdle (visit K xs) :=
  .bind ask_idle fun _ => .pure

theorem residency_observer_idle {key : BlockKey} {record : RecId} :
    Moves DiskIdle (residency_observer K key record) := by
  refine .bind .read fun s => .ite (.bind ask_idle fun accepted => .ite .emit ?_) .pure
  exact .bind .emit fun _ => .change fun _ => ⟨rfl, rfl⟩

theorem raise_if_failed_idle : Moves DiskIdle (raise_if_failed K) :=
  .bind ask_idle fun _ => .bind (.change fun _ => ⟨rfl, rfl⟩) fun _ => .bind .read fun _ =>
    .ite .raise .pure

theorem g3_make_evictable_idle {key : BlockKey} : Moves DiskIdle (g3_make_evictable K key) := by
  unfold g3_make_evictable
  refine .bind .read fun s => ?_
  split
  · exact .pure
  · split
    · exact .pure
    · refine .ite .pure (.bind ask_idle fun answer => ?_)
      split
      · exact .raise
      · exact .change fun _ => ⟨rfl, rfl⟩
      · refine .bind (.change fun _ => ⟨rfl, rfl⟩) fun _ => .bind .read fun s => ?_
        exact .bind (.change fun _ => ⟨rfl, rfl⟩) fun _ =>
          .ite (.change fun _ => ⟨rfl, rfl⟩) .pure

theorem g3_remove_evictable_idle {key : BlockKey} : Moves DiskIdle (g3_remove_evictable key) := by
  refine .bind (.change fun _ => ⟨rfl, rfl⟩) fun _ => .bind .read fun s =>
    .bind (.change fun _ => ⟨rfl, rfl⟩) fun _ => .ite ?_ .pure
  split
  · exact .raise
  · exact .change fun _ => ⟨rfl, rfl⟩

theorem g3_retry_unscored_idle : Moves DiskIdle (g3_retry_unscored K) :=
  .bind .read fun _ => .bind visit_idle fun _ => .forEach fun _ => g3_make_evictable_idle

theorem g3_next_candidate_idle {c : Candidates Score} : Moves DiskIdle (g3_next_candidate c) :=
  .bind .read fun _ => .bind (.change fun _ => ⟨rfl, rfl⟩) fun _ => .pure

theorem g3_close_candidates_idle {c : Candidates Score} : Moves DiskIdle (g3_close_candidates c) :=
  .change fun _ => ⟨rfl, rfl⟩

theorem g3_preflight_idle {reservations : List (BlockKey × G3Id)} :
    Moves DiskIdle (g3_preflight K reservations) := by
  induction reservations with
  | nil => exact .pure
  | cons reservation rest ih =>
    unfold g3_preflight
    exact .bind .read fun s => .ite .raise (.bind ask_idle fun fits => .ite ih .pure)

theorem complete_idle {op_handle : OpHandle} {entries : Entries} :
    Moves DiskIdle (complete op_handle entries) := by
  unfold complete
  refine .bind .read fun s => ?_
  split
  · exact .change fun _ => ⟨rfl, rfl⟩
  · exact .ite (.change fun _ => ⟨rfl, rfl⟩) (.change fun _ => ⟨rfl, rfl⟩)

end DiskIdle

/-! ## Hands -/

/-- The ground is good, and the books are right. -/
structure Has (cfg : Config) (T : Facts) (h : Hand) (s : Core) : Prop where
  good : (books cfg).G s
  books : Books cfg T h s.shelf

/-- An exception loses what is not in this hand. -/
def drops (cfg : Config) (T : Facts) (h : Hand) : Watch Core Err Ev :=
  ⟨fun _ s _ => Has cfg T h s, fun _ => True⟩

/-- `m` takes `given` from the hand of its caller and leaves what `left` says. -/
def Hands (cfg : Config) {α : Type} (given : Hand) (left : α → Hand) (m : KM α) : Prop :=
  ∀ T h s t, Has cfg T (given ++ h) s →
    wp (drops cfg T h) m (fun a s' _ => Has cfg T (left a ++ h) s') s t

section Hands

variable {cfg : Config} {α β : Type} {T : Facts} {h e : Hand} {s s' : Core} {t : List Ev}

theorem Has.leak (hs : Has cfg T (e ++ h) s) : Has cfg T h s := ⟨hs.good, hs.books.leak⟩

theorem Has.idle (hs : Has cfg T h s) (hidle : DiskIdle s s') : Has cfg T h s' :=
  ⟨hs.good.same hidle.grounds, hidle.shelf ▸ hs.books⟩

theorem Has.regroup {h' : Hand} (hs : Has cfg T h s) (hslots : h'.slots.Perm h.slots)
    (hstores : h'.stores.Perm h.stores) (hreads : h'.reads.Perm h.reads)
    (hlanded : h'.landed ⊆ h.landed) (hnamed : h'.named ⊆ h.named) : Has cfg T h' s :=
  ⟨hs.good, hs.books.regroup hslots hstores hreads hlanded hnamed⟩

/-- Less may be said of what is in hand. -/
theorem Has.rename (hs : Has cfg T (e ++ h) s) {names : List (BlockKey × G3Id)}
    (hnames : names ⊆ e.named) : Has cfg T ({ e with named := names } ++ h) s := by
  refine hs.regroup (List.Perm.refl _) (List.Perm.refl _) (List.Perm.refl _) (fun _ hg => hg) ?_
  exact List.append_subset.mpr ⟨fun _ hp => List.mem_append_left _ (hnames hp),
    List.subset_append_right _ _⟩

/-- What is in hand besides may be lost too. -/
theorem wp_leak {m : KM α} {Q : α → Core → List Ev → Prop}
    (hm : wp (drops cfg T (e ++ h)) m Q s t) : wp (drops cfg T h) m Q s t :=
  wp_conseq hm (fun _ _ _ hs => hs.leak) (fun _ hout => hout) fun _ _ _ hQ => hQ

theorem wp_idle {m : KM α} (hm : Moves DiskIdle m) (hs : Has cfg T h s) :
    wp (drops cfg T h) m (fun _ s' _ => Has cfg T h s' ∧ DiskIdle s s') s t :=
  wp_conseq (hm.start (s := s) (t := t)) (fun _ _ _ hidle => hs.idle hidle) (fun _ hout => hout)
    fun _ _ _ hidle => ⟨hs.idle hidle, hidle⟩

theorem wp_within {m : KM α} (hm : Moves (books cfg).R m) (hs : Has cfg T h s) :
    wp (drops cfg T h) m (fun _ s' _ => Has cfg T h s') s t :=
  have hnext {s'} (hR : (books cfg).R s s') : Has cfg T h s' :=
    ⟨(hR hs.good).1, (hR hs.good).2 T h hs.books⟩
  wp_conseq (hm.start (s := s) (t := t)) (fun _ _ _ => hnext) (fun _ hout => hout)
    fun _ _ _ => hnext

theorem Hands.of_moves {m : KM α} (hm : Moves (books cfg).R m) (given : Hand) :
    Hands cfg given (fun _ => given) m :=
  fun _ _ _ _ hs => wp_leak (wp_within hm hs)

theorem Hands.of_idle {m : KM α} (hm : Moves DiskIdle m) (given : Hand) :
    Hands cfg given (fun _ => given) m :=
  .of_moves (hm.mono fun _ _ => DiskIdle.within) given

theorem Hands.change {f : Core → Core} {given : Hand} (hf : ∀ s, DiskIdle s (f s)) :
    Hands cfg given (fun _ => given) (change f) :=
  .of_idle (.change hf) given

theorem Hands.pure {a : α} {left : α → Hand} : Hands cfg (left a) left (pure a : KM α) :=
  fun _ _ _ _ hs => wp_pure.mpr hs

theorem Hands.raise {e : Err} {given : Hand} {left : α → Hand} :
    Hands cfg given left (raise e : KM α) :=
  fun _ _ _ _ hs => wp_raise.mpr hs.leak

theorem Hands.bind {m : KM α} {f : α → KM β} {given : Hand} {mid : α → Hand} {left : β → Hand}
    (hm : Hands cfg given mid m) (hf : ∀ a, Hands cfg (mid a) left (f a)) :
    Hands cfg given left (m >>= f) :=
  fun T h s t hs => wp_seq (hm T h s t hs) fun a s' t' h' => hf a T h s' t' h'

theorem Hands.ite {c : Prop} [Decidable c] {m n : KM α} {given : Hand} {left : α → Hand}
    (hm : Hands cfg given left m) (hn : Hands cfg given left n) :
    Hands cfg given left (if c then m else n) :=
  fun T h s t hs => wp_ite.mpr ⟨fun _ => hm T h s t hs, fun _ => hn T h s t hs⟩

theorem Hands.read {f : Core → KM α} {given : Hand} {left : α → Hand}
    (hf : ∀ s, Hands cfg given left (f s)) : Hands cfg given left (Prog.read >>= f) :=
  fun T h s t hs => wp_bind.mpr (wp_read.mpr (hf s T h s t hs))

/-- The hand is emptied in the order of a list. -/
theorem Hands.forEach {f : α → KM Unit} (given : List α → Hand)
    (hf : ∀ x xs, Hands cfg (given (x :: xs)) (fun _ => given xs) (f x)) (xs : List α) :
    Hands cfg (given xs) (fun _ => given []) (forEach xs f) := by
  induction xs with
  | nil => exact .pure
  | cons x xs ih => exact .bind (hf x xs) fun _ => ih

theorem Hands.foldEach {f : β → α → KM β} {given : List α → Hand}
    (hf : ∀ b x xs, Hands cfg (given (x :: xs)) (fun _ => given xs) (f b x)) (xs : List α) (b : β) :
    Hands cfg (given xs) (fun _ => given []) (foldEach xs b f) := by
  induction xs generalizing b with
  | nil => exact .pure
  | cons x xs ih => exact .bind (hf b x xs) fun b' => ih b'

/-- What a function does not ask for stays in hand. -/
theorem Hands.frame {m : KM α} {given : Hand} {left : α → Hand} (hm : Hands cfg given left m)
    (e : Hand) : Hands cfg (given ++ e) (fun a => left a ++ e) m := by
  intro T h s t hs
  rw [Hand.append_assoc] at hs
  simp only [Hand.append_assoc]
  exact wp_leak (hm T (e ++ h) s t hs)

/-- Less in hand than was given. -/
theorem Hands.less {m : KM α} {given less : Hand} {left : α → Hand} (hm : Hands cfg less left m)
    (hless : ∀ {T h s}, Has cfg T (given ++ h) s → Has cfg T (less ++ h) s) :
    Hands cfg given left m :=
  fun T h s t hs => hm T h s t (hless hs)

/-- What was given is lost when the handler starts. -/
theorem Hands.handle {m : KM α} {f : Err → KM α} {given : Hand} {left : α → Hand}
    (hm : Hands cfg given left m) (hf : ∀ e, Hands cfg {} left (f e)) :
    Hands cfg given left (handle m f) :=
  fun T h s t hs => wp_handle.mpr (wp_conseq (hm T h s t hs) (fun e s' t' h' => hf e T h s' t' h')
    (fun _ hout => hout) fun _ _ _ h' => h')

/-- What is in hand stays there through a block that is within the frame. -/
theorem Hands.ensure_within {m : KM α} {fin : KM Unit} {given left : Hand}
    (hm : Moves (books cfg).R m) (hfin : Hands cfg given (fun _ => left) fin) :
    Hands cfg given (fun _ => left) (ensure m fin) := by
  intro T h s t hs
  refine wp_ensure (E := fun _ s' _ => Has cfg T (given ++ h) s') (wp_within hm hs)
    (fun e s' t' h' => ?_) fun _ s' t' h' => hfin T h s' t' h'
  exact wp_mono (hfin T h s' t' h') fun _ _ _ h'' => h''.leak

/-- A block, and a last part that is within the frame. -/
theorem Hands.ensure {m fin : KM Unit} {given : Hand}
    (hm : Hands cfg given (fun _ => {}) m) (hfin : Moves (books cfg).R fin) :
    Hands cfg given (fun _ => {}) (ensure m fin) := by
  intro T h s t hs
  exact wp_ensure (E := fun _ s' _ => Has cfg T h s') (hm T h s t hs)
    (fun _ _ _ h' => wp_within hfin h') fun _ _ _ h' => wp_within hfin h'

theorem Hands.whileFuel {γ : Type} {f : β → KM (β ⊕ γ)} {given : Hand} {left : γ → Hand}
    (hf : ∀ b, Hands cfg given (Sum.elim (fun _ => given) left) (f b)) {n : Nat} {b : β} :
    Hands cfg given left (whileFuel n b f) := by
  intro T h s t hs
  refine wp_whileFuel (fun _ s' _ => Has cfg T (given ++ h) s') (fun b s' t' hs' => ?_)
    (fun _ _ _ _ => trivial) _ _ _ _ hs
  refine wp_mono (hf b T h s' t' hs') fun r s'' t'' h'' => ?_
  cases r with
  | inl b' => exact h''
  | inr c => exact h''

/-- What stands is the same all along. -/
theorem Hands.frozen {m : KM α} {given : Hand} {left : α → Hand} (hm : Hands cfg given left m)
    (hs : Has cfg T (given ++ h) s) :
    wp (drops cfg T h) m (fun a s' _ => Has cfg T (left a ++ h) s' ∧
      ∀ g, (s'.shelf.ledger (left a ++ h)).Stands g → g < s.next_g3 →
        SameShape (s.g3_residencies g) (s'.g3_residencies g)) s t :=
  wp_conseq (hm (T.frozen s.shelf) h s t ⟨hs.good, hs.books.freeze⟩)
    (fun _ _ _ h' => ⟨h'.good, h'.books.thaw⟩) (fun _ hout => hout)
    fun _ _ _ h' => ⟨⟨h'.good, h'.books.thaw⟩, fun _ hg hlt => h'.books.same_shape hg hlt⟩

/-- A function that takes nothing and leaves nothing is within the frame. -/
theorem Hands.gives {m : KM α} {P : α → Prop} (hm : Hands cfg {} (fun _ => {}) m)
    (hground : Gives (ground cfg (books cfg).P).G (ground cfg (books cfg).P).Q P m) :
    Gives (books cfg).G (books cfg).Q P m := by
  intro s t hs
  have hall : ∀ i : { i : Facts × Hand // Books cfg i.1 i.2 s.shelf },
      wp (drops cfg i.1.1 i.1.2) m (fun _ s' _ => Has cfg i.1.1 i.1.2 s') s t := fun i =>
    hm i.1.1 i.1.2 s t ⟨hs, i.2⟩
  refine wp_conseq (wp_both (hground s t hs) (wp_all hall)) (fun _ s' _ h' => ?_)
    (fun _ _ => trivial) fun _ s' _ h' => ?_
  · exact ⟨h'.1.1, fun T h hb => (h'.2 ⟨(T, h), hb⟩).books⟩
  · exact ⟨h'.1.1, h'.1.2.1, fun T h hb => (h'.2 ⟨(T, h), hb⟩).books⟩

theorem Hands.moves {m : KM α} (hm : Hands cfg {} (fun _ => {}) m)
    (hground : Moves (ground cfg (books cfg).P).R m) : Moves (books cfg).R m :=
  (hm.gives (hground.gives (P := fun _ => True) fun _ => trivial)).moves

end Hands

/-! ## Slots -/

section Slots

variable {K : Knot} {T : Facts} {h : Hand} {s : Core} {t : List Ev}

/-- One record gets or gives up its residency. -/
theorem shelf_hold {record : RecId} {held : Option G3Id} :
    Core.shelf { s with recs := Function.update s.recs record { s.recs record with g3 := held } } =
      { s.shelf with held := Function.update s.shelf.held record held } := by
  unfold Core.shelf
  congr 1
  funext r
  dsimp only
  by_cases heq : r = record
  · rw [heq, Function.update_self, Function.update_self]
  · rw [Function.update_of_ne heq, Function.update_of_ne heq]

theorem g3_pop_free_hands {cfg : Config} :
    Hands cfg {} (fun slot => { slots := slot.toList }) g3_pop_free := by
  intro T h s t hs
  refine wp_bind.mpr (wp_read.mpr ?_)
  split
  · exact wp_pure.mpr hs
  · next slot free_slots hfree =>
    refine wp_bind.mpr (wp_act.mpr (wp_bind.mpr (wp_change.mpr (wp_pure.mpr ?_))))
    exact ⟨hs.good.same rfl, hs.books.pop hfree⟩

theorem g3_free_hands {cfg : Config} {slots : List Nat} :
    Hands cfg { slots := slots } (fun _ => {}) (g3_free slots) :=
  fun _ _ _ _ hs => wp_bind.mpr (wp_act.mpr (wp_change.mpr ⟨hs.good.same rfl, hs.books.free⟩))

/-- A block nobody reads is evicted. Its slots are in hand from when its record has given it up
until they are free. -/
theorem wp_g3_evict {key : BlockKey} {record : RecId} {g : G3Id} (hs : Has K.cfg T h s)
    (hheld : (s.recs record).g3 = some g) (hunclaimed : (s.g3_residencies g).claim_count = 0) :
    wp (drops K.cfg T h) (g3_evict K key record g) (fun _ s' _ => Has K.cfg T h s') s t := by
  refine wp_seq (wp_idle g3_remove_evictable_idle hs) fun _ s₁ t₁ ⟨h₁, hidle₁⟩ => ?_
  refine wp_bind.mpr (wp_act.mpr (wp_bind.mpr (wp_modify_rec.mpr ?_)))
  have hheld₁ : s₁.shelf.held record = some g := by
    rw [hidle₁.shelf]
    exact hheld
  have hunclaimed₁ : (s₁.shelf.residencies g).claim_count = 0 := by
    rw [hidle₁.shelf]
    exact hunclaimed
  have hout : Has K.cfg T ({ slots := (s₁.shelf.residencies g).slots } ++ h)
      { s₁ with recs := Function.update s₁.recs record { s₁.recs record with g3 := none } } :=
    ⟨h₁.good.record id fun _ => rfl, shelf_hold ▸ h₁.books.evict hheld₁ hunclaimed₁⟩
  refine wp_seq (wp_leak (wp_idle residency_observer_idle hout)) fun _ s₂ t₂ ⟨h₂, hidle₂⟩ => ?_
  have hslots : (s₂.g3_residencies g).slots = (s₁.shelf.residencies g).slots :=
    congrArg (fun a => (a.residencies g).slots) (hidle₂.shelf.trans shelf_hold)
  rw [← hslots] at h₂
  refine wp_bind.mpr (wp_read.mpr (wp_seq (wp_leak (wp_within on_remove_moves h₂))
    fun _ s₃ t₃ h₃ => ?_))
  refine wp_seq (wp_leak (wp_within publish_inventory_moves h₃)) fun _ s₄ t₄ h₄ => ?_
  refine wp_seq (wp_leak (wp_within prune_block_record_moves h₄)) fun _ s₅ t₅ h₅ => ?_
  exact g3_free_hands T h s₅ t₅ h₅

theorem g3_try_candidate_hands {key : BlockKey} :
    Hands K.cfg {} (fun _ => {}) (g3_try_candidate K key) := by
  intro T h s t hs
  unfold g3_try_candidate
  refine wp_bind.mpr (wp_read.mpr ?_)
  split
  · exact wp_raise.mpr hs
  · split
    · exact wp_raise.mpr hs
    · next record hrecord g hheld =>
      refine wp_ite.mpr ⟨fun _ => wp_raise.mpr hs, fun hunclaimed => wp_ite.mpr
        ⟨fun _ => wp_pure.mpr hs, fun _ => ?_⟩⟩
      refine wp_bind.mpr (wp_bind.mpr (wp_ask.mpr (wp_pure.mpr (wp_ite.mpr
        ⟨fun _ => wp_pure.mpr (hs.idle ⟨rfl, rfl⟩), fun _ => ?_⟩))))
      refine wp_seq (wp_g3_evict (hs.idle ⟨rfl, rfl⟩) hheld (not_not.mp hunclaimed))
        fun _ s₁ t₁ h₁ => wp_pure.mpr h₁

theorem g3_allocate_slot_hands {protected_keys : List BlockKey} :
    Hands K.cfg {} (fun slot => { slots := slot.toList }) (g3_allocate_slot K protected_keys) := by
  refine .read fun s => .ite g3_pop_free_hands (.bind (.of_idle g3_retry_unscored_idle {}) fun _ =>
    .whileFuel fun c => .bind (.of_idle g3_next_candidate_idle {}) fun candidate => ?_)
  obtain ⟨key, c⟩ := candidate
  cases key with
  | none => exact .bind (.of_idle g3_close_candidates_idle {}) fun _ => .pure
  | some key =>
    refine .bind (.handle g3_try_candidate_hands fun _ =>
      .bind (.of_idle g3_close_candidates_idle {}) fun _ => .raise) fun evicted => .ite ?_ .pure
    exact .bind g3_pop_free_hands fun slot => .bind (.of_idle g3_close_candidates_idle _) fun _ =>
      .pure

theorem g3_allocate_slots_hands {protected_keys : List BlockKey} {n : Nat} {slots : List Nat} :
    Hands K.cfg { slots := slots } (fun slots => { slots := slots })
      (g3_allocate_slots K protected_keys n slots) := by
  induction n generalizing slots with
  | zero => exact .pure
  | succ n ih =>
    intro T h s t hs
    unfold g3_allocate_slots
    refine wp_seq (wp_leak (g3_allocate_slot_hands T _ s t hs)) fun slot s₁ t₁ h₁ => ?_
    cases slot with
    | none => exact wp_pure.mpr h₁
    | some slot =>
      refine ih T h s₁ t₁ (h₁.regroup ?_ (List.Perm.refl _) (List.Perm.refl _) (fun _ hg => hg)
        fun _ hp => hp)
      change (slots ++ [slot] ++ h.slots).Perm (slot :: (slots ++ h.slots))
      rw [List.append_assoc]
      exact List.perm_middle

end Slots

/-! ## Reservations -/

section Reservations

variable {K : Knot} {T : Facts} {h : Hand} {s s' : Core} {t : List Ev}
  {blocks : Dict BlockKey (List TransferRef)} {reservations : List (BlockKey × G3Id)}

/-- The reservations are in hand, and have the layouts of their blocks. -/
structure Reserved (cfg : Config) (T : Facts) (h : Hand) (blocks : Dict BlockKey (List TransferRef))
    (reservations : List (BlockKey × G3Id)) (s : Core) : Prop where
  has : Has cfg T (.writes reservations ++ h) s
  layout : ∀ p ∈ reservations,
    (s.g3_residencies p.2).layout = (block_refs blocks p.1).map (·.label)

theorem stands_of_reserved {p : BlockKey × G3Id} (hp : p ∈ reservations) :
    (s.shelf.ledger (.writes reservations ++ h)).Stands p.2 :=
  Shelf.stands_of_store (List.mem_append_left _ (List.mem_map_of_mem hp))

theorem Reserved.idle {cfg : Config} (hr : Reserved cfg T h blocks reservations s)
    (hidle : DiskIdle s s') : Reserved cfg T h blocks reservations s' := by
  refine ⟨hr.has.idle hidle, fun p hp => ?_⟩
  rw [hidle.residencies]
  exact hr.layout p hp

/-- Reservations in hand keep their layouts, whatever else is in hand. -/
theorem Reserved.layout_of_same {cfg : Config} (hr : Reserved cfg T h blocks reservations s)
    (hsame : ∀ p ∈ reservations, SameShape (s.g3_residencies p.2) (s'.g3_residencies p.2)) :
    ∀ p ∈ reservations, (s'.g3_residencies p.2).layout = (block_refs blocks p.1).map (·.label) :=
  fun p hp => (hsame p hp).layout.trans (hr.layout p hp)

/-- The slots in hand become a further reservation. -/
theorem Reserved.reserve {cfg : Config} {key : BlockKey} {slots : List Nat}
    {pending_keys : OrderedSet BlockKey}
    (hs : Has cfg T ({ slots := slots } ++ (.writes reservations ++ h)) s)
    (hlayout : ∀ p ∈ reservations,
      (s.g3_residencies p.2).layout = (block_refs blocks p.1).map (·.label))
    (hlength : slots.length =
      (((block_refs blocks key).map (·.label)).map (slots_per_piece cfg)).sum) :
    Reserved cfg T h blocks (reservations ++ [(key, s.next_g3)])
      { s with
        g3.pending_keys := pending_keys
        g3_residencies := Function.update s.g3_residencies s.next_g3
          { layout := (block_refs blocks key).map (·.label), slots := slots }
        next_g3 := s.next_g3 + 1 } := by
  have hissued : ∀ p ∈ reservations, p.2 ≠ s.next_g3 := by
    intro p hp heq
    have hmem : p.2 ∈ reservations.map Prod.snd ++ h.stores :=
      List.mem_append_left _ (List.mem_map_of_mem hp)
    have hstands : (s.shelf.ledger ({ slots := slots } ++
        (.writes reservations ++ h))).Stands p.2 := Shelf.stands_of_store hmem
    exact absurd (hs.books.entries _ hstands).issued (heq ▸ Nat.lt_irrefl _)
  refine ⟨?_, fun p hp => ?_⟩
  · have hreserved : Has cfg T
        (.writes [(key, s.next_g3)] ++ (.writes reservations ++ h))
        { s with
          g3.pending_keys := pending_keys
          g3_residencies := Function.update s.g3_residencies s.next_g3
            { layout := (block_refs blocks key).map (·.label), slots := slots }
          next_g3 := s.next_g3 + 1 } :=
      ⟨hs.good.same rfl, hs.books.reserve hlength key⟩
    refine hreserved.regroup (List.Perm.refl _) ?_ (List.Perm.refl _) (fun _ hg => hg)
      fun _ hp => ?_
    · change ((reservations ++ [(key, s.next_g3)]).map Prod.snd ++ h.stores).Perm
        (s.next_g3 :: (reservations.map Prod.snd ++ h.stores))
      rw [List.map_append, List.append_assoc]
      exact List.perm_middle
    · change _ ∈ reservations ++ [(key, s.next_g3)] ++ h.named at hp
      rw [List.append_assoc] at hp
      exact (List.perm_middle.subset hp : _ ∈ (key, s.next_g3) :: (reservations ++ h.named))
  · dsimp only
    rcases List.mem_append.mp hp with hp | hp
    · rw [Function.update_of_ne (hissued p hp)]
      exact hlayout p hp
    · rw [List.mem_singleton.mp hp, Function.update_self]

/-- What `_reserve` has reserved, in the order of the blocks. -/
theorem wp_g3_reserve {protected_keys : List BlockKey} (hs : Has K.cfg T h s) :
    wp (drops K.cfg T h) (g3_reserve K blocks protected_keys)
      (fun reservations s' _ => Reserved K.cfg T h blocks reservations s' ∧
        (reservations.map Prod.fst).Sublist blocks.keys) s t := by
  refine wp_foldEach (fun rest reservations s' _ => Reserved K.cfg T h blocks reservations s' ∧
    (reservations.map Prod.fst ++ rest.map Prod.fst).Sublist blocks.keys ∧
      ∀ entry ∈ rest, entry ∈ blocks.entries) ?_ (fun reservations s' t' hI => ?_) _ _ _ _
    ⟨⟨hs, fun p hp => absurd hp List.not_mem_nil⟩, List.Sublist.refl _, fun entry hentry => hentry⟩
  · rintro ⟨key, refs⟩ rest reservations s' t' ⟨hr, hkeys, hrest⟩
    have hrefs : block_refs blocks key = refs := by
      rw [block_refs, Dict.get?_eq_some.mpr (hrest _ List.mem_cons_self), Option.getD_some]
    -- a block may be left out
    have hskip : (reservations.map Prod.fst ++ rest.map Prod.fst).Sublist blocks.keys :=
      ((List.Sublist.refl _).append (List.sublist_cons_self key _)).trans hkeys
    have hrest' : ∀ entry ∈ rest, entry ∈ blocks.entries := fun entry hentry =>
      hrest entry (List.mem_cons_of_mem _ hentry)
    refine wp_bind.mpr (wp_read.mpr (wp_ite.mpr
      ⟨fun _ => wp_pure.mpr ⟨hr, hskip, hrest'⟩, fun _ => ?_⟩))
    refine wp_if_then (P := fun s₁ _ => Reserved K.cfg T h blocks reservations s₁)
      (fun _ => wp_conseq (g3_retry_unscored_idle.start (s := s') (t := t'))
        (fun _ _ _ hidle => (hr.idle hidle).has.leak) (fun _ hout => hout)
        fun _ _ _ hidle => hr.idle hidle) (fun _ => hr) fun s₁ t₁ hr₁ => ?_
    refine wp_bind.mpr (wp_read.mpr (wp_ite.mpr
      ⟨fun _ => wp_pure.mpr ⟨hr₁, hskip, hrest'⟩, fun _ => ?_⟩))
    refine wp_seq (wp_leak (g3_allocate_slots_hands.frozen
      (h := .writes reservations ++ h) hr₁.has)) fun slots s₂ t₂ ⟨h₂, hsame⟩ => ?_
    have hlayout₂ : ∀ p ∈ reservations,
        (s₂.g3_residencies p.2).layout = (block_refs blocks p.1).map (·.label) :=
      hr₁.layout_of_same fun p hp => hsame p.2 (Shelf.stands_of_store
        (show p.2 ∈ reservations.map Prod.snd ++ h.stores from
          List.mem_append_left _ (List.mem_map_of_mem hp)))
        (hr₁.has.books.entries p.2 (stands_of_reserved hp)).issued
    refine wp_ite.mpr ⟨fun _ => ?_, fun hlength => ?_⟩
    · refine wp_bind.mpr (wp_bind.mpr (wp_act.mpr (wp_change.mpr (wp_pure.mpr
        ⟨⟨⟨h₂.good.same rfl, h₂.books.free⟩, hlayout₂⟩, hskip, hrest'⟩))))
    · refine wp_bind.mpr (wp_read.mpr (wp_bind.mpr (wp_change.mpr (wp_pure.mpr ⟨?_, ?_, hrest'⟩))))
      · rw [← hrefs]
        refine Reserved.reserve h₂ hlayout₂ ?_
        rw [hrefs, ← descriptor_bytes_div]
        exact not_not.mp hlength
      · rw [List.map_append, List.append_assoc]
        exact hkeys
  · rw [List.map_nil, List.append_nil] at hI
    exact ⟨hI.1, hI.2.1⟩

theorem g3_rollback_hands {cfg : Config} :
    Hands cfg (.writes reservations) (fun _ => {}) (g3_rollback reservations) := by
  refine Hands.forEach Hand.writes (fun p rest T h s t hs => ?_) reservations
  obtain ⟨key, g⟩ := p
  have hs : Has cfg T
      ({ named := [(key, g)] } ++ ({ stores := [g] } ++ (.writes rest ++ h))) s := hs
  have hs := hs.leak
  refine wp_bind.mpr (wp_read.mpr (wp_ite.mpr ⟨fun _ => ?_, fun _ => wp_pure.mpr hs.leak⟩))
  refine wp_bind.mpr (wp_change.mpr (wp_leak (g3_free_hands T (.writes rest ++ h) _ _ ?_)))
  exact ⟨hs.good.same rfl, hs.books.rollback⟩

end Reservations

/-! ## Claims -/

section Claims

variable {K : Knot} {T : Facts} {h : Hand} {s : Core} {t : List Ev}
  {blocks : Dict BlockKey (List TransferRef)}

/-- The residencies of the keys that are on disk. -/
def Core.on_disk (s : Core) (keys : List BlockKey) : List (BlockKey × G3Id) :=
  keys.filterMap fun key => (s.g3_residency key).map fun g => (key, g)

theorem Core.on_disk_cons {key : BlockKey} {keys : List BlockKey} :
    s.on_disk (key :: keys) =
      ((s.g3_residency key).map fun g => (key, g)).toList ++ s.on_disk keys := by
  unfold Core.on_disk
  rw [List.filterMap_cons]
  cases s.g3_residency key <;> rfl

/-- All that is on disk is claimed. -/
theorem wp_g3_claim {cfg : Config} {keys : List BlockKey} (hs : Has cfg T h s) :
    wp (drops cfg T h) (g3_claim keys) (fun claimed s' _ =>
      Has cfg T (.claims claimed.1 ++ h) s' ∧ claimed.1 = s.on_disk keys ∧
        ∀ g, SameShape (s.g3_residencies g) (s'.g3_residencies g)) s t := by
  refine wp_foldEach (fun rest claimed s' _ =>
    Has cfg T (.claims claimed.1 ++ h) s' ∧
      claimed.1 ++ s.on_disk rest = s.on_disk keys ∧ s'.g3_residency = s.g3_residency ∧
        ∀ g, SameShape (s.g3_residencies g) (s'.g3_residencies g)) ?_ (fun claimed s' t' hI => ?_)
    _ _ _ _ ⟨show Has cfg T (.claims [] ++ h) s from hs, rfl, rfl, fun _ => .refl⟩
  · rintro key rest ⟨claims, rejected⟩ s' t' ⟨h', hclaims, hresident, hshape⟩
    refine wp_bind.mpr (wp_read.mpr ?_)
    rw [Core.on_disk_cons, ← hresident] at hclaims
    split
    · next hnone =>
      rw [hnone] at hclaims
      exact wp_pure.mpr ⟨h', hclaims, hresident, hshape⟩
    · next g hg =>
      rw [hg] at hclaims
      refine wp_seq (wp_leak (wp_idle g3_remove_evictable_idle h')) fun _ s₁ t₁ ⟨h₁, hidle⟩ => ?_
      rw [← hidle.g3_residency] at hg
      obtain ⟨record, hrecord, hheld⟩ := Option.bind_eq_some_iff.mp hg
      refine wp_bind.mpr (wp_modify_g3_residency.mpr (wp_pure.mpr ⟨?_, ?_, ?_, fun g' => ?_⟩))
      · have hpinned : Has cfg T (.claims [(key, g)] ++ (.claims claims ++ h))
            { s₁ with
              g3_residencies := Function.update s₁.g3_residencies g
                { s₁.g3_residencies g with
                  claim_count := (s₁.g3_residencies g).claim_count + 1 } } :=
          ⟨h₁.good.same rfl, h₁.books.pin hrecord hheld⟩
        refine hpinned.regroup (List.Perm.refl _) (List.Perm.refl _) ?_ (fun _ hg => hg)
          fun _ hp => ?_
        · change ((claims ++ [(key, g)]).map Prod.snd ++ h.reads).Perm
            (g :: (claims.map Prod.snd ++ h.reads))
          rw [List.map_append, List.append_assoc]
          exact List.perm_middle
        · change _ ∈ claims ++ [(key, g)] ++ h.named at hp
          rw [List.append_assoc] at hp
          exact (List.perm_middle.subset hp : _ ∈ (key, g) :: (claims ++ h.named))
      · rw [List.append_assoc]
        exact hclaims
      · exact hidle.g3_residency.trans hresident
      · have hclaimed : SameShape (s₁.g3_residencies g') (Function.update s₁.g3_residencies g
            { s₁.g3_residencies g with claim_count := (s₁.g3_residencies g).claim_count + 1 } g') :=
          same_shape_update g'
        rw [hidle.residencies] at hclaimed ⊢
        exact ⟨hclaimed.layout.trans (hshape g').layout, hclaimed.slots.trans (hshape g').slots⟩
  · exact ⟨hI.1, (List.append_nil _).symm.trans hI.2.1, hI.2.2.2⟩

theorem g3_release_claims_hands {claims : List (BlockKey × G3Id)} :
    Hands K.cfg (.claims claims) (fun _ => {}) (g3_release_claims K claims) := by
  refine Hands.forEach Hand.claims (fun p rest T h s t hs => ?_) claims
  obtain ⟨key, g⟩ := p
  have hs : Has K.cfg T
      ({ named := [(key, g)] } ++ ({ reads := [g] } ++ (.claims rest ++ h))) s := hs
  have hs := hs.leak
  refine wp_bind.mpr (wp_read.mpr (wp_ite.mpr ⟨fun _ => wp_raise.mpr hs.leak.leak, fun _ =>
    wp_ite.mpr ⟨fun _ => wp_raise.mpr hs.leak.leak, fun _ => ?_⟩⟩))
  have hunpinned : Has K.cfg T (.claims rest ++ h)
      { s with
        g3_residencies := Function.update s.g3_residencies g
          { s.g3_residencies g with claim_count := (s.g3_residencies g).claim_count - 1 } } :=
    ⟨hs.good.same rfl, hs.books.unpin⟩
  refine wp_bind.mpr (wp_modify_g3_residency.mpr (wp_bind.mpr (wp_read.mpr (wp_ite.mpr
    ⟨fun _ => ?_, fun _ => wp_pure.mpr hunpinned⟩))))
  exact wp_mono (wp_leak (wp_idle g3_make_evictable_idle hunpinned)) fun _ _ _ h' => h'.1

end Claims

/-! ## Transfers that start -/

section Starts

variable {K : Knot} {T : Facts} {h : Hand} {s : Core} {t : List Ev}
  {blocks : Dict BlockKey (List TransferRef)}

theorem shelf_transfer {op : G3TransferOp} :
    Core.shelf { s with progress.in_flight := s.progress.in_flight ++ [.g3_transfer op] } =
      { s.shelf with transfers := s.shelf.transfers ++ [op] } := by
  unfold Core.shelf
  dsimp only
  rw [List.filterMap_append]
  rfl

/-- A transfer that fits is in flight, or has given back what it was to use. -/
theorem wp_g3_submit {op : G3TransferOp} {names : List (BlockKey × G3Id)}
    (hs : Has K.cfg T ({ stores := op.stores, reads := op.reads, named := names } ++ h) s)
    (hnames : op.names ⊆ names) (hfits : op.Fits K.cfg s.g3_residencies) :
    wp (drops K.cfg T h) (g3_submit K op)
      (fun _ s' _ => Has K.cfg T h s' ∧ .g3_transfer op ∈ s'.progress.in_flight) s t := by
  refine wp_bind.mpr (wp_read.mpr (wp_ite.mpr ⟨fun _ => wp_raise.mpr hs.leak, fun _ => ?_⟩))
  refine wp_bind.mpr (wp_change.mpr (wp_seq ((Hands.of_moves add_block_dependencies_moves
    { stores := op.stores, reads := op.reads, named := names }).frozen (hs.idle ⟨rfl, rfl⟩))
    fun _ s₁ t₁ ⟨h₁, hsame⟩ => ?_))
  have hfits₁ : op.Fits K.cfg s₁.g3_residencies := by
    refine hfits.congr fun g hg => ?_
    have hmem : g ∈ (op.stores ++ h.stores) ++ (op.reads ++ h.reads) := by
      rcases List.mem_append.mp hg with hg | hg
      · exact List.mem_append_left _ (List.mem_append_left _ hg)
      · exact List.mem_append_right _ (List.mem_append_left _ hg)
    exact hsame g (h₁.books.stands_of_hand hmem)
      (hs.books.entries g (hs.books.stands_of_hand hmem)).issued
  refine wp_handle.mpr (wp_bind.mpr (wp_conseq (raise_if_failed_idle.start (s := s₁) (t := t₁))
    (fun e s₂ t₂ hidle => ?_) (fun _ hout => hout) fun _ s₂ t₂ hidle => wp_change.mpr ⟨?_, ?_⟩))
  · -- the progress thread is dead: all is given back
    have h₂ : Has K.cfg T ({ stores := op.stores, reads := op.reads, named := names } ++ h)
        { s₂ with g3.active := s₂.g3.active.erase op.op_id } :=
      (h₁.idle hidle).idle ⟨rfl, rfl⟩
    dsimp only
    refine wp_bind.mpr (wp_change.mpr (wp_seq (wp_leak
      (wp_within remove_block_dependencies_moves h₂)) fun _ s₃ t₃ h₃ => wp_ite.mpr
      ⟨fun _ => ?_, fun _ => ?_⟩))
    · have h₃ : Has K.cfg T ({ reads := op.reads } ++ (.writes op.reservations ++ h)) s₃ :=
        h₃.rename fun _ hp => hnames (List.mem_append_left _ hp)
      exact wp_seq (g3_rollback_hands T h s₃ t₃ h₃.leak) fun _ s₄ t₄ h₄ => wp_raise.mpr h₄
    · have h₃ : Has K.cfg T ({ stores := op.stores } ++ (.claims op.claims ++ h)) s₃ :=
        h₃.rename fun _ hp => hnames (List.mem_append_right _ hp)
      exact wp_seq (g3_release_claims_hands T h s₃ t₃ h₃.leak) fun _ s₄ t₄ h₄ => wp_raise.mpr h₄
  · have hfits₂ : op.Fits K.cfg s₂.shelf.residencies := by
      rw [hidle.shelf]
      exact hfits₁
    exact ⟨(h₁.idle hidle).good.submit fun _ hcopy => (by cases hcopy),
      shelf_transfer ▸ (h₁.idle hidle).books.submit hnames hfits₂⟩
  · exact List.mem_append_right _ List.mem_cons_self

theorem EachRef.block_refs {p : TransferRef → Prop} (hblocks : EachRef p blocks) (key : BlockKey) :
    ∀ ref ∈ Kvcr.block_refs blocks key, p ref := by
  unfold Kvcr.block_refs
  cases hget : blocks.get? key with
  | none => exact fun ref href => absurd href List.not_mem_nil
  | some refs => exact hblocks refs (List.mem_map_of_mem (Dict.get?_eq_some.mp hget))

/-- A store that was started is in flight with all its blocks. -/
theorem wp_g3_start_store {op_id : OpId} {deadline : Time} (hs : Has K.cfg T h s)
    (hblocks : EachRef (Accepted K.cfg) blocks) :
    wp (drops K.cfg T h) (g3_start_store K op_id blocks deadline)
      (fun started s' _ => Has K.cfg T h s' ∧ (started = true →
        ∃ op, .g3_transfer op ∈ s'.progress.in_flight ∧ op.kind = .store ∧ op.blocks = blocks ∧
          op.reservations.map Prod.fst = blocks.keys)) s t := by
  refine wp_seq (wp_g3_reserve hs) fun reservations s₁ t₁ ⟨hr₁, hkeys⟩ => ?_
  have hrollback {s₂ : Core} {t₂ : List Ev} (hr₂ : Reserved K.cfg T h blocks reservations s₂) :
      wp (drops K.cfg T h) (do g3_rollback reservations; pure false : KM Bool)
        (fun started s' _ => Has K.cfg T h s' ∧ (started = true →
          ∃ op, .g3_transfer op ∈ s'.progress.in_flight ∧ op.kind = .store ∧ op.blocks = blocks ∧
            op.reservations.map Prod.fst = blocks.keys)) s₂ t₂ :=
    wp_seq (g3_rollback_hands T h s₂ t₂ hr₂.has) fun _ _ _ h₃ =>
      wp_pure.mpr ⟨h₃, fun hstarted => absurd hstarted Bool.false_ne_true⟩
  refine wp_ite.mpr ⟨fun _ => hrollback hr₁, fun hlength => ?_⟩
  have hall : reservations.map Prod.fst = blocks.keys := hkeys.eq_of_length (by
    rw [List.length_map, Dict.keys, List.length_map]
    exact not_not.mp hlength)
  refine have hrest := ?_; wp_ite.mpr ⟨fun _ => wp_seq (P := fun _ s₂ _ =>
    Reserved K.cfg T h blocks reservations s₂)
    (wp_conseq (g3_preflight_idle.start (s := s₁) (t := t₁))
      (fun _ _ _ hidle => (hr₁.idle hidle).has.leak) (fun _ hout => hout)
      fun _ _ _ hidle => hr₁.idle hidle) hrest,
      fun _ => wp_bind.mpr (wp_pure.mpr (hrest _ _ _ hr₁))⟩
  intro fits s₂ t₂ hr₂
  refine wp_ite.mpr ⟨fun _ => hrollback hr₂, fun _ => wp_bind.mpr (wp_read.mpr ?_)⟩
  cases hmemory : memory_chunks_all K.cfg (reservations.flatMap fun p => block_refs blocks p.1) with
  | error e => exact wp_bind.mpr (wp_raise.mpr hr₂.has.leak)
  | ok memory =>
    refine wp_bind.mpr (wp_pure.mpr (wp_seq (wp_leak (wp_idle (.forEach fun _ => .emit) hr₂.has))
      fun _ s₃ t₃ ⟨h₃, hidle⟩ => ?_))
    refine wp_seq (wp_g3_submit h₃ ?_ ⟨fun _ => ⟨hmemory, ?_, fun p _ => hblocks.block_refs p.1,
      fun p hp => ?_⟩, fun hkind => absurd rfl hkind⟩) fun _ s₄ t₄ h₄ =>
        wp_pure.mpr ⟨h₄.1, fun _ => ⟨_, h₄.2, rfl, rfl, hall⟩⟩
    · rw [G3TransferOp.names, List.append_nil]
      exact fun _ hp => hp
    · rw [hidle.residencies]
    · rw [hidle.residencies]
      exact hr₂.layout p hp

end Starts

/-! ## Reads that start -/

section Reads

variable {K : Knot} {T : Facts} {h : Hand} {s : Core} {t : List Ev}
  {blocks : Dict BlockKey (List TransferRef)}

/-- The residency has the pieces that are asked for. -/
def Core.has_pieces (s : Core) (blocks : Dict BlockKey (List TransferRef)) (c : BlockKey × G3Id) :
    Bool :=
  (layout_indices (s.g3_residencies c.2).layout ((block_refs blocks c.1).map (·.label))).isSome

/-- The blocks a read gets: those on disk that have the pieces it asks for. -/
def Core.readable (s : Core) (blocks : Dict BlockKey (List TransferRef)) :
    List (BlockKey × G3Id) :=
  (s.on_disk blocks.keys).filter (s.has_pieces blocks)

theorem Core.has_pieces_congr {s' : Core} {c : BlockKey × G3Id}
    (hsame : SameShape (s.g3_residencies c.2) (s'.g3_residencies c.2)) :
    s'.has_pieces blocks c = s.has_pieces blocks c := by
  unfold Core.has_pieces
  rw [hsame.layout]

theorem memory_chunks_all_append {cfg : Config} {refs refs' : List TransferRef}
    {chunks chunks' : List MemDescriptor} (hchunks : memory_chunks_all cfg refs = .ok chunks)
    (hchunks' : memory_chunks_all cfg refs' = .ok chunks') :
    memory_chunks_all cfg (refs ++ refs') = .ok (chunks ++ chunks') := by
  unfold memory_chunks_all at hchunks hchunks' ⊢
  rw [List.mapM_append]
  cases hfirst : refs.mapM (memory_chunks cfg) with
  | error e =>
    rw [hfirst] at hchunks
    cases hchunks
  | ok first =>
    cases hsecond : refs'.mapM (memory_chunks cfg) with
    | error e =>
      rw [hsecond] at hchunks'
      cases hchunks'
    | ok second =>
      rw [hfirst] at hchunks
      rw [hsecond] at hchunks'
      cases hchunks
      cases hchunks'
      exact congrArg Except.ok List.flatten_append

theorem Matched.nil {cfg : Config} {residencies : G3Id → G3Residency} :
    Matched cfg residencies blocks [] [] [] :=
  ⟨rfl, rfl, fun _ hp => absurd hp List.not_mem_nil, fun _ hp => absurd hp List.not_mem_nil⟩

/-- One more claim is accepted. -/
theorem Matched.concat {cfg : Config} {residencies : G3Id → G3Residency}
    {claims : List (BlockKey × G3Id)} {memory files chunks : List MemDescriptor}
    (hm : Matched cfg residencies blocks claims memory files)
    (hblocks : EachRef (Accepted cfg) blocks) {key : BlockKey} {g : G3Id} {indices : List Nat}
    (hfound : layout_indices (residencies g).layout ((block_refs blocks key).map (·.label)) =
      some indices)
    (hchunks : memory_chunks_all cfg (block_refs blocks key) = .ok chunks) :
    Matched cfg residencies blocks (claims ++ [(key, g)]) (memory ++ chunks)
      (files ++ read_files cfg (residencies g) indices) := by
  have hindices : read_indices (residencies g) (block_refs blocks key) = indices := by
    rw [read_indices, hfound, Option.getD_some]
  refine ⟨?_, ?_, fun p _ => hblocks.block_refs p.1, fun p hp => ?_⟩
  · rw [List.flatMap_append, List.flatMap_singleton]
    exact memory_chunks_all_append hm.memory hchunks
  · rw [List.flatMap_append, List.flatMap_singleton, hindices, ← hm.files]
  · rcases List.mem_append.mp hp with hp | hp
    · exact hm.found p hp
    · rw [List.mem_singleton.mp hp]
      exact hfound.trans (congrArg some hindices.symm)

/-- The claims that match are kept, the others given back. -/
theorem wp_g3_match_claims {claims : List (BlockKey × G3Id)} {rejected : List BlockKey}
    (hblocks : EachRef (Accepted K.cfg) blocks)
    (hs : Has K.cfg T (.claims claims ++ h) s) :
    wp (drops K.cfg T h) (g3_match_claims K blocks claims rejected) (fun m s' _ =>
      Has K.cfg T (.claims m.1 ++ h) s' ∧
        Matched K.cfg s'.g3_residencies blocks m.1 m.2.2.1 m.2.2.2 ∧
        m.1 = claims.filter (s.has_pieces blocks)) s t := by
  refine wp_foldEach (fun rest m s' _ =>
    Has K.cfg T (.claims (m.1 ++ rest) ++ h) s' ∧
      Matched K.cfg s'.g3_residencies blocks m.1 m.2.2.1 m.2.2.2 ∧
      m.1 ++ rest.filter (s.has_pieces blocks) = claims.filter (s.has_pieces blocks) ∧
      ∀ c ∈ m.1 ++ rest, SameShape (s.g3_residencies c.2) (s'.g3_residencies c.2)) ?_
    (fun m s' t' hI => ?_) _ _ _ _
    ⟨show Has K.cfg T (.claims ([] ++ claims) ++ h) s from hs, .nil, rfl, fun _ _ => .refl⟩
  · rintro ⟨key, g⟩ rest ⟨accepted, rejected, memory, files⟩ s' t' ⟨h', hmatched, hfilter, hshape⟩
    dsimp only at h' hmatched hfilter hshape ⊢
    have hpieces : s'.has_pieces blocks (key, g) = s.has_pieces blocks (key, g) :=
      Core.has_pieces_congr (hshape _ (List.mem_append_right _ List.mem_cons_self))
    refine wp_bind.mpr (wp_read.mpr ?_)
    split
    · next hnone =>
      -- what is given back is the one claim; the others keep their shape
      have hdropped : s.has_pieces blocks (key, g) = false := by
        rw [← hpieces, Core.has_pieces, hnone]
        rfl
      rw [List.filter_cons_of_neg (by rw [hdropped]; exact Bool.false_ne_true)] at hfilter
      have hperm : ((key, g) :: (accepted ++ rest)).Perm (accepted ++ (key, g) :: rest) :=
        List.perm_middle.symm
      have h' : Has K.cfg T (.claims [(key, g)] ++ (.claims (accepted ++ rest) ++ h)) s' :=
        h'.regroup (List.Perm.refl _) (List.Perm.refl _) ((hperm.map Prod.snd).append_right h.reads)
          (fun _ hg => hg) (hperm.append_right h.named).subset
      refine wp_seq (wp_leak (g3_release_claims_hands.frozen h')) fun _ s₁ t₁ ⟨h₁, hsame⟩ => ?_
      have hsame : ∀ c ∈ accepted ++ rest,
          SameShape (s'.g3_residencies c.2) (s₁.g3_residencies c.2) := by
        intro c hc
        have hmem : c.2 ∈ h.stores ++ ((accepted ++ rest).map Prod.snd ++ h.reads) :=
          List.mem_append_right _ (List.mem_append_left _ (List.mem_map_of_mem hc))
        refine hsame c.2 (h₁.books.stands_of_hand hmem) ?_
        exact (h'.leak.books.entries c.2 (h'.leak.books.stands_of_hand hmem)).issued
      refine wp_pure.mpr ⟨h₁,
        hmatched.congr fun p hp => hsame p (List.mem_append_left _ hp), hfilter,
        fun c hc => ?_⟩
      have hold := hshape c (List.append_subset.mpr ⟨List.subset_append_left _ _, fun _ hd =>
        List.mem_append_right _ (List.mem_cons_of_mem _ hd)⟩ hc)
      exact ⟨(hsame c hc).layout.trans hold.layout, (hsame c hc).slots.trans hold.slots⟩
    · next indices hfound =>
      have hkept : s.has_pieces blocks (key, g) = true := by
        rw [← hpieces, Core.has_pieces, hfound]
        rfl
      rw [List.filter_cons_of_pos hkept] at hfilter
      cases hchunks : memory_chunks_all K.cfg (block_refs blocks key) with
      | error e => exact wp_bind.mpr (wp_raise.mpr h'.leak)
      | ok chunks =>
        refine wp_bind.mpr (wp_pure.mpr (wp_pure.mpr ⟨?_,
          hmatched.concat hblocks hfound hchunks, ?_,
          fun c hc => hshape c ?_⟩))
        · dsimp only
          rw [List.append_assoc]
          exact h'
        · rw [List.append_assoc]
          exact hfilter
        · rw [List.append_assoc] at hc
          exact hc
  · obtain ⟨h', hmatched, hfilter, -⟩ := hI
    rw [List.append_nil] at h'
    rw [List.filter_nil, List.append_nil] at hfilter
    exact ⟨h', hmatched, hfilter⟩

/-- A read that was started is in flight with all blocks it can get. -/
theorem wp_g3_start_read {kind : G3Kind} {op_handle : OpHandle} {deadline : Time}
    (hkind : kind ≠ .store) (hblocks : EachRef (Accepted K.cfg) blocks) (hs : Has K.cfg T h s) :
    wp (drops K.cfg T h) (g3_start_read K kind op_handle blocks deadline) (fun started s' _ =>
      Has K.cfg T h s' ∧ (started = true → s.readable blocks = [] ∨
        ∃ op, .g3_transfer op ∈ s'.progress.in_flight ∧ op.kind = kind ∧ op.blocks = blocks ∧
          op.claims = s.readable blocks)) s t := by
  refine wp_seq (wp_g3_claim hs) fun claimed s₁ t₁ ⟨h₁, hclaims, hshape⟩ => ?_
  refine wp_seq (wp_g3_match_claims hblocks h₁) fun m s₂ t₂ ⟨h₂, hmatched, hfilter⟩ => ?_
  obtain ⟨claims, rejected, memory, files⟩ := m
  have hclaims : claims = s.readable blocks := by
    rw [Core.readable, ← hclaims]
    exact hfilter.trans (List.filter_congr fun c _ => Core.has_pieces_congr (hshape c.2))
  dsimp only at h₂ hmatched ⊢
  have hrelease {s₃ : Core} {t₃ : List Ev}
      (h₃ : Has K.cfg T (.claims claims ++ h) s₃) :
      wp (drops K.cfg T h) (do g3_release_claims K claims; pure false : KM Bool)
        (fun started s' _ => Has K.cfg T h s' ∧ (started = true → s.readable blocks = [] ∨
          ∃ op, .g3_transfer op ∈ s'.progress.in_flight ∧ op.kind = kind ∧ op.blocks = blocks ∧
            op.claims = s.readable blocks)) s₃ t₃ :=
    wp_seq (g3_release_claims_hands T h s₃ t₃ h₃) fun _ _ _ h₄ =>
      wp_pure.mpr ⟨h₄, fun hstarted => absurd hstarted Bool.false_ne_true⟩
  refine wp_ite.mpr ⟨fun _ => hrelease h₂, fun _ => ?_⟩
  -- what follows the keys that were rejected
  refine have hrest := ?_; wp_ite.mpr ⟨fun _ => wp_bind.mpr (wp_read.mpr (wp_unless_then
    (P := fun s₃ _ => DiskIdle s₂ s₃) (fun _ => wp_change.mpr ⟨rfl, rfl⟩)
    (fun _ => refl_of DiskIdle s₂) fun s₃ t₃ hidle =>
      wp_seq (P := fun _ s₄ _ => DiskIdle s₂ s₄) (wp_conseq
      (complete_idle s₂ s₃ t₃ hidle) (fun _ _ _ hidle => (h₂.idle hidle).leak) (fun _ hout => hout)
      fun _ _ _ hidle => hidle) hrest)), fun _ => hrest () s₂ t₂ (refl_of DiskIdle s₂)⟩
  intro _ s₃ t₃ hidle
  have h₃ := h₂.idle hidle
  rw [← hidle.residencies] at hmatched
  refine wp_ite.mpr ⟨fun hempty => wp_pure.mpr ⟨h₃.leak, fun _ => .inl (hclaims ▸ hempty)⟩,
    fun _ => wp_ite.mpr ⟨fun _ => hrelease h₃, fun _ => wp_bind.mpr (wp_read.mpr ?_)⟩⟩
  refine wp_if_then (P := fun s₄ _ => DiskIdle s₃ s₄) (fun _ => wp_change.mpr ⟨rfl, rfl⟩)
    (fun _ => refl_of DiskIdle s₃) fun s₄ t₄ hidle₄ => ?_
  rw [← hidle₄.residencies] at hmatched
  refine wp_seq (wp_g3_submit (h₃.idle hidle₄) (fun _ hp => hp)
    ⟨fun hstore => absurd hstore hkind, fun _ => hmatched⟩)
    fun _ s₅ t₅ h₅ => wp_pure.mpr ⟨h₅.1, fun _ => .inr ⟨_, h₅.2, rfl, rfl, hclaims⟩⟩

end Reads

/-! ## Transfers that have ended -/

section Ended

variable {K : Knot} {T : Facts} {h : Hand} {s : Core} {t : List Ev}

theorem wp_block_record {W : Watch Core Err Ev} {key : BlockKey} :
    wp W (block_record key) (fun record s' _ => s'.record key = some record) s t := by
  refine wp_bind.mpr (wp_read.mpr ?_)
  split
  · next hrecord => exact wp_pure.mpr hrecord
  · exact wp_bind.mpr (wp_change.mpr (wp_pure.mpr (Dict.get?_set_self _ _ _)))

theorem g3_commit_hands (hg3 : K.cfg.g3.isSome) {key : BlockKey} {g : G3Id} :
    Hands K.cfg { stores := [g], landed := [g], named := [(key, g)] } (fun _ => {})
      (g3_commit K key g) := by
  refine .read fun s => .ite (.bind (.change fun _ => ⟨rfl, rfl⟩) fun _ T h s t hs => ?_) .raise
  refine wp_seq (wp_leak (wp_and (wp_within block_record_moves hs) wp_block_record))
    fun record s t ⟨hs, hrecord⟩ => ?_
  refine wp_bind.mpr (wp_read.mpr (wp_ite.mpr ⟨fun _ => wp_raise.mpr hs.leak, fun hnone => ?_⟩))
  have hnone : (s.recs record).g3 = none := Option.not_isSome_iff_eq_none.mp hnone
  refine wp_bind.mpr (wp_modify_rec.mpr ?_)
  have hcommitted : Has K.cfg T h
      { s with recs := Function.update s.recs record { s.recs record with g3 := some g } } := by
    refine ⟨⟨hs.good.fit.update rfl rfl (fun hpools => (hs.good.fit.pools hpools).records record)
      fun hdisk => ?_, hs.good.free, hs.good.residencies, hs.good.copies⟩,
      shelf_hold ▸ hs.books.commit hrecord hnone⟩
    rw [hdisk] at hg3
    cases hg3
  refine wp_seq (wp_within residency_observer_moves hcommitted) fun _ s₁ t₁ h₁ => ?_
  refine wp_seq (wp_idle g3_make_evictable_idle h₁) fun _ s₂ t₂ h₂ => ?_
  exact wp_within publish_inventory_moves h₂.1

theorem g3_finish_hands (hK : Tied K (books K.cfg)) (hg3 : K.cfg.g3.isSome) {op : G3TransferOp} :
    Hands K.cfg op.hand (fun _ => {}) (g3_finish K op) := by
  have hclaims {T : Facts} {h : Hand} {s : Core} (hs : Has K.cfg T (op.hand ++ h) s) :
      Has K.cfg T (.claims op.claims ++ h) s :=
    Has.leak (e := { stores := op.stores, landed := op.landed })
      (hs.rename (List.subset_append_right _ _))
  unfold g3_finish
  split
  · next hkind =>
    by_cases hsuccess : op.success = true
    · rw [if_pos hsuccess]
      have hlanded : op.landed = op.stores := if_pos ⟨hkind, hsuccess⟩
      refine .bind (.less (.forEach (fun reservations =>
        { Hand.writes reservations with landed := reservations.map Prod.snd })
        (fun _ rest => (g3_commit_hands hg3).frame
          { Hand.writes rest with landed := rest.map Prod.snd }) op.reservations)
        fun hs => ?_) fun _ =>
        .of_moves (retire_local_sources_moves hK) {}
      · unfold G3TransferOp.hand at hs
        rw [hlanded] at hs
        exact Has.leak (e := { reads := op.reads }) (hs.rename (List.subset_append_left _ _))
    · rw [if_neg hsuccess]
      refine .bind (.less g3_rollback_hands fun hs =>
        Has.leak (e := { reads := op.reads, landed := op.landed })
          (hs.rename (List.subset_append_left _ _))) fun _ => ?_
      split
      · exact .of_moves (recover_store_failure_moves hK) {}
      · exact .raise
  · exact .read fun s => .less (.ensure_within (complete_fill_moves hK) g3_release_claims_hands)
      hclaims
  · exact .bind (.less (.ensure_within (.ite record_access_moves .pure) g3_release_claims_hands)
      hclaims) fun _ => .ite .pure (.of_idle complete_idle {})

/-- What the ended transfers among the items had. -/
def items_hand (items : List Item) : Hand where
  stores := (items.filterMap Item.ended).flatMap G3TransferOp.stores
  reads := (items.filterMap Item.ended).flatMap G3TransferOp.reads
  landed := (items.filterMap Item.ended).flatMap G3TransferOp.landed
  named := (items.filterMap Item.ended).flatMap G3TransferOp.names

theorem items_hand_cons {item : Item} {items : List Item} :
    items_hand (item :: items) =
      (item.ended.map G3TransferOp.hand).getD {} ++ items_hand items := by
  unfold items_hand
  rw [List.filterMap_cons]
  cases item.ended <;> rfl

theorem g3_poll_item_hands (hK : Tied K (books K.cfg)) (hg3 : K.cfg.g3.isSome)
    {op : G3TransferOp} :
    Hands K.cfg (((Item.op (.g3_transfer op)).ended.map G3TransferOp.hand).getD {})
      (fun _ => {}) (g3_poll_item K op) := by
  refine .read fun s => ?_
  by_cases hgiven : op.uncertain ∧ op.transfer_id.isSome
  · rw [if_pos hgiven]
    have hnone : (Item.op (.g3_transfer op)).ended = none := if_pos hgiven
    rw [hnone]
    exact .ite (.of_idle complete_idle {}) .raise
  · rw [if_neg hgiven]
    have hsome : (Item.op (.g3_transfer op)).ended = some op := if_neg hgiven
    rw [hsome]
    exact .ite (.bind (.change fun _ => ⟨rfl, rfl⟩) fun _ =>
      .ensure (g3_finish_hands hK hg3) remove_block_dependencies_moves) .raise

theorem g3_poll_main_hands (hK : Tied K (books K.cfg)) (hg3 : K.cfg.g3.isSome)
    {items : List Item} : Hands K.cfg (items_hand items) (fun _ => {}) (g3_poll_main K items) := by
  refine Hands.foldEach (fun unhandled item items => ?_) items []
  rw [items_hand_cons]
  split
  · exact .bind ((g3_poll_item_hands hK hg3).frame _) fun _ => .pure
  · exact .less .pure fun hs => Has.leak ((Hand.append_assoc _ _ _).symm ▸ hs)

theorem take_completed_hands {cfg : Config} {available : Nat} :
    Hands cfg {} items_hand (take_completed available) := by
  intro T h s t hs
  refine wp_bind.mpr (wp_read.mpr (wp_bind.mpr (wp_change.mpr (wp_pure.mpr ⟨hs.good.take, ?_⟩))))
  have hended : s.shelf.ended = (s.progress.completed.take (min available batch_size)).filterMap
      Item.ended ++ (s.progress.completed.drop (min available batch_size)).filterMap
        Item.ended := by
    rw [← List.filterMap_append, List.take_append_drop]
    rfl
  exact hs.books.take hended

theorem poll_disk_hands (hK : Tied K (books K.cfg)) {available : Nat} :
    Hands K.cfg {} (fun _ => {}) (poll_disk K available) := by
  refine .bind take_completed_hands fun items => ?_
  by_cases hg3 : K.cfg.g3.isSome
  · rw [if_pos hg3]
    exact g3_poll_main_hands hK hg3
  · rw [if_neg hg3]
    exact fun T h s t hs => wp_pure.mpr hs.leak

/-- The disk tier's part of a poll. -/
theorem poll_disk_books (hK : Tied K (books K.cfg))
    (hground : Tied K (ground K.cfg (books K.cfg).P))
    {available : Nat} : Gives (books K.cfg).G (books K.cfg).Q
      (CopiesDescribed K.cfg (books K.cfg).P) (poll_disk K available) :=
  (poll_disk_hands hK).gives (poll_disk_gives hground fun _ => trivial)

end Ended

/-! ## Runs -/

section Calls

variable {K : Knot}

/-- The calls into the disk are within the books, if the references they come with are to
memory. -/
theorem disk_calls_books (hown : ∀ ref, Own K.cfg (books K.cfg).P ref → Accepted K.cfg ref)
    (hframework : ∀ ref, Validated K.cfg ref → Accepted K.cfg ref) :
    DiskCalls K (books K.cfg) := by
  have hread {kind : G3Kind} {op_handle : OpHandle} {blocks : Dict BlockKey (List TransferRef)}
      {deadline : Time} (hkind : kind ≠ .store) (hblocks : EachRef (Accepted K.cfg) blocks) :
      Moves (books K.cfg).R (g3_start_read K kind op_handle blocks deadline) :=
    Hands.moves (fun T h s t hs => wp_mono (wp_g3_start_read hkind hblocks hs) fun _ _ _ h' => h'.1)
      g3_start_read_moves
  refine ⟨g3_make_evictable_idle.mono fun _ _ => DiskIdle.within, fun hsource => ?_,
    fun hblocks hs => ?_, fun hblocks => ?_⟩
  · refine Hands.moves (fun T h s t hs => wp_mono (wp_g3_start_store hs ?_) fun _ _ _ h' => h'.1)
      g3_start_store_moves
    exact each_ref_empty.set fun ref href => hown ref (hsource ref href)
  · exact (hread (by decide) fun refs hrefs ref href =>
      hown ref (hblocks refs hrefs ref href)).later
      ((books K.cfg).take_handle hs)
  · exact hread (by decide) fun refs hrefs ref href => hframework ref (hblocks refs hrefs ref href)

end Calls

section Events

variable {cfg : Config} {env : Env} {T : Facts} {s s' : Core}

/-- What an iteration makes of a disk transfer. What it reports before the end stays in flight. -/
theorem G3TransferOp.progress_cases (op : G3TransferOp) (i : TransferInput) :
    (∃ transfer_id failure_latched uncertain success, (op.progress i).op =
      { op with
        transfer_id := transfer_id, failure_latched := failure_latched
        uncertain := uncertain, success := success }) ∧
      (∀ other ∈ (op.progress i).outbound, (Item.op (.g3_transfer other)).ended = none) ∧
      ((op.progress i).done = true → (op.progress i).op.transfer_id = none) := by
  have hpoll (op' : G3TransferOp) (hsome : op'.transfer_id.isSome = true) :
      (∃ transfer_id failure_latched uncertain success, (op'.poll i).op =
        { op' with
          transfer_id := transfer_id, failure_latched := failure_latched
          uncertain := uncertain, success := success }) ∧
        (∀ other ∈ (op'.poll i).outbound, (Item.op (.g3_transfer other)).ended = none) ∧
        ((op'.poll i).done = true → (op'.poll i).op.transfer_id = none) := by
    unfold G3TransferOp.poll
    dsimp only
    split
    · split
      · refine ⟨⟨_, _, _, _, rfl⟩, fun other hother => ?_,
          fun hdone => absurd hdone Bool.false_ne_true⟩
        rw [List.mem_singleton.mp hother]
        exact if_pos ⟨rfl, hsome⟩
      · exact ⟨⟨_, _, _, _, rfl⟩, fun other hother => absurd hother List.not_mem_nil,
          fun hdone => absurd hdone Bool.false_ne_true⟩
    · exact ⟨⟨_, _, _, _, rfl⟩, fun other hother => absurd hother List.not_mem_nil, fun _ => rfl⟩
  unfold G3TransferOp.progress
  split
  · next hid => exact hpoll op (by rw [hid]; rfl)
  · next hid =>
    split
    · exact ⟨⟨_, _, _, _, rfl⟩, fun other hother => absurd hother List.not_mem_nil, fun _ => hid⟩
    · split
      · exact ⟨⟨_, _, _, _, rfl⟩, fun other hother => absurd hother List.not_mem_nil, fun _ => hid⟩
      · obtain ⟨⟨a, b, c, d, hop⟩, hrest⟩ := hpoll { op with
          transfer_id := some _, failure_latched := _ } rfl
        exact ⟨⟨a, b, c, d, hop⟩, hrest⟩

/-- What an iteration makes of an operation that is no disk transfer is none. -/
theorem progress_other {op op' : ProgressOp} {outbound : List ProgressOp}
    {landed : List TransferRef} {done : Bool} {input : ProgressInput}
    (hstep : op.progress cfg input = some (op', outbound, landed, done))
    (hop : op.transfer = none) :
    op'.transfer = none ∧ ∀ other ∈ op' :: outbound, (Item.op other).ended = none := by
  have hmap {α : Type} {f : α → ProgressOp} {first : α} {rest : List α}
      (hf : ∀ a, (Item.op (f a)).ended = none) :
      ∀ other ∈ f first :: rest.map f, (Item.op other).ended = none := by
    rw [← List.map_cons]
    intro other hother
    obtain ⟨a, -, rfl⟩ := List.mem_map.mp hother
    exact hf a
  cases op with
  | g3_transfer op => cases hop
  | local_copy op =>
    cases input with
    | transfer i =>
      cases hstep
      exact ⟨rfl, hmap fun _ => rfl⟩
    | _ => cases hstep
  | target_pull op =>
    cases input with
    | target i =>
      cases hstep
      exact ⟨rfl, hmap fun _ => rfl⟩
    | _ => cases hstep
  | source_write op =>
    cases input with
    | source i status =>
      cases hstep
      exact ⟨rfl, hmap fun _ => rfl⟩
    | _ => cases hstep

/-- An iteration over the operation at an index, and what is in flight before and after it. -/
theorem in_flight_advance {op : ProgressOp} (op' : ProgressOp) {index : Nat} (done : Bool)
    (hop : s.progress.in_flight[index]? = some op) :
    ∃ before after, s.progress.in_flight = before ++ op :: after ∧
      (if done then s.progress.in_flight.eraseIdx index else s.progress.in_flight.set index op') =
        before ++ (if done then [] else [op']) ++ after := by
  obtain ⟨hlt, hget⟩ := List.getElem?_eq_some_iff.mp hop
  refine ⟨s.progress.in_flight.take index, s.progress.in_flight.drop (index + 1), ?_, ?_⟩
  · rw [← hget, ← List.drop_eq_getElem_cons hlt, List.take_append_drop]
  · cases done
    · rw [if_neg Bool.false_ne_true, if_neg Bool.false_ne_true, List.append_assoc,
        List.set_eq_take_append_cons_drop, if_pos hlt]
      rfl
    · rw [if_pos rfl, if_pos rfl, List.append_nil, List.eraseIdx_eq_take_drop_succ]

/-- The part of the shelf that an iteration changes, before and after. -/
theorem shelf_advance {op : ProgressOp} (op' : ProgressOp)
    (outbound : List ProgressOp) {index : Nat}
    (done : Bool) (hop : s.progress.in_flight[index]? = some op) :
    ∃ before after, s.shelf.transfers = before ++ op.transfer.toList ++ after ∧
      Core.shelf
        { s with
          progress.in_flight := if done then s.progress.in_flight.eraseIdx index
            else s.progress.in_flight.set index op'
          progress.completed := s.progress.completed ++
            (outbound.map Item.op ++ if done then [Item.op op'] else []) } =
        { s.shelf with
          transfers := before ++ (if done then [] else op'.transfer.toList) ++ after
          ended := s.shelf.ended ++ outbound.filterMap (fun other => (Item.op other).ended) ++
            (if done then (Item.op op').ended.toList else []) } := by
  obtain ⟨before, after, hflight, hnext⟩ := in_flight_advance op' done hop
  refine ⟨before.filterMap ProgressOp.transfer, after.filterMap ProgressOp.transfer, ?_, ?_⟩
  · change s.progress.in_flight.filterMap _ = _
    rw [hflight, List.filterMap_append, List.filterMap_cons, List.append_assoc]
    cases op.transfer <;> rfl
  · unfold Core.shelf
    dsimp only
    rw [hnext]
    simp only [List.filterMap_append, List.filterMap_map, List.append_assoc]
    cases done
    · simp only [Bool.false_eq_true, if_false, List.filterMap_cons, List.filterMap_nil]
      cases op'.transfer <;> rfl
    · simp only [if_true, List.filterMap_cons, List.filterMap_nil]
      cases (Item.op op').ended <;> rfl

/-- An iteration of the progress thread hands a transfer on, if a store that it reports
successful was one. -/
theorem advance_books {h : Hand} {index : Nat} {input : ProgressInput}
    (hb : Books cfg T h s.shelf) (hend : (advance cfg index input s).EndsIn s')
    (hlanded : ∀ g ∈ s'.shelf.ended.flatMap G3TransferOp.landed, T.stored g) :
    Books cfg T h s'.shelf := by
  rcases advance_ends hend with rfl | ⟨op, op', outbound, landed, done, hop, hstep, rfl⟩
  · exact hb
  obtain ⟨before, after, htransfers, hshelf⟩ := shelf_advance op' outbound done hop
  rw [hshelf] at hlanded ⊢
  cases hkind : op.transfer with
  | none =>
    -- the books are not about the operation
    obtain ⟨hother, hended⟩ := progress_other hstep hkind
    have hout : outbound.filterMap (fun other => (Item.op other).ended) = [] :=
      List.filterMap_eq_nil_iff.mpr fun other hmem => hended other (List.mem_cons_of_mem _ hmem)
    rw [hkind, Option.toList_none, List.append_nil] at htransfers
    simp only [hout, hended op' List.mem_cons_self, hother, Option.toList_none, ite_self,
      List.append_nil, ← htransfers]
    exact hb
  | some transfer =>
    obtain rfl : op = .g3_transfer transfer := by
      cases op with
      | g3_transfer op => exact congrArg _ (Option.some.inj hkind)
      | _ => cases hkind
    cases input with
    | target i => cases hstep
    | source i status => cases hstep
    | transfer i =>
      cases hstep
      obtain ⟨⟨_, _, _, _, hsame⟩, hout, hdone⟩ := transfer.progress_cases i
      generalize transfer.progress i = step at hlanded hsame hout hdone ⊢
      have hout : (step.outbound.map ProgressOp.g3_transfer).filterMap
          (fun other => (Item.op other).ended) = [] := by
        rw [List.filterMap_map]
        exact List.filterMap_eq_nil_iff.mpr hout
      have hlast : (if step.done then (Item.op (.g3_transfer step.op)).ended.toList else []) =
          if step.done then [step.op] else [] := by
        cases hstep : step.done
        · rfl
        · have hended : (Item.op (.g3_transfer step.op)).ended = some step.op :=
            if_neg fun hgiven => by
            rw [hdone hstep] at hgiven
            exact absurd hgiven.2 Bool.false_ne_true
          rw [if_pos rfl, if_pos rfl, hended, Option.toList_some]
      rw [hout, hlast, List.append_nil] at hlanded ⊢
      -- the transfer is where it was, or has ended; what it is about is the same
      have hperm {α : Type} [DecidableEq α] {f : G3TransferOp → List α}
          (hf : f step.op = f transfer) :
          ((before ++ (if step.done then [] else [step.op]) ++ after ++ (s.shelf.ended ++
            if step.done then [step.op] else [])).flatMap f).Perm
              ((s.shelf.transfers ++ s.shelf.ended).flatMap f) := by
        rw [htransfers]
        refine List.perm_iff_count.mpr fun g => ?_
        cases step.done <;>
          simp only [List.count_append, List.flatMap_append, List.flatMap_cons, List.flatMap_nil,
            ProgressOp.transfer, Option.toList_some, if_true, Bool.false_eq_true, if_false, hf,
            List.append_nil]
        omega
      refine hb.pass (fun f hf => ?_) (hperm (by rw [hsame]; rfl)).subset hlanded
        fun other hother => ?_
      · rcases hf with rfl | rfl
        · exact hperm (by rw [hsame]; rfl)
        · exact hperm (by rw [hsame]; rfl)
      · have hfits := hb.fits transfer (by rw [htransfers]; simp [ProgressOp.transfer])
        rw [htransfers]
        rcases List.mem_append.mp hother with hother | hother
        · rcases List.mem_append.mp hother with hother | hother
          · exact .inl (List.mem_append_left _ (List.mem_append_left _ hother))
          · cases hstep : step.done
            · rw [hstep, if_neg Bool.false_ne_true] at hother
              rw [List.mem_singleton.mp hother, hsame]
              exact .inr ⟨fun hkind => ⟨(hfits.store hkind).memory, (hfits.store hkind).files,
                (hfits.store hkind).accepted, (hfits.store hkind).layout⟩, hfits.read⟩
            · rw [hstep, if_pos rfl] at hother
              cases hother
        · exact .inl (List.mem_append_right _ hother)

/-- A request of a peer is no transfer. -/
theorem queue_source_pin_books {h : Hand} {r : SourceRequest} (hb : Books cfg T h s.shelf)
    (hend : (queue_source_pin r s).EndsIn s') : Books cfg T h s'.shelf := by
  refine ends_of_wp (P := fun s' => Books cfg T h s'.shelf) ?_ hend
  refine wp_bind.mpr (wp_read.mpr (wp_ite.mpr ⟨fun _ => wp_change.mpr ?_, fun _ => wp_pure.mpr hb⟩))
  unfold Core.shelf
  dsimp only
  rw [List.filterMap_append, List.filterMap_cons_none rfl, List.filterMap_nil, List.append_nil]
  exact hb

/-- A call of the framework keeps the books. -/
theorem call_books (hown : ∀ ref, Own cfg (books cfg).P ref → Accepted cfg ref)
    (hframework : ∀ ref, Validated cfg ref → Accepted cfg ref) {fuel : Nat} {c : Call} :
    Moves (books cfg).R (c.run (knot cfg env fuel)) := by
  obtain ⟨fuel', resume, fail, heq, hK, hground⟩ : ∃ fuel' resume fail,
      knot cfg env fuel = ⟨cfg, env, fuel', resume, fail⟩ ∧
        Tied ⟨cfg, env, fuel', resume, fail⟩ (books cfg) ∧
        Tied ⟨cfg, env, fuel', resume, fail⟩ (ground cfg (books cfg).P) := by
    have hknot : ∃ fuel' resume fail, knot cfg env fuel = ⟨cfg, env, fuel', resume, fail⟩ ∧
        Tied ⟨cfg, env, fuel', resume, fail⟩ (books cfg) :=
      knot_tied (fun _ _ _ => disk_calls_books hown hframework) fuel
    obtain ⟨fuel', resume, fail, heq, hK⟩ := hknot
    obtain ⟨fuel'', resume'', fail'', heq', hground⟩ :=
      tied_knot env (ground cfg (books cfg).P) fuel
    rw [heq] at heq'
    cases heq'
    exact ⟨fuel', resume, fail, heq, hK, hground⟩
  rw [heq]
  refine call_moves hK (fun _ _ _ hc => ?_) (fun _ hc => ?_) fun available hc => ?_
  · rw [hc]
    exact submit_hint_moves (K := ⟨cfg, env, fuel', resume, fail⟩) (F := books cfg)
      fun _ => .change fun _ => DiskIdle.within ⟨rfl, rfl⟩
  · rw [hc]
    exact .change fun _ => DiskIdle.within ⟨rfl, rfl⟩
  · rw [hc]
    exact .bind (poll_completed_moves hK (poll_disk_books hK hground)) fun _ => .pure

/-- Every event keeps the books, if a store that is reported successful was one. -/
theorem event_books (hown : ∀ ref, Own cfg (books cfg).P ref → Accepted cfg ref)
    (hframework : ∀ ref, Validated cfg ref → Accepted cfg ref) {event : Event}
    (hs : Has cfg T {} s) (hend : (event.run cfg env s).EndsIn s')
    (hlanded : ∀ g ∈ s'.shelf.ended.flatMap G3TransferOp.landed, T.stored g) :
    Has cfg T {} s' := by
  refine ⟨event_good hs.good hend, ?_⟩
  have hwithin (hm : Moves (books cfg).R (event.run cfg env)) : Books cfg T {} s'.shelf :=
    (hm.ends hend hs.good).2 T {} hs.books
  cases event with
  | progress index input => exact advance_books hs.books hend hlanded
  | request r => exact queue_source_pin_books hs.books hend
  | reader a => exact hwithin reader_act_moves
  | call fuel c => exact hwithin (call_books hown hframework)

end Events

end Kvcr
