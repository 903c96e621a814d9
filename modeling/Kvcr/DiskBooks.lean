/-
The books of the disk tier.

A disk slot is free, or in the hands of a call, or it belongs to a residency: one that a store
has reserved and is writing, or one that a record holds and reads have claimed. The accounts
are spread over the free list, the records, the claim counts, and the operations that are in
flight or have ended and wait to be polled. Put together they are a ledger (`Kvcr.Lib.Ledger`),
and the code keeps it sound: this is what lets a read rely on the bytes it was promised.

The books also say that every transfer in flight fits the residencies it is about, and they
carry what is known of the contents of the disk (`Facts`), whatever that is: a fact about the
slots of a residency once it has some, which block it is of, and that a block is stored before a
record holds it. What is known is not in the state of the core; who reads the books decides.

A call may be interrupted by an exception at almost any place. What it has in hand is lost
then, and the rest of the books is right all the same; so everything here is stated for a call
with something in hand, and for what is left of it if it raises.
-/
import Kvcr.DiskContents
import Kvcr.Lib.Ledger

set_option autoImplicit false

namespace Kvcr

open Prog

/-! ## The accounts -/

/-- The disk transfer an operation is. -/
def ProgressOp.transfer : ProgressOp → Option G3TransferOp
  | .g3_transfer op => some op
  | _ => none

/-- The ended disk transfer an item is. A transfer that was given up is reported too, but it
stays in flight. -/
def Item.ended : Item → Option G3TransferOp
  | .op (.g3_transfer transfer) =>
    if transfer.uncertain ∧ transfer.transfer_id.isSome then none else some transfer
  | _ => none

namespace G3TransferOp

/-- The residencies a store writes. -/
def stores (op : G3TransferOp) : List G3Id := op.reservations.map Prod.snd

/-- The residencies a read has claimed. -/
def reads (op : G3TransferOp) : List G3Id := op.claims.map Prod.snd

/-- The residencies a transfer is about, with the blocks they are of. -/
def names (op : G3TransferOp) : List (BlockKey × G3Id) := op.reservations ++ op.claims

/-- The residencies a successful store has written. -/
def landed (op : G3TransferOp) : List G3Id :=
  if op.kind = .store ∧ op.success then op.stores else []

/-- The transfer fits the residencies it is about. -/
structure Fits (cfg : Config) (residencies : G3Id → G3Residency) (op : G3TransferOp) : Prop where
  store : op.kind = .store → op.StoreFits cfg residencies
  read : op.kind ≠ .store → op.ReadFits cfg residencies

end G3TransferOp

/-- The part of the state the books are about. -/
structure Shelf where
  free : List Nat
  residencies : G3Id → G3Residency
  next : G3Id
  records : BlockKey → Option RecId
  next_record : RecId
  held : RecId → Option G3Id
  transfers : List G3TransferOp
  ended : List G3TransferOp

def Core.shelf (s : Core) : Shelf where
  free := s.g3.free_slots
  residencies := s.g3_residencies
  next := s.next_g3
  records := s.record
  next_record := s.next_rec
  held record := (s.recs record).g3
  transfers := s.progress.in_flight.filterMap ProgressOp.transfer
  ended := s.progress.completed.filterMap Item.ended

/-- What a call has in hand: slots, residencies it writes, residencies it reads, which of those
written are known to be, and which blocks residencies are known to be of. -/
@[ext] structure Hand where
  slots : List Nat := []
  stores : List G3Id := []
  reads : List G3Id := []
  landed : List G3Id := []
  named : List (BlockKey × G3Id) := []

instance append_hand : Append Hand where
  append h h' :=
    { slots := h.slots ++ h'.slots
      stores := h.stores ++ h'.stores
      reads := h.reads ++ h'.reads
      landed := h.landed ++ h'.landed
      named := h.named ++ h'.named }

theorem Hand.append_assoc (h h' h'' : Hand) : h ++ h' ++ h'' = h ++ (h' ++ h'') :=
  Hand.ext (List.append_assoc ..) (List.append_assoc ..) (List.append_assoc ..)
    (List.append_assoc ..) (List.append_assoc ..)

/-- Reservations in hand. -/
abbrev Hand.writes (reservations : List (BlockKey × G3Id)) : Hand where
  stores := reservations.map Prod.snd
  named := reservations

/-- Claims in hand. -/
abbrev Hand.claims (claims : List (BlockKey × G3Id)) : Hand where
  reads := claims.map Prod.snd
  named := claims

/-- An ended transfer is in the hands of who polled it. -/
def G3TransferOp.hand (op : G3TransferOp) : Hand where
  stores := op.stores
  reads := op.reads
  landed := op.landed
  named := op.names

/-- The ledger of the disk, with what is in hand. -/
def Shelf.ledger (a : Shelf) (h : Hand) : Ledger RecId G3Id Nat where
  loose := h.slots ++ a.free
  reserved := h.stores ++ (a.transfers ++ a.ended).flatMap G3TransferOp.stores
  readers := h.reads ++ (a.transfers ++ a.ended).flatMap G3TransferOp.reads
  held := a.held
  pins g := (a.residencies g).claim_count
  slots g := (a.residencies g).slots

theorem Shelf.stands_of_store {a : Shelf} {h : Hand} {g : G3Id} (hg : g ∈ h.stores) :
    (a.ledger h).Stands g :=
  .inr (List.mem_append_left _ hg)

/-- What is known of residencies: of the layout and the slots one has or will have, which block
one is of, and that one was stored. -/
structure Facts where
  shape : G3Id → List Label → List Nat → Prop
  owner : G3Id → BlockKey → Prop
  stored : G3Id → Prop

/-- A residency whose slots are its own. -/
structure Entry (cfg : Config) (T : Facts) (a : Shelf) (g : G3Id) : Prop where
  issued : g < a.next
  inside : ∀ slot ∈ (a.residencies g).slots, slot < cfg.g3_total_slots
  sized : WellSized cfg (a.residencies g)
  shape : T.shape g (a.residencies g).layout (a.residencies g).slots

/-- Every block has a record of its own, which holds a residency of that block. -/
structure Table (owner : G3Id → BlockKey → Prop) (records : BlockKey → Option RecId)
    (next_record : RecId) (held : RecId → Option G3Id) : Prop where
  known : ∀ key r, records key = some r → r < next_record
  alone : ∀ key key' r, records key = some r → records key' = some r → key = key'
  owner : ∀ key r g, records key = some r → held r = some g → owner g key

/-- The books are right. -/
structure Books (cfg : Config) (T : Facts) (h : Hand) (a : Shelf) : Prop where
  sound : (a.ledger h).Sound
  loose : ∀ slot ∈ (a.ledger h).loose, slot < cfg.g3_total_slots
  entries : ∀ g, (a.ledger h).Stands g → Entry cfg T a g
  unissued : ∀ g, a.next ≤ g → ∀ layout slots, T.shape g layout slots
  unowned : ∀ g, a.next ≤ g → ∀ key, T.owner g key
  table : Table T.owner a.records a.next_record a.held
  named : ∀ p ∈ h.named ++ (a.transfers ++ a.ended).flatMap G3TransferOp.names, T.owner p.2 p.1
  stored : ∀ g, (a.ledger h).InUse g → T.stored g
  landed : ∀ g ∈ h.landed ++ a.ended.flatMap G3TransferOp.landed, T.stored g
  fits : ∀ op ∈ a.transfers, op.Fits cfg a.residencies

/-! ## Rules -/

/-- The residency is the same but for its claims. -/
structure SameShape (g g' : G3Residency) : Prop where
  layout : g'.layout = g.layout
  slots : g'.slots = g.slots

theorem SameShape.refl {g : G3Residency} : SameShape g g := ⟨rfl, rfl⟩

theorem SameShape.eq {g g' : G3Residency} (h : SameShape g g') :
    g' = { g with claim_count := g'.claim_count } := by
  obtain ⟨layout, slots, claim_count⟩ := g'
  obtain ⟨rfl, rfl⟩ := h
  rfl

/-- Only the claims of one residency change. -/
theorem same_shape_update {residencies : G3Id → G3Residency} {g : G3Id} {count : Nat}
    (other : G3Id) :
    SameShape (residencies other) (Function.update residencies g
      { residencies g with claim_count := count } other) := by
  by_cases heq : other = g
  · rw [heq, Function.update_self]
    exact ⟨rfl, rfl⟩
  · rw [Function.update_of_ne heq]
    exact .refl

section Fits

variable {cfg : Config} {residencies residencies' : G3Id → G3Residency} {op : G3TransferOp}

theorem G3TransferOp.StoreFits.congr (h : op.StoreFits cfg residencies)
    (hsame : ∀ g ∈ op.stores, SameShape (residencies g) (residencies' g)) :
    op.StoreFits cfg residencies' := by
  have hsame : ∀ p ∈ op.reservations, SameShape (residencies p.2) (residencies' p.2) := fun p hp =>
    hsame p.2 (List.mem_map_of_mem hp)
  refine ⟨h.memory, h.files.trans ?_, h.accepted, fun p hp => ?_⟩
  · refine List.flatMap_congr fun p hp => ?_
    rw [(hsame p hp).slots]
  · rw [(hsame p hp).layout]
    exact h.layout p hp

theorem Matched.congr {blocks : Dict BlockKey (List TransferRef)} {claims : List (BlockKey × G3Id)}
    {memory files : List MemDescriptor} (h : Matched cfg residencies blocks claims memory files)
    (hsame : ∀ p ∈ claims, SameShape (residencies p.2) (residencies' p.2)) :
    Matched cfg residencies' blocks claims memory files := by
  have hsame : ∀ p ∈ claims, residencies' p.2 =
      { residencies p.2 with claim_count := (residencies' p.2).claim_count } := fun p hp =>
    (hsame p hp).eq
  refine ⟨h.memory, h.files.trans ?_, h.accepted, fun p hp => ?_⟩
  · refine List.flatMap_congr fun p hp => ?_
    rw [hsame p hp]
    rfl
  · rw [hsame p hp]
    exact h.found p hp

theorem G3TransferOp.Fits.congr (h : op.Fits cfg residencies)
    (hsame : ∀ g ∈ op.stores ++ op.reads, SameShape (residencies g) (residencies' g)) :
    op.Fits cfg residencies' :=
  ⟨fun hkind => (h.store hkind).congr fun g hg => hsame g (List.mem_append_left _ hg),
    fun hkind => (h.read hkind).congr fun p hp =>
      hsame p.2 (List.mem_append_right _ (List.mem_map_of_mem hp))⟩

end Fits

section Table

variable {owner : G3Id → BlockKey → Prop} {records : BlockKey → Option RecId} {next_record : RecId}
  {held : RecId → Option G3Id}

/-- Records may give up what they hold, and blocks their records. -/
theorem Table.lose (h : Table owner records next_record held) {records' : BlockKey → Option RecId}
    {held' : RecId → Option G3Id} (hrecords : ∀ key r, records' key = some r → records key = some r)
    (hheld : ∀ r g, held' r = some g → held r = some g) :
    Table owner records' next_record held' :=
  ⟨fun key r hr => h.known key r (hrecords key r hr),
    fun key key' r hr hr' => h.alone key key' r (hrecords key r hr) (hrecords key' r hr'),
    fun key r g hr hg => h.owner key r g (hrecords key r hr) (hheld r g hg)⟩

/-- A block gets a record that holds nothing. -/
theorem Table.new (h : Table owner records next_record held) {key : BlockKey}
    {records' : BlockKey → Option RecId} {held' : RecId → Option G3Id}
    (hrecords : ∀ key' r, records' key' = some r →
      (key' = key ∧ r = next_record) ∨ records key' = some r)
    (hheld : ∀ r g, held' r = some g → r ≠ next_record ∧ held r = some g) :
    Table owner records' (next_record + 1) held' := by
  refine ⟨fun key' r hr => ?_, fun key₁ key₂ r h₁ h₂ => ?_, fun key' r g hr hg => ?_⟩
  · rcases hrecords key' r hr with ⟨-, rfl⟩ | hold
    · exact Nat.lt_succ_self _
    · exact Nat.lt_succ_of_lt (h.known key' r hold)
  · rcases hrecords key₁ r h₁ with ⟨rfl, rfl⟩ | hold₁ <;>
      rcases hrecords key₂ r h₂ with ⟨rfl, heq⟩ | hold₂
    · rfl
    · exact absurd (h.known key₂ _ hold₂) (Nat.lt_irrefl _)
    · exact absurd (h.known key₁ _ hold₁) (heq ▸ Nat.lt_irrefl _)
    · exact h.alone key₁ key₂ r hold₁ hold₂
  · obtain ⟨hne, hold⟩ := hheld r g hg
    rcases hrecords key' r hr with ⟨-, heq⟩ | hr
    · exact absurd heq hne
    · exact h.owner key' r g hr hold

/-- The record of a block gets a residency of that block. -/
theorem Table.hold (h : Table owner records next_record held) {key : BlockKey} {record : RecId}
    {g : G3Id} (hrecord : records key = some record) (howner : owner g key) :
    Table owner records next_record (Function.update held record (some g)) := by
  refine ⟨h.known, h.alone, fun key' r g' hr hg => ?_⟩
  by_cases heq : r = record
  · rw [heq, Function.update_self] at hg
    rw [heq] at hr
    rw [h.alone key' key record hr hrecord, ← Option.some.inj hg]
    exact howner
  · rw [Function.update_of_ne heq] at hg
    exact h.owner key' r g' hr hg

end Table

namespace Books

variable {cfg : Config} {T : Facts} {h h' e : Hand} {a a' : Shelf} {g : G3Id}

/-- What a transfer is about stands. -/
theorem stands_of_transfer (hb : Books cfg T h a) {op : G3TransferOp} (hop : op ∈ a.transfers)
    (hg : g ∈ op.stores ++ op.reads) : (a.ledger h).Stands g := by
  have hmem {f : G3TransferOp → List G3Id} (hf : g ∈ f op) :
      g ∈ (a.transfers ++ a.ended).flatMap f :=
    List.mem_flatMap.mpr ⟨op, List.mem_append_left _ hop, hf⟩
  rcases List.mem_append.mp hg with hg | hg
  · exact .inr (List.mem_append_right _ (hmem hg))
  · exact .inl (hb.sound.in_use_of_reader (List.mem_append_right _ (hmem hg)))

/-- What is in hand stands. -/
theorem stands_of_hand (hb : Books cfg T h a) (hg : g ∈ h.stores ++ h.reads) :
    (a.ledger h).Stands g := by
  rcases List.mem_append.mp hg with hg | hg
  · exact Shelf.stands_of_store hg
  · exact .inl (hb.sound.in_use_of_reader (List.mem_append_left _ hg))

/-- The books after something happened: the ledger is sound, issued residencies have kept their
layout and their slots, and of what is new all is known that the books say. -/
theorem next (hb : Books cfg T h a) (hsound : (a'.ledger h').Sound)
    (hloose : ∀ slot ∈ (a'.ledger h').loose, slot < cfg.g3_total_slots) (hnext : a.next ≤ a'.next)
    (hsame : ∀ g < a.next, SameShape (a.residencies g) (a'.residencies g))
    (hstands : ∀ g, (a'.ledger h').Stands g → (a.ledger h).Stands g ∨ Entry cfg T a' g)
    (hstored : ∀ g, (a'.ledger h').InUse g → (a.ledger h).InUse g ∨ T.stored g)
    (htable : Table T.owner a'.records a'.next_record a'.held)
    (hnamed : ∀ p ∈ h'.named ++ (a'.transfers ++ a'.ended).flatMap G3TransferOp.names,
      T.owner p.2 p.1)
    (hlanded : ∀ g ∈ h'.landed ++ a'.ended.flatMap G3TransferOp.landed, T.stored g)
    (hfits : ∀ op ∈ a'.transfers, op ∈ a.transfers ∨ op.Fits cfg a'.residencies) :
    Books cfg T h' a' := by
  refine ⟨hsound, hloose, fun g hg => ?_, fun g hg => hb.unissued g (Nat.le_trans hnext hg),
    fun g hg => hb.unowned g (Nat.le_trans hnext hg), htable, hnamed,
    fun g hg => (hstored g hg).elim (hb.stored g) id, hlanded, fun op hop => ?_⟩
  · refine (hstands g hg).elim (fun hold => ?_) id
    obtain ⟨hissued, hinside, hsized, hshape⟩ := hb.entries g hold
    have heq := hsame g hissued
    refine ⟨Nat.lt_of_lt_of_le hissued hnext, ?_, ?_, ?_⟩
    · rw [heq.slots]
      exact hinside
    · rw [WellSized, heq.slots, heq.layout]
      exact hsized
    · rw [heq.slots, heq.layout]
      exact hshape
  · refine (hfits op hop).elim (fun hold => ?_) id
    exact (hb.fits op hold).congr fun g hg =>
      hsame g (hb.entries g (hb.stands_of_transfer hold hg)).issued

/-- Things change hands, or are lost, and no residency changes. -/
theorem lose (hb : Books cfg T h a) (hloose : (a'.ledger h').loose.Subperm (a.ledger h).loose)
    (hreserved : (a'.ledger h').reserved.Subperm (a.ledger h).reserved)
    (hreaders : (a'.ledger h').readers.Subperm (a.ledger h).readers)
    (hheld : ∀ r, a'.held r = none ∨ a'.held r = a.held r)
    (hresidencies : a'.residencies = a.residencies) (hnext : a'.next = a.next)
    (htable : Table T.owner a'.records a'.next_record a'.held)
    (hnamed : ∀ p ∈ h'.named ++ (a'.transfers ++ a'.ended).flatMap G3TransferOp.names,
      T.owner p.2 p.1)
    (hlanded : ∀ g ∈ h'.landed ++ a'.ended.flatMap G3TransferOp.landed, T.stored g)
    (hfits : ∀ op ∈ a'.transfers, op ∈ a.transfers ∨ op.Fits cfg a'.residencies) :
    Books cfg T h' a' := by
  have hpins : (a'.ledger h').pins = (a.ledger h).pins := by
    unfold Shelf.ledger
    rw [hresidencies]
  have huse : ∀ g, (a'.ledger h').InUse g → (a.ledger h).InUse g := by
    rintro g (⟨r, hr⟩ | hpin)
    · rcases hheld r with hnone | hsame
      · rw [show (a'.ledger h').held r = a'.held r from rfl, hnone] at hr
        cases hr
      · exact .inl ⟨r, hsame.symm.trans hr⟩
    · exact .inr (hpins ▸ hpin)
  refine hb.next (hb.sound.lose hloose hreserved (fun g => ?_) hheld (fun g hpin => ?_)
    fun g _ => ?_) (fun slot hslot => hb.loose slot (hloose.subset hslot)) hnext.symm.le
    (fun g _ => ?_) (fun g hg => ?_) (fun g hg => .inl (huse g hg)) htable hnamed hlanded hfits
  · rw [hpins]
    exact Nat.le_trans (hreaders.count_le g) (hb.sound.readers g)
  · exact .inr (hpins ▸ hpin)
  · change (a'.residencies g).slots = _
    rw [hresidencies]
    rfl
  · rw [hresidencies]
    exact .refl
  · exact .inl (hg.imp (huse g) fun hmem => hreserved.subset hmem)

/-- What is in hand may be lost. -/
theorem leak (hb : Books cfg T (e ++ h) a) : Books cfg T h a := by
  have hsub {α : Type} (xs ys zs : List α) : (ys ++ zs).Subperm (xs ++ ys ++ zs) := by
    rw [List.append_assoc]
    exact (List.sublist_append_right xs (ys ++ zs)).subperm
  have hmem {α : Type} {xs ys zs : List α} {x : α} (hx : x ∈ ys ++ zs) : x ∈ xs ++ ys ++ zs :=
    (hsub xs ys zs).subset hx
  exact hb.lose (hsub _ _ _) (hsub _ _ _) (hsub _ _ _) (fun _ => .inr rfl) rfl rfl hb.table
    (fun p hp => hb.named p (hmem hp)) (fun g hg => hb.landed g (hmem hg)) fun op hop => .inl hop

/-- More may become known of what is there. -/
theorem know {T' : Facts} (hb : Books cfg T h a)
    (hshape : ∀ g, (a.ledger h).Stands g →
      T'.shape g (a.residencies g).layout (a.residencies g).slots)
    (hunissued : ∀ g, a.next ≤ g → ∀ layout slots, T'.shape g layout slots)
    (hunowned : ∀ g, a.next ≤ g → ∀ key, T'.owner g key)
    (htable : ∀ key r g, a.records key = some r → a.held r = some g → T'.owner g key)
    (hnamed : ∀ p ∈ h.named ++ (a.transfers ++ a.ended).flatMap G3TransferOp.names,
      T'.owner p.2 p.1)
    (hstored : ∀ g, (a.ledger h).InUse g → T'.stored g)
    (hlanded : ∀ g ∈ h.landed ++ a.ended.flatMap G3TransferOp.landed, T'.stored g) :
    Books cfg T' h a :=
  ⟨hb.sound, hb.loose, fun g hg => ⟨(hb.entries g hg).issued, (hb.entries g hg).inside,
    (hb.entries g hg).sized, hshape g hg⟩, hunissued, hunowned,
    ⟨hb.table.known, hb.table.alone, htable⟩, hnamed, hstored, hlanded, hb.fits⟩

/-- What is in hand may come in another order. -/
theorem regroup (hb : Books cfg T h a) (hslots : h'.slots.Perm h.slots)
    (hstores : h'.stores.Perm h.stores) (hreads : h'.reads.Perm h.reads)
    (hlanded : h'.landed ⊆ h.landed) (hnamed : h'.named ⊆ h.named) : Books cfg T h' a := by
  have hmem {α : Type} {xs ys zs : List α} (hsub : xs ⊆ ys) : xs ++ zs ⊆ ys ++ zs :=
    List.append_subset.mpr ⟨fun _ hx => List.mem_append_left _ (hsub hx),
      List.subset_append_right _ _⟩
  exact hb.lose (hslots.append_right _).subperm (hstores.append_right _).subperm
    (hreads.append_right _).subperm (fun _ => .inr rfl) rfl rfl hb.table
    (fun p hp => hb.named p (hmem hnamed hp)) (fun g hg => hb.landed g (hmem hlanded hg))
    fun op hop => .inl hop

/-- A free slot is taken. -/
theorem pop (hb : Books cfg T h a) {slot : Nat} {rest : List Nat} (hfree : a.free = slot :: rest) :
    Books cfg T ({ slots := [slot] } ++ h) { a with free := rest } := by
  refine hb.lose ?_ (List.Subperm.refl _) (List.Subperm.refl _) (fun _ => .inr rfl) rfl rfl
    hb.table hb.named hb.landed fun op hop => .inl hop
  refine List.Perm.subperm ?_
  change (slot :: (h.slots ++ rest)).Perm (h.slots ++ a.free)
  rw [hfree]
  exact List.perm_middle.symm

/-- Slots are given back. -/
theorem free {xs : List Nat} (hb : Books cfg T ({ slots := xs } ++ h) a) :
    Books cfg T h { a with free := a.free ++ xs } := by
  refine hb.lose ?_ (List.Subperm.refl _) (List.Subperm.refl _) (fun _ => .inr rfl) rfl rfl
    hb.table hb.named hb.landed fun op hop => .inl hop
  refine List.Perm.subperm ?_
  change (h.slots ++ (a.free ++ xs)).Perm (xs ++ h.slots ++ a.free)
  rw [← List.append_assoc, List.append_assoc xs]
  exact List.perm_append_comm

/-- Slots in hand become those of a new residency. -/
theorem reserve {xs : List Nat} {layout : List Label} (hb : Books cfg T ({ slots := xs } ++ h) a)
    (hsized : WellSized cfg ⟨layout, xs, 0⟩) (key : BlockKey) :
    Books cfg T ({ stores := [a.next], named := [(key, a.next)] } ++ h)
      { a with
        residencies := Function.update a.residencies a.next { layout := layout, slots := xs }
        next := a.next + 1 } := by
  have hfresh : ¬ (a.ledger ({ slots := xs } ++ h)).Stands a.next := fun hstands =>
    absurd (hb.entries _ hstands).issued (Nat.lt_irrefl _)
  have hother (g : G3Id) (hne : g ≠ a.next) : Function.update a.residencies a.next
      { layout := layout, slots := xs } g = a.residencies g := Function.update_of_ne hne _ _
  have hpins : (fun g => (Function.update a.residencies a.next
      { layout := layout, slots := xs } g).claim_count) = fun g =>
        (a.residencies g).claim_count := by
    funext g
    by_cases heq : g = a.next
    · rw [heq, Function.update_self]
      exact (Nat.eq_zero_of_not_pos fun hpos => hfresh (.inl (.inr hpos))).symm
    · rw [hother g heq]
  have huse (g : G3Id) : (Ledger.InUse (Shelf.ledger
      { a with
        residencies := Function.update a.residencies a.next { layout := layout, slots := xs }
        next := a.next + 1 } ({ stores := [a.next], named := [(key, a.next)] } ++ h)) g) ↔
      (a.ledger ({ slots := xs } ++ h)).InUse g := Ledger.in_use_congr rfl hpins
  have hloose : ∀ slot ∈ xs, slot < cfg.g3_total_slots := fun slot hslot =>
    hb.loose slot (List.mem_append_left _ (List.mem_append_left _ hslot))
  refine hb.next (hb.sound.reserve hfresh ?_ ?_ (List.Perm.refl _) rfl hpins fun g hne => ?_)
    (fun slot hslot => hb.loose slot ?_) (Nat.le_succ _) (fun g hlt => ?_) (fun g hg => ?_)
    (fun g hg => .inl ((huse g).mp hg)) hb.table (fun p hp => ?_) hb.landed fun op hop => .inl hop
  · change (xs ++ h.slots ++ a.free).Perm ((Function.update a.residencies a.next
      { layout := layout, slots := xs } a.next).slots ++ (h.slots ++ a.free))
    rw [Function.update_self, List.append_assoc]
  · exact List.Perm.refl _
  · exact congrArg G3Residency.slots (hother g hne)
  · rcases List.mem_append.mp hslot with hslot | hslot
    · exact List.mem_append_left _ (List.mem_append_right _ hslot)
    · exact List.mem_append_right _ hslot
  · dsimp only
    rw [hother g (Nat.ne_of_lt hlt)]
    exact .refl
  · rcases hg with hg | hg
    · exact .inl (.inl ((huse g).mp hg))
    · rcases List.mem_cons.mp hg with rfl | hg
      · right
        refine ⟨Nat.lt_succ_self _, ?_, ?_, hb.unissued _ (Nat.le_refl _) _ _⟩
        · dsimp only
          rw [Function.update_self]
          exact hloose
        · dsimp only
          rw [Function.update_self]
          exact hsized
      · exact .inl (.inr hg)
  · rcases List.mem_cons.mp hp with rfl | hp
    · exact hb.unowned _ (Nat.le_refl _) key
    · exact hb.named p hp

/-- A reserved residency is given up; its slots are in hand again. -/
theorem rollback (hb : Books cfg T ({ stores := [g] } ++ h) a) :
    Books cfg T ({ slots := (a.residencies g).slots } ++ h) a := by
  have hmem : g ∈ (a.ledger ({ stores := [g] } ++ h)).reserved := List.mem_cons_self
  have hgone : ¬ (a.ledger ({ slots := (a.residencies g).slots } ++ h)).Stands g := by
    rintro (huse | hmem')
    · exact hb.sound.unpublished g hmem huse
    · exact (List.nodup_cons.mp hb.sound.reserved).1 hmem'
  refine hb.next (hb.sound.release (.inr hmem) hgone ?_ ?_ (List.Perm.refl _)
    (fun _ => .inr rfl) rfl
    fun _ _ => rfl) (fun slot hslot => ?_) (Nat.le_refl _) (fun _ _ => .refl) (fun g' hg' => ?_)
    (fun g' hg' => .inl hg') hb.table hb.named hb.landed fun op hop => .inl hop
  · change ((a.residencies g).slots ++ h.slots ++ a.free).Perm
      ((a.residencies g).slots ++ (h.slots ++ a.free))
    rw [List.append_assoc]
  · exact (List.sublist_cons_self g _).subperm
  · rcases List.mem_append.mp hslot with hslot | hslot
    · rcases List.mem_append.mp hslot with hslot | hslot
      · exact (hb.entries g (.inr hmem)).inside slot hslot
      · exact hb.loose slot (List.mem_append_left _ hslot)
    · exact hb.loose slot (List.mem_append_right _ hslot)
  · exact .inl (hg'.imp_right fun hmem' => List.mem_cons_of_mem g hmem')

/-- A record gives up a residency nobody reads; its slots are in hand. -/
theorem evict (hb : Books cfg T h a) {record : RecId} (hheld : a.held record = some g)
    (hunclaimed : (a.residencies g).claim_count = 0) :
    Books cfg T ({ slots := (a.residencies g).slots } ++ h)
      { a with held := Function.update a.held record none } := by
  have hstands : (a.ledger h).Stands g := .inl (.inl ⟨record, hheld⟩)
  have hless (r : RecId) : Function.update a.held record none r = none ∨
      Function.update a.held record none r = a.held r := by
    by_cases heq : r = record
    · rw [heq, Function.update_self]
      exact .inl rfl
    · rw [Function.update_of_ne heq]
      exact .inr rfl
  have huse (g' : G3Id) (hg' : Ledger.InUse (Shelf.ledger
      { a with held := Function.update a.held record none }
      ({ slots := (a.residencies g).slots } ++ h)) g') : (a.ledger h).InUse g' := by
    refine hg'.imp_left ?_
    rintro ⟨r, hr⟩
    rcases hless r with hnone | hsame
    · exact nomatch hnone.symm.trans hr
    · exact ⟨r, hsame.symm.trans hr⟩
  have hgone : ¬ (Shelf.ledger { a with held := Function.update a.held record none }
      ({ slots := (a.residencies g).slots } ++ h)).Stands g := by
    rintro ((⟨r, hr⟩ | hpin) | hmem)
    · change Function.update a.held record none r = some g at hr
      by_cases heq : r = record
      · rw [heq, Function.update_self] at hr
        cases hr
      · rw [Function.update_of_ne heq] at hr
        exact heq (hb.sound.holder r record g hr hheld)
    · exact absurd hunclaimed (Nat.ne_of_gt hpin)
    · exact hb.sound.unpublished g hmem (.inl ⟨record, hheld⟩)
  refine hb.next (hb.sound.release hstands hgone ?_ (List.Subperm.refl _) (List.Perm.refl _) hless
    rfl fun _ _ => rfl) (fun slot hslot => ?_) (Nat.le_refl _) (fun _ _ => .refl) (fun g' hg' => ?_)
    (fun g' hg' => .inl (huse g' hg')) (hb.table.lose (fun _ _ hr => hr) fun r g' hr => ?_) hb.named
    hb.landed fun op hop => .inl hop
  · change ((a.residencies g).slots ++ h.slots ++ a.free).Perm
      ((a.residencies g).slots ++ (h.slots ++ a.free))
    rw [List.append_assoc]
  · rcases List.mem_append.mp hslot with hslot | hslot
    · rcases List.mem_append.mp hslot with hslot | hslot
      · exact (hb.entries g hstands).inside slot hslot
      · exact hb.loose slot (List.mem_append_left _ hslot)
    · exact hb.loose slot (List.mem_append_right _ hslot)
  · exact .inl (hg'.imp_left (huse g'))
  · rcases hless r with hnone | hsame
    · exact nomatch hnone.symm.trans hr
    · exact hsame.symm.trans hr

/-- The record of a block gets a residency of it that was stored. -/
theorem commit {key : BlockKey} {record : RecId}
    (hb : Books cfg T ({ stores := [g], landed := [g], named := [(key, g)] } ++ h) a)
    (hrecord : a.records key = some record) (hnone : a.held record = none) :
    Books cfg T h { a with held := Function.update a.held record (some g) } := by
  have hmem :
      g ∈ (a.ledger ({ stores := [g], landed := [g], named := [(key, g)] } ++ h)).reserved :=
    List.mem_cons_self
  have huse (g' : G3Id) (hg' : Ledger.InUse (Shelf.ledger
      { a with held := Function.update a.held record (some g) } h) g') :
      g' = g ∨
        (a.ledger ({ stores := [g], landed := [g], named := [(key, g)] } ++ h)).InUse g' := by
    rcases hg' with ⟨r, hr⟩ | hpin
    · change Function.update a.held record (some g) r = some g' at hr
      by_cases heq : r = record
      · rw [heq, Function.update_self] at hr
        exact .inl (Option.some.inj hr).symm
      · rw [Function.update_of_ne heq] at hr
        exact .inr (.inl ⟨r, hr⟩)
    · exact .inr (.inr hpin)
  refine hb.next (hb.sound.publish (r := record) (b := g) hnone (List.Perm.refl _)
    (List.Perm.refl _) (List.Perm.refl _) rfl rfl rfl) (fun slot hslot => hb.loose slot hslot)
    (Nat.le_refl _) (fun _ _ => .refl) (fun g' hg' => ?_) (fun g' hg' => ?_)
    (hb.table.hold hrecord (hb.named (key, g) List.mem_cons_self))
    (fun p hp => hb.named p (List.mem_cons_of_mem _ hp))
    (fun g' hg' => hb.landed g' (List.mem_cons_of_mem g hg')) fun op hop => .inl hop
  · rcases hg' with hg' | hg'
    · rcases huse g' hg' with rfl | hold
      · exact .inl (.inr hmem)
      · exact .inl (.inl hold)
    · exact .inl (.inr (List.mem_cons_of_mem g hg'))
  · rcases huse g' hg' with rfl | hold
    · exact .inr (hb.landed g' List.mem_cons_self)
    · exact .inl hold

/-- The claims of one residency, counted. -/
theorem pins_update {g : G3Id} {count : Nat} :
    (fun g' => (Function.update a.residencies g
      { a.residencies g with claim_count := count } g').claim_count) =
      Function.update (fun g' => (a.residencies g').claim_count) g count := by
  funext g'
  by_cases heq : g' = g
  · rw [heq, Function.update_self, Function.update_self]
  · rw [Function.update_of_ne heq, Function.update_of_ne heq]

theorem slots_update {g : G3Id} {count : Nat} :
    (fun g' => (Function.update a.residencies g
      { a.residencies g with claim_count := count } g').slots) =
      fun g' => (a.residencies g').slots :=
  funext fun g' => (same_shape_update g').slots

/-- A read claims the residency that the record of a block holds. -/
theorem pin (hb : Books cfg T h a) {key : BlockKey} {record : RecId}
    (hrecord : a.records key = some record) (hheld : a.held record = some g) :
    Books cfg T ({ reads := [g], named := [(key, g)] } ++ h)
      { a with
        residencies := Function.update a.residencies g
          { a.residencies g with claim_count := (a.residencies g).claim_count + 1 } } := by
  have huse (g' : G3Id) (hg' : Ledger.InUse (Shelf.ledger
      { a with
        residencies := Function.update a.residencies g
          { a.residencies g with claim_count := (a.residencies g).claim_count + 1 } }
      ({ reads := [g], named := [(key, g)] } ++ h)) g') : (a.ledger h).InUse g' := by
    by_cases heq : g' = g
    · rw [heq]
      exact .inl ⟨record, hheld⟩
    · refine hg'.imp_right fun hpin => ?_
      have hsame : Function.update a.residencies g
          { a.residencies g with claim_count := (a.residencies g).claim_count + 1 } g' =
          a.residencies g' := Function.update_of_ne heq _ _
      exact Nat.lt_of_lt_of_eq hpin (congrArg G3Residency.claim_count hsame)
  refine hb.next (hb.sound.pin (b := g) (.inl ⟨record, hheld⟩) (List.Perm.refl _) (List.Perm.refl _)
    (List.Perm.refl _) rfl pins_update slots_update) hb.loose (Nat.le_refl _)
    (fun g' _ => same_shape_update g') (fun g' hg' => .inl (hg'.imp_left (huse g')))
    (fun g' hg' => .inl (huse g' hg')) hb.table (fun p hp => ?_) hb.landed fun op hop => .inl hop
  rcases List.mem_cons.mp hp with rfl | hp
  · exact hb.table.owner key record g hrecord hheld
  · exact hb.named p hp

/-- A read gives its claim back. -/
theorem unpin (hb : Books cfg T ({ reads := [g] } ++ h) a) :
    Books cfg T h
      { a with
        residencies := Function.update a.residencies g
          { a.residencies g with claim_count := (a.residencies g).claim_count - 1 } } := by
  have huse (g' : G3Id) (hg' : Ledger.InUse (Shelf.ledger
      { a with
        residencies := Function.update a.residencies g
          { a.residencies g with claim_count := (a.residencies g).claim_count - 1 } } h) g') :
      (a.ledger ({ reads := [g] } ++ h)).InUse g' := by
    by_cases heq : g' = g
    · rw [heq]
      exact hb.sound.in_use_of_reader List.mem_cons_self
    · refine hg'.imp_right fun hpin => ?_
      have hsame : Function.update a.residencies g
          { a.residencies g with claim_count := (a.residencies g).claim_count - 1 } g' =
          a.residencies g' := Function.update_of_ne heq _ _
      exact Nat.lt_of_lt_of_eq hpin (congrArg G3Residency.claim_count hsame)
  refine hb.next (hb.sound.unpin (b := g) (List.Perm.refl _) (List.Perm.refl _)
    (List.Perm.refl _) rfl pins_update slots_update) hb.loose (Nat.le_refl _)
    (fun g' _ => same_shape_update g') (fun g' hg' => .inl (hg'.imp_left (huse g')))
    (fun g' hg' => .inl (huse g' hg')) hb.table hb.named hb.landed fun op hop => .inl hop

/-- A transfer that fits is submitted. -/
theorem submit {op : G3TransferOp} {names : List (BlockKey × G3Id)}
    (hb : Books cfg T ({ stores := op.stores, reads := op.reads, named := names } ++ h) a)
    (hnames : op.names ⊆ names) (hfits : op.Fits cfg a.residencies) :
    Books cfg T h { a with transfers := a.transfers ++ [op] } := by
  have hperm {α : Type} [DecidableEq α] {f : G3TransferOp → List α} (xs : List α) :
      (xs ++ (a.transfers ++ [op] ++ a.ended).flatMap f).Perm
        (f op ++ xs ++ (a.transfers ++ a.ended).flatMap f) := by
    refine List.perm_iff_count.mpr fun g => ?_
    simp only [List.count_append, List.flatMap_append, List.flatMap_cons, List.flatMap_nil,
      List.append_nil]
    omega
  refine hb.lose (List.Subperm.refl _) (hperm _).subperm (hperm _).subperm
    (fun _ => .inr rfl) rfl rfl
    hb.table (fun p hp => hb.named p ?_) hb.landed fun op' hop' => ?_
  · rcases List.mem_append.mp ((hperm _).subset hp) with hp | hp
    · rcases List.mem_append.mp hp with hp | hp
      · exact List.mem_append_left _ (List.mem_append_left _ (hnames hp))
      · exact List.mem_append_left _ (List.mem_append_right _ hp)
    · exact List.mem_append_right _ hp
  · rcases List.mem_append.mp hop' with hop' | hop'
    · exact .inl hop'
    · exact .inr (List.mem_singleton.mp hop' ▸ hfits)

/-- Transfers pass from hand to hand: what they were about is still accounted for. -/
theorem pass (hb : Books cfg T h a) {transfers ended : List G3TransferOp}
    (hperm : ∀ f : G3TransferOp → List G3Id, f = G3TransferOp.stores ∨ f = G3TransferOp.reads →
      ((transfers ++ ended).flatMap f).Perm ((a.transfers ++ a.ended).flatMap f))
    (hnames : (transfers ++ ended).flatMap G3TransferOp.names ⊆
      (a.transfers ++ a.ended).flatMap G3TransferOp.names)
    (hlanded : ∀ g ∈ ended.flatMap G3TransferOp.landed, T.stored g)
    (hfits : ∀ op ∈ transfers, op ∈ a.transfers ∨ op.Fits cfg a.residencies) :
    Books cfg T h { a with transfers := transfers, ended := ended } := by
  refine hb.lose (List.Subperm.refl _) ((hperm _ (.inl rfl)).append_left _).subperm
    ((hperm _ (.inr rfl)).append_left _).subperm (fun _ => .inr rfl) rfl rfl hb.table
    (fun p hp => hb.named p ?_) (fun g hg => ?_) hfits
  · exact (List.mem_append.mp hp).elim (fun hp => List.mem_append_left _ hp)
      fun hp => List.mem_append_right _ (hnames hp)
  rcases List.mem_append.mp hg with hg | hg
  · exact hb.landed g (List.mem_append_left _ hg)
  · exact hlanded g hg

/-- Ended transfers are taken. -/
theorem take (hb : Books cfg T h a) {taken rest : List G3TransferOp}
    (hended : a.ended = taken ++ rest) :
    Books cfg T
      ({ stores := taken.flatMap G3TransferOp.stores, reads := taken.flatMap G3TransferOp.reads
         landed := taken.flatMap G3TransferOp.landed
         named := taken.flatMap G3TransferOp.names } ++ h) { a with ended := rest } := by
  have hperm {α : Type} [DecidableEq α] {f : G3TransferOp → List α} (xs : List α) :
      (taken.flatMap f ++ xs ++ (a.transfers ++ rest).flatMap f).Perm
        (xs ++ (a.transfers ++ a.ended).flatMap f) := by
    rw [hended]
    refine List.perm_iff_count.mpr fun g => ?_
    simp only [List.count_append, List.flatMap_append]
    omega
  refine hb.lose (List.Subperm.refl _) (hperm _).subperm (hperm _).subperm
    (fun _ => .inr rfl) rfl rfl
    hb.table (fun p hp => hb.named p ((hperm _).subset hp)) (fun g hg => hb.landed g ?_)
    fun op hop => .inl hop
  rw [hended, List.flatMap_append]
  rcases List.mem_append.mp hg with hg | hg
  · rcases List.mem_append.mp hg with hg | hg
    · exact List.mem_append_right _ (List.mem_append_left _ hg)
    · exact List.mem_append_left _ hg
  · exact List.mem_append_right _ (List.mem_append_right _ hg)

end Books

/-! ## What stays -/

/-- The residencies issued so far have the layouts and the slots they have. -/
def Facts.frozen (T : Facts) (a : Shelf) : Facts where
  shape g layout slots := T.shape g layout slots ∧
    (g < a.next → layout = (a.residencies g).layout ∧ slots = (a.residencies g).slots)
  owner := T.owner
  stored := T.stored

namespace Books

variable {cfg : Config} {T : Facts} {h : Hand} {a a₀ : Shelf} {g : G3Id}

theorem freeze (hb : Books cfg T h a) : Books cfg (T.frozen a) h a :=
  hb.know (fun g hg => ⟨(hb.entries g hg).shape, fun _ => ⟨rfl, rfl⟩⟩)
    (fun g hg layout slots => ⟨hb.unissued g hg layout slots,
      fun hlt => absurd hlt (Nat.not_lt_of_le hg)⟩) hb.unowned hb.table.owner
    hb.named hb.stored hb.landed

theorem thaw (hb : Books cfg (T.frozen a₀) h a) : Books cfg T h a :=
  hb.know (fun g hg => (hb.entries g hg).shape.1)
    (fun g hg layout slots => (hb.unissued g hg layout slots).1) hb.unowned hb.table.owner hb.named
    hb.stored hb.landed

/-- As long as a residency stands, it keeps its layout and its slots. -/
theorem same_shape (hb : Books cfg (T.frozen a₀) h a) (hg : (a.ledger h).Stands g)
    (hissued : g < a₀.next) : SameShape (a₀.residencies g) (a.residencies g) := by
  obtain ⟨hlayout, hslots⟩ := (hb.entries g hg).shape.2 hissued
  exact ⟨hlayout, hslots⟩

end Books

end Kvcr
