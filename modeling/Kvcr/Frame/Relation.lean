/-
What the functions of the core leave alone, whatever one wants to know.

Most of the core does not look at what a given property is about: the hints of a request,
the accounts of the disk, the pins of the framework. So the functions are gone through once,
for any relation between a first and a last state that tolerates what they do elsewhere.
`Frame` lists what has to be tolerated; a property of a whole run is then proved by giving
its relation, and by looking only at the functions that touch what it is about.

Every frame also carries the ground all functions stand on (`Good`): nothing is in a tier the
core does not have, and the memory a residency or a copy names is memory of the core's own
pools. `P` is what is to be known of a slot of a pool; a frame that does not care takes it to
be true.
-/
import Kvcr.LayoutMatching
import Kvcr.Primitives
import Mathlib.Data.List.GetD

set_option autoImplicit false

namespace Kvcr

open Prog

/-! ## Memory of the core's own pools -/

/-- A reference to a slot of the core's own pools, of which `P` holds. -/
structure Own (cfg : Config) (P : String → Nat → Prop) (ref : TransferRef) : Prop where
  agent : ref.end_point_name = cfg.nixl_agent_name
  local_memory : ref.framework = false
  slot : P ref.label.pool ref.element_index

section Own

variable {cfg : Config} {P : String → Nat → Prop}

theorem own_descriptor {p : Label × Nat} (hp : P p.1.pool p.2) : Own cfg P (descriptor cfg p) :=
  ⟨rfl, rfl, hp⟩

theorem length_source_refs {x : LocalDramResidency} {pieces : List Nat} :
    (source_refs cfg x pieces).length = pieces.length := by
  unfold source_refs
  split <;> rw [List.length_map]

namespace LocalDramResidency

/-- What a residency says about its memory is true. -/
structure Described (cfg : Config) (P : String → Nat → Prop) (x : LocalDramResidency) : Prop where
  slots : ∀ p ∈ x.slots, P p.1.pool p.2
  refs : ∀ cached, x.refs = some cached → cached.length = x.slots.length ∧
    ∀ ref ∈ cached, Own cfg P ref
  index : x.indices_by_label = none ∨ x.indices_by_label = some (prepare_label_index x.layout)

variable {x : LocalDramResidency} {pieces : List Nat}

theorem Described.slot (hx : x.Described cfg P) {i : Nat} (hi : i < x.slots.length) :
    P (x.slots.getD i default).1.pool (x.slots.getD i default).2 := by
  rw [List.getD_eq_getElem _ _ hi]
  exact hx.slots _ (List.getElem_mem hi)

/-- The pieces a request names are pieces of the residency. -/
theorem Described.named_lt (hx : x.Described cfg P) {labels : List Label}
    (hnamed : layout_indices x.layout labels x.indices_by_label = some pieces) :
    ∀ i ∈ pieces, i < x.slots.length := by
  have hlt := layout_indices_lt hx.index hnamed
  rwa [layout, List.length_map] at hlt

/-- The references made from pieces. -/
theorem Described.descriptors (hx : x.Described cfg P)
    (hpieces : ∀ i ∈ pieces, i < x.slots.length) :
    ∀ ref ∈ pieces.map (fun i => descriptor cfg (x.slots.getD i default)), Own cfg P ref := by
  intro ref href
  obtain ⟨i, hi, rfl⟩ := List.mem_map.mp href
  exact own_descriptor (hx.slot (hpieces i hi))

/-- The references a residency is read through. -/
theorem Described.source_refs (hx : x.Described cfg P)
    (hpieces : ∀ i ∈ pieces, i < x.slots.length) :
    ∀ ref ∈ Kvcr.source_refs cfg x pieces, Own cfg P ref := by
  unfold Kvcr.source_refs
  cases hrefs : x.refs with
  | none => exact hx.descriptors hpieces
  | some cached =>
    obtain ⟨hlength, hown⟩ := hx.refs cached hrefs
    intro ref href
    obtain ⟨i, hi, rfl⟩ := List.mem_map.mp href
    have hlt : i < cached.length := hlength ▸ hpieces i hi
    rw [List.getD_eq_getElem _ _ hlt]
    exact hown _ (List.getElem_mem hlt)

/-- The description is about the slots, the published tuple and the label index only. -/
theorem Described.congr {y : LocalDramResidency} (hx : x.Described cfg P)
    (hslots : y.slots = x.slots)
    (hrefs : y.refs = x.refs) (hindex : y.indices_by_label = x.indices_by_label) :
    y.Described cfg P where
  slots := by rw [hslots]; exact hx.slots
  refs := by rw [hrefs, hslots]; exact hx.refs
  index := by
    unfold layout
    rw [hindex, hslots]
    exact hx.index

theorem with_label_index_slots : x.with_label_index.slots = x.slots := by
  unfold LocalDramResidency.with_label_index
  split <;> rfl

theorem Described.with_label_index (hx : x.Described cfg P) :
    x.with_label_index.Described cfg P := by
  unfold LocalDramResidency.with_label_index
  split
  · exact hx
  · exact ⟨hx.slots, hx.refs, .inr rfl⟩

theorem Described.settle (hx : x.Described cfg P) : x.settle.Described cfg P := by
  unfold LocalDramResidency.settle
  split
  · exact hx.congr rfl rfl rfl
  · exact hx

theorem described_filling {locations : List (Label × Nat)} {key_layout : List Label}
    {writers : List Int} (h : ∀ p ∈ locations, P p.1.pool p.2) :
    (filling locations key_layout writers).Described cfg P :=
  ⟨h, fun cached hcached => (by cases hcached), .inl rfl⟩

end LocalDramResidency

/-- Destinations of a copy into own memory, one for each piece it writes. -/
structure Destinations (cfg : Config) (P : String → Nat → Prop) (indices : List (List Nat))
    (dst : List TransferRef) : Prop where
  length : dst.length = (indices.map List.length).sum
  own : ∀ ref ∈ dst, Own cfg P ref

theorem Destinations.nil {cfg : Config} {P : String → Nat → Prop} : Destinations cfg P [] [] :=
  ⟨rfl, fun _ h => absurd h List.not_mem_nil⟩

/-- Destinations for further pieces. -/
theorem Destinations.concat {cfg : Config} {P : String → Nat → Prop} {indices : List (List Nat)}
    {dst more : List TransferRef} {pieces : List Nat} (h : Destinations cfg P indices dst)
    (hlength : more.length = pieces.length) (hmore : ∀ ref ∈ more, Own cfg P ref) :
    Destinations cfg P (indices ++ [pieces]) (dst ++ more) where
  length := by
    rw [List.length_append, h.length, hlength, List.map_append, List.sum_append]
    rfl
  own ref href := (List.mem_append.mp href).elim (h.own ref) (hmore ref)

/-- A deposit copy writes into own memory. A delivery writes wherever its caller said. -/
def LocalCopyOp.Described (cfg : Config) (P : String → Nat → Prop) (copy : LocalCopyOp) : Prop :=
  copy.deliver_op_id = none → Destinations cfg P copy.local_indices copy.dst_descriptors

end Own

/-! ## The ground -/

/-- No record has a disk residency. -/
def Diskless (s : Core) : Prop := ∀ record, (s.recs record).g3 = none

/-- No record has a residency in the pools, and nothing waits for one. -/
structure Poolless (s : Core) : Prop where
  records : ∀ record, (s.recs record).local_dram = none
  waiters : s.dram.capacity_waiters = []

/-- Nothing is in a tier the core does not have. -/
structure Fit (cfg : Config) (s : Core) : Prop where
  pools : cfg.local_dram = none → Poolless s
  disk : cfg.g3 = none → Diskless s

/-- Changing one record, if that gives it no residency. -/
theorem Fit.update {cfg : Config} {s : Core} (h : Fit cfg s) {s' : Core} {r : RecId}
    {rec : BlockRecord} (hrecs : s'.recs = Function.update s.recs r rec)
    (hwaiters : s'.dram.capacity_waiters = s.dram.capacity_waiters)
    (hpools : cfg.local_dram = none → rec.local_dram = none)
    (hdisk : cfg.g3 = none → rec.g3 = none) : Fit cfg s' := by
  refine ⟨fun hnone => ⟨fun record => ?_, hwaiters.trans (h.pools hnone).waiters⟩,
    fun hnone record => ?_⟩
  · rw [hrecs]
    by_cases heq : record = r
    · rw [heq, Function.update_self]; exact hpools hnone
    · rw [Function.update_of_ne heq]; exact (h.pools hnone).records record
  · rw [hrecs]
    by_cases heq : record = r
    · rw [heq, Function.update_self]; exact hdisk hnone
    · rw [Function.update_of_ne heq]; exact h.disk hnone record

theorem Fit.same {cfg : Config} {s s' : Core} (h : Fit cfg s) (recs : s'.recs = s.recs)
    (waiters : s'.dram.capacity_waiters = s.dram.capacity_waiters) : Fit cfg s' := by
  refine ⟨fun hnone => ⟨fun record => ?_, waiters.trans (h.pools hnone).waiters⟩,
    fun hnone record => ?_⟩
  · rw [recs]; exact (h.pools hnone).records record
  · rw [recs]; exact h.disk hnone record

/-- The progress thread has the copy, or has handed it over. -/
def Progress.Carries (p : Progress) (copy : LocalCopyOp) : Prop :=
  .local_copy copy ∈ p.in_flight ∨ .op (.local_copy copy) ∈ p.completed

/-- What every function of the core stands on. -/
structure Good (cfg : Config) (P : String → Nat → Prop) (s : Core) : Prop where
  fit : Fit cfg s
  free : ∀ pool, ∀ slot ∈ s.free_of pool, P pool slot
  residencies : ∀ r, (s.residencies r).Described cfg P
  copies : ∀ copy, s.progress.Carries copy → copy.Described cfg P

/-- What `Good` is about. -/
structure Grounds where
  free_slots : Dict String (List Nat)
  residencies : ResId → LocalDramResidency
  recs : RecId → BlockRecord
  waiters : List (OpId × BlockKey)
  in_flight : List ProgressOp
  completed : List Item

/-- The part of the state `Good` is about. -/
def Core.grounds (s : Core) : Grounds where
  free_slots := s.pools.free_slots
  residencies := s.residencies
  recs := s.recs
  waiters := s.dram.capacity_waiters
  in_flight := s.progress.in_flight
  completed := s.progress.completed

section Good

variable {cfg : Config} {P : String → Nat → Prop} {s s' : Core}

theorem Good.same (h : Good cfg P s) (hsame : s'.grounds = s.grounds) : Good cfg P s' := by
  injection hsame with hfree hres hrecs hwaiters hflight hcompleted
  refine ⟨h.fit.same hrecs hwaiters, ?_, ?_, ?_⟩
  · unfold Core.free_of
    rw [hfree]
    exact h.free
  · rw [hres]
    exact h.residencies
  · unfold Progress.Carries
    rw [hflight, hcompleted]
    exact h.copies

/-- One residency changes, and what it says stays true. -/
theorem Good.residency (h : Good cfg P s) {r : ResId} {x : LocalDramResidency}
    (hx : x.Described cfg P) : Good cfg P (s.set_residency r x) := by
  refine ⟨h.fit.same rfl rfl, h.free, fun other => ?_, h.copies⟩
  unfold Core.set_residency
  dsimp only
  by_cases heq : other = r
  · rw [heq, Function.update_self]
    exact hx
  · rw [Function.update_of_ne heq]
    exact h.residencies other

/-- One record changes, and gets no residency it had not. -/
theorem Good.record (h : Good cfg P s) {record : RecId} {x : BlockRecord}
    (hpools : (s.recs record).local_dram = none → x.local_dram = none)
    (hdisk : (s.recs record).g3 = none → x.g3 = none) :
    Good cfg P { s with recs := Function.update s.recs record x } :=
  ⟨h.fit.update rfl rfl (fun hnone => hpools ((h.fit.pools hnone).records record))
    fun hnone => hdisk (h.fit.disk hnone record), h.free, h.residencies, h.copies⟩

/-- The free slots change. -/
theorem Good.slots (h : Good cfg P s) {free_slots : Dict String (List Nat)}
    (hfree : ∀ pool, ∀ slot ∈ (free_slots.get? pool).getD [], P pool slot) :
    Good cfg P { s with pools.free_slots := free_slots } :=
  ⟨h.fit.same rfl rfl, hfree, h.residencies, h.copies⟩

/-- In a core with pools the queue of waiters changes. -/
theorem Good.waiters (h : Good cfg P s) (hp : cfg.local_dram.isSome)
    {waiters : List (OpId × BlockKey)} :
    Good cfg P { s with dram.capacity_waiters := waiters } :=
  ⟨⟨fun hnone => (by rw [hnone] at hp; cases hp), h.fit.disk⟩, h.free, h.residencies, h.copies⟩

/-- An operation is submitted. -/
theorem Good.submit (h : Good cfg P s) {op : ProgressOp}
    (hop : ∀ copy, op = .local_copy copy → copy.Described cfg P) :
    Good cfg P { s with progress.in_flight := s.progress.in_flight ++ [op] } := by
  refine ⟨h.fit.same rfl rfl, h.free, h.residencies, fun copy hcarries => ?_⟩
  rcases hcarries with hmem | hmem
  · rcases List.mem_append.mp hmem with hmem | hmem
    · exact h.copies copy (.inl hmem)
    · exact hop copy (List.mem_singleton.mp hmem).symm
  · exact h.copies copy (.inr hmem)

/-- Taking free slots leaves free slots, and takes free slots. -/
theorem take_slots_free {layout : List Label} {d d' : Dict String (List Nat)}
    {locations : List (Label × Nat)}
    (hfree : ∀ pool, ∀ slot ∈ (d.get? pool).getD [], P pool slot)
    (htake : take_slots layout d = some (locations, d')) :
    (∀ p ∈ locations, P p.1.pool p.2) ∧
      ∀ pool, ∀ slot ∈ (d'.get? pool).getD [], P pool slot := by
  induction layout generalizing d locations with
  | nil =>
    cases htake
    exact ⟨fun p hp => absurd hp List.not_mem_nil, hfree⟩
  | cons label layout ih =>
    unfold take_slots at htake
    cases hslots : (d.get? label.pool).getD [] with
    | nil => rw [hslots] at htake; cases htake
    | cons slot slots =>
      rw [hslots] at htake
      obtain ⟨⟨rest, d''⟩, hrest, hpair⟩ := Option.map_eq_some_iff.mp htake
      cases hpair
      have hall := hfree label.pool
      rw [hslots] at hall
      have hleft : ∀ pool, ∀ slot' ∈ ((d.set label.pool slots).get? pool).getD [],
          P pool slot' := by
        intro pool slot' hslot'
        rw [Dict.get?_set] at hslot'
        by_cases hpool : pool = label.pool
        · rw [if_pos hpool] at hslot'
          rw [hpool]
          exact hall slot' (List.mem_cons_of_mem slot hslot')
        · rw [if_neg hpool] at hslot'
          exact hfree pool slot' hslot'
      obtain ⟨htaken, hd'⟩ := ih hleft hrest
      refine ⟨fun p hp => ?_, hd'⟩
      rcases List.mem_cons.mp hp with rfl | hp
      · exact hall slot List.mem_cons_self
      · exact htaken p hp

/-- Giving slots back leaves free slots. -/
theorem free_locations_free {locations : List (Label × Nat)} {d : Dict String (List Nat)}
    (hfree : ∀ pool, ∀ slot ∈ (d.get? pool).getD [], P pool slot)
    (hlocations : ∀ p ∈ locations, P p.1.pool p.2) :
    ∀ pool, ∀ slot ∈ ((free_locations locations d).get? pool).getD [], P pool slot := by
  induction locations generalizing d with
  | nil => exact hfree
  | cons p locations ih =>
    refine ih (d := d.set p.1.pool ((d.get? p.1.pool).getD [] ++ [p.2])) ?_
      fun q hq => hlocations q (List.mem_cons_of_mem p hq)
    intro pool slot hslot
    rw [Dict.get?_set] at hslot
    by_cases hpool : pool = p.1.pool
    · rw [if_pos hpool, Option.getD_some] at hslot
      rw [hpool]
      rcases List.mem_append.mp hslot with hslot | hslot
      · exact hfree p.1.pool slot hslot
      · rw [List.mem_singleton.mp hslot]
        exact hlocations p List.mem_cons_self
    · rw [if_neg hpool] at hslot
      exact hfree pool slot hslot

end Good

/-! ## Frames -/

/-- What the disk tier keeps. -/
structure DiskState where
  g3 : G3
  residencies : G3Id → G3Residency
  next : G3Id
  held : RecId → Option G3Id

/-- What is kept about framework pins. -/
structure PinState where
  held : RecId → Option FwMemResidency
  pin_keys : Dict PinHandle (OrderedSet BlockKey)
  source_pins : OpId → SourcePinOp
  source_pin_ops : OrderedSet OpId
  pending_pin_ops : Dict PinRequestId PendingPinWait
  pending_pin_keys : Dict BlockKey (OrderedSet PinRequestId)
  fw_pins_by_op : Dict OpId (OrderedSet PinHandle)
  releasing : OrderedSet PinHandle

/-- What a frame may be about. -/
structure Watched where
  hints : Dict RequestId RequestHint
  in_flight : List ProgressOp
  completed : List Item
  block_record_map : Dict BlockKey RecId
  next_rec : RecId
  next_fill_handle : OpHandle
  disk : DiskState
  pins : PinState

/-- The part of the state a frame may be about. -/
def Core.watched (s : Core) : Watched where
  hints := s.remote.request_hints
  in_flight := s.progress.in_flight
  completed := s.progress.completed
  block_record_map := s.block_record_map
  next_rec := s.next_rec
  next_fill_handle := s.next_fill_handle
  disk :=
    { g3 := s.g3, residencies := s.g3_residencies, next := s.next_g3
      held := fun record => (s.recs record).g3 }
  pins :=
    { held := fun record => (s.recs record).fw_mem
      pin_keys := s.framework_pin_keys
      source_pins := s.source_pins
      source_pin_ops := s.remote.source_pin_ops
      pending_pin_ops := s.remote.pending_pin_ops
      pending_pin_keys := s.remote.pending_pin_keys
      fw_pins_by_op := s.remote.fw_pins_by_op
      releasing := s.remote.releasing_framework_pins }

/-- The request's hint stands, and names the endpoint the pull reads from. -/
def Hinted (s : Core) (op : TargetPullOp) : Prop :=
  ∃ request_id hint, op.request_id = some request_id ∧
    s.remote.request_hints.get? request_id = some hint ∧ hint.failed = false ∧
    hint.source = some op.remote_ctrl_ep

/-- A relation between two states that tolerates what the core does, the disk and the
framework pins apart. Each step is from a good state. -/
structure Frame (cfg : Config) where
  /-- what is known of a slot of a pool -/
  P : String → Nat → Prop
  /-- how a later state is related to an earlier one -/
  Q : Core → Core → Prop
  refl : ∀ s, Q s s
  trans : ∀ {s s' s''}, Q s s' → Q s' s'' → Q s s''
  still : ∀ {s s'}, Good cfg P s → s'.watched = s.watched → Q s s'
  new_record : ∀ {s key}, Good cfg P s → s.record key = none →
    Q s { s with
      recs := Function.update s.recs s.next_rec {}
      next_rec := s.next_rec + 1
      block_record_map := s.block_record_map.set key s.next_rec }
  prune : ∀ {s key record}, Good cfg P s → s.record key = some record →
    (s.recs record).fw_mem = none → (s.recs record).local_dram = none →
    (s.recs record).g3 = none → (s.recs record).in_flight_ops.elems = [] →
    Q s { s with block_record_map := s.block_record_map.erase key }
  copy : ∀ {s copy}, Good cfg P s → copy.Described cfg P →
    Q s { s with progress.in_flight := s.progress.in_flight ++ [.local_copy copy] }
  pull : ∀ {s pull}, Good cfg P s → Hinted s pull →
    Q s { s with progress.in_flight := s.progress.in_flight ++ [.target_pull pull] }
  handle : ∀ {s}, Good cfg P s → Q s { s with next_fill_handle := s.next_fill_handle - 1 }

namespace Frame

variable {cfg : Config} (F : Frame cfg) {s s' : Core}

instance refl_frame : Std.Refl F.Q := ⟨F.refl⟩

instance trans_frame : IsTrans Core F.Q := ⟨fun _ _ _ => F.trans⟩

/-- The states a frame is claimed from. -/
abbrev G : Core → Prop := Good cfg F.P

/-- The relation of a frame, claimed from good states. -/
abbrev R : Core → Core → Prop := Under F.G F.Q

theorem of_kept (hsame : s'.watched = s.watched) (hgood : F.G s → F.G s') : F.R s s' :=
  fun hs => ⟨hgood hs, F.still hs hsame⟩

theorem next {s₀ : Core} (hs : F.G s ∧ F.Q s₀ s) (h : F.R s s') : F.G s' ∧ F.Q s₀ s' :=
  ⟨(h hs.1).1, F.trans hs.2 (h hs.1).2⟩

/-- A step that touches nothing a frame could be about. -/
theorem plain (hsame : s'.watched = s.watched) (hgrounds : s'.grounds = s.grounds) : F.R s s' :=
  F.of_kept hsame fun hs => hs.same hgrounds

theorem residency {r : ResId} {x : LocalDramResidency}
    (hx : (s.residencies r).Described cfg F.P → x.Described cfg F.P) :
    F.R s (s.set_residency r x) :=
  F.of_kept rfl fun hs => hs.residency (hx (hs.residencies r))

/-- A fill handle is taken. -/
theorem take_handle : F.R s { s with next_fill_handle := s.next_fill_handle - 1 } :=
  fun hs => ⟨hs.same rfl, F.handle hs⟩

/-- Submitting a copy. -/
theorem submit_copy {copy : LocalCopyOp} (hcopy : copy.Described cfg F.P) :
    F.R s { s with progress.in_flight := s.progress.in_flight ++ [.local_copy copy] } :=
  fun hs => ⟨hs.submit fun _ h => (by cases h; exact hcopy), F.copy hs hcopy⟩

/-- The frame that leaves the hints alone too. -/
def keeping_hints : Frame cfg where
  P := F.P
  Q s s' := F.Q s s' ∧ s'.remote.request_hints = s.remote.request_hints
  refl s := ⟨F.refl s, rfl⟩
  trans h h' := ⟨F.trans h.1 h'.1, h'.2.trans h.2⟩
  still hs hsame := ⟨F.still hs hsame, congrArg Watched.hints hsame⟩
  new_record hs hnone := ⟨F.new_record hs hnone, rfl⟩
  prune hs hrecord hpinned hpools hdisk hidle :=
    ⟨F.prune hs hrecord hpinned hpools hdisk hidle, rfl⟩
  copy hs hcopy := ⟨F.copy hs hcopy, rfl⟩
  pull hs hpull := ⟨F.pull hs hpull, rfl⟩
  handle hs := ⟨F.handle hs, rfl⟩

/-- What happens while a lock is waited for. -/
theorem readers (h : ReadersOnly s s') : F.R s s' := by
  obtain ⟨_, _, _, _, _, _, _, rfl, hsame, _⟩ := h
  refine F.of_kept rfl fun hs => ⟨hs.fit.same rfl rfl, hs.free, fun r => ?_, hs.copies⟩
  obtain ⟨n, hn⟩ := hsame r
  dsimp only
  rw [hn]
  exact (hs.residencies r).congr rfl rfl rfl

/-- The free slots change. -/
theorem slots {free_slots : Dict String (List Nat)}
    (hfree : F.G s → ∀ pool, ∀ slot ∈ (free_slots.get? pool).getD [], F.P pool slot) :
    F.R s { s with pools.free_slots := free_slots } :=
  F.of_kept rfl fun hs => hs.slots (hfree hs)

/-- In a core with pools the queue of waiters changes. -/
theorem waiters (hp : cfg.local_dram.isSome) {waiters : List (OpId × BlockKey)} :
    F.R s { s with dram.capacity_waiters := waiters } :=
  F.of_kept rfl fun hs => hs.waiters hp

/-- What the records hold of one kind, if the changed record holds the same. -/
theorem held_update {α : Type} (held : BlockRecord → α) {r : RecId} {x : BlockRecord}
    (hx : held x = held (s.recs r)) :
    (fun record => held (Function.update s.recs r x record)) =
      fun record => held (s.recs record) := by
  funext record
  by_cases heq : record = r
  · rw [heq, Function.update_self, hx]
  · rw [Function.update_of_ne heq]

/-- A record changes that keeps its disk residency and its framework memory. -/
theorem record {record : RecId} {x : BlockRecord} (hdisk : x.g3 = (s.recs record).g3)
    (hpinned : x.fw_mem = (s.recs record).fw_mem)
    (hpools : (s.recs record).local_dram = none → x.local_dram = none) :
    F.R s { s with recs := Function.update s.recs record x } := by
  refine F.of_kept ?_ fun hs => hs.record hpools fun hnone => hdisk.trans hnone
  unfold Core.watched
  dsimp only
  rw [held_update BlockRecord.g3 hdisk, held_update BlockRecord.fw_mem hpinned]

/-- In a core with pools a record gets a new residency. -/
theorem attach (hp : cfg.local_dram.isSome) {record : RecId} {r next : ResId}
    {x : LocalDramResidency} (hx : x.Described cfg F.P) :
    F.R s
      { s with
        residencies := Function.update s.residencies r x
        next_res := next
        recs := Function.update s.recs record { s.recs record with local_dram := some r } } := by
  refine F.of_kept ?_ fun hs => ⟨hs.fit.update rfl rfl (fun hnone => ?_) fun hnone => ?_, hs.free,
    (hs.residency hx).residencies, hs.copies⟩
  · unfold Core.watched
    dsimp only
    have hdisk := held_update BlockRecord.g3 (s := s) (r := record)
      (x := { s.recs record with local_dram := some r }) rfl
    have hpinned := held_update BlockRecord.fw_mem (s := s) (r := record)
      (x := { s.recs record with local_dram := some r }) rfl
    rw [hdisk, hpinned]
  · rw [hnone] at hp
    cases hp
  · exact hs.fit.disk hnone record

/-- A frame that is not about the disk. -/
class OpenDisk : Prop where
  disk : ∀ {s s' d}, F.G s → s'.watched = { s.watched with disk := d } → F.Q s s'
  transfer : ∀ {s op}, F.G s →
    F.Q s { s with progress.in_flight := s.progress.in_flight ++ [.g3_transfer op] }

/-- A frame that is not about the pins of the framework. -/
class OpenPins : Prop where
  pins : ∀ {s s' p}, F.G s → s'.watched = { s.watched with pins := p } → F.Q s s'
  write : ∀ {s op}, F.G s →
    F.Q s { s with progress.in_flight := s.progress.in_flight ++ [.source_write op] }

/-- A frame that lets a finished pull write to its request's hint. -/
class OpenPulls : Prop where
  hint : ∀ {s request_id hint hint'}, F.G s →
    s.remote.request_hints.get? request_id = some hint → hint'.source = hint.source →
    (hint.failed = true → hint'.failed = true) →
    F.Q s { s with remote.request_hints := s.remote.request_hints.set request_id hint' }

/-- A step that changes nothing but the disk. -/
theorem on_disk [hF : F.OpenDisk] {d : DiskState}
    (hsame : s'.watched = { s.watched with disk := d })
    (hgrounds : s'.grounds = s.grounds) : F.R s s' :=
  fun hs => ⟨hs.same hgrounds, hF.disk hs hsame⟩

/-- A record changes that keeps its framework memory, and gets a disk residency only in a core
with a disk. -/
theorem record_on_disk [hF : F.OpenDisk] {record : RecId} {x : BlockRecord}
    (hpinned : x.fw_mem = (s.recs record).fw_mem)
    (hpools : (s.recs record).local_dram = none → x.local_dram = none)
    (hdisk : cfg.g3 = none → x.g3 = none) :
    F.R s { s with recs := Function.update s.recs record x } := by
  refine fun hs => ⟨⟨hs.fit.update rfl rfl
    (fun hnone => hpools ((hs.fit.pools hnone).records record)) hdisk, hs.free, hs.residencies,
    hs.copies⟩, hF.disk (d := ?_) hs ?_⟩
  · exact
      { g3 := s.g3, residencies := s.g3_residencies, next := s.next_g3
        held := fun r => (Function.update s.recs record x r).g3 }
  · unfold Core.watched
    dsimp only
    rw [held_update BlockRecord.fw_mem hpinned]

/-- A step that changes nothing but pins. -/
theorem on_pins [hF : F.OpenPins] {p : PinState} (hsame : s'.watched = { s.watched with pins := p })
    (hgrounds : s'.grounds = s.grounds) : F.R s s' :=
  fun hs => ⟨hs.same hgrounds, hF.pins hs hsame⟩

/-- A record changes that keeps its disk residency. -/
theorem record_on_pins [hF : F.OpenPins] {record : RecId} {x : BlockRecord}
    (hdisk : x.g3 = (s.recs record).g3)
    (hpools : (s.recs record).local_dram = none → x.local_dram = none) :
    F.R s { s with recs := Function.update s.recs record x } := by
  refine fun hs => ⟨hs.record hpools fun hnone => hdisk.trans hnone, hF.pins
    (p := { s.watched.pins with
      held := fun r => (Function.update s.recs record x r).fw_mem }) hs ?_⟩
  unfold Core.watched
  dsimp only
  rw [held_update BlockRecord.g3 hdisk]

end Frame

end Kvcr
