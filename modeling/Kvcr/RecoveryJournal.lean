/-
`RecoveryJournal`: the ring that carries recovery frames from the primary to its
Guard.

Producer and consumer are two processes over one mapping. Each caches the cursor it
advances and loads the other's; between two of its accesses to the mapping the other
may do anything. So both are machines with one transition per access (a cursor load,
a cursor store, a flag load or store, one byte of the ring), and a run is an
arbitrary interleaving of their transitions.

`attempts` and `reads` are what the two sides were told: one entry for each `publish`
and each `read_next` that returned. `overwrote` becomes true if a store ever hits a
cell of an unread frame.
-/
import Kvcr.Lib.Circular

set_option autoImplicit false

namespace Kvcr.Journal

open Circular

/-! ## Frames -/

/-- A keyed frame; every frame of the core has the type `_RECORD_BLOCK`. -/
structure Frame where
  key : List UInt8
  payload : List UInt8
deriving DecidableEq

def RECORD_BLOCK : Nat := 1
def ALIGNMENT : Nat := 8
def MAX_FRAME_SIZE : Nat := 65535

/-- `_FRAME_HEADER.size`: three 16-bit numbers. -/
def HEADER_SIZE : Nat := 6

/-- `frame_size`. -/
def Frame.frame_size (f : Frame) : Nat := HEADER_SIZE + f.key.length + f.payload.length

/-- `frame_size + (-frame_size % _ALIGNMENT)`. -/
def stored_size (frame_size : Nat) : Nat :=
  frame_size + (ALIGNMENT - frame_size % ALIGNMENT) % ALIGNMENT

/-- A little-endian 16-bit number. -/
def pack_u16 (n : Nat) : List UInt8 := [UInt8.ofNat (n % 256), UInt8.ofNat (n / 256 % 256)]

/-- The 16-bit number at the front. -/
def unpack_u16 (bytes : List UInt8) : Nat :=
  (bytes.getD 0 0).toNat + 256 * (bytes.getD 1 0).toNat

/-- `_pack_frame`, zero-padded out to the stored size. -/
def Frame.pack_frame (f : Frame) : List UInt8 :=
  pack_u16 f.frame_size ++ pack_u16 RECORD_BLOCK ++ pack_u16 f.key.length ++ f.key ++ f.payload ++
    List.replicate (stored_size f.frame_size - f.frame_size) 0

/-! ## The mapping and the two sides -/

/-- The mapping: ring bytes, the two cursors, the invalid flag. -/
structure Mapping where
  ring : Nat → UInt8
  published : Nat
  consumed : Nat
  invalid : Bool

/-- Where a `publish` stands. `available` is the free space it found. -/
inductive Publishing where
  | idle
  | check_invalid (f : Frame)
  | load_published (f : Frame)
  | load_consumed (f : Frame) (published : Nat)
  | write (f : Frame) (published available written : Nat)
deriving DecidableEq

structure Producer where
  published_local : Option Nat
  invalid_local : Bool := false
  pc : Publishing := .idle

/-- Where a `read_next` stands. -/
inductive Reading where
  | idle
  | check_invalid
  | load_consumed
  | load_published (consumed : Nat)
  | check_caught_up
  | read_header (consumed published : Nat) (bytes : List UInt8)
  | read_frame (consumed frame_size key_size : Nat) (bytes : List UInt8)
deriving DecidableEq

structure Consumer where
  consumed_local : Option Nat
  invalid_local : Bool := false
  pc : Reading := .idle

/-- A `publish` that returned, with the free space at its decision. -/
structure Attempt where
  frame : Frame
  available : Nat
  accepted : Bool

/-- What a `read_next` ended with: a frame, `None`, or an exception. -/
inductive Read where
  | record (f : Frame)
  | caught_up
  | error
deriving DecidableEq

structure System where
  mapping : Mapping
  producer : Producer
  consumer : Consumer
  attempts : List Attempt := []
  reads : List Read := []
  overwrote : Bool := false

/-- After `reset`, by one of the two sides or by a third: a side that did not reset
loads its own cursor on first use. -/
def reset (ring : Nat → UInt8) (producer_reset consumer_reset : Bool) : System :=
  { mapping := { ring := ring, published := 0, consumed := 0, invalid := false }
    producer := { published_local := if producer_reset then some 0 else none }
    consumer := { consumed_local := if consumer_reset then some 0 else none } }

/-! ## `publish` -/

section

variable (cap : Nat)

/-- `_valid_cursors`. -/
def valid_cursors (published consumed : Nat) : Bool :=
  published % ALIGNMENT = 0 && consumed % ALIGNMENT = 0 &&
    consumed ≤ published && published ≤ consumed + cap

/-- The free space of the ring. -/
def Mapping.available (m : Mapping) : Nat := cap - (m.published - m.consumed)

/-- Some byte of an unread frame lives in `cell`. -/
def Mapping.unread (m : Mapping) (cell : Nat) : Bool :=
  (List.range (m.published - m.consumed)).any fun i => (m.consumed + i) % cap = cell

namespace System

/-- `publish` returns. -/
def returned (sys : System) (f : Frame) (available : Nat) (accepted : Bool) : System :=
  { sys with
    producer.pc := .idle
    attempts := sys.attempts ++ [⟨f, available, accepted⟩] }

/-- `_invalidate`, and `publish` returns `False`. -/
def invalidate (sys : System) (f : Frame) : System :=
  { sys with mapping.invalid := true, producer.invalid_local := true }.returned f
    (sys.mapping.available cap) false

/-- One transition of the producer; an idle producer starts to publish `next`. -/
def produce (next : Frame) (sys : System) : System :=
  match sys.producer.pc with
  | .idle =>
    if sys.producer.invalid_local then sys.returned next (sys.mapping.available cap) false
    else if MAX_FRAME_SIZE < next.frame_size then sys.invalidate cap next
    else
      match sys.producer.published_local with
      | none => { sys with producer.pc := .check_invalid next }
      | some published => { sys with producer.pc := .load_consumed next published }
  | .check_invalid f =>
    if sys.mapping.invalid then
      { sys with producer.invalid_local := true }.returned f (sys.mapping.available cap) false
    else { sys with producer.pc := .load_published f }
  | .load_published f => { sys with producer.pc := .load_consumed f sys.mapping.published }
  | .load_consumed f published =>
    let consumed := sys.mapping.consumed
    if ¬ valid_cursors cap published consumed then sys.invalidate cap f
    else if cap - (published - consumed) < stored_size f.frame_size then sys.invalidate cap f
    else { sys with producer.pc := .write f published (sys.mapping.available cap) 0 }
  | .write f published available written =>
    let data := f.pack_frame
    if written < data.length then
      let cell := wrapped cap (published % cap) written
      { sys with
        mapping.ring := Function.update sys.mapping.ring cell (data.getD written 0)
        producer.pc := .write f published available (written + 1)
        overwrote := sys.overwrote || sys.mapping.unread cap cell }
    else
      { sys with
        mapping.published := published + data.length
        producer.published_local := some (published + data.length) }.returned f available true

/-! ## `read_next` -/

/-- `read_next` ends. -/
def answered (sys : System) (read : Read) : System :=
  { sys with consumer.pc := .idle, reads := sys.reads ++ [read] }

/-- `_fail`: invalidate the journal and raise. -/
def fail (sys : System) : System :=
  { sys with mapping.invalid := true, consumer.invalid_local := true }.answered .error

/-- The checks on a frame header. -/
def parse_header (consumed published : Nat) (header : List UInt8) (sys : System) : System :=
  let frame_size := unpack_u16 header
  let record_type := unpack_u16 (header.drop 2)
  let key_size := unpack_u16 (header.drop 4)
  if frame_size < HEADER_SIZE + key_size then sys.fail
  else if record_type ≠ RECORD_BLOCK then sys.fail
  else if cap < stored_size frame_size ∨ published - consumed < stored_size frame_size then sys.fail
  else { sys with consumer.pc := .read_frame consumed frame_size key_size [] }

/-- The end of `read_next`, once the whole frame has been read. -/
def parse_frame (consumed frame_size key_size : Nat) (frame : List UInt8) (sys : System) : System :=
  if (frame.drop frame_size).any (· ≠ 0) then sys.fail
  else
    let next := consumed + stored_size frame_size
    { sys with consumer.consumed_local := some next, mapping.consumed := next }.answered
      (.record
        { key := (frame.drop HEADER_SIZE).take key_size
          payload := (frame.take frame_size).drop (HEADER_SIZE + key_size) })

/-- One transition of the consumer; an idle consumer starts a `read_next`. -/
def consume (sys : System) : System :=
  match sys.consumer.pc with
  | .idle =>
    if sys.consumer.invalid_local then sys.answered .error
    else
      match sys.consumer.consumed_local with
      | none => { sys with consumer.pc := .check_invalid }
      | some consumed => { sys with consumer.pc := .load_published consumed }
  | .check_invalid =>
    if sys.mapping.invalid then
      { sys with consumer.invalid_local := true }.answered .error
    else { sys with consumer.pc := .load_consumed }
  | .load_consumed =>
    { sys with
      consumer.consumed_local := some sys.mapping.consumed
      consumer.pc := .load_published sys.mapping.consumed }
  | .load_published consumed =>
    let published := sys.mapping.published
    if ¬ valid_cursors cap published consumed then sys.fail
    else if published = consumed then { sys with consumer.pc := .check_caught_up }
    else { sys with consumer.pc := .read_header consumed published [] }
  | .check_caught_up =>
    if sys.mapping.invalid then
      { sys with consumer.invalid_local := true }.answered .error
    else sys.answered .caught_up
  | .read_header consumed published bytes =>
    if bytes.length < HEADER_SIZE then
      let byte := sys.mapping.ring (wrapped cap (consumed % cap) bytes.length)
      { sys with consumer.pc := .read_header consumed published (bytes ++ [byte]) }
    else sys.parse_header cap consumed published bytes
  | .read_frame consumed frame_size key_size bytes =>
    if bytes.length < stored_size frame_size then
      let byte := sys.mapping.ring (wrapped cap (consumed % cap) bytes.length)
      { sys with consumer.pc := .read_frame consumed frame_size key_size (bytes ++ [byte]) }
    else sys.parse_frame consumed frame_size key_size bytes

/-! ## Runs -/

/-- Whose turn it is; a producer that is idle starts to publish the frame given. -/
inductive Turn where
  | producer (next : Frame)
  | consumer

/-- One transition. -/
def step (sys : System) : Turn → System
  | .producer next => sys.produce cap next
  | .consumer => sys.consume cap

/-- An interleaving. -/
def run (sys : System) (turns : List Turn) : System := turns.foldl (step cap) sys

/-- The frames whose publish returned `True`. -/
def accepted (sys : System) : List Frame :=
  sys.attempts.filterMap fun a => if a.accepted then some a.frame else none

/-- The frames the consumer obtained. -/
def obtained (sys : System) : List Frame :=
  sys.reads.filterMap fun | .record f => some f | _ => none

/-- Some publish returned `False`. -/
def rejected (sys : System) : Prop := ∃ a ∈ sys.attempts, a.accepted = false

end System

end

/-! ## Frames as bytes -/

theorem stored_size_mod (n : Nat) : stored_size n % ALIGNMENT = 0 := by
  unfold stored_size ALIGNMENT
  omega

theorem le_stored_size (n : Nat) : n ≤ stored_size n := Nat.le_add_right ..

@[simp] theorem length_pack_u16 (n : Nat) : (pack_u16 n).length = 2 := rfl

@[simp] theorem length_pack_frame (f : Frame) : f.pack_frame.length = stored_size f.frame_size := by
  have hle := le_stored_size f.frame_size
  simp only [Frame.pack_frame, List.length_append, length_pack_u16, List.length_replicate]
  unfold Frame.frame_size HEADER_SIZE at *
  omega

/-- A 16-bit number survives packing, whatever follows it. -/
theorem unpack_pack_u16 {n : Nat} (hn : n ≤ MAX_FRAME_SIZE) (rest : List UInt8) :
    unpack_u16 (pack_u16 n ++ rest) = n := by
  have hlow : (UInt8.ofNat (n % 256)).toNat = n % 256 := by
    simp
  have hhigh : (UInt8.ofNat (n / 256 % 256)).toNat = n / 256 % 256 := by
    simp
  have hn : n < 65536 := by unfold MAX_FRAME_SIZE at hn; omega
  change (UInt8.ofNat (n % 256)).toNat + 256 * (UInt8.ofNat (n / 256 % 256)).toNat = n
  rw [hlow, hhigh]
  omega

/-- The three numbers at the front of a packed frame. -/
def Frame.header (f : Frame) : List UInt8 :=
  pack_u16 f.frame_size ++ (pack_u16 RECORD_BLOCK ++ pack_u16 f.key.length)

/-- A packed frame is header, key, payload and padding. -/
theorem pack_frame_eq (f : Frame) :
    f.pack_frame = f.header ++ (f.key ++ (f.payload ++
      List.replicate (stored_size f.frame_size - f.frame_size) 0)) := by
  simp [Frame.pack_frame, Frame.header]

/-- The bytes of a sequence of frames. -/
def bytes (fs : List Frame) : List UInt8 := fs.flatMap Frame.pack_frame

@[simp] theorem bytes_nil : bytes [] = [] := rfl

@[simp] theorem bytes_cons (f : Frame) (fs : List Frame) :
    bytes (f :: fs) = f.pack_frame ++ bytes fs := rfl

@[simp] theorem bytes_append (fs gs : List Frame) : bytes (fs ++ gs) = bytes fs ++ bytes gs :=
  List.flatMap_append

theorem length_bytes_mod (fs : List Frame) : (bytes fs).length % ALIGNMENT = 0 := by
  induction fs with
  | nil => rfl
  | cons f fs ih =>
    have hf := stored_size_mod f.frame_size
    simp only [bytes_cons, List.length_append, length_pack_frame]
    unfold ALIGNMENT at *
    omega

/-! ### What the reader makes of a packed frame -/

section Parse

variable {f : Frame}

@[simp] theorem length_header (f : Frame) : f.header.length = HEADER_SIZE := rfl

theorem take_header (rest : List UInt8) : (f.pack_frame ++ rest).take HEADER_SIZE = f.header := by
  rw [pack_frame_eq, List.append_assoc]
  exact List.take_left' rfl

/-- The numbers of a header, whatever follows it. -/
theorem unpack_header_append (hf : f.frame_size ≤ MAX_FRAME_SIZE) (rest : List UInt8) :
    unpack_u16 (f.header ++ rest) = f.frame_size ∧
      unpack_u16 ((f.header ++ rest).drop 2) = RECORD_BLOCK ∧
      unpack_u16 ((f.header ++ rest).drop 4) = f.key.length := by
  have hkey : f.key.length ≤ MAX_FRAME_SIZE := by
    unfold Frame.frame_size at hf
    omega
  exact ⟨unpack_pack_u16 hf _, unpack_pack_u16 (by decide) _, unpack_pack_u16 hkey rest⟩

theorem unpack_header (hf : f.frame_size ≤ MAX_FRAME_SIZE) :
    unpack_u16 f.header = f.frame_size ∧ unpack_u16 (f.header.drop 2) = RECORD_BLOCK ∧
      unpack_u16 (f.header.drop 4) = f.key.length := by
  have h := unpack_header_append hf []
  rwa [List.append_nil] at h

theorem length_unpadded (f : Frame) : (f.header ++ (f.key ++ f.payload)).length = f.frame_size := by
  simp only [Frame.header, Frame.frame_size, HEADER_SIZE, List.length_append, length_pack_u16]
  omega

theorem padding_zero : ((f.pack_frame).drop f.frame_size).any (· ≠ 0) = false := by
  rw [pack_frame_eq, ← List.append_assoc f.key, ← List.append_assoc,
    List.drop_left' (length_unpadded f)]
  simp

theorem parse_key : (f.pack_frame.drop HEADER_SIZE).take f.key.length = f.key := by
  rw [pack_frame_eq, List.drop_left' (length_header f)]
  exact List.take_left' rfl

theorem parse_payload :
    (f.pack_frame.take f.frame_size).drop (HEADER_SIZE + f.key.length) = f.payload := by
  rw [pack_frame_eq, ← List.append_assoc f.key, ← List.append_assoc,
    List.take_left' (length_unpadded f), ← List.append_assoc]
  exact List.drop_left' (by simp)

end Parse

/-! ## The invariant -/

/-- Every `publish` answered as it should: `False` exactly for a frame that is too
large, that did not fit, or that came after another `False`. -/
def Exact (attempts : List Attempt) : Prop :=
  ∀ before a after, attempts = before ++ a :: after →
    (a.accepted = false ↔ MAX_FRAME_SIZE < a.frame.frame_size ∨
      a.available < stored_size a.frame.frame_size ∨ ∃ b ∈ before, b.accepted = false)

/-- Where the producer stands, given the frames `unread`. -/
def PublishingInv (cap : Nat) (sys : System) : Publishing → Prop
  | .idle => True
  | .check_invalid f | .load_published f => f.frame_size ≤ MAX_FRAME_SIZE ∧ ¬ sys.rejected
  | .load_consumed f published =>
    f.frame_size ≤ MAX_FRAME_SIZE ∧ ¬ sys.rejected ∧ published = sys.mapping.published
  | .write f published available written =>
    f.frame_size ≤ MAX_FRAME_SIZE ∧ ¬ sys.rejected ∧ published = sys.mapping.published ∧
      stored_size f.frame_size ≤ available ∧ written ≤ stored_size f.frame_size ∧
      published + stored_size f.frame_size ≤ sys.mapping.consumed + cap ∧
      window sys.mapping.ring cap published written = f.pack_frame.take written

/-- Where the consumer stands, given the frames `unread`. -/
def ReadingInv (cap : Nat) (sys : System) (unread : List Frame) : Reading → Prop
  | .idle | .check_invalid | .load_consumed | .check_caught_up => True
  | .load_published consumed => consumed = sys.mapping.consumed
  | .read_header consumed published acc =>
    consumed = sys.mapping.consumed ∧ acc.length ≤ HEADER_SIZE ∧
      acc = window sys.mapping.ring cap consumed acc.length ∧
      ∃ f front back, unread = (f :: front) ++ back ∧
        published = consumed + (bytes (f :: front)).length
  | .read_frame consumed frame_size key_size acc =>
    consumed = sys.mapping.consumed ∧ ∃ f rest, unread = f :: rest ∧
      frame_size = f.frame_size ∧ key_size = f.key.length ∧
      acc.length ≤ stored_size f.frame_size ∧
      acc = window sys.mapping.ring cap consumed acc.length

/-- The ring between two transitions. -/
structure Inv (cap : Nat) (sys : System) (unread : List Frame) : Prop where
  fifo : sys.accepted = sys.obtained ++ unread
  sizes : ∀ f ∈ unread, f.frame_size ≤ MAX_FRAME_SIZE
  cursors : sys.mapping.published = sys.mapping.consumed + (bytes unread).length
  aligned : sys.mapping.consumed % ALIGNMENT = 0
  fits : sys.mapping.published ≤ sys.mapping.consumed + cap
  contents : window sys.mapping.ring cap sys.mapping.consumed (bytes unread).length = bytes unread
  exact : Exact sys.attempts
  no_overwrite : sys.overwrote = false
  invalid_iff : sys.mapping.invalid = true ↔ sys.rejected
  producer_invalid : sys.producer.invalid_local = true ↔ sys.rejected
  consumer_invalid : sys.consumer.invalid_local = true → sys.rejected
  errors : Read.error ∈ sys.reads → sys.rejected
  published_local : ∀ p ∈ sys.producer.published_local, p = sys.mapping.published
  consumed_local : ∀ c ∈ sys.consumer.consumed_local, c = sys.mapping.consumed
  publishing : PublishingInv cap sys sys.producer.pc
  reading : ReadingInv cap sys unread sys.consumer.pc

theorem inv_reset (cap : Nat) (ring : Nat → UInt8) (producer_reset consumer_reset : Bool) :
    Inv cap (reset ring producer_reset consumer_reset) [] where
  fifo := rfl
  sizes := by simp
  cursors := rfl
  aligned := rfl
  fits := Nat.zero_le _
  contents := rfl
  exact := by
    intro before a after h
    simp [reset] at h
  no_overwrite := rfl
  invalid_iff := by simp [reset, System.rejected]
  producer_invalid := by simp [reset, System.rejected]
  consumer_invalid := by simp [reset]
  errors := by simp [reset]
  published_local := by cases producer_reset <;> simp [reset]
  consumed_local := by cases consumer_reset <;> simp [reset]
  publishing := trivial
  reading := trivial

/-! ## The producer keeps it -/

section Produce

variable {cap : Nat} {sys : System} {unread : List Frame}

theorem exact_append {attempts : List Attempt} {a : Attempt} (h : Exact attempts)
    (ha : a.accepted = false ↔ MAX_FRAME_SIZE < a.frame.frame_size ∨
      a.available < stored_size a.frame.frame_size ∨ ∃ b ∈ attempts, b.accepted = false) :
    Exact (attempts ++ [a]) := by
  intro before x after heq
  rcases List.eq_nil_or_concat after with rfl | ⟨after', y, rfl⟩
  · obtain ⟨rfl, hx⟩ := List.append_inj' heq rfl
    cases hx
    exact ha
  · have heq : attempts ++ [a] = (before ++ x :: after') ++ [y] := by
      simpa using heq
    obtain ⟨hfront, -⟩ := List.append_inj' heq rfl
    exact h before x after' hfront

theorem rejected_append (attempts : List Attempt) (a : Attempt) :
    (∃ b ∈ attempts ++ [a], b.accepted = false) ↔
      (∃ b ∈ attempts, b.accepted = false) ∨ a.accepted = false := by
  simp [or_and_right, exists_or]

/-- The cursors of a state that satisfies the invariant pass the check. -/
theorem Inv.valid_cursors (h : Inv cap sys unread) :
    valid_cursors cap sys.mapping.published sys.mapping.consumed = true := by
  have hbytes := length_bytes_mod unread
  have hcursors := h.cursors
  have haligned := h.aligned
  have hfits := h.fits
  simp only [Journal.valid_cursors, Bool.and_eq_true, decide_eq_true_eq]
  unfold ALIGNMENT at *
  omega

/-- A `publish` that has a reason to return `False`. -/
theorem inv_invalidate (h : Inv cap sys unread) (f : Frame)
    (why : MAX_FRAME_SIZE < f.frame_size ∨
      sys.mapping.available cap < stored_size f.frame_size ∨ sys.rejected) :
    Inv cap (sys.invalidate cap f) unread := by
  have hrej : (sys.invalidate cap f).rejected :=
    ⟨_, List.mem_append_right _ (List.mem_singleton_self _), rfl⟩
  have hacc : (sys.invalidate cap f).accepted = sys.accepted := by
    simp [System.invalidate, System.returned, System.accepted]
  exact
    { fifo := hacc.trans h.fifo
      sizes := h.sizes
      cursors := h.cursors
      aligned := h.aligned
      fits := h.fits
      contents := h.contents
      exact := exact_append h.exact (by simpa [System.rejected] using why)
      no_overwrite := h.no_overwrite
      invalid_iff := iff_of_true rfl hrej
      producer_invalid := iff_of_true rfl hrej
      consumer_invalid := fun _ => hrej
      errors := fun _ => hrej
      published_local := h.published_local
      consumed_local := h.consumed_local
      publishing := trivial
      reading := h.reading }

/-- Once a publish was rejected the flags are set, so a further `False` is an `invalidate`
too. -/
theorem Inv.returned_eq_invalidate (h : Inv cap sys unread) (hrej : sys.rejected) (f : Frame) :
    sys.returned f (sys.mapping.available cap) false = sys.invalidate cap f := by
  have hflag := h.invalid_iff.mpr hrej
  have hlocal := h.producer_invalid.mpr hrej
  have hsame : { sys with mapping.invalid := true, producer.invalid_local := true } = sys := by
    obtain ⟨⟨ring, published, consumed, invalid⟩, ⟨local_, flag, pc⟩, _⟩ := sys
    simp_all
  rw [System.invalidate, hsame]

/-- Moving the producer's program counter. -/
theorem Inv.goto (h : Inv cap sys unread) {pc : Publishing}
    (hpc : PublishingInv cap sys pc) : Inv cap { sys with producer.pc := pc } unread :=
  { h with publishing := by cases pc <;> exact hpc }

/-- What the consumer has read so far lies within the unread frames. -/
theorem Inv.reading_le (h : Inv cap sys unread) {consumed published : Nat} {acc : List UInt8}
    (hpc : sys.consumer.pc = .read_header consumed published acc) :
    acc.length ≤ (bytes unread).length := by
  have hreading := h.reading
  rw [hpc] at hreading
  obtain ⟨-, hlen, -, f, front, back, rfl, -⟩ := hreading
  have hf := le_stored_size f.frame_size
  simp only [List.cons_append, bytes_cons, List.length_append, length_pack_frame]
  unfold Frame.frame_size at *
  omega

/-- A store behind the unread frames changes nothing the consumer looks at. -/
theorem Inv.reading_update (h : Inv cap sys unread) {p : Nat} (b : UInt8)
    (hp : sys.mapping.published ≤ p) (hturn : p < sys.mapping.consumed + cap) :
    ReadingInv cap { sys with mapping.ring := Function.update sys.mapping.ring (p % cap) b }
      unread sys.consumer.pc := by
  have hreading := h.reading
  have hcursors := h.cursors
  cases hpc : sys.consumer.pc with
  | idle | check_invalid | load_consumed | check_caught_up => trivial
  | load_published consumed =>
    rw [hpc] at hreading
    exact hreading
  | read_header consumed published acc =>
    have hle := h.reading_le hpc
    rw [hpc] at hreading
    obtain ⟨rfl, hlen, hacc, hframes⟩ := hreading
    refine ⟨rfl, hlen, ?_, hframes⟩
    exact hacc.trans (window_update_outside _ b (by omega) hturn).symm
  | read_frame consumed frame_size key_size acc =>
    rw [hpc] at hreading
    obtain ⟨rfl, f, rest, rfl, hsize, hkey, hlen, hacc⟩ := hreading
    refine ⟨rfl, f, rest, rfl, hsize, hkey, hlen, ?_⟩
    have hle : acc.length ≤ (bytes (f :: rest)).length := by
      simp only [bytes_cons, List.length_append, length_pack_frame]
      omega
    exact hacc.trans (window_update_outside _ b (by omega) hturn).symm

/-- One byte of a frame is stored. -/
theorem inv_write (h : Inv cap sys unread) {f : Frame} {published available written : Nat}
    (hpc : sys.producer.pc = .write f published available written)
    (hmore : written < f.pack_frame.length) (next : Frame) :
    Inv cap (sys.produce cap next) unread := by
  have hpub := h.publishing
  rw [hpc] at hpub
  obtain ⟨hsize, hrej, rfl, havail, hwritten, hroom, hdone⟩ := hpub
  have hcursors := h.cursors
  rw [length_pack_frame] at hmore
  have hcell : wrapped cap (sys.mapping.published % cap) written =
      (sys.mapping.published + written) % cap := wrapped_eq_mod (by omega)
  have hclear : sys.mapping.unread cap ((sys.mapping.published + written) % cap) = false := by
    simp only [Mapping.unread, List.any_eq_false, List.mem_range, decide_eq_true_eq]
    intro i hi
    exact mod_ne (by omega) (by omega)
  have hstep : sys.produce cap next =
      { sys with
        mapping.ring := Function.update sys.mapping.ring
          ((sys.mapping.published + written) % cap) (f.pack_frame.getD written 0)
        producer.pc := .write f sys.mapping.published available (written + 1)
        overwrote := sys.overwrote || false } := by
    simp [System.produce, hpc, hmore, hcell, hclear]
  have hkept : window (Function.update sys.mapping.ring ((sys.mapping.published + written) % cap)
      (f.pack_frame.getD written 0)) cap sys.mapping.consumed (bytes unread).length =
        bytes unread := (window_update_outside _ _ (by omega) (by omega)).trans h.contents
  rw [hstep]
  exact
    { fifo := h.fifo
      sizes := h.sizes
      cursors := h.cursors
      aligned := h.aligned
      fits := h.fits
      contents := hkept
      exact := h.exact
      no_overwrite := by simp [h.no_overwrite]
      invalid_iff := h.invalid_iff
      producer_invalid := h.producer_invalid
      consumer_invalid := h.consumer_invalid
      errors := h.errors
      published_local := h.published_local
      consumed_local := h.consumed_local
      publishing := by
        refine ⟨hsize, hrej, rfl, havail, hmore, hroom, ?_⟩
        have hlt : written < f.pack_frame.length := by simpa using hmore
        have hget : f.pack_frame.getD written 0 = f.pack_frame[written] := by
          rw [List.getD_eq_getElem?_getD, List.getElem?_eq_getElem hlt, Option.getD_some]
        simp only [hget, window_update_next sys.mapping.ring _ (show written < cap by omega), hdone]
        exact (List.take_succ_eq_append_getElem hlt).symm
      reading := h.reading_update _ (by omega) (by omega) }

/-- The cursor that offers the frame is stored. -/
theorem inv_publish (h : Inv cap sys unread) {f : Frame} {published available written : Nat}
    (hpc : sys.producer.pc = .write f published available written)
    (hdone : ¬ written < f.pack_frame.length) (next : Frame) :
    Inv cap (sys.produce cap next) (unread ++ [f]) := by
  have hpub := h.publishing
  rw [hpc] at hpub
  obtain ⟨hsize, hrej, rfl, havail, hwritten, hroom, hbytes⟩ := hpub
  have hcursors := h.cursors
  have hlen := length_pack_frame f
  have hall : written = f.pack_frame.length := by omega
  rw [hall, List.take_length] at hbytes
  have hstep : sys.produce cap next =
      { sys with
        mapping.published := sys.mapping.published + f.pack_frame.length
        producer.published_local := some (sys.mapping.published + f.pack_frame.length) }.returned f
          available true := by
    simp only [System.produce, hpc, hdone, if_false]
  have hnotrej : ¬ ∃ b ∈ sys.attempts ++ [⟨f, available, true⟩], b.accepted = false := by
    rw [rejected_append]
    rintro (hearlier | hnow)
    · exact hrej hearlier
    · cases hnow
  have hiff : ∀ {p : Prop}, (p ↔ sys.rejected) →
      (p ↔ ∃ b ∈ sys.attempts ++ [⟨f, available, true⟩], b.accepted = false) := fun hp =>
    iff_of_false (fun hx => hrej (hp.mp hx)) hnotrej
  rw [hstep]
  exact
    { fifo := by
        have hfifo := h.fifo
        simp only [System.accepted, System.returned, System.obtained] at hfifo ⊢
        simp [hfifo]
      sizes := by
        intro g hg
        rcases List.mem_append.mp hg with hg | hg
        · exact h.sizes g hg
        · rw [List.mem_singleton.mp hg]
          exact hsize
      cursors := by
        simp only [System.returned, bytes_append, bytes_cons, bytes_nil, List.append_nil,
          List.length_append, hcursors]
        omega
      aligned := h.aligned
      fits := by
        simp only [System.returned]
        omega
      contents := by
        simp only [System.returned, bytes_append, bytes_cons, bytes_nil, List.append_nil,
          List.length_append, window_add, h.contents, ← hcursors, hbytes]
      exact := by
        refine exact_append h.exact (iff_of_false (by simp) ?_)
        rintro (hbig | hfull | hearlier)
        · simp only at hbig
          omega
        · simp only at hfull
          omega
        · exact hrej hearlier
      no_overwrite := h.no_overwrite
      invalid_iff := hiff h.invalid_iff
      producer_invalid := hiff h.producer_invalid
      consumer_invalid := fun hx => absurd (h.consumer_invalid hx) hrej
      errors := fun hx => absurd (h.errors hx) hrej
      published_local := by
        intro p hp
        exact (Option.some.inj hp).symm
      consumed_local := h.consumed_local
      publishing := trivial
      reading := by
        have hreading := h.reading
        simp only [System.returned]
        cases hc : sys.consumer.pc with
        | idle | check_invalid | load_consumed | check_caught_up => trivial
        | load_published consumed =>
          rw [hc] at hreading
          exact hreading
        | read_header consumed published acc =>
          rw [hc] at hreading
          obtain ⟨hcons, hle, hacc, g, front, back, rfl, hpubd⟩ := hreading
          exact ⟨hcons, hle, hacc, g, front, back ++ [f], by simp, hpubd⟩
        | read_frame consumed frame_size key_size acc =>
          rw [hc] at hreading
          obtain ⟨hcons, g, rest, rfl, hrest⟩ := hreading
          exact ⟨hcons, g, rest ++ [f], by simp, hrest⟩ }

/-- Any transition of the producer. -/
theorem inv_produce (h : Inv cap sys unread) (next : Frame) :
    ∃ unread', Inv cap (sys.produce cap next) unread' := by
  have hpub := h.publishing
  cases hpc : sys.producer.pc with
  | idle =>
    simp only [System.produce, hpc]
    by_cases hinv : sys.producer.invalid_local = true
    · have hrej := h.producer_invalid.mp hinv
      rw [if_pos hinv, h.returned_eq_invalidate hrej]
      exact ⟨unread, inv_invalidate h next (.inr (.inr hrej))⟩
    · have hnot : ¬ sys.rejected := fun hr => hinv (h.producer_invalid.mpr hr)
      rw [if_neg hinv]
      split
      · exact ⟨unread, inv_invalidate h next (.inl ‹_›)⟩
      · have hsize : next.frame_size ≤ MAX_FRAME_SIZE := by omega
        split
        · exact ⟨unread, h.goto ⟨hsize, hnot⟩⟩
        · exact ⟨unread, h.goto ⟨hsize, hnot, h.published_local _ ‹_›⟩⟩
  | check_invalid f =>
    rw [hpc] at hpub
    have hclear : ¬ sys.mapping.invalid = true := fun hx => hpub.2 (h.invalid_iff.mp hx)
    simp only [System.produce, hpc, if_neg hclear]
    exact ⟨unread, h.goto hpub⟩
  | load_published f =>
    rw [hpc] at hpub
    simp only [System.produce, hpc]
    exact ⟨unread, h.goto ⟨hpub.1, hpub.2, rfl⟩⟩
  | load_consumed f published =>
    rw [hpc] at hpub
    obtain ⟨hsize, hrej, rfl⟩ := hpub
    have hcursors := h.cursors
    have hfits := h.fits
    simp only [System.produce, hpc, h.valid_cursors, not_true_eq_false, if_false]
    split
    · exact ⟨unread, inv_invalidate h f (.inr (.inl ‹_›))⟩
    · refine ⟨unread, h.goto ⟨hsize, hrej, rfl, ?_, Nat.zero_le _, by omega, rfl⟩⟩
      unfold Mapping.available
      omega
  | write f published available written =>
    by_cases hmore : written < f.pack_frame.length
    · exact ⟨unread, inv_write h hpc hmore next⟩
    · exact ⟨unread ++ [f], inv_publish h hpc hmore next⟩

end Produce

/-! ## The consumer keeps it -/

section Consume

variable {cap : Nat} {sys : System} {unread : List Frame}

/-- A `read_next` that ends without a frame. -/
theorem inv_answered (h : Inv cap sys unread) {read : Read} (hframe : ∀ f, read ≠ .record f)
    (herror : read = .error → sys.rejected) : Inv cap (sys.answered read) unread :=
  { h with
    fifo := by
      have hsame : (sys.answered read).obtained = sys.obtained := by
        cases read with
        | record f => exact absurd rfl (hframe f)
        | caught_up | error => simp [System.obtained, System.answered]
      exact h.fifo.trans (congrArg (· ++ unread) hsame.symm)
    errors := by
      intro hmem
      rcases List.mem_append.mp hmem with hmem | hmem
      · exact h.errors hmem
      · exact herror (List.mem_singleton.mp hmem).symm
    publishing := h.publishing
    reading := trivial }

/-- The flag of a rejected publish is seen. -/
theorem inv_raise (h : Inv cap sys unread) (hrej : sys.rejected) :
    Inv cap ({ sys with consumer.invalid_local := true }.answered .error) unread := by
  have hmarked : Inv cap { sys with consumer.invalid_local := true } unread :=
    { h with
      consumer_invalid := fun _ => hrej
      publishing := h.publishing
      reading := h.reading }
  exact inv_answered hmarked (by simp) fun _ => hrej

/-- Moving the consumer's program counter. -/
theorem Inv.seek (h : Inv cap sys unread) {pc : Reading} (hpc : ReadingInv cap sys unread pc) :
    Inv cap { sys with consumer.pc := pc } unread :=
  { h with
    publishing := h.publishing
    reading := hpc }

/-- The next byte of an accumulated window. -/
theorem window_snoc {consumed : Nat} {acc : List UInt8} (hlt : acc.length < cap)
    (hacc : acc = window sys.mapping.ring cap consumed acc.length) :
    acc ++ [sys.mapping.ring (wrapped cap (consumed % cap) acc.length)] =
      window sys.mapping.ring cap consumed
        (acc ++ [sys.mapping.ring (wrapped cap (consumed % cap) acc.length)]).length := by
  rw [List.length_append, List.length_singleton, window_succ, ← hacc, wrapped_eq_mod hlt]

/-- A window of unread bytes is the front of the unread frames. -/
theorem Inv.front (h : Inv cap sys unread) {n : Nat} (hn : n ≤ (bytes unread).length) :
    window sys.mapping.ring cap sys.mapping.consumed n = (bytes unread).take n := by
  rw [window_eq_take _ hn, h.contents]

/-- A frame fits the ring it was published in. -/
theorem Inv.stored_le (h : Inv cap sys unread) {f : Frame} {rest : List Frame}
    (hunread : unread = f :: rest) : stored_size f.frame_size ≤ cap := by
  have hcursors := h.cursors
  have hfits := h.fits
  subst hunread
  simp only [bytes_cons, List.length_append, length_pack_frame] at hcursors
  omega

/-- A frame has been read: its cursor store hands the space back. -/
theorem inv_record (h : Inv cap sys unread) {f : Frame} {rest : List Frame}
    (hunread : unread = f :: rest) :
    Inv cap (({ sys with
      consumer.consumed_local := some (sys.mapping.consumed + stored_size f.frame_size)
      mapping.consumed := sys.mapping.consumed + stored_size f.frame_size } : System).answered
        (.record f)) rest := by
  subst hunread
  have hcursors := h.cursors
  have hfits := h.fits
  have hcontents := h.contents
  simp only [bytes_cons, List.length_append, length_pack_frame] at hcursors
  rw [bytes_cons, List.length_append, window_add] at hcontents
  have hrest := (List.append_inj hcontents (by simp)).2
  rw [length_pack_frame] at hrest
  exact
    { fifo := by
        have hfifo := h.fifo
        simp only [System.accepted, System.obtained, System.answered] at hfifo ⊢
        simp [hfifo]
      sizes := fun g hg => h.sizes g (List.mem_cons_of_mem _ hg)
      cursors := by
        simp only [System.answered]
        omega
      aligned := by
        have haligned := h.aligned
        have hstored := stored_size_mod f.frame_size
        simp only [System.answered]
        unfold ALIGNMENT at *
        omega
      fits := by
        simp only [System.answered]
        omega
      contents := hrest
      exact := h.exact
      no_overwrite := h.no_overwrite
      invalid_iff := h.invalid_iff
      producer_invalid := h.producer_invalid
      consumer_invalid := h.consumer_invalid
      errors := by
        intro hmem
        exact h.errors (by simpa [System.answered] using hmem)
      published_local := h.published_local
      consumed_local := by
        intro c hc
        exact (Option.some.inj hc).symm
      publishing := by
        have hpub := h.publishing
        simp only [System.answered]
        cases hpc : sys.producer.pc with
        | idle => trivial
        | check_invalid f | load_published f | load_consumed f published =>
          rw [hpc] at hpub
          exact hpub
        | write g published available written =>
          rw [hpc] at hpub
          obtain ⟨hsize, hrej, hp, havail, hwritten, hroom, hdone⟩ := hpub
          refine ⟨hsize, hrej, hp, havail, hwritten, ?_, hdone⟩
          simp only
          omega
      reading := trivial }

/-- How many more transitions a `read_next` needs at most. -/
def Reading.remaining : Reading → Nat
  | .check_caught_up => 0
  | .read_frame _ frame_size _ acc => stored_size frame_size - acc.length
  | .read_header _ _ acc => MAX_FRAME_SIZE + ALIGNMENT + (HEADER_SIZE - acc.length) + 1
  | .load_published _ => MAX_FRAME_SIZE + ALIGNMENT + HEADER_SIZE + 2
  | .load_consumed => MAX_FRAME_SIZE + ALIGNMENT + HEADER_SIZE + 3
  | .check_invalid => MAX_FRAME_SIZE + ALIGNMENT + HEADER_SIZE + 4
  | .idle => MAX_FRAME_SIZE + ALIGNMENT + HEADER_SIZE + 5

/-- What one transition of the consumer can do: move on within a `read_next`, or end it
with the oldest unread frame, with `None`, or with the error of a rejected publish. -/
def Consumes (cap : Nat) (sys : System) (unread : List Frame) (sys' : System) : Prop :=
  (Inv cap sys' unread ∧ sys'.reads = sys.reads ∧
    sys'.consumer.pc.remaining < sys.consumer.pc.remaining ∧
    (sys'.consumer.pc = .check_caught_up → unread = [])) ∨
  (∃ f rest, unread = f :: rest ∧ Inv cap sys' rest ∧ sys'.reads = sys.reads ++ [.record f] ∧
    sys'.consumer.pc = .idle) ∨
  (Inv cap sys' unread ∧ sys'.reads = sys.reads ++ [.caught_up] ∧ sys'.consumer.pc = .idle ∧
    sys.consumer.pc = .check_caught_up ∧ ¬ sys.rejected) ∨
  (Inv cap sys' unread ∧ sys'.reads = sys.reads ++ [.error] ∧ sys'.consumer.pc = .idle ∧
    sys.rejected)

/-- Moving on within a `read_next`. -/
theorem Inv.moves (h : Inv cap sys unread) {pc : Reading} (hpc : ReadingInv cap sys unread pc)
    (hless : pc.remaining < sys.consumer.pc.remaining)
    (hsettled : pc = .check_caught_up → unread = []) :
    Consumes cap sys unread { sys with consumer.pc := pc } :=
  .inl ⟨h.seek hpc, rfl, hless, hsettled⟩

/-- Ending with the error of a rejected publish. -/
theorem Inv.raises (h : Inv cap sys unread) (hrej : sys.rejected) :
    Consumes cap sys unread ({ sys with consumer.invalid_local := true }.answered .error) :=
  .inr (.inr (.inr ⟨inv_raise h hrej, rfl, rfl, hrej⟩))

theorem stored_size_le {n : Nat} (h : n ≤ MAX_FRAME_SIZE) :
    stored_size n ≤ MAX_FRAME_SIZE + ALIGNMENT := by
  unfold stored_size ALIGNMENT
  omega

/-- The header of an unread frame parses. -/
theorem consumes_header (h : Inv cap sys unread) {consumed published : Nat} {acc : List UInt8}
    (hpc : sys.consumer.pc = .read_header consumed published acc)
    (hfull : ¬ acc.length < HEADER_SIZE) :
    Consumes cap sys unread (sys.parse_header cap consumed published acc) := by
  have hreading := h.reading
  rw [hpc] at hreading
  obtain ⟨rfl, hle, hacc, f, front, back, hunread, hpublished⟩ := hreading
  have hunread : unread = f :: (front ++ back) := by simpa using hunread
  have hlen : acc.length = HEADER_SIZE := by omega
  have hfront : HEADER_SIZE ≤ (bytes unread).length := by
    have hf := le_stored_size f.frame_size
    rw [hunread, bytes_cons, List.length_append, length_pack_frame]
    unfold Frame.frame_size at *
    omega
  have hheader : acc = f.header := by
    rw [hlen, h.front hfront, hunread, bytes_cons] at hacc
    exact hacc.trans (take_header _)
  have hsize : f.frame_size ≤ MAX_FRAME_SIZE := h.sizes f (by simp [hunread])
  obtain ⟨hframe, htype, hkey⟩ := unpack_header hsize
  have hcap := h.stored_le hunread
  have hroom : stored_size f.frame_size ≤ published - sys.mapping.consumed := by
    rw [hpublished, bytes_cons, List.length_append, length_pack_frame]
    omega
  have hkeysize : HEADER_SIZE + f.key.length ≤ f.frame_size := by
    unfold Frame.frame_size
    omega
  simp only [System.parse_header, hheader, hframe, htype, hkey]
  rw [if_neg (by omega), if_neg (by simp), if_neg (by omega)]
  refine h.moves ⟨rfl, f, front ++ back, hunread, rfl, rfl, Nat.zero_le _, rfl⟩ ?_ (by simp)
  have := stored_size_le hsize
  rw [hpc]
  simp only [Reading.remaining, List.length_nil]
  omega

/-- A whole frame parses back into what was published. -/
theorem consumes_frame (h : Inv cap sys unread) {consumed frame_size key_size : Nat}
    {acc : List UInt8} (hpc : sys.consumer.pc = .read_frame consumed frame_size key_size acc)
    (hfull : ¬ acc.length < stored_size frame_size) :
    Consumes cap sys unread (sys.parse_frame consumed frame_size key_size acc) := by
  have hreading := h.reading
  rw [hpc] at hreading
  obtain ⟨rfl, f, rest, hunread, rfl, rfl, hle, hacc⟩ := hreading
  have hlen : acc.length = f.pack_frame.length := by
    rw [length_pack_frame]
    omega
  have hframe : acc = f.pack_frame := by
    rw [hlen, h.front (by rw [hunread, bytes_cons, List.length_append]; omega), hunread,
      bytes_cons] at hacc
    exact hacc.trans (List.take_left' rfl)
  have hparse : sys.parse_frame sys.mapping.consumed f.frame_size f.key.length acc =
      ({ sys with
        consumer.consumed_local := some (sys.mapping.consumed + stored_size f.frame_size)
        mapping.consumed := sys.mapping.consumed + stored_size f.frame_size } : System).answered
          (.record f) := by
    simp only [System.parse_frame, hframe, padding_zero, parse_key, parse_payload,
      Bool.false_eq_true, if_false]
  rw [hparse]
  exact .inr (.inl ⟨f, rest, hunread, inv_record h hunread, rfl, rfl⟩)

/-- Any transition of the consumer. -/
theorem consumes (h : Inv cap sys unread) : Consumes cap sys unread (sys.consume cap) := by
  have hreading := h.reading
  cases hpc : sys.consumer.pc with
  | idle =>
    simp only [System.consume, hpc]
    split
    · have hrej := h.consumer_invalid ‹_›
      exact .inr (.inr (.inr ⟨inv_answered h (by simp) fun _ => hrej, rfl, rfl, hrej⟩))
    · split
      · exact h.moves trivial (by simp [hpc, Reading.remaining]) (by simp)
      · exact h.moves (h.consumed_local _ ‹_›) (by simp [hpc, Reading.remaining]) (by simp)
  | check_invalid =>
    simp only [System.consume, hpc]
    split
    · exact h.raises (h.invalid_iff.mp ‹_›)
    · exact h.moves trivial (by simp [hpc, Reading.remaining]) (by simp)
  | load_consumed =>
    simp only [System.consume, hpc]
    have hcached : Inv cap { sys with consumer.consumed_local := some sys.mapping.consumed }
        unread :=
      { h with
        consumed_local := fun c hc => (Option.some.inj hc).symm
        publishing := h.publishing
        reading := h.reading }
    have hmoved : ReadingInv cap _ unread (.load_published sys.mapping.consumed) := rfl
    exact hcached.moves hmoved (by simp [hpc, Reading.remaining]) (by simp)
  | load_published consumed =>
    rw [hpc] at hreading
    obtain rfl : consumed = sys.mapping.consumed := hreading
    have hcursors := h.cursors
    simp only [System.consume, hpc, h.valid_cursors, not_true_eq_false, if_false]
    cases unread with
    | nil =>
      rw [if_pos (by simpa using hcursors)]
      exact h.moves trivial (by simp [hpc, Reading.remaining]) (by simp)
    | cons f rest =>
      have hpos := le_stored_size f.frame_size
      have hheader : HEADER_SIZE ≤ f.frame_size := by
        unfold Frame.frame_size
        omega
      rw [if_neg (by
        rw [hcursors, bytes_cons, List.length_append, length_pack_frame]
        unfold HEADER_SIZE at hheader
        omega)]
      exact h.moves ⟨rfl, Nat.zero_le _, rfl, f, rest, [], by simp, hcursors⟩
        (by simp [hpc, Reading.remaining]) (by simp)
  | check_caught_up =>
    simp only [System.consume, hpc]
    split
    · exact h.raises (h.invalid_iff.mp ‹_›)
    · have hnot : ¬ sys.rejected := fun hr => ‹¬ _› (h.invalid_iff.mpr hr)
      exact .inr (.inr (.inl ⟨inv_answered h (by simp) (by simp), rfl, rfl, hpc, hnot⟩))
  | read_header consumed published acc =>
    by_cases hmore : acc.length < HEADER_SIZE
    · rw [hpc] at hreading
      obtain ⟨rfl, hle, hacc, hframes⟩ := hreading
      have hcap : acc.length < cap := by
        obtain ⟨f, front, back, hunread, -⟩ := hframes
        have hcons : unread = f :: (front ++ back) := by simpa using hunread
        have hstored := h.stored_le hcons
        have hf := le_stored_size f.frame_size
        unfold Frame.frame_size at *
        omega
      simp only [System.consume, hpc, if_pos hmore]
      refine h.moves ⟨rfl, ?_, window_snoc hcap hacc, hframes⟩ ?_ (by simp)
      · simpa using Nat.succ_le_of_lt hmore
      · simp only [hpc, Reading.remaining, List.length_append, List.length_singleton]
        omega
    · simp only [System.consume, hpc, if_neg hmore]
      exact consumes_header h hpc hmore
  | read_frame consumed frame_size key_size acc =>
    by_cases hmore : acc.length < stored_size frame_size
    · rw [hpc] at hreading
      obtain ⟨rfl, f, rest, hunread, rfl, rfl, hle, hacc⟩ := hreading
      have hcap := h.stored_le hunread
      simp only [System.consume, hpc, if_pos hmore]
      refine h.moves ⟨rfl, f, rest, hunread, rfl, rfl, ?_, window_snoc (by omega) hacc⟩ ?_
        (by simp)
      · simpa using Nat.succ_le_of_lt hmore
      · simp only [hpc, Reading.remaining, List.length_append, List.length_singleton]
        omega
    · simp only [System.consume, hpc, if_neg hmore]
      exact consumes_frame h hpc hmore

end Consume

/-! ## Whole runs -/

section Runs

variable {cap : Nat} {sys : System} {unread : List Frame}

theorem inv_step (h : Inv cap sys unread) (turn : System.Turn) :
    ∃ unread', Inv cap (sys.step cap turn) unread' := by
  cases turn with
  | producer next => exact inv_produce h next
  | consumer =>
    rcases consumes h with ⟨hinv, -⟩ | ⟨f, rest, -, hinv, -⟩ | ⟨hinv, -⟩ | ⟨hinv, -⟩ <;>
      exact ⟨_, hinv⟩

theorem inv_run (h : Inv cap sys unread) (turns : List System.Turn) :
    ∃ unread', Inv cap (sys.run cap turns) unread' := by
  induction turns generalizing sys unread with
  | nil => exact ⟨unread, h⟩
  | cons turn turns ih =>
    obtain ⟨unread', hstep⟩ := inv_step h turn
    exact ih hstep

/-- The consumer does not touch what the producer was told. -/
theorem attempts_consume : (sys.consume cap).attempts = sys.attempts := by
  unfold System.consume System.parse_header System.parse_frame System.fail System.answered
  grind

theorem producer_consume : (sys.consume cap).producer = sys.producer := by
  unfold System.consume System.parse_header System.parse_frame System.fail System.answered
  grind

theorem published_consume : (sys.consume cap).mapping.published = sys.mapping.published := by
  unfold System.consume System.parse_header System.parse_frame System.fail System.answered
  grind

/-- The consumer only hands space back. -/
theorem Inv.consumed_le (h : Inv cap sys unread) :
    sys.mapping.consumed ≤ (sys.consume cap).mapping.consumed := by
  have hcursors := h.cursors
  have hpublished : (sys.consume cap).mapping.published = sys.mapping.published :=
    published_consume
  rcases consumes h with ⟨hinv, -⟩ | ⟨f, rest, rfl, hinv, -⟩ | ⟨hinv, -⟩ | ⟨hinv, -⟩ <;>
    have hcursors' := hinv.cursors
  case inr.inl =>
    rw [bytes_cons, List.length_append] at hcursors
    omega
  all_goals omega

/-! ### A `publish` returns -/

/-- The frame a `publish` is at work on. -/
def Publishing.frame : Publishing → Option Frame
  | .idle => none
  | .check_invalid f | .load_published f | .load_consumed f _ | .write f _ _ _ => some f

/-- How many more transitions a `publish` makes before the one that returns, at most. -/
def Publishing.remaining : Publishing → Nat
  | .idle => 0
  | .write f _ _ written => stored_size f.frame_size - written
  | .load_consumed f _ => stored_size f.frame_size + 1
  | .load_published f => stored_size f.frame_size + 2
  | .check_invalid f => stored_size f.frame_size + 3

/-- Since `start` no `publish` returned; the consumer may have handed space back. -/
structure Since (start sys : System) : Prop where
  attempts : sys.attempts = start.attempts
  published : sys.mapping.published = start.mapping.published
  consumed : start.mapping.consumed ≤ sys.mapping.consumed

/-- A `publish` of `f` began at `start` and has not returned. If it is storing bytes, the
free space it found was there after it began. -/
structure Underway (cap : Nat) (start : System) (f : Frame) (sys : System) : Prop where
  since : Since start sys
  frame : sys.producer.pc.frame = some f
  found : ∀ g published available written,
    sys.producer.pc = .write g published available written →
      start.mapping.available cap ≤ available ∧ available ≤ sys.mapping.available cap

/-- A `publish` of `f` that began at `start` returned with the last transition, told `a`: the
free space it found lies between that at its start and that at its end, and the answer is
the one due. If it is `True` the whole frame is in the ring and offered, if it is `False`
nothing more is offered. -/
structure Returned (cap : Nat) (start : System) (f : Frame) (a : Attempt) (sys : System) :
    Prop where
  idle : sys.producer.pc = .idle
  attempts : sys.attempts = start.attempts ++ [a]
  frame : a.frame = f
  found : start.mapping.available cap ≤ a.available ∧
    a.available ≤ cap - (start.mapping.published - sys.mapping.consumed)
  answer : a.accepted = false ↔ MAX_FRAME_SIZE < f.frame_size ∨
    a.available < stored_size f.frame_size ∨ start.rejected
  published : sys.mapping.published =
    start.mapping.published + if a.accepted then stored_size f.frame_size else 0
  stored : a.accepted = true →
    window sys.mapping.ring cap start.mapping.published (stored_size f.frame_size) = f.pack_frame

theorem Since.refl (sys : System) : Since sys sys := ⟨rfl, rfl, Nat.le_refl _⟩

theorem Since.rejected {start : System} (h : Since start sys) : sys.rejected ↔ start.rejected := by
  rw [System.rejected, h.attempts, ← System.rejected]

theorem Since.available_le {start : System} (h : Since start sys) :
    start.mapping.available cap ≤ sys.mapping.available cap := by
  have hconsumed := h.consumed
  unfold Mapping.available
  rw [h.published]
  omega

/-- The due answer is the one the invariant demands of the last `publish`. -/
theorem Inv.answer (h : Inv cap sys unread) {attempts : List Attempt} {a : Attempt}
    (hlast : sys.attempts = attempts ++ [a]) :
    a.accepted = false ↔ MAX_FRAME_SIZE < a.frame.frame_size ∨
      a.available < stored_size a.frame.frame_size ∨ ∃ b ∈ attempts, b.accepted = false :=
  h.exact attempts a [] hlast

/-- A `publish` that has a reason to return `False` does. -/
theorem Since.invalidate {start : System} (hs : Since start sys) (f : Frame)
    (why : MAX_FRAME_SIZE < f.frame_size ∨
      sys.mapping.available cap < stored_size f.frame_size ∨ sys.rejected) :
    Returned cap start f ⟨f, sys.mapping.available cap, false⟩ (sys.invalidate cap f) where
  idle := rfl
  attempts := congrArg (· ++ _) hs.attempts
  frame := rfl
  found := ⟨hs.available_le, by rw [← hs.published]; exact Nat.le_refl _⟩
  answer := by
    rw [hs.rejected] at why
    exact iff_of_true rfl why
  published := hs.published
  stored := nofun

theorem Since.goto {start : System} (hs : Since start sys) {f : Frame} {pc : Publishing}
    (hframe : pc.frame = some f) (hfound : ∀ g published available written,
      pc = .write g published available written →
        start.mapping.available cap ≤ available ∧ available ≤ sys.mapping.available cap) :
    Underway cap start f { sys with producer.pc := pc } :=
  ⟨⟨hs.attempts, hs.published, hs.consumed⟩, hframe, hfound⟩

/-- An idle producer that is given a frame begins a `publish`, or has returned `False`. -/
theorem Inv.begins (h : Inv cap sys unread) (hidle : sys.producer.pc = .idle) (f : Frame) :
    (Underway cap sys f (sys.produce cap f) ∧
      (sys.produce cap f).producer.pc.remaining ≤ stored_size f.frame_size + 3) ∨
    ∃ a, Returned cap sys f a (sys.produce cap f) := by
  have hs := Since.refl sys
  simp only [System.produce, hidle]
  by_cases hinv : sys.producer.invalid_local = true
  · have hrej := h.producer_invalid.mp hinv
    rw [if_pos hinv, h.returned_eq_invalidate hrej]
    exact .inr ⟨_, hs.invalidate f (.inr (.inr hrej))⟩
  · rw [if_neg hinv]
    by_cases hbig : MAX_FRAME_SIZE < f.frame_size
    · rw [if_pos hbig]
      exact .inr ⟨_, hs.invalidate f (.inl hbig)⟩
    · rw [if_neg hbig]
      split
      · exact .inl ⟨hs.goto rfl nofun, Nat.le_refl _⟩
      · exact .inl ⟨hs.goto rfl nofun, Nat.add_le_add_left (by decide) _⟩

/-- A transition of a producer that is at work on `f`. -/
theorem Underway.produce {start : System} {f : Frame} (hu : Underway cap start f sys)
    (h : Inv cap sys unread) (next : Frame) :
    (Underway cap start f (sys.produce cap next) ∧
      (sys.produce cap next).producer.pc.remaining < sys.producer.pc.remaining) ∨
    ∃ a, Returned cap start f a (sys.produce cap next) := by
  have hpub := h.publishing
  have hs := hu.since
  have hframe := hu.frame
  cases hpc : sys.producer.pc with
  | idle =>
    rw [hpc] at hframe
    cases hframe
  | check_invalid g =>
    rw [hpc] at hpub hframe
    cases hframe
    have hclear : ¬ sys.mapping.invalid = true := fun hx => hpub.2 (h.invalid_iff.mp hx)
    simp only [System.produce, hpc, if_neg hclear]
    exact .inl ⟨hs.goto rfl nofun, Nat.lt_succ_self _⟩
  | load_published g =>
    rw [hpc] at hframe
    cases hframe
    simp only [System.produce, hpc]
    exact .inl ⟨hs.goto rfl nofun, Nat.lt_succ_self _⟩
  | load_consumed g published =>
    rw [hpc] at hpub hframe
    cases hframe
    obtain ⟨hsize, hrej, rfl⟩ := hpub
    simp only [System.produce, hpc, h.valid_cursors, not_true_eq_false, if_false]
    split
    · exact .inr ⟨_, hs.invalidate f (.inr (.inl ‹_›))⟩
    · refine .inl ⟨hs.goto rfl ?_, Nat.lt_succ_self _⟩
      rintro g published available written ⟨⟩
      exact ⟨hs.available_le, Nat.le_refl _⟩
  | write g published available written =>
    have hfound := hu.found _ _ _ _ hpc
    rw [hpc] at hpub hframe
    cases hframe
    obtain ⟨hsize, hrej, rfl, havail, hwritten, hroom, hbytes⟩ := hpub
    by_cases hmore : written < f.pack_frame.length
    · have hpc' : (sys.produce cap next).producer.pc =
          .write f sys.mapping.published available (written + 1) := by
        simp only [System.produce, hpc, if_pos hmore]
      refine .inl ⟨⟨?_, congrArg Publishing.frame hpc', ?_⟩, ?_⟩
      · simp only [System.produce, hpc, if_pos hmore]
        exact ⟨hs.attempts, hs.published, hs.consumed⟩
      · intro g published available' written' hwrite
        cases hpc'.symm.trans hwrite
        simp only [System.produce, hpc, if_pos hmore]
        exact hfound
      · rw [hpc']
        rw [length_pack_frame] at hmore
        simp only [Publishing.remaining]
        omega
    · obtain ⟨unread', hinv⟩ : ∃ unread', Inv cap (sys.produce cap next) unread' :=
        ⟨_, inv_publish h hpc hmore next⟩
      have hlen := length_pack_frame f
      have hall : written = stored_size f.frame_size := by omega
      rw [hall, ← hlen, List.take_length, hlen, hs.published] at hbytes
      have hlast : (sys.produce cap next).attempts =
          start.attempts ++ [⟨f, available, true⟩] := by
        simp only [System.produce, hpc, if_neg hmore, System.returned, hs.attempts]
      have hanswer := hinv.answer hlast
      simp only [System.produce, hpc, if_neg hmore] at hlast ⊢
      refine .inr ⟨⟨f, available, true⟩, rfl, hlast, rfl, ⟨hfound.1, ?_⟩, hanswer, ?_, fun _ => ?_⟩
      · rw [← hs.published]
        exact hfound.2
      · simp only [System.returned, length_pack_frame, hs.published, if_true]
      · exact hbytes

/-- A transition of the consumer does not disturb it. -/
theorem Underway.consume {start : System} {f : Frame} (hu : Underway cap start f sys)
    (h : Inv cap sys unread) : Underway cap start f (sys.consume cap) where
  since := ⟨attempts_consume.trans hu.since.attempts, published_consume.trans hu.since.published,
    hu.since.consumed.trans h.consumed_le⟩
  frame := by
    rw [producer_consume]
    exact hu.frame
  found := by
    intro g published available written hpc
    rw [producer_consume] at hpc
    obtain ⟨hstart, hnow⟩ := hu.found _ _ _ _ hpc
    have hsince : Since sys (sys.consume cap) :=
      ⟨attempts_consume, published_consume, h.consumed_le⟩
    exact ⟨hstart, hnow.trans hsince.available_le⟩

/-- It is the producer's turn. -/
def System.Turn.is_producer : System.Turn → Bool
  | .producer _ => true
  | .consumer => false

/-- A `publish` at work returns once the producer has had turns enough. -/
theorem Underway.returns {start : System} {f : Frame} (hu : Underway cap start f sys)
    (h : Inv cap sys unread) {turns : List System.Turn}
    (hturns : sys.producer.pc.remaining < turns.countP System.Turn.is_producer) :
    ∃ now later a, turns = now ++ later ∧ Returned cap start f a (sys.run cap now) := by
  induction turns generalizing sys unread with
  | nil => exact absurd hturns (Nat.not_lt_zero _)
  | cons turn turns ih =>
    obtain ⟨unread', hstep⟩ := inv_step h turn
    cases turn with
    | consumer =>
      obtain ⟨now, later, a, rfl, hreturned⟩ := ih (hu.consume h) hstep (by
        rw [producer_consume]
        rwa [List.countP_cons_of_neg (by exact Bool.false_ne_true)] at hturns)
      exact ⟨.consumer :: now, later, a, rfl, hreturned⟩
    | producer next =>
      rcases hu.produce h next with ⟨hnext, hless⟩ | ⟨a, hreturned⟩
      · rw [List.countP_cons_of_pos rfl] at hturns
        obtain ⟨now, later, a, rfl, hreturned⟩ := ih hnext hstep (by omega)
        exact ⟨.producer next :: now, later, a, rfl, hreturned⟩
      · exact ⟨[.producer next], turns, a, rfl, hreturned⟩

/-- A `publish` of `f` that starts at `sys` returns before the producer has had some number of
turns, whatever the consumer does in between. -/
def Publishes (cap : Nat) (sys : System) (f : Frame) : Prop :=
  ∀ turns : List System.Turn,
    stored_size f.frame_size + 4 ≤ turns.countP System.Turn.is_producer →
      ∃ now later a, turns = now ++ later ∧
        Returned cap sys f a (sys.run cap (.producer f :: now))

theorem Inv.publishes (h : Inv cap sys unread) (hidle : sys.producer.pc = .idle) (f : Frame) :
    Publishes cap sys f := by
  intro turns hturns
  rcases h.begins hidle f with ⟨hu, hremaining⟩ | ⟨a, hreturned⟩
  · obtain ⟨unread', hstep⟩ := inv_step h (.producer f)
    exact hu.returns hstep (by omega)
  · exact ⟨[], turns, a, rfl, hreturned⟩

/-! ### A drain ends -/

/-- A drain: `read_next` again and again, with the producer stopped. -/
def System.drain (cap : Nat) (sys : System) (n : Nat) : System :=
  sys.run cap (List.replicate n .consumer)

theorem drain_succ (n : Nat) : sys.drain cap (n + 1) = (sys.consume cap).drain cap n := rfl

/-- A drain that finds the consumer up to date ends, with `None` or an error; before that
it has yielded every unread frame, or an error was due. -/
theorem drain_ends (weight : Nat) (h : Inv cap sys unread)
    (hsettled : sys.consumer.pc = .check_caught_up → unread = [])
    (hweight : unread.length * (Reading.idle.remaining + 1) + sys.consumer.pc.remaining < weight) :
    ∃ (n : Nat) (frames : List Frame) (last : Read),
      (sys.drain cap n).reads = sys.reads ++ frames.map Read.record ++ [last] ∧
      ((last = .caught_up ∧ ¬ sys.rejected ∧ Inv cap (sys.drain cap n) []) ∨
        (last = .error ∧ sys.rejected)) := by
  induction weight generalizing sys unread with
  | zero => exact absurd hweight (Nat.not_lt_zero _)
  | succ weight ih =>
    have hrejected : (sys.consume cap).rejected ↔ sys.rejected := by
      rw [System.rejected, attempts_consume, ← System.rejected]
    rcases consumes h with ⟨hinv, hreads, hless, hnext⟩ | ⟨f, rest, hunread, hinv, hreads, hpc⟩ |
      ⟨hinv, hreads, -, hpc, hnot⟩ | ⟨-, hreads, -, hrej⟩
    · obtain ⟨n, frames, last, hdrain, hend⟩ := ih hinv hnext (by omega)
      rw [hreads] at hdrain
      rw [hrejected] at hend
      exact ⟨n + 1, frames, last, hdrain, hend⟩
    · have hshorter : rest.length * (Reading.idle.remaining + 1) +
          (sys.consume cap).consumer.pc.remaining < weight := by
        rw [hpc]
        rw [hunread, List.length_cons, Nat.succ_mul] at hweight
        omega
      obtain ⟨n, frames, last, hdrain, hend⟩ := ih hinv (by simp [hpc]) hshorter
      rw [hreads] at hdrain
      rw [hrejected] at hend
      exact ⟨n + 1, f :: frames, last, by simpa [drain_succ] using hdrain, hend⟩
    · rw [hsettled hpc] at hinv
      rw [← List.append_nil sys.reads] at hreads
      exact ⟨1, [], .caught_up, hreads, .inl ⟨rfl, hnot, hinv⟩⟩
    · rw [← List.append_nil sys.reads] at hreads
      exact ⟨1, [], .error, hreads, .inr ⟨rfl, hrej⟩⟩

theorem attempts_drain (n : Nat) : (sys.drain cap n).attempts = sys.attempts := by
  induction n generalizing sys with
  | zero => rfl
  | succ n ih => rw [drain_succ, ih, attempts_consume]

/-- A drain from `sys` ends: some frames, then `None` if no publish was rejected, and then
every accepted frame has been obtained; an error otherwise. -/
def Drains (cap : Nat) (sys : System) : Prop :=
  ∃ (n : Nat) (frames : List Frame) (last : Read),
    (sys.drain cap n).reads = sys.reads ++ frames.map Read.record ++ [last] ∧
    (last = .caught_up ∨ last = .error) ∧ (last = .caught_up ↔ ¬ sys.rejected) ∧
    (last = .caught_up → (sys.drain cap n).obtained = sys.accepted)

theorem Inv.drains (h : Inv cap sys unread) (hidle : sys.consumer.pc = .idle) :
    Drains cap sys := by
  obtain ⟨n, frames, last, hreads, hend⟩ :=
    drain_ends _ h (by simp [hidle]) (Nat.lt_succ_self _)
  refine ⟨n, frames, last, hreads, ?_⟩
  rcases hend with ⟨rfl, hnot, hinv⟩ | ⟨rfl, hrej⟩
  · refine ⟨.inl rfl, iff_of_true rfl hnot, fun _ => ?_⟩
    have hfifo := hinv.fifo
    rw [System.accepted, attempts_drain, List.append_nil] at hfifo
    exact hfifo.symm
  · exact ⟨.inr rfl, iff_of_false (by simp) (fun hnot => hnot hrej), by simp⟩

/-- The ring is a lossless FIFO or says so. Over any capacity, any old contents of the
ring and any interleaving from `reset`: what was obtained is a prefix of what was
accepted, no unread byte was overwritten, every `publish` answered as it should, none
was accepted after one that was not, a `publish` that starts between two others returns
as it should, and a drain that starts between two calls of `read_next` ends as it should. -/
theorem ring_lossless (cap : Nat) (ring : Nat → UInt8) (producer_reset consumer_reset : Bool)
    (turns : List System.Turn) :
    let sys := (reset ring producer_reset consumer_reset).run cap turns
    sys.obtained <+: sys.accepted ∧ sys.overwrote = false ∧ Exact sys.attempts ∧
      (∀ before a after, sys.attempts = before ++ a :: after → a.accepted = false →
        ∀ b ∈ after, b.accepted = false) ∧
      (sys.producer.pc = .idle → ∀ f, Publishes cap sys f) ∧
      (sys.consumer.pc = .idle → Drains cap sys) := by
  obtain ⟨unread, h⟩ := inv_run (inv_reset cap ring producer_reset consumer_reset) turns
  refine ⟨⟨unread, h.fifo.symm⟩, h.no_overwrite, h.exact, ?_, h.publishes, h.drains⟩
  intro before a after hsplit ha b hb
  obtain ⟨front, back, rfl⟩ := List.append_of_mem hb
  refine (h.exact (before ++ a :: front) b back (by simpa using hsplit)).mpr ?_
  exact .inr (.inr ⟨a, by simp, ha⟩)

end Runs

/-- A frame of 16 bytes. -/
def frame_of_16 : Frame := ⟨[1], [2, 3, 4, 5, 6, 7, 8, 9, 10]⟩

/-- In a ring of 20 bytes a frame of 16 is published and read, and then another one is
published, which goes back to the front in the middle of its header. -/
def wrapping_turns : List System.Turn :=
  List.replicate 19 (.producer frame_of_16) ++ List.replicate 26 .consumer ++
    List.replicate 19 (.producer frame_of_16)

/-- The second frame is accepted and unread, and a drain yields it; there is no room for a
third one, which is refused. -/
theorem ring_lossless_wrapped_frame :
    let sys := (reset (fun _ => 0) true true).run 20 wrapping_turns
    sys.accepted = [frame_of_16, frame_of_16] ∧ sys.obtained = [frame_of_16] ∧
      (∃ n, (sys.drain 20 n).obtained = [frame_of_16, frame_of_16]) ∧
      ∃ turns a, Returned 20 sys frame_of_16 a (sys.run 20 turns) ∧ a.accepted = false := by
  intro sys
  have haccepted : sys.accepted = [frame_of_16, frame_of_16] := by decide +kernel
  have hnone : ¬ sys.rejected := by
    have hall : sys.attempts.all (·.accepted) = true := by decide +kernel
    rintro ⟨a, ha, hfalse⟩
    exact absurd (List.all_eq_true.mp hall a ha) (by rw [hfalse]; exact Bool.false_ne_true)
  obtain ⟨-, -, -, -, hpublishes, hdrains⟩ := ring_lossless 20 (fun _ => 0) true true wrapping_turns
  refine ⟨haccepted, by decide +kernel, ?_, ?_⟩
  · obtain ⟨n, -, last, -, -, hlast, hobtained⟩ := hdrains (by decide +kernel)
    exact ⟨n, (hobtained (hlast.mpr hnone)).trans haccepted⟩
  · obtain ⟨now, later, a, hnow, hreturned⟩ := hpublishes (by decide +kernel) frame_of_16
      (List.replicate 20 (.producer frame_of_16)) (by decide)
    refine ⟨_, a, hreturned, hreturned.answer.mpr (.inr (.inl ?_))⟩
    -- nothing is read meanwhile
    have hunread : ∀ n < 21, (sys.run 20 (.producer frame_of_16 ::
        List.replicate n (.producer frame_of_16))).mapping.consumed = 16 := by decide +kernel
    obtain ⟨hlen, hnow, -⟩ := List.append_eq_replicate_iff.mp hnow.symm
    have hfound := hreturned.found.2
    rw [hnow, hunread now.length (by omega)] at hfound
    exact Nat.lt_of_le_of_lt hfound (by decide +kernel)

end Kvcr.Journal
