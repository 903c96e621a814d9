/-
Messages over a byte stream that arrives in any pieces.

The stream is a list of cells, a byte with the descriptors that travel on it; they are
numbered as the receiving process sees them, since the kernel installs new ones. How much a
receive returns is any function of the number of receives before it, at least one byte and
at most what was asked for, so every way of splitting the stream is one such function.

Both receive paths come down to `_receive_exact`, and its one lemma says what it does with
any stream: it takes exactly what it was asked for, or fails where the stream ends. A cut
stream is then a matter of where the end lies. Behind a frame it is the end of the stream,
inside a header or a body it is a truncation. Directly behind a header it should be one
too, but the body's first receive finds nothing and nothing has been read of the body, which
is what the end of a stream between frames looks like.
-/
import Mathlib.Data.List.Forall2
import Kvcr.ControlChannels

set_option autoImplicit false

namespace Kvcr.Channel

open Bytes Prog

variable {M : Type}

/-! ## Streams -/

/-- A byte and the descriptors that travel on it. -/
structure Cell where
  byte : UInt8
  rights : List Nat := []

structure Stream where
  cells : List Cell
  /-- the receives so far -/
  tick : Nat

/-- How many bytes the next receive of at most `length` takes. -/
def Stream.share (size : Nat → Nat) (length : Nat) (s : Stream) : Nat :=
  min (max 1 (size s.tick)) length

/-- The stream after a receive. -/
def Stream.rest (size : Nat → Nat) (length : Nat) (s : Stream) : Stream :=
  ⟨s.cells.drop (s.share size length), s.tick + 1⟩

/-- The ancillary data of some descriptors: no item for none, and no room for more than
`_MAX_FDS`. -/
def ancillary (rights : List Nat) : List Ancillary :=
  if rights = [] then [] else [.rights ((rights.take MAX_FDS).flatMap (pack_le ITEM_SIZE))]

/-- The socket that reads a stream in the pieces `size` gives. A plain `recv` drops the
descriptors of what it reads. -/
def stream (size : Nat → Nat) : Socket Stream where
  recv length s := (.ok ((s.cells.take (s.share size length)).map (·.byte)), s.rest size length)
  recvmsg length s :=
    let cells := s.cells.take (s.share size length)
    let rights := cells.flatMap (·.rights)
    (.ok ⟨cells.map (·.byte), ancillary rights, MAX_FDS < rights.length⟩, s.rest size length)
  recvmsg_empty length s arrival harrival hempty := by
    cases harrival
    rw [List.map_eq_nil_iff.mp hempty]
    rfl

/-! ## Sending -/

/-- Cells without descriptors. -/
def plain_cells (bytes : List UInt8) : List Cell := bytes.map fun b => { byte := b }

/-- The first byte carries the descriptors. -/
def carrying (descriptors : List Nat) : List UInt8 → List Cell
  | [] => []
  | b :: bytes => { byte := b, rights := descriptors } :: plain_cells bytes

/-- A call of the sender: `send`, or `send_with_fd` with what `send_fds` wrote at once. -/
inductive Send (M : Type) where
  | send (message : M)
  | send_with_fd (message : M) (file_descriptors : List Nat) (sent : Nat)

namespace Send

def message : Send M → M
  | send message => message
  | send_with_fd message _ _ => message

def descriptors : Send M → List Nat
  | send _ => []
  | send_with_fd _ file_descriptors _ => file_descriptors

/-- What a receiver should see of it. -/
def content (m : Send M) : M × List Nat := (m.message, m.descriptors)

/-- What a call of the sender puts on the stream. -/
def cells (codec : Codec M) : Send M → Except ChannelError (List Cell)
  | send message =>
    match encode_frame codec message with
    | .error e => .error e
    | .ok frame => .ok (plain_cells frame)
  | send_with_fd message file_descriptors sent =>
    match encode_frame codec message with
    | .error e => .error e
    | .ok frame =>
      .ok (carrying file_descriptors (frame.take sent) ++
        if sent < frame.length then plain_cells (frame.drop sent) else [])

/-- A message whose encoding fits, with descriptors that are descriptors, of which
`send_fds` wrote at least one byte. -/
structure Fits (codec : Codec M) (m : Send M) : Prop where
  size : (codec.encode m.message).length ≤ MAX_FRAME_BYTES
  small : ∀ d ∈ m.descriptors, d < 2 ^ 31
  sent : ∀ message file_descriptors sent, m = send_with_fd message file_descriptors sent → 0 < sent

/-- The frame of a message. -/
def frame (codec : Codec M) (m : Send M) : List UInt8 :=
  pack_header (codec.encode m.message).length ++ codec.encode m.message

end Send

/-- The stream of some calls. -/
def wire (codec : Codec M) : List (Send M) → Except ChannelError (List Cell)
  | [] => .ok []
  | m :: sends =>
    match m.cells codec with
    | .error e => .error e
    | .ok cells =>
      match wire codec sends with
      | .error e => .error e
      | .ok rest => .ok (cells ++ rest)

/-! ## Receiving -/

/-- A call of the receiver. -/
inductive Call (M : Type) where
  | receive
  | receive_with_fd (expected_counts : M → Except String (List Nat))

namespace Call

/-- A call of the receiver; `receive` returns no descriptors. -/
def run {σ : Type} (socket : Socket σ) (codec : Codec M) : Call M → CM σ (M × List Nat)
  | receive => do
    let message ← Channel.receive socket codec
    pure (message, [])
  | receive_with_fd expected_counts => Channel.receive_with_fd socket codec expected_counts

/-- The call is made for this message: descriptors are received with `receive_with_fd`, at
most as many as it makes room for, and their number is one that is expected. -/
def Takes (call : Call M) (m : Send M) : Prop :=
  match call with
  | receive => m.descriptors = []
  | receive_with_fd expected_counts => m.descriptors.length ≤ MAX_FDS ∧
      ∃ counts, expected_counts m.message = .ok counts ∧ m.descriptors.length ∈ counts

end Call

/-- The outcome of a call as a value. -/
def attempt {σ α : Type} (m : CM σ α) : CM σ (Except ChannelError α) :=
  handle (do let a ← m; pure (.ok a)) fun e => pure (.error e)

/-- A receiver that makes its calls until one raises: what it obtained, and what ended it. -/
def receive_all {σ : Type} (socket : Socket σ) (codec : Codec M) :
    List (Call M) → CM σ (List (M × List Nat) × Option ChannelError)
  | [] => pure ([], none)
  | call :: calls => do
    match ← attempt (call.run socket codec) with
    | .error e => pure ([], some e)
    | .ok content => do
      let (contents, ended) ← receive_all socket codec calls
      pure (content :: contents, ended)

/-- The messages whose frames lie within the first `n` bytes, and how far the next one gets. -/
def complete (codec : Codec M) : List (Send M) → Nat → List (Send M) × Nat
  | [], _ => ([], 0)
  | m :: sends, n =>
    if (m.frame codec).length ≤ n then
      let rest := complete codec sends (n - (m.frame codec).length)
      (m :: rest.1, rest.2)
    else ([], n)

/-! ## What is on the stream -/

section Wire

variable {codec : Codec M} {m : Send M}

theorem bytes_plain_cells (bytes : List UInt8) : (plain_cells bytes).map (·.byte) = bytes := by
  rw [plain_cells, List.map_map]
  exact List.map_id bytes

theorem bytes_carrying (descriptors : List Nat) (bytes : List UInt8) :
    (carrying descriptors bytes).map (·.byte) = bytes := by
  cases bytes with
  | nil => rfl
  | cons b bytes => rw [carrying, List.map_cons, bytes_plain_cells]

theorem length_carrying (descriptors : List Nat) (bytes : List UInt8) :
    (carrying descriptors bytes).length = bytes.length := by
  have h := congrArg List.length (bytes_carrying descriptors bytes)
  rwa [List.length_map] at h

/-- No cell but the first carries anything. -/
theorem rights_carrying (descriptors : List Nat) {bytes : List UInt8} {n : Nat}
    (hbytes : bytes ≠ []) (hn : 0 < n) :
    ((carrying descriptors bytes).take n).flatMap (·.rights) = descriptors := by
  have hplain (l : List UInt8) (k : Nat) : ((plain_cells l).take k).flatMap (·.rights) = [] := by
    refine List.flatMap_eq_nil_iff.mpr fun c hc => ?_
    obtain ⟨b, -, rfl⟩ := List.mem_map.mp (List.mem_of_mem_take hc)
    rfl
  cases bytes with
  | nil => exact absurd rfl hbytes
  | cons b bytes =>
    obtain ⟨k, rfl⟩ := Nat.exists_eq_succ_of_ne_zero (Nat.ne_of_gt hn)
    rw [carrying, List.take_succ_cons, List.flatMap_cons, hplain, List.append_nil]

theorem length_frame (codec : Codec M) (m : Send M) :
    (m.frame codec).length = FRAME_HEADER_SIZE + (codec.encode m.message).length := by
  rw [Send.frame, List.length_append, length_pack_header]

theorem frame_ne_nil (codec : Codec M) (m : Send M) : m.frame codec ≠ [] := by
  intro hnil
  have hlength := length_frame codec m
  rw [hnil, List.length_nil, FRAME_HEADER_SIZE] at hlength
  omega

/-- However much was written at once, the stream gets the frame with the descriptors on its
first byte. -/
theorem cells_eq (hfits : m.Fits codec) :
    m.cells codec = .ok (carrying m.descriptors (m.frame codec)) := by
  have hencode : encode_frame codec m.message = .ok (m.frame codec) := by
    rw [encode_frame]
    exact if_neg (Nat.not_lt.mpr hfits.size)
  cases m with
  | send message =>
    rw [Send.cells]
    rw [Send.message] at hencode
    rw [hencode]
    have hne := frame_ne_nil codec (.send message)
    cases hframe : Send.frame codec (.send message) with
    | nil => exact absurd hframe hne
    | cons b bytes => rfl
  | send_with_fd message file_descriptors sent =>
    rw [Send.cells]
    rw [Send.message] at hencode
    rw [hencode]
    have hsent := hfits.sent message file_descriptors sent rfl
    have hne := frame_ne_nil codec (.send_with_fd message file_descriptors sent)
    dsimp only [Send.descriptors]
    generalize Send.frame codec (.send_with_fd message file_descriptors sent) = frame at *
    cases frame with
    | nil => exact absurd rfl hne
    | cons b bytes =>
      obtain ⟨k, rfl⟩ := Nat.exists_eq_succ_of_ne_zero (Nat.ne_of_gt hsent)
      rw [List.take_succ_cons, List.drop_succ_cons, carrying, carrying, List.cons_append]
      by_cases hlt : k + 1 < (b :: bytes).length
      · rw [if_pos hlt, plain_cells, plain_cells, plain_cells, ← List.map_append,
          List.take_append_drop]
      · rw [if_neg hlt, List.append_nil, List.take_of_length_le]
        rw [List.length_cons] at hlt
        omega

/-- The stream of messages that fit. -/
def wire_cells (codec : Codec M) (sends : List (Send M)) : List Cell :=
  sends.flatMap fun m => carrying m.descriptors (m.frame codec)

theorem wire_eq {sends : List (Send M)} (hfits : ∀ m ∈ sends, m.Fits codec) :
    wire codec sends = .ok (wire_cells codec sends) := by
  induction sends with
  | nil => rfl
  | cons m sends ih =>
    rw [wire, cells_eq (hfits m (by simp)), ih fun m' hm' => hfits m' (List.mem_cons_of_mem m hm')]
    rfl

/-- Descriptors survive the ancillary data. -/
theorem descriptors_ancillary {rights : List Nat} (hroom : rights.length ≤ MAX_FDS)
    (hsmall : ∀ d ∈ rights, d < 2 ^ 31) :
    (ancillary rights).flatMap Ancillary.descriptors = rights := by
  have hfrom : ∀ l : List Nat, (∀ d ∈ l, d < 2 ^ 31) →
      (l.flatMap (pack_le ITEM_SIZE)).length = ITEM_SIZE * l.length ∧
        frombytes (l.flatMap (pack_le ITEM_SIZE)) = l := by
    intro l hl
    induction l with
    | nil => exact ⟨rfl, rfl⟩
    | cons d l ih =>
      obtain ⟨hlength, hitems⟩ := ih fun x hx => hl x (List.mem_cons_of_mem d hx)
      have hd : unpack_le (pack_le 4 d) = d := unpack_pack_le (by have := hl d (by simp); omega)
      refine ⟨?_, ?_⟩
      · rw [List.flatMap_cons, List.length_append, hlength, length_pack_le, List.length_cons,
          Nat.mul_succ, Nat.add_comm]
      · rw [List.flatMap_cons]
        change unpack_le (pack_le 4 d) :: frombytes (l.flatMap (pack_le ITEM_SIZE)) = d :: l
        rw [hd, hitems]
  unfold ancillary
  by_cases hnil : rights = []
  · rw [if_pos hnil, hnil]
    rfl
  · obtain ⟨hlength, hitems⟩ := hfrom rights hsmall
    have hwhole : ITEM_SIZE * rights.length - ITEM_SIZE * rights.length % ITEM_SIZE =
        ITEM_SIZE * rights.length := by
      rw [Nat.mul_mod_right, Nat.sub_zero]
    rw [if_neg hnil, List.take_of_length_le hroom, List.flatMap_cons, List.flatMap_nil,
      List.append_nil, Ancillary.descriptors, hlength, hwhole, ← hlength, List.take_length, hitems]

theorem ancillary_expected (rights : List Nat) :
    (ancillary rights).any Ancillary.unexpected = false := by
  unfold ancillary
  split <;> rfl

end Wire

/-! ## What a receive does with a stream -/

section Receives

variable {codec : Codec M} {size : Nat → Nat} {s : Stream} {t : List ChannelEv}

/-- What ends a receive of `missing` bytes of a stream too short for it. -/
def cut_error (chunks : List UInt8) (s : Stream) : ChannelError :=
  if chunks = [] ∧ s.cells = [] then .eof else .framing "truncated frame"

/-- `_receive_exact` takes what is missing, or fails where the stream ends. -/
theorem wp_receive_exact_from (length : Nat) (chunks : List UInt8)
    (hchunks : chunks.length ≤ length) :
    wp ⟨fun e _ t' => s.cells.length < length - chunks.length ∧ e = cut_error chunks s ∧ t' = t,
        fun _ => False⟩
      (receive_exact_from (stream size) length chunks)
      (fun bytes s' t' => length - chunks.length ≤ s.cells.length ∧
        bytes = chunks ++ (s.cells.take (length - chunks.length)).map (·.byte) ∧
        s'.cells = s.cells.drop (length - chunks.length) ∧ t' = t) s t := by
  -- The induction is on what is missing.
  induction hn : length - chunks.length using Nat.strong_induction_on generalizing chunks s with
  | _ n ih =>
    rw [receive_exact_from]
    by_cases hmissing : chunks.length < length
    · rw [dif_pos hmissing]
      refine wp_bind.mpr (wp_recv (fun chunk hrecv => ?_) fun e herr => by cases herr)
      have hshare : 1 ≤ s.share size (length - chunks.length) ∧
          s.share size (length - chunks.length) ≤ n := by
        unfold Stream.share
        omega
      rw [hn] at hrecv hshare
      cases hrecv
      change wp _ _ _ (s.rest size (length - chunks.length)) t
      rw [hn]
      by_cases hempty : s.cells = []
      · rw [dif_pos (by rw [hempty, List.take_nil]; rfl)]
        have hshort : s.cells.length < n := by
          rw [hempty, List.length_nil]
          omega
        refine wp_ite.mpr ⟨fun hnone => wp_raise.mpr ⟨hshort, ?_, rfl⟩,
          fun hsome => wp_raise.mpr ⟨hshort, ?_, rfl⟩⟩
        · rw [cut_error, if_pos ⟨hnone, hempty⟩]
        · rw [cut_error, if_neg fun h => hsome h.1]
      · have hpos := List.length_pos_iff.mpr hempty
        generalize hk : s.share size n = k at hshare
        have hlength : ((s.cells.take k).map (·.byte)).length = min k s.cells.length := by
          rw [List.length_map, List.length_take]
        have hchunk : (s.cells.take k).map (·.byte) ≠ [] := by
          intro hnil
          rw [hnil, List.length_nil] at hlength
          omega
        rw [dif_neg hchunk]
        have hrest : (s.rest size n).cells = s.cells.drop k := by rw [Stream.rest, hk]
        have hleft : length - (chunks ++ (s.cells.take k).map (·.byte)).length =
            n - min k s.cells.length := by
          rw [List.length_append, hlength]
          omega
        refine wp_conseq (ih (n - min k s.cells.length) (by omega) (s := s.rest size n)
          (chunks ++ (s.cells.take k).map (·.byte)) (by rw [List.length_append, hlength]; omega)
          hleft) ?_ (fun _ h => h) ?_
        · rintro e s' t' ⟨hshort, rfl, rfl⟩
          rw [hrest, List.length_drop] at hshort
          refine ⟨by omega, ?_, rfl⟩
          rw [cut_error, cut_error, if_neg fun h => hchunk (List.append_eq_nil_iff.mp h.1).2,
            if_neg fun h => hempty h.2]
        · rintro bytes s' t' ⟨henough, rfl, hcells, rfl⟩
          rw [hrest, List.length_drop] at henough
          rw [hrest] at hcells
          have hmin : min k s.cells.length = k := by omega
          have hsum : n = k + (n - k) := by omega
          rw [hmin] at hcells ⊢
          refine ⟨by omega, ?_, ?_, rfl⟩
          · rw [List.append_assoc, hrest, ← List.map_append, ← List.take_add, ← hsum]
          · rw [hcells, List.drop_drop, ← hsum]
    · rw [dif_neg hmissing]
      refine wp_pure.mpr ⟨by omega, ?_, ?_, rfl⟩
      · rw [← hn, Nat.sub_eq_zero_of_le (by omega), List.take_zero, List.map_nil, List.append_nil]
      · rw [← hn, Nat.sub_eq_zero_of_le (by omega), List.drop_zero]

/-- The same from the start. -/
theorem wp_receive_exact (length : Nat) :
    wp ⟨fun e _ t' => s.cells.length < length ∧ e = cut_error [] s ∧ t' = t, fun _ => False⟩
      (receive_exact (stream size) length)
      (fun bytes s' t' => length ≤ s.cells.length ∧
        bytes = (s.cells.take length).map (·.byte) ∧
        s'.cells = s.cells.drop length ∧ t' = t) s t :=
  wp_receive_exact_from length [] (Nat.zero_le _)

/-- `_receive_after_header` at the start of a body of the declared length. -/
theorem wp_receive_after_header {message : M}
    (hsize : (codec.encode message).length ≤ MAX_FRAME_BYTES)
    (hbody : s.cells.map (·.byte) <+: codec.encode message ∨
      codec.encode message <+: s.cells.map (·.byte)) :
    wp ⟨fun e _ t' => s.cells.length < (codec.encode message).length ∧ e = cut_error [] s ∧ t' = t,
        fun _ => False⟩
      (receive_after_header (stream size) codec (pack_header (codec.encode message).length))
      (fun result s' t' => (codec.encode message).length ≤ s.cells.length ∧ result = message ∧
        s'.cells = s.cells.drop (codec.encode message).length ∧ t' = t) s t := by
  have hpos := List.length_pos_iff.mpr (codec.encode_ne_nil message)
  have hheader : unpack_header (pack_header (codec.encode message).length) =
      some (codec.encode message).length :=
    unpack_pack_header (by unfold MAX_FRAME_BYTES at hsize; omega)
  rw [receive_after_header, hheader]
  dsimp only
  rw [if_neg (by omega)]
  refine wp_seq (wp_receive_exact (codec.encode message).length) ?_
  rintro payload s' t' ⟨henough, rfl, hcells, rfl⟩
  have hpayload : (s.cells.take (codec.encode message).length).map (·.byte) =
      codec.encode message := by
    rw [List.map_take]
    rcases hbody with hshort | hlong
    · have hle := hshort.length_le
      rw [List.length_map] at hle
      rw [hshort.eq_of_length (by rw [List.length_map]; omega), List.take_length]
    · exact List.prefix_iff_eq_take.mp hlong |>.symm
  rw [hpayload, decode_payload, codec.decode_encode]
  exact wp_pure.mpr ⟨henough, rfl, hcells, rfl⟩

end Receives

/-! ## One frame -/

/-- What ends a receive of a frame of which `n` bytes come, too few. -/
def stop_error (n : Nat) : ChannelError :=
  if n = 0 ∨ n = FRAME_HEADER_SIZE then .eof else .framing "truncated frame"

theorem stop_error_behind_header {n : Nat} (h : n = FRAME_HEADER_SIZE) : stop_error n = .eof :=
  if_pos (.inr h)

/-- Where the stream stops with the error it should stop with. -/
theorem stop_error_iff {n : Nat} :
    stop_error n = (if n = 0 then .eof else .framing "truncated frame") ↔
      n ≠ FRAME_HEADER_SIZE := by
  constructor
  · rintro herror rfl
    rw [stop_error_behind_header rfl, if_neg (by decide)] at herror
    cases herror
  · intro hcut
    unfold stop_error
    simp only [hcut, or_false]

/-- One of the two lists is the beginning of the other. -/
def Comparable {α : Type} (l l' : List α) : Prop := l <+: l' ∨ l' <+: l

theorem Comparable.map {α β : Type} {l l' : List α} (h : Comparable l l') (f : α → β) :
    Comparable (l.map f) (l'.map f) :=
  h.imp (fun h => h.map f) fun h => h.map f

/-- Where a front is there in full, what follows it is comparable. -/
theorem Comparable.split {α : Type} {l front back : List α} (h : Comparable l (front ++ back))
    (hfront : front.length ≤ l.length) :
    l.take front.length = front ∧ Comparable (l.drop front.length) back := by
  have hprefix : front <+: l := by
    rcases h with hshort | hlong
    · exact List.prefix_of_prefix_length_le (List.prefix_append front back) hshort hfront
    · exact (List.prefix_append front back).trans hlong
  obtain ⟨rest, rfl⟩ := hprefix
  rw [List.take_left, List.drop_left]
  exact ⟨rfl, h.imp (List.prefix_append_right_inj front).mp (List.prefix_append_right_inj front).mp⟩

/-- Within both lists they agree. -/
theorem Comparable.take {α : Type} {l l' : List α} (h : Comparable l l') {k : Nat}
    (hk : k ≤ l'.length) : l.take k = l'.take (min k l.length) := by
  rcases h with ⟨rest, rfl⟩ | ⟨rest, rfl⟩
  · rw [List.take_append_of_le_length (Nat.min_le_right ..), ← List.take_take, List.take_length]
  · rw [List.take_append_of_le_length hk, Nat.min_eq_left]
    rw [List.length_append]
    omega

section Frames

variable {codec : Codec M} {size : Nat → Nat} {s : Stream} {t : List ChannelEv} {m : Send M}

/-- A stream that holds the header of a frame, and then some of its body. -/
theorem split_frame (hbegins : Comparable s.cells (carrying m.descriptors (m.frame codec)))
    (henough : FRAME_HEADER_SIZE ≤ s.cells.length) :
    (s.cells.take FRAME_HEADER_SIZE).map (·.byte) =
        pack_header (codec.encode m.message).length ∧
      Comparable ((s.cells.drop FRAME_HEADER_SIZE).map (·.byte)) (codec.encode m.message) := by
  have hbytes := hbegins.map (·.byte)
  rw [bytes_carrying, Send.frame] at hbytes
  have hsplit := hbytes.split (by rw [length_pack_header, List.length_map]; exact henough)
  rwa [length_pack_header, ← List.map_take, ← List.map_drop] at hsplit

/-- The body of a frame whose header has been read. -/
theorem wp_receive_body (hfits : m.Fits codec) {s' : Stream}
    (hbegins : Comparable s.cells (carrying m.descriptors (m.frame codec)))
    (henough : FRAME_HEADER_SIZE ≤ s.cells.length)
    (hcells : s'.cells = s.cells.drop FRAME_HEADER_SIZE) :
    wp ⟨fun e _ t' => s.cells.length < (m.frame codec).length ∧
          e = stop_error s.cells.length ∧ t' = t, fun _ => False⟩
      (receive_after_header (stream size) codec
        ((s.cells.take FRAME_HEADER_SIZE).map (·.byte)))
      (fun result s'' t' => (m.frame codec).length ≤ s.cells.length ∧ result = m.message ∧
        s''.cells = s.cells.drop (m.frame codec).length ∧ t' = t) s' t := by
  obtain ⟨hheader, hbody⟩ := split_frame hbegins henough
  have hlength : s'.cells.length = s.cells.length - FRAME_HEADER_SIZE := by
    rw [hcells, List.length_drop]
  have hframe := length_frame codec m
  rw [hheader]
  rw [← hcells] at hbody
  refine wp_conseq (wp_receive_after_header hfits.size hbody) ?_ (fun _ h => h) ?_
  · rintro e s'' t' ⟨hshort, rfl, rfl⟩
    refine ⟨by omega, ?_, rfl⟩
    rw [cut_error, stop_error]
    by_cases hempty : s'.cells = []
    · rw [hempty, List.length_nil] at hlength
      rw [if_pos ⟨rfl, hempty⟩, if_pos (by omega)]
    · have hpos := List.length_pos_iff.mpr hempty
      rw [if_neg fun h => hempty h.2, if_neg (by unfold FRAME_HEADER_SIZE at *; omega)]
  · rintro result s'' t' ⟨hwhole, rfl, hrest, rfl⟩
    refine ⟨by omega, rfl, ?_, rfl⟩
    rw [hrest, hcells, List.drop_drop, hframe]

/-- `receive`. -/
theorem wp_receive (hfits : m.Fits codec)
    (hbegins : Comparable s.cells (carrying m.descriptors (m.frame codec))) :
    wp ⟨fun e _ t' => s.cells.length < (m.frame codec).length ∧
          e = stop_error s.cells.length ∧ t' = t, fun _ => False⟩
      (receive (stream size) codec)
      (fun result s' t' => (m.frame codec).length ≤ s.cells.length ∧ result = m.message ∧
        s'.cells = s.cells.drop (m.frame codec).length ∧ t' = t) s t := by
  have hframe := length_frame codec m
  refine wp_bind.mpr (wp_conseq (wp_receive_exact FRAME_HEADER_SIZE) ?_ (fun _ h => h) ?_)
  · rintro e s' t' ⟨hshort, rfl, rfl⟩
    refine ⟨by omega, ?_, rfl⟩
    rw [cut_error, stop_error]
    by_cases hempty : s.cells = []
    · rw [if_pos ⟨rfl, hempty⟩, if_pos (by rw [hempty]; exact .inl rfl)]
    · have hpos := List.length_pos_iff.mpr hempty
      rw [if_neg fun h => hempty h.2, if_neg (by omega)]
  · rintro header s' t' ⟨henough, rfl, hcells, rfl⟩
    exact wp_receive_body hfits hbegins henough hcells

/-- What is missing of a header is read, or the header is truncated. -/
theorem wp_complete_header {k : Nat} (hk : k ≤ FRAME_HEADER_SIZE) {s' : Stream}
    (hcells : s'.cells = s.cells.drop k) :
    wp ⟨fun e _ t' => s.cells.length < FRAME_HEADER_SIZE ∧ e = .framing "truncated frame" ∧
          t' = t, fun _ => False⟩
      (complete_header (stream size) ((s.cells.take k).map (·.byte)))
      (fun header s'' t' => FRAME_HEADER_SIZE ≤ s.cells.length ∧
        header = (s.cells.take FRAME_HEADER_SIZE).map (·.byte) ∧
        s''.cells = s.cells.drop FRAME_HEADER_SIZE ∧ t' = t) s' t := by
  have hlength : ((s.cells.take k).map (·.byte)).length = min k s.cells.length := by
    rw [List.length_map, List.length_take]
  have hleft : s'.cells.length = s.cells.length - k := by rw [hcells, List.length_drop]
  unfold complete_header
  rw [hlength]
  refine wp_ite.mpr ⟨fun hpart => ?_, fun hfull => ?_⟩
  · refine wp_bind.mpr (wp_handle.mpr (wp_conseq
      (wp_receive_exact (FRAME_HEADER_SIZE - min k s.cells.length)) ?_ (fun _ h => h) ?_))
    · rintro e s'' t' ⟨hshort, rfl, rfl⟩
      dsimp only
      refine wp_raise.mpr ⟨by omega, ?_, rfl⟩
      -- Either way the error is the same.
      unfold cut_error
      split <;> rfl
    · rintro rest s'' t' ⟨henough, rfl, hrest, rfl⟩
      have hmin : min k s.cells.length = k := by omega
      have hsum : k + (FRAME_HEADER_SIZE - k) = FRAME_HEADER_SIZE := by omega
      rw [hmin] at henough hrest ⊢
      refine wp_pure.mpr ⟨by omega, ?_, ?_, rfl⟩
      · rw [hcells, ← List.map_append, ← List.take_add, hsum]
      · rw [hrest, hcells, List.drop_drop, hsum]
  · have hwhole : k = FRAME_HEADER_SIZE := by omega
    refine wp_pure.mpr ⟨by omega, ?_, ?_, rfl⟩
    · rw [hwhole]
    · rw [hcells, hwhole]

/-- What the first `recvmsg` of a frame brings. -/
theorem rights_of_first (size : Nat → Nat) (hne : s.cells ≠ [])
    (hbegins : Comparable s.cells (carrying m.descriptors (m.frame codec))) :
    (s.cells.take (s.share size FRAME_HEADER_SIZE)).flatMap (·.rights) = m.descriptors := by
  have hpos := List.length_pos_iff.mpr hne
  have hframe := length_frame codec m
  have hshare : 1 ≤ s.share size FRAME_HEADER_SIZE ∧
      s.share size FRAME_HEADER_SIZE ≤ FRAME_HEADER_SIZE := by
    unfold Stream.share FRAME_HEADER_SIZE
    omega
  rw [hbegins.take (by rw [length_carrying]; omega)]
  exact rights_carrying _ (frame_ne_nil codec m) (by omega)

/-- The `try` of `receive_with_fd` for a frame whose first bytes have come. -/
theorem wp_receive_framed (hfits : m.Fits codec) {expected_counts : M → Except String (List Nat)}
    (htakes : (Call.receive_with_fd expected_counts).Takes m) (hne : s.cells ≠ [])
    (hbegins : Comparable s.cells (carrying m.descriptors (m.frame codec))) {k : Nat}
    (hk : k ≤ FRAME_HEADER_SIZE) {s' : Stream} (hcells : s'.cells = s.cells.drop k) :
    wp ⟨fun e _ _ => s.cells.length < (m.frame codec).length ∧ e = stop_error s.cells.length,
        fun _ => False⟩
      (receive_framed (stream size) codec expected_counts
        ⟨(s.cells.take k).map (·.byte), ancillary m.descriptors, MAX_FDS < m.descriptors.length⟩)
      (fun result s'' _ => (m.frame codec).length ≤ s.cells.length ∧ result = m.content ∧
        s''.cells = s.cells.drop (m.frame codec).length) s' t := by
  obtain ⟨hroom, counts, hcounts, hexpected⟩ := htakes
  have hpos := List.length_pos_iff.mpr hne
  have hframe := length_frame codec m
  have hdescriptors : (ancillary m.descriptors).flatMap Ancillary.descriptors =
      m.descriptors := descriptors_ancillary hroom hfits.small
  unfold receive_framed
  rw [if_neg (by rw [decide_eq_true_iff]; omega), ancillary_expected, if_neg Bool.false_ne_true]
  refine wp_bind.mpr (wp_conseq (wp_complete_header hk hcells) ?_ (fun _ h => h) ?_)
  · rintro e s₁ t₁ ⟨hshort, rfl, -⟩
    refine ⟨by omega, ?_⟩
    rw [stop_error, if_neg (by omega)]
  · rintro header s₁ t₁ ⟨henough, rfl, hrest, -⟩
    refine wp_bind.mpr (wp_conseq (wp_receive_body hfits hbegins henough hrest) ?_
      (fun _ h => h) ?_)
    · rintro e s₂ t₂ ⟨hshort, he, -⟩
      exact ⟨hshort, he⟩
    · rintro message s₂ t₂ ⟨hwhole, rfl, hleft, -⟩
      unfold expect_counts Arrival.descriptors
      rw [hcounts, hdescriptors]
      dsimp only
      rw [if_pos hexpected]
      exact wp_pure.mpr ⟨hwhole, rfl, hleft⟩

/-- `receive_with_fd`. -/
theorem wp_receive_with_fd (hfits : m.Fits codec)
    {expected_counts : M → Except String (List Nat)}
    (htakes : (Call.receive_with_fd expected_counts).Takes m)
    (hbegins : Comparable s.cells (carrying m.descriptors (m.frame codec))) :
    wp ⟨fun e _ _ => s.cells.length < (m.frame codec).length ∧ e = stop_error s.cells.length,
        fun _ => False⟩
      (receive_with_fd (stream size) codec expected_counts)
      (fun result s' _ => (m.frame codec).length ≤ s.cells.length ∧ result = m.content ∧
        s'.cells = s.cells.drop (m.frame codec).length) s t := by
  have hframe := length_frame codec m
  have hshare : 1 ≤ s.share size FRAME_HEADER_SIZE ∧
      s.share size FRAME_HEADER_SIZE ≤ FRAME_HEADER_SIZE := by
    unfold Stream.share FRAME_HEADER_SIZE
    omega
  refine wp_bind.mpr (wp_recvmsg (fun arrival hrecv => ?_) fun e herr => by cases herr)
  cases hrecv
  refine wp_ite.mpr ⟨fun hnone => wp_raise.mpr ?_, fun hsome => wp_handle.mpr ?_⟩
  · have hempty : s.cells = [] := by
      have hlength := congrArg List.length hnone
      rw [List.length_map, List.length_take, List.length_nil] at hlength
      exact List.length_eq_zero_iff.mp (by omega)
    rw [hempty]
    refine ⟨?_, rfl⟩
    rw [List.length_nil]
    unfold FRAME_HEADER_SIZE at hframe
    omega
  · have hne : s.cells ≠ [] := by
      intro hempty
      rw [hempty, List.take_nil] at hsome
      exact hsome rfl
    rw [rights_of_first size hne hbegins]
    refine wp_conseq (wp_receive_framed hfits htakes hne hbegins hshare.2 rfl) ?_ (fun _ h => h)
      fun _ _ _ h => h
    -- The handler closes what came and raises the same error.
    intro e s' t' h
    dsimp only
    exact wp_bind.mpr (forEach_close _ (wp_raise.mpr h))

/-- Any call made for the next message. -/
theorem wp_call {call : Call M} (hfits : m.Fits codec) (htakes : call.Takes m)
    (hbegins : Comparable s.cells (carrying m.descriptors (m.frame codec))) :
    wp ⟨fun e _ _ => s.cells.length < (m.frame codec).length ∧ e = stop_error s.cells.length,
        fun _ => False⟩
      (call.run (stream size) codec)
      (fun result s' _ => (m.frame codec).length ≤ s.cells.length ∧ result = m.content ∧
        s'.cells = s.cells.drop (m.frame codec).length) s t := by
  cases call with
  | receive =>
    have hnone : m.descriptors = [] := htakes
    refine wp_bind.mpr (wp_conseq (wp_receive hfits hbegins) ?_ (fun _ h => h) ?_)
    · rintro e s' t' ⟨hshort, he, -⟩
      exact ⟨hshort, he⟩
    · rintro message s' t' ⟨hwhole, rfl, hrest, -⟩
      refine wp_pure.mpr ⟨hwhole, ?_, hrest⟩
      rw [Send.content, hnone]
  | receive_with_fd expected_counts => exact wp_receive_with_fd hfits htakes hbegins

/-- At the end of the stream every call ends. -/
theorem wp_call_end (call : Call M) (hend : s.cells = []) :
    wp ⟨fun e _ _ => e = .eof, fun _ => False⟩ (call.run (stream size) codec)
      (fun _ _ _ => False) s t := by
  cases call with
  | receive =>
    refine wp_bind.mpr (wp_bind.mpr (wp_conseq (wp_receive_exact FRAME_HEADER_SIZE) ?_
      (fun _ h => h) ?_))
    · rintro e s' t' ⟨-, rfl, -⟩
      exact if_pos ⟨rfl, hend⟩
    · rintro header s' t' ⟨henough, -⟩
      rw [hend] at henough
      exact absurd henough (by decide)
  | receive_with_fd expected_counts =>
    refine wp_bind.mpr (wp_recvmsg (fun arrival hrecv => ?_) fun e herr => by cases herr)
    cases hrecv
    refine wp_ite.mpr ⟨fun _ => wp_raise.mpr rfl, fun hsome => ?_⟩
    rw [hend, List.take_nil] at hsome
    exact absurd rfl hsome

end Frames

/-! ## Frames that are refused -/

section Refused

variable {s : Stream} {t : List ChannelEv} {length : Nat}

/-- A header that declares no body or one above the limit: the call fails with the header
read and nothing behind it. -/
theorem wp_call_invalid (codec : Codec M) (size : Nat → Nat) (call : Call M)
    (hlength : length < 2 ^ 32)
    (hinvalid : length = 0 ∨ MAX_FRAME_BYTES < length)
    (hheader : (s.cells.take FRAME_HEADER_SIZE).map (·.byte) = pack_header length)
    (hroom : ((s.cells.take FRAME_HEADER_SIZE).flatMap (·.rights)).length ≤ MAX_FDS) :
    wp ⟨fun e s' _ => e = .framing ("invalid frame length: " ++ toString length) ∧
          s'.cells = s.cells.drop FRAME_HEADER_SIZE, fun _ => False⟩
      (call.run (stream size) codec) (fun _ _ _ => False) s t := by
  have henough : FRAME_HEADER_SIZE ≤ s.cells.length := by
    have h := congrArg List.length hheader
    rw [List.length_map, List.length_take, length_pack_header] at h
    omega
  have hrefused (s' : Stream) (t' : List ChannelEv)
      (hcells : s'.cells = s.cells.drop FRAME_HEADER_SIZE) :
      wp ⟨fun e s' _ => e = .framing ("invalid frame length: " ++ toString length) ∧
          s'.cells = s.cells.drop FRAME_HEADER_SIZE, fun _ => False⟩
        (receive_after_header (stream size) codec
          ((s.cells.take FRAME_HEADER_SIZE).map (·.byte))) (fun _ _ _ => False) s' t' := by
    unfold wp
    rw [hheader, receive_after_header_invalid _ codec hlength hinvalid]
    exact ⟨rfl, hcells⟩
  cases call with
  | receive =>
    refine wp_bind.mpr (wp_bind.mpr (wp_conseq (wp_receive_exact FRAME_HEADER_SIZE) ?_
      (fun _ h => h) ?_))
    · rintro e s' t' ⟨hshort, -⟩
      omega
    · rintro header s' t' ⟨-, rfl, hcells, rfl⟩
      exact wp_mono (hrefused s' t' hcells) fun _ _ _ h => h.elim
  | receive_with_fd expected_counts =>
    have hshare : 1 ≤ s.share size FRAME_HEADER_SIZE ∧
        s.share size FRAME_HEADER_SIZE ≤ FRAME_HEADER_SIZE := by
      unfold Stream.share FRAME_HEADER_SIZE
      omega
    have hsome : (s.cells.take (s.share size FRAME_HEADER_SIZE)).map (·.byte) ≠ [] := by
      intro hnil
      have h := congrArg List.length hnil
      rw [List.length_map, List.length_take, List.length_nil] at h
      unfold FRAME_HEADER_SIZE at henough
      omega
    -- No more descriptors come with part of the header than with all of it.
    have hfew : ((s.cells.take (s.share size FRAME_HEADER_SIZE)).flatMap
        (·.rights)).length ≤ MAX_FDS := by
      obtain ⟨rest, hrest⟩ := List.take_prefix_take_left (l := s.cells) hshare.2
      rw [← hrest, List.flatMap_append, List.length_append] at hroom
      omega
    refine wp_bind.mpr (wp_recvmsg (fun arrival hrecv => ?_) fun e herr => by cases herr)
    cases hrecv
    rw [if_neg hsome]
    refine wp_handle.mpr ?_
    unfold receive_framed
    dsimp only
    rw [if_neg (by rw [decide_eq_true_iff]; omega), ancillary_expected, if_neg Bool.false_ne_true]
    refine wp_bind.mpr (wp_conseq (wp_complete_header (s := s) hshare.2 rfl) ?_ (fun _ h => h) ?_)
    · rintro e s₁ t₁ ⟨hshort, -⟩
      omega
    · rintro header s₁ t₁ ⟨-, rfl, hcells, -⟩
      refine wp_bind.mpr (wp_conseq (hrefused s₁ t₁ hcells) ?_ (fun _ h => h) fun _ _ _ h => h.elim)
      intro e s₂ t₂ h
      dsimp only
      exact wp_bind.mpr (forEach_close _ (wp_raise.mpr h))

end Refused

/-! ## Whole streams -/

section Runs

variable {codec : Codec M} (size : Nat → Nat) {s : Stream} {t : List ChannelEv}

theorem wp_attempt {σ α : Type} {W : Watch σ ChannelError ChannelEv} {m : CM σ α} {s : σ}
    {Q : Except ChannelError α → σ → List ChannelEv → Prop}
    (h : wp ⟨fun e => Q (.error e), W.out⟩ m (fun a => Q (.ok a)) s t) :
    wp W (attempt m) Q s t := by
  refine wp_handle.mpr (wp_bind.mpr (wp_conseq h ?_ (fun _ h => h) ?_))
  · intro e s' t' hQ
    dsimp only
    exact wp_pure.mpr hQ
  · intro a s' t' hQ
    exact wp_pure.mpr hQ

/-- The receiver's loop over a stream that goes on behind the messages. -/
theorem wp_receive_all {sends : List (Send M)} {calls : List (Call M)} {rest : List Cell}
    (hfits : ∀ m ∈ sends, m.Fits codec) (htakes : List.Forall₂ Call.Takes calls sends)
    (hcells : s.cells = wire_cells codec sends ++ rest) :
    wp ⟨fun _ _ _ => False, fun _ => False⟩ (receive_all (stream size) codec calls)
      (fun result s' _ => result = (sends.map Send.content, none) ∧ s'.cells = rest) s t := by
  induction htakes generalizing s t with
  | nil => exact wp_pure.mpr ⟨rfl, hcells⟩
  | @cons call m calls sends hcall _ ih =>
    have hmore : s.cells = carrying m.descriptors (m.frame codec) ++
        (wire_cells codec sends ++ rest) := by
      rw [hcells, wire_cells, List.flatMap_cons, List.append_assoc]
      rfl
    have hlength := length_carrying m.descriptors (m.frame codec)
    have hbegins : Comparable s.cells (carrying m.descriptors (m.frame codec)) :=
      .inr ⟨_, hmore.symm⟩
    refine wp_bind.mpr (wp_attempt (wp_conseq (wp_call (hfits m (by simp)) hcall hbegins) ?_
      (fun _ h => h) ?_))
    · rintro e s' t' ⟨hshort, -⟩
      rw [hmore, List.length_append, hlength] at hshort
      omega
    · rintro content s' t' ⟨-, rfl, hrest⟩
      rw [hmore, ← hlength, List.drop_left] at hrest
      refine wp_bind.mpr (wp_mono
        (ih (fun m' hm' => hfits m' (List.mem_cons_of_mem m hm')) hrest) ?_)
      rintro result s'' t'' ⟨rfl, hleft⟩
      exact wp_pure.mpr ⟨rfl, hleft⟩

/-- The receiver's loop over a stream that ends after `n` bytes. -/
theorem wp_receive_all_cut {sends : List (Send M)} {calls : List (Call M)} (last : Call M) {n : Nat}
    (hfits : ∀ m ∈ sends, m.Fits codec) (htakes : List.Forall₂ Call.Takes calls sends)
    (hcells : s.cells = (wire_cells codec sends).take n) :
    wp ⟨fun _ _ _ => False, fun _ => False⟩ (receive_all (stream size) codec (calls ++ [last]))
      (fun result _ _ => result = ((complete codec sends n).1.map Send.content,
        some (stop_error (complete codec sends n).2))) s t := by
  induction htakes generalizing s t n with
  | nil =>
    have hend : s.cells = [] := by rw [hcells]; exact List.take_nil
    refine wp_bind.mpr (wp_attempt (wp_conseq (wp_call_end last hend) ?_ (fun _ h => h)
      fun _ _ _ h => h.elim))
    rintro e s' t' rfl
    dsimp only
    exact wp_pure.mpr rfl
  | @cons call m calls sends hcall _ ih =>
    have hlength := length_carrying m.descriptors (m.frame codec)
    have hmore : s.cells = (carrying m.descriptors (m.frame codec) ++
        wire_cells codec sends).take n := hcells
    rw [complete]
    by_cases hwhole : (m.frame codec).length ≤ n
    · -- The frame is there in full, and the cut lies in what follows.
      rw [if_pos hwhole]
      have hsplit : s.cells = carrying m.descriptors (m.frame codec) ++
          (wire_cells codec sends).take (n - (m.frame codec).length) := by
        rw [hmore, List.take_append, hlength,
          List.take_of_length_le (by rw [hlength]; exact hwhole)]
      refine wp_bind.mpr (wp_attempt (wp_conseq (wp_call (hfits m (by simp)) hcall
        (.inr ⟨_, hsplit.symm⟩)) ?_ (fun _ h => h) ?_))
      · rintro e s' t' ⟨hshort, -⟩
        rw [hsplit, List.length_append, hlength] at hshort
        omega
      · rintro content s' t' ⟨-, rfl, hrest⟩
        rw [hsplit, ← hlength, List.drop_left, hlength] at hrest
        refine wp_bind.mpr (wp_mono
          (ih (fun m' hm' => hfits m' (List.mem_cons_of_mem m hm')) hrest) ?_)
        rintro result s'' t'' rfl
        exact wp_pure.mpr rfl
    · -- The cut is inside this frame.
      rw [if_neg hwhole]
      have hsplit : s.cells = (carrying m.descriptors (m.frame codec)).take n := by
        rw [hmore, List.take_append_of_le_length (by rw [hlength]; omega)]
      have hcount : s.cells.length = n := by
        rw [hsplit, List.length_take, hlength]
        omega
      refine wp_bind.mpr (wp_attempt (wp_conseq (wp_call (hfits m (by simp)) hcall
        (.inl (hsplit ▸ List.take_prefix ..))) ?_ (fun _ h => h) ?_))
      · rintro e s' t' ⟨-, rfl⟩
        dsimp only
        rw [hcount]
        exact wp_pure.mpr rfl
      · rintro content s' t' ⟨henough, -⟩
        rw [hcount] at henough
        exact absurd henough hwhole

end Runs

/-! ## The results -/

/-- Framed messages survive any segmentation and no descriptor leaks. The receiver obtains
what was sent, each message with its own descriptors, however the stream is split. Cut after
any number of bytes, the stream gives the complete messages and then an error. This error is
the end of the stream at a frame boundary and a framing error inside a frame exactly if the
cut is not directly behind a header: there it is the end of the stream, inside a frame. A frame
of no bytes or of more than the limit is refused with nothing read behind its header. And a
descriptor-carrying receive that does not return has closed each descriptor it received once. -/
theorem framed_messages (codec : Codec M) (sends : List (Send M)) (calls : List (Call M))
    (last : Call M) (hfits : ∀ m ∈ sends, m.Fits codec)
    (htakes : List.Forall₂ Call.Takes calls sends) :
    (∃ cells, wire codec sends = .ok cells ∧
      (∀ size tick rest, ∃ s' events,
        receive_all (stream size) codec calls ⟨cells ++ rest, tick⟩ =
          .ok (sends.map Send.content, none) s' events ∧ s'.cells = rest) ∧
      ∀ size tick n, ∃ error s' events,
        receive_all (stream size) codec (calls ++ [last]) ⟨cells.take n, tick⟩ =
          .ok ((complete codec sends n).1.map Send.content, some error) s' events ∧
        (error = (if (complete codec sends n).2 = 0 then .eof else .framing "truncated frame") ↔
          (complete codec sends n).2 ≠ FRAME_HEADER_SIZE) ∧
        ((complete codec sends n).2 = FRAME_HEADER_SIZE → error = .eof)) ∧
    (∀ (call : Call M) (size : Nat → Nat) (s : Stream) (length : Nat), length < 2 ^ 32 →
      (length = 0 ∨ MAX_FRAME_BYTES < length) →
      (s.cells.take FRAME_HEADER_SIZE).map (·.byte) = pack_header length →
      ((s.cells.take FRAME_HEADER_SIZE).flatMap (·.rights)).length ≤ MAX_FDS →
      ∃ s' events, call.run (stream size) codec s =
        .err (.framing ("invalid frame length: " ++ toString length)) s' events ∧
        s'.cells = s.cells.drop FRAME_HEADER_SIZE) ∧
    ∀ (σ : Type) (socket : Socket σ) (expected_counts : M → Except String (List Nat)) (s : σ),
      NoneLost (receive_with_fd socket codec expected_counts s) := by
  refine ⟨⟨wire_cells codec sends, wire_eq hfits, ?_, ?_⟩, ?_, ?_⟩
  · intro size tick rest
    obtain ⟨result, s', events, hrun, rfl, hrest⟩ :=
      exists_of_wp (wp_receive_all size hfits htakes
        (show (⟨wire_cells codec sends ++ rest, tick⟩ : Stream).cells = _ from rfl))
    exact ⟨s', events, hrun, hrest⟩
  · intro size tick n
    obtain ⟨result, s', events, hrun, rfl⟩ :=
      exists_of_wp (wp_receive_all_cut size last hfits htakes
        (show (⟨(wire_cells codec sends).take n, tick⟩ : Stream).cells = _ from rfl))
    exact ⟨_, s', events, hrun, stop_error_iff, stop_error_behind_header⟩
  · intro call size s length hlength hinvalid hheader hroom
    obtain ⟨e, s', events, hrun, rfl, hcells⟩ :=
      exists_err_of_wp (wp_call_invalid codec size call hlength hinvalid
        hheader hroom)
    exact ⟨s', events, hrun, hcells⟩
  · intro σ socket expected_counts s
    exact receive_with_fd_closes socket codec expected_counts s

/-- Messages of one byte. -/
def byte_codec : Codec UInt8 where
  encode message := [message]
  decode
    | [message] => .ok message
    | _ => .error (.decode_error "not one byte")
  encode_ne_nil _ := List.cons_ne_nil _ _
  decode_encode _ := rfl

theorem framed_messages_in_single_bytes :
    let sends : List (Send UInt8) := [.send 7, .send_with_fd 8 [3, 4] 2]
    ∃ cells, wire byte_codec sends = .ok cells ∧ ∃ s' events,
      receive_all (stream fun _ => 1) byte_codec [.receive, .receive_with_fd fun _ => .ok [2]]
        ⟨cells, 0⟩ = .ok ([(7, []), (8, [3, 4])], none) s' events := by
  intro sends
  have hfits : ∀ m ∈ sends, m.Fits byte_codec := by
    intro m hm
    rcases List.mem_cons.mp hm with rfl | hm
    · exact ⟨by decide, by decide, by rintro _ _ _ ⟨⟩⟩
    · rw [List.mem_singleton.mp hm]
      refine ⟨by decide, by decide, ?_⟩
      rintro _ _ _ ⟨⟩
      decide
  have htakes : List.Forall₂ Call.Takes
      [Call.receive, .receive_with_fd fun _ => .ok [2]] sends :=
    .cons rfl (.cons ⟨by decide, [2], rfl, by decide⟩ .nil)
  obtain ⟨⟨cells, hwire, hall, -⟩, -⟩ := framed_messages byte_codec sends _ .receive hfits htakes
  obtain ⟨s', events, hrun, -⟩ := hall (fun _ => 1) 0 []
  rw [List.append_nil] at hrun
  exact ⟨cells, hwire, s', events, hrun⟩

/-- The stream ends directly behind a header that announces a body, and both receives report
the end of the stream, as between two frames. -/
theorem cut_behind_header :
    ∃ cells, wire byte_codec [.send 7] = .ok cells ∧ cells.length = FRAME_HEADER_SIZE + 1 ∧
      ∀ call ∈ [Call.receive, .receive_with_fd fun _ => .ok [0]], ∃ s' events,
        call.run (stream fun _ => FRAME_HEADER_SIZE) byte_codec ⟨cells.take FRAME_HEADER_SIZE, 0⟩ =
          .err .eof s' events := by
  have hfits : (Send.send (7 : UInt8)).Fits byte_codec :=
    ⟨by decide, by decide, by rintro _ _ _ ⟨⟩⟩
  refine ⟨carrying [] (Send.frame byte_codec (.send 7)), ?_, rfl, ?_⟩
  · rw [wire, cells_eq hfits]
    rfl
  · intro call hcall
    have htakes : call.Takes (.send (7 : UInt8)) := by
      rcases List.mem_cons.mp hcall with rfl | hcall
      · rfl
      · rw [List.mem_singleton.mp hcall]
        exact ⟨by decide, [0], rfl, by decide⟩
    have hcut : wp _ (call.run (stream fun _ => FRAME_HEADER_SIZE) byte_codec) _
        ⟨(carrying [] (Send.frame byte_codec (.send 7))).take FRAME_HEADER_SIZE, 0⟩ [] :=
      wp_call hfits htakes (.inl (List.take_prefix ..))
    obtain ⟨e, s', events, hrun, -, rfl⟩ := exists_err_of_wp
      (wp_mono hcut fun _ _ _ h => absurd h.1 (by decide))
    exact ⟨s', events, hrun⟩

end Kvcr.Channel
