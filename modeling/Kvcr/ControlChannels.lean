/-
`FramedConnection`: length-prefixed messages over one socket, with descriptors beside them.

A socket is its answers: what `recv` and `recvmsg` return or raise, as functions of a state
the receiver cannot see. The decoder and the caller's `expected_counts` may raise as well.
`os.close` is taken to succeed. The log keeps what matters for leaks: the descriptors the
kernel installed with a `recvmsg`, and every descriptor closed.

`receive_with_fd` has two places that can lose descriptors, the ones it has already read
off the ancillary data and a second call that ends without a value; both are inside its
`try`. The last section says so for every socket.
-/
import Kvcr.Lib.Bytes
import Kvcr.Lib.Prog

set_option autoImplicit false

namespace Kvcr.Channel

open Bytes Prog

/-! ## Sockets -/

/-- `_FRAME_HEADER.size`. -/
def FRAME_HEADER_SIZE : Nat := 4

/-- `_MAX_FRAME_BYTES`. -/
def MAX_FRAME_BYTES : Nat := 2 ^ 20

/-- `_MAX_FDS`. -/
def MAX_FDS : Nat := 2

/-- `array("i").itemsize`. -/
def ITEM_SIZE : Nat := 4

/-- `EOFError`, `KVCRMsgFramingError`, `KVCRGuardProtocolError`, and whatever else a socket, a
decoder or a caller raises. -/
inductive ChannelError where
  | eof
  | framing (message : String)
  | protocol (message : String)
  | other (message : String)
deriving DecidableEq

/-- One item of ancillary data: `SCM_RIGHTS` or anything else. -/
inductive Ancillary where
  | rights (data : List UInt8)
  | other

/-- What `recvmsg` returns. -/
structure Arrival where
  data : List UInt8
  ancillary : List Ancillary
  /-- `MSG_CTRUNC` -/
  ctrunc : Bool

/-- A stream socket. Ancillary data comes with a byte. -/
structure Socket (σ : Type) where
  recv : Nat → σ → Except String (List UInt8) × σ
  recvmsg : Nat → σ → Except String Arrival × σ
  recvmsg_empty : ∀ length s arrival, (recvmsg length s).1 = .ok arrival → arrival.data = [] →
    arrival.ancillary = []

/-- `array("i").frombytes`; a descriptor is not negative. -/
def frombytes : List UInt8 → List Nat
  | a :: b :: c :: d :: rest => unpack_le [a, b, c, d] :: frombytes rest
  | _ => []

/-- The descriptors of an item. -/
def Ancillary.descriptors : Ancillary → List Nat
  | .rights data => frombytes (data.take (data.length - data.length % ITEM_SIZE))
  | .other => []

/-- An item that is not `SCM_RIGHTS`. -/
def Ancillary.unexpected : Ancillary → Bool
  | .rights _ => false
  | .other => true

/-- The descriptors that came with a message. -/
def Arrival.descriptors (arrival : Arrival) : List Nat :=
  arrival.ancillary.flatMap Ancillary.descriptors

inductive ChannelEv where
  | received (descriptors : List Nat)
  | closed (file_descriptor : Nat)
deriving DecidableEq

abbrev CM (σ α : Type) : Type := Prog σ ChannelError ChannelEv α

variable {σ M : Type}

/-- `recv` as the receiver calls it. -/
def recv (socket : Socket σ) (length : Nat) : CM σ (List UInt8) := fun s =>
  match (socket.recv length s).1 with
  | .ok chunk => .ok chunk (socket.recv length s).2 []
  | .error e => .err (.other e) (socket.recv length s).2 []

/-- `recvmsg` as the receiver calls it. -/
def recvmsg (socket : Socket σ) (length : Nat) : CM σ Arrival := fun s =>
  match (socket.recvmsg length s).1 with
  | .ok arrival => .ok arrival (socket.recvmsg length s).2 [.received arrival.descriptors]
  | .error e => .err (.other e) (socket.recvmsg length s).2 []

/-- `os.close`. -/
def close (file_descriptor : Nat) : CM σ Unit := emit fun _ => .closed file_descriptor

/-! ## Frames -/

/-- How a decoder fails. -/
inductive DecodeFailure where
  | validation_error (text : String)
  | decode_error (text : String)
  | other (text : String)

/-- msgpack for the messages of one kind. -/
structure Codec (M : Type) where
  encode : M → List UInt8
  decode : List UInt8 → Except DecodeFailure M
  encode_ne_nil : ∀ message, encode message ≠ []
  decode_encode : ∀ message, decode (encode message) = .ok message

/-- `_FRAME_HEADER.pack`: network order. -/
def pack_header (length : Nat) : List UInt8 := (pack_le FRAME_HEADER_SIZE length).reverse

/-- `_FRAME_HEADER.unpack`. -/
def unpack_header (header : List UInt8) : Option Nat :=
  if header.length = FRAME_HEADER_SIZE then some (unpack_le header.reverse) else none

/-- `_encode_frame`. -/
def encode_frame (codec : Codec M) (message : M) : Except ChannelError (List UInt8) :=
  let payload := codec.encode message
  if MAX_FRAME_BYTES < payload.length then .error (.framing "frame is too large")
  else .ok (pack_header payload.length ++ payload)

/-! ## Receiving -/

/-- The loop of `_receive_exact`. -/
def receive_exact_from (socket : Socket σ) (length : Nat) (chunks : List UInt8) :
    CM σ (List UInt8) :=
  if _hmissing : chunks.length < length then do
    let chunk ← recv socket (length - chunks.length)
    if _hchunk : chunk = [] then
      if chunks = [] then raise .eof else raise (.framing "truncated frame")
    else receive_exact_from socket length (chunks ++ chunk)
  else pure chunks
termination_by length - chunks.length
decreasing_by
  have hpos := List.length_pos_iff.mpr _hchunk
  rw [List.length_append]
  omega

/-- `_receive_exact`. -/
def receive_exact (socket : Socket σ) (length : Nat) : CM σ (List UInt8) :=
  receive_exact_from socket length []

/-- `decoder.decode` with its exceptions translated. -/
def decode_payload (codec : Codec M) (payload : List UInt8) : CM σ M :=
  match codec.decode payload with
  | .ok message => pure message
  | .error (.validation_error text) => raise (.protocol ("invalid message payload: " ++ text))
  | .error (.decode_error text) => raise (.framing ("invalid message payload: " ++ text))
  | .error (.other text) => raise (.other text)

/-- `_receive_after_header`. -/
def receive_after_header (socket : Socket σ) (codec : Codec M) (header : List UInt8) : CM σ M :=
  match unpack_header header with
  | none => raise (.other "unpack requires a buffer of 4 bytes")
  | some length =>
    if length = 0 ∨ MAX_FRAME_BYTES < length then
      raise (.framing ("invalid frame length: " ++ toString length))
    else do
      let payload ← receive_exact socket length
      decode_payload codec payload

/-- `receive`. -/
def receive (socket : Socket σ) (codec : Codec M) : CM σ M := do
  let header ← receive_exact socket FRAME_HEADER_SIZE
  receive_after_header socket codec header

/-- An end of the stream inside a header is a truncation. -/
def truncated_header : ChannelError → ChannelError
  | .eof => .framing "truncated frame"
  | e => e

/-- What is missing of a header that came in part. -/
def complete_header (socket : Socket σ) (header : List UInt8) : CM σ (List UInt8) :=
  if header.length < FRAME_HEADER_SIZE then do
    let rest ← handle (receive_exact socket (FRAME_HEADER_SIZE - header.length))
      fun e => raise (truncated_header e)
    pure (header ++ rest)
  else pure header

/-- The check of the number of descriptors. -/
def expect_counts (expected_counts : M → Except String (List Nat)) (descriptors : List Nat)
    (message : M) : CM σ (M × List Nat) :=
  match expected_counts message with
  | .error e => raise (.other e)
  | .ok counts =>
    if descriptors.length ∈ counts then pure (message, descriptors)
    else raise (.framing ("unexpected number of file descriptors: " ++
      toString descriptors.length))

/-- The `try` of `receive_with_fd`. -/
def receive_framed (socket : Socket σ) (codec : Codec M)
    (expected_counts : M → Except String (List Nat)) (arrival : Arrival) : CM σ (M × List Nat) :=
  if arrival.ctrunc then raise (.framing "truncated ancillary data")
  else if arrival.ancillary.any Ancillary.unexpected then
    raise (.framing "unexpected ancillary data")
  else do
    let header ← complete_header socket arrival.data
    let message ← receive_after_header socket codec header
    expect_counts expected_counts arrival.descriptors message

/-- `receive_with_fd`. -/
def receive_with_fd (socket : Socket σ) (codec : Codec M)
    (expected_counts : M → Except String (List Nat)) : CM σ (M × List Nat) := do
  let arrival ← recvmsg socket FRAME_HEADER_SIZE
  if arrival.data = [] then raise .eof
  else
    handle (receive_framed socket codec expected_counts arrival) fun e => do
      forEach arrival.descriptors close
      raise e

/-! ## Headers -/

theorem length_pack_header (length : Nat) : (pack_header length).length = FRAME_HEADER_SIZE := by
  rw [pack_header, List.length_reverse, length_pack_le]

theorem unpack_pack_header {length : Nat} (hlength : length < 2 ^ 32) :
    unpack_header (pack_header length) = some length := by
  have hvalue : unpack_le (pack_le FRAME_HEADER_SIZE length) = length :=
    unpack_pack_le (by unfold FRAME_HEADER_SIZE; omega)
  rw [unpack_header, if_pos (length_pack_header length), pack_header, List.reverse_reverse, hvalue]

/-- A length that is refused is refused without another call of the socket. -/
theorem receive_after_header_invalid (socket : Socket σ) (codec : Codec M) {length : Nat}
    (hlength : length < 2 ^ 32) (hinvalid : length = 0 ∨ MAX_FRAME_BYTES < length) (s : σ) :
    receive_after_header socket codec (pack_header length) s =
      .err (.framing ("invalid frame length: " ++ toString length)) s [] := by
  rw [receive_after_header, unpack_pack_header hlength]
  simp only [if_pos hinvalid]
  rfl

/-! ## No descriptor is lost -/

section Leaks

variable {socket : Socket σ} {codec : Codec M} {s : σ} {t : List ChannelEv}

/-- Ends, and leaves the log as it was. -/
def untouched (t : List ChannelEv) : Watch σ ChannelError ChannelEv :=
  ⟨fun _ _ t' => t' = t, fun _ => False⟩

theorem wp_recv {W : Watch σ ChannelError ChannelEv} {length : Nat}
    {Q : List UInt8 → σ → List ChannelEv → Prop}
    (hok : ∀ chunk, (socket.recv length s).1 = .ok chunk → Q chunk (socket.recv length s).2 t)
    (herr : ∀ e, (socket.recv length s).1 = .error e →
      W.exc (.other e) (socket.recv length s).2 t) :
    wp W (recv socket length) Q s t := by
  unfold wp recv
  cases hrecv : (socket.recv length s).1 with
  | ok chunk =>
    dsimp only
    rw [List.append_nil]
    exact hok chunk hrecv
  | error e =>
    dsimp only
    rw [List.append_nil]
    exact herr e hrecv

theorem wp_recvmsg {W : Watch σ ChannelError ChannelEv} {length : Nat}
    {Q : Arrival → σ → List ChannelEv → Prop}
    (hok : ∀ arrival, (socket.recvmsg length s).1 = .ok arrival →
      Q arrival (socket.recvmsg length s).2 (t ++ [.received arrival.descriptors]))
    (herr : ∀ e, (socket.recvmsg length s).1 = .error e →
      W.exc (.other e) (socket.recvmsg length s).2 t) :
    wp W (recvmsg socket length) Q s t := by
  unfold wp recvmsg
  cases hrecv : (socket.recvmsg length s).1 with
  | ok arrival => exact hok arrival hrecv
  | error e =>
    dsimp only
    rw [List.append_nil]
    exact herr e hrecv

theorem untouched_receive_exact_from (length : Nat) (chunks : List UInt8) :
    wp (untouched t) (receive_exact_from socket length chunks) (fun _ _ t' => t' = t) s t := by
  -- The induction is on what is missing; a chunk is never empty here.
  induction hn : length - chunks.length using Nat.strong_induction_on generalizing chunks s with
  | _ n ih =>
    rw [receive_exact_from]
    by_cases hmissing : chunks.length < length
    · rw [dif_pos hmissing]
      refine wp_bind.mpr (wp_recv (fun chunk _ => ?_) fun _ _ => rfl)
      by_cases hchunk : chunk = []
      · rw [dif_pos hchunk]
        exact wp_ite.mpr ⟨fun _ => wp_raise.mpr rfl, fun _ => wp_raise.mpr rfl⟩
      · rw [dif_neg hchunk]
        have hpos := List.length_pos_iff.mpr hchunk
        refine ih (length - (chunks ++ chunk).length) ?_ _ rfl
        rw [List.length_append]
        omega
    · rw [dif_neg hmissing]
      exact wp_pure.mpr rfl

theorem untouched_decode_payload (payload : List UInt8) :
    wp (untouched t) (decode_payload codec payload : CM σ M) (fun _ _ t' => t' = t) s t := by
  unfold decode_payload
  split
  · exact wp_pure.mpr rfl
  · exact wp_raise.mpr rfl
  · exact wp_raise.mpr rfl
  · exact wp_raise.mpr rfl

theorem untouched_receive_after_header (header : List UInt8) :
    wp (untouched t) (receive_after_header socket codec header) (fun _ _ t' => t' = t) s t := by
  unfold receive_after_header
  split
  · exact wp_raise.mpr rfl
  · refine wp_ite.mpr ⟨fun _ => wp_raise.mpr rfl, fun _ => ?_⟩
    refine wp_seq (untouched_receive_exact_from _ []) ?_
    rintro payload s' t' rfl
    exact untouched_decode_payload payload

theorem untouched_complete_header (header : List UInt8) :
    wp (untouched t) (complete_header socket header) (fun _ _ t' => t' = t) s t := by
  unfold complete_header
  refine wp_ite.mpr ⟨fun _ => ?_, fun _ => wp_pure.mpr rfl⟩
  refine wp_seq (P := fun _ _ t' => t' = t) (wp_handle.mpr ?_) fun _ _ _ h => wp_pure.mpr h
  refine wp_conseq (untouched_receive_exact_from _ []) ?_ (fun _ h => h) fun _ _ _ h => h
  intro e s' t' h
  dsimp only
  exact wp_raise.mpr h

/-- The `try` leaves the log alone; what it returns are the descriptors that came. -/
theorem untouched_receive_framed {expected_counts : M → Except String (List Nat)}
    (arrival : Arrival) :
    wp (untouched t) (receive_framed socket codec expected_counts arrival)
      (fun result _ t' => result.2 = arrival.descriptors ∧ t' = t) s t := by
  unfold receive_framed
  refine wp_ite.mpr ⟨fun _ => wp_raise.mpr rfl, fun _ => ?_⟩
  refine wp_ite.mpr ⟨fun _ => wp_raise.mpr rfl, fun _ => ?_⟩
  refine wp_seq (untouched_complete_header arrival.data) ?_
  rintro header s₁ t₁ rfl
  refine wp_seq (untouched_receive_after_header header) ?_
  rintro message s₂ t₂ rfl
  unfold expect_counts
  split
  · exact wp_raise.mpr rfl
  · exact wp_ite.mpr ⟨fun _ => wp_pure.mpr ⟨rfl, rfl⟩, fun _ => wp_raise.mpr rfl⟩

/-- Closing is one event a descriptor. -/
theorem forEach_close {W : Watch σ ChannelError ChannelEv}
    {Q : Unit → σ → List ChannelEv → Prop} (descriptors : List Nat)
    (hQ : Q () s (t ++ descriptors.map .closed)) : wp W (forEach descriptors close) Q s t := by
  induction descriptors generalizing t with
  | nil =>
    rw [List.map_nil, List.append_nil] at hQ
    exact wp_pure.mpr hQ
  | cons d descriptors ih =>
    refine wp_bind.mpr (wp_emit.mpr (ih ?_))
    rwa [List.append_assoc]

/-- What a descriptor-carrying receive has done to descriptors: one that returns hands over
those that came, and one that raises has closed each of them once, or none came. -/
def NoneLost : Outcome σ ChannelError ChannelEv (M × List Nat) → Prop
  | .ok result _ events => events = [.received result.2]
  | .err _ _ events =>
    events = [] ∨ ∃ descriptors, events = .received descriptors :: descriptors.map .closed
  | .diverged _ => False

theorem receive_with_fd_closes (socket : Socket σ) (codec : Codec M)
    (expected_counts : M → Except String (List Nat)) (s : σ) :
    NoneLost (receive_with_fd socket codec expected_counts s) := by
  have hspec : wp (⟨fun _ _ t' => t' = [] ∨
        ∃ descriptors, t' = .received descriptors :: descriptors.map .closed, fun _ => False⟩ :
        Watch σ ChannelError ChannelEv)
      (receive_with_fd socket codec expected_counts)
      (fun result _ t' => t' = [.received result.2]) s [] := by
    refine wp_bind.mpr (wp_recvmsg (fun arrival hrecv => ?_) fun _ _ => .inl rfl)
    refine wp_ite.mpr ⟨fun hempty => wp_raise.mpr (.inr ⟨[], ?_⟩), fun _ => wp_handle.mpr ?_⟩
    · -- No byte, so no ancillary data either.
      rw [Arrival.descriptors, socket.recvmsg_empty _ _ _ hrecv hempty]
      rfl
    · refine wp_conseq (untouched_receive_framed arrival) ?_ (fun _ h => h) ?_
      · rintro e s' t' rfl
        dsimp only
        refine wp_bind.mpr (forEach_close _ (wp_raise.mpr ?_))
        exact .inr ⟨arrival.descriptors, rfl⟩
      · rintro result s' t' ⟨hdescriptors, rfl⟩
        rw [hdescriptors]
        rfl
  unfold wp at hspec
  cases hrun : receive_with_fd socket codec expected_counts s with
  | ok result s' events => rwa [hrun] at hspec
  | err e s' events => rwa [hrun] at hspec
  | diverged events => rwa [hrun] at hspec

end Leaks

end Kvcr.Channel
