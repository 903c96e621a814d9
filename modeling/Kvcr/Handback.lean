/-
The handback region: what a Guard leaves past the end of a pool file for the primary
that returns.

The region is the tail of the file behind `region_offset`, here a byte string; no bytes
there means no region. A rewrite is the list of its steps in the order the code takes
them: the truncation to the new length, the zero pages of the fallback when the file
system cannot reserve space, the zero header, the body, and last the header. A writer
may stop between any two of them.

The argument for an interrupted rewrite has three parts. Up to the zero header the old
header is untouched: either the old body is still there in full and the digest covers
nothing else, or the file is too short for the size it declares. From the zero header on
the region declares no bytes. The last step makes header and body agree.
-/
import Kvcr.Lib.Bytes
import Kvcr.RecoveryJournal

set_option autoImplicit false

namespace Kvcr.Handback

open Bytes Journal

/-! ## Reading a region -/

/-- `RecoveryJournalTornError`, any other `RecoveryJournalError`, an `OSError` that says the
storage is full, and any other exception. -/
inductive SnapshotError where
  | torn (message : String)
  | refused (message : String)
  | capacity (message : String)
  | other (message : String)
deriving DecidableEq

/-- What a reader that yields frames does: the frames it yielded and the exception it ended
with, if any. -/
structure Replay where
  frames : List Frame
  raised : Option SnapshotError := none
deriving DecidableEq

/-- Ending with an exception before anything was yielded. -/
def Replay.fail (error : SnapshotError) : Replay := { frames := [], raised := some error }

/-- SHA-256, as far as the code depends on it. -/
structure Sha256 where
  digest : List UInt8 → List UInt8
  length_digest : ∀ bytes, (digest bytes).length = 32

/-- The digest that is zero everywhere. -/
def Sha256.zero : Sha256 := ⟨fun _ => List.replicate 32 0, fun _ => List.length_replicate⟩

/-- `_SNAPSHOT_HEADER.size`: a digest and a 64-bit size. -/
def SNAPSHOT_HEADER_SIZE : Nat := 40

/-- `_pack_frame` at the frame's own size. -/
def pack_frame (f : Frame) : List UInt8 := f.header ++ (f.key ++ f.payload)

@[simp] theorem length_pack_frame (f : Frame) : (pack_frame f).length = f.frame_size :=
  length_unpadded f

/-- The frame loop of `read_recovery_snapshot`. -/
def read_frames (body : List UInt8) : Replay :=
  if body = [] then { frames := [] }
  else if body.length < HEADER_SIZE then .fail (.refused "handback frame header is truncated")
  else
    let frame_size := unpack_u16 body
    let record_type := unpack_u16 (body.drop 2)
    let key_size := unpack_u16 (body.drop 4)
    if frame_size < HEADER_SIZE + key_size ∨ body.length < frame_size then
      .fail (.refused "handback frame is malformed")
    else if record_type ≠ RECORD_BLOCK then
      .fail (.refused ("handback frame has an unknown type: " ++ toString record_type))
    else
      let frame : Frame :=
        { key := (body.drop HEADER_SIZE).take key_size
          payload := (body.take frame_size).drop (HEADER_SIZE + key_size) }
      let rest := read_frames (body.drop frame_size)
      { rest with frames := frame :: rest.frames }
termination_by body.length
decreasing_by
  rw [List.length_drop]
  unfold HEADER_SIZE at *
  omega

/-- `read_recovery_snapshot`. -/
def read_recovery_snapshot (sha : Sha256) (terms region : List UInt8) : Replay :=
  if region = [] then { frames := [] }
  else if region.length < SNAPSHOT_HEADER_SIZE then .fail (.torn "handback region is truncated")
  else
    let digest := region.take 32
    let size := unpack_le ((region.drop 32).take 8)
    if size = 0 then .fail (.torn "handback region is unfinished")
    else if region.length - SNAPSHOT_HEADER_SIZE < size then
      .fail (.torn "handback region length disagrees")
    else
      let body := (region.drop SNAPSHOT_HEADER_SIZE).take size
      if digest ≠ sha.digest (terms ++ body) then
        .fail (.refused "handback region is unfinished or was written for other terms")
      else read_frames body

/-! ## Writing a region -/

/-- What the file system does for a region: the huge pages it is made of, if any, and how
it reserves space. A count of zero from `pwrite` raises, and a page holds the header. -/
structure Backing where
  /-- `hugetlb_page_size`. -/
  huge_page : Nat
  /-- `posix_fallocate` is there and supported. -/
  fallocate : Bool
  /-- `SC_PAGESIZE`. -/
  page : Nat
  /-- How much of a span at a position one `pwrite` writes. -/
  pwrite : Nat → Nat → Nat
  pwrite_pos : ∀ position span, 0 < span → 0 < pwrite position span
  pwrite_le : ∀ position span, pwrite position span ≤ span
  page_header : SNAPSHOT_HEADER_SIZE ≤ page
  pwrite_header : ∀ span, SNAPSHOT_HEADER_SIZE ≤ span → SNAPSHOT_HEADER_SIZE ≤ pwrite 0 span

namespace Backing

/-- A file system with ordinary pages that reserves space itself. -/
def plain : Backing where
  huge_page := 0
  fallocate := true
  page := 4096
  pwrite _ span := span
  pwrite_pos _ _ h := h
  pwrite_le _ span := Nat.le_refl span
  page_header := by decide
  pwrite_header _ h := h

variable (backing : Backing)

/-- `memmap.round_up`. -/
def round_up (size alignment : Nat) : Nat := (size + alignment - 1) / alignment * alignment

/-- `memmap.align`. -/
def align (size : Nat) : Nat :=
  if backing.huge_page = 0 then size else round_up size backing.huge_page

/-- The `pwrite` loop of `_populate_pages`. -/
def write_pages (position stop : Nat) : List Step :=
  if position < stop then
    let span := min backing.page (stop - position)
    let count := backing.pwrite position span
    .assign position (List.replicate count 0) :: write_pages (position + count) stop
  else []
termination_by stop - position
decreasing_by
  have hpage := backing.page_header
  have hcount := backing.pwrite_pos position (min backing.page (stop - position))
    (by unfold SNAPSHOT_HEADER_SIZE at hpage; omega)
  omega

/-- `_populate_pages`. -/
def populate_pages (length : Nat) : List Step :=
  if backing.fallocate then [] else backing.write_pages 0 length

theorem le_align (size : Nat) : size ≤ backing.align size := by
  unfold align round_up
  split
  · exact Nat.le_refl size
  · have hpos : 0 < backing.huge_page := Nat.pos_of_ne_zero ‹_›
    have hdiv := Nat.div_add_mod (size + backing.huge_page - 1) backing.huge_page
    have hmod := Nat.mod_lt (size + backing.huge_page - 1) hpos
    rw [Nat.mul_comm] at hdiv
    omega

end Backing

/-- The unpadded frames, one after the other. -/
def snapshot_body (frames : List Frame) : List UInt8 := frames.flatMap pack_frame

/-- `_SNAPSHOT_HEADER.pack`. -/
def snapshot_header (sha : Sha256) (terms body : List UInt8) : List UInt8 :=
  sha.digest (terms ++ body) ++ pack_le 8 body.length

/-- What a call of the writer does: its steps, and the exception it ends with, if any. -/
structure Rewrite where
  steps : List Step
  raised : Option SnapshotError := none

/-- `pool.snapshot_region(size)` around the assignments `inner`. An exception of any kind,
raised by them or from outside (`fault`: after how many steps), truncates the region away
again. -/
def snapshot_region (backing : Backing) (size : Nat) (inner : Rewrite)
    (fault : Option (Nat × SnapshotError)) : Rewrite :=
  let size := backing.align size
  let tried := backing.populate_pages size ++ inner.steps
  match fault, inner.raised with
  | some (count, error), _ =>
    { steps := .truncate size :: (tried.take count ++ [.truncate 0]), raised := some error }
  | none, some error =>
    { steps := .truncate size :: (tried ++ [.truncate 0]), raised := some error }
  | none, none => { steps := .truncate size :: tried }

/-- The assignments of `write_recovery_snapshot`. A body too long for the 64-bit size
raises where the header is packed. -/
def write_region (sha : Sha256) (terms body : List UInt8) : Rewrite :=
  let filling : List Step :=
    [.assign 0 (List.replicate SNAPSHOT_HEADER_SIZE 0), .assign SNAPSHOT_HEADER_SIZE body]
  if body.length < 2 ^ 64 then
    { steps := filling ++ [.assign 0 (snapshot_header sha terms body)] }
  else { steps := filling, raised := some (.other "int too large to convert") }

/-- `write_recovery_snapshot`. -/
def write_recovery_snapshot (sha : Sha256) (backing : Backing) (terms : List UInt8)
    (frames : List Frame) (fault : Option (Nat × SnapshotError)) : Rewrite :=
  match frames.find? fun f => MAX_FRAME_SIZE < f.frame_size with
  | some f =>
    { steps := []
      raised := some (.refused ("handback frame is " ++ toString f.frame_size ++
        " bytes; maximum is " ++ toString MAX_FRAME_SIZE ++ " bytes")) }
  | none =>
    let body := snapshot_body frames
    if body = [] then { steps := [.truncate 0] }
    else
      snapshot_region backing (SNAPSHOT_HEADER_SIZE + body.length) (write_region sha terms body)
        fault

/-! ## Frames survive -/

/-- The reader takes the first frame off a body. -/
theorem read_frames_cons {f : Frame} (hf : f.frame_size ≤ MAX_FRAME_SIZE) (rest : List UInt8) :
    read_frames (pack_frame f ++ rest) =
      { read_frames rest with frames := f :: (read_frames rest).frames } := by
  have hheader : (pack_frame f ++ rest) = f.header ++ (f.key ++ f.payload ++ rest) :=
    List.append_assoc ..
  have hlen : (pack_frame f ++ rest).length = f.frame_size + rest.length := by
    rw [List.length_append, length_pack_frame]
  have hsize : HEADER_SIZE + f.key.length ≤ f.frame_size := Nat.le_add_right ..
  have hne : pack_frame f ++ rest ≠ [] := by
    intro hnil
    rw [hnil, List.length_nil] at hlen
    unfold HEADER_SIZE at hsize
    omega
  obtain ⟨hframe, htype, hkey⟩ := unpack_header_append hf (f.key ++ f.payload ++ rest)
  rw [← hheader] at hframe htype hkey
  have hdrop : (pack_frame f ++ rest).drop f.frame_size = rest :=
    List.drop_left' (length_pack_frame f)
  have htake : (pack_frame f ++ rest).take f.frame_size = pack_frame f :=
    List.take_left' (length_pack_frame f)
  have hkeybytes : ((pack_frame f ++ rest).drop HEADER_SIZE).take f.key.length = f.key := by
    rw [hheader, List.drop_left' (length_header f), List.append_assoc]
    exact List.take_left' rfl
  have hpayload : (pack_frame f).drop (HEADER_SIZE + f.key.length) = f.payload := by
    rw [pack_frame, ← List.append_assoc]
    exact List.drop_left' (by simp)
  rw [read_frames, if_neg hne, if_neg (by rw [hlen]; omega)]
  simp only [hframe, htype, hkey, hdrop, htake, hkeybytes, hpayload]
  rw [if_neg (by rw [hlen]; omega), if_neg (by simp)]

/-- The body of a region replays the frames it was made of. -/
theorem read_frames_body {frames : List Frame}
    (hsizes : ∀ f ∈ frames, f.frame_size ≤ MAX_FRAME_SIZE) :
    read_frames (snapshot_body frames) = { frames := frames } := by
  induction frames with
  | nil =>
    rw [read_frames]
    rfl
  | cons f frames ih =>
    have hrest := ih fun g hg => hsizes g (List.mem_cons_of_mem f hg)
    rw [snapshot_body, List.flatMap_cons, ← snapshot_body, read_frames_cons (hsizes f (by simp)),
      hrest]

/-! ## What a region reads as -/

section Reading

variable {sha : Sha256} {terms body region : List UInt8}

@[simp] theorem length_snapshot_header :
    (snapshot_header sha terms body).length = SNAPSHOT_HEADER_SIZE := by
  rw [snapshot_header, List.length_append, sha.length_digest, length_pack_le]
  rfl

/-- Header fields lie within the first bytes. -/
theorem header_fields (region : List UInt8) :
    region.take 32 = (region.take SNAPSHOT_HEADER_SIZE).take 32 ∧
      (region.drop 32).take 8 = (region.take SNAPSHOT_HEADER_SIZE).drop 32 := by
  constructor
  · rw [List.take_take]
    rfl
  · rw [SNAPSHOT_HEADER_SIZE, List.drop_take]

/-- The fields of a packed header. -/
theorem unpack_snapshot_header (hbody : body.length < 2 ^ 64)
    (hheader : region.take SNAPSHOT_HEADER_SIZE = snapshot_header sha terms body) :
    region.take 32 = sha.digest (terms ++ body) ∧
      unpack_le ((region.drop 32).take 8) = body.length := by
  obtain ⟨hdigest, hsize⟩ := header_fields region
  rw [hdigest, hsize, hheader, snapshot_header]
  refine ⟨List.take_left' (sha.length_digest _), ?_⟩
  rw [List.drop_left' (sha.length_digest _)]
  exact unpack_pack_le hbody

theorem length_of_header
    (hheader : region.take SNAPSHOT_HEADER_SIZE = snapshot_header sha terms body) :
    SNAPSHOT_HEADER_SIZE ≤ region.length := by
  have hlen := congrArg List.length hheader
  rw [List.length_take, length_snapshot_header] at hlen
  omega

/-- A region that ends before the body its header declares. -/
theorem read_cut (hne : body ≠ []) (hbody : body.length < 2 ^ 64)
    (hheader : region.take SNAPSHOT_HEADER_SIZE = snapshot_header sha terms body)
    (hcut : region.length < SNAPSHOT_HEADER_SIZE + body.length) :
    read_recovery_snapshot sha terms region =
      .fail (.torn "handback region length disagrees") := by
  have hlen := length_of_header hheader
  have hpos := List.length_pos_iff.mpr hne
  obtain ⟨-, hsize⟩ := unpack_snapshot_header hbody hheader
  have hregion : region ≠ [] := by
    rintro rfl
    exact absurd hlen (by decide)
  unfold read_recovery_snapshot
  simp only [hsize]
  rw [if_neg hregion, if_neg (by omega), if_neg (by omega), if_pos (by omega)]

/-- A region that holds the body its header declares. -/
theorem read_finished (hne : body ≠ []) (hbody : body.length < 2 ^ 64)
    (hheader : region.take SNAPSHOT_HEADER_SIZE = snapshot_header sha terms body)
    (hcontents : (region.drop SNAPSHOT_HEADER_SIZE).take body.length = body) :
    read_recovery_snapshot sha terms region = read_frames body := by
  have hlen := length_of_header hheader
  have hpos := List.length_pos_iff.mpr hne
  have hfits : body.length ≤ region.length - SNAPSHOT_HEADER_SIZE := by
    have h := congrArg List.length hcontents
    rw [List.length_take, List.length_drop] at h
    omega
  obtain ⟨hdigest, hsize⟩ := unpack_snapshot_header hbody hheader
  have hregion : region ≠ [] := by
    rintro rfl
    exact absurd hlen (by decide)
  unfold read_recovery_snapshot
  simp only [hsize, hdigest, hcontents]
  rw [if_neg hregion, if_neg (by omega), if_neg (by omega), if_neg (by omega), if_neg (by simp)]

/-- A region whose header is zero. -/
theorem read_zero_header (hlen : SNAPSHOT_HEADER_SIZE ≤ region.length)
    (hzero : region.take SNAPSHOT_HEADER_SIZE = List.replicate SNAPSHOT_HEADER_SIZE 0) :
    read_recovery_snapshot sha terms region = .fail (.torn "handback region is unfinished") := by
  have hsize : unpack_le ((region.drop 32).take 8) = 0 := by
    rw [(header_fields region).2, hzero, List.drop_replicate]
    exact unpack_le_zeros _
  have hregion : region ≠ [] := by
    rintro rfl
    exact absurd hlen (by decide)
  unfold read_recovery_snapshot
  simp only [hsize]
  rw [if_neg hregion, if_neg (by omega), if_pos trivial]

end Reading

/-! ## Rewriting a region -/

/-- The region left by a rewrite that finished under `terms`, or by none. -/
inductive Finished (sha : Sha256) (terms : List UInt8) : List UInt8 → List Frame → Prop where
  | absent : Finished sha terms [] []
  | written (frames : List Frame) (rest : List UInt8) (hne : frames ≠ [])
      (hsizes : ∀ f ∈ frames, f.frame_size ≤ MAX_FRAME_SIZE)
      (hbody : (snapshot_body frames).length < 2 ^ 64) :
      Finished sha terms
        (snapshot_header sha terms (snapshot_body frames) ++ (snapshot_body frames ++ rest)) frames

/-- What a later read of an interrupted rewrite may find. -/
def Unmistaken (sha : Sha256) (terms : List UInt8) (old new : List Frame)
    (region : List UInt8) : Prop :=
  read_recovery_snapshot sha terms region = { frames := old } ∨
    (∃ message, read_recovery_snapshot sha terms region = .fail (.torn message)) ∨
    read_recovery_snapshot sha terms region = { frames := new }

section Rewriting

variable {sha : Sha256} {backing : Backing} {terms body region : List UInt8}
  {old new frames : List Frame}

theorem snapshot_body_ne_nil (hne : frames ≠ []) : snapshot_body frames ≠ [] := by
  cases frames with
  | nil => exact absurd rfl hne
  | cons f frames =>
    intro hnil
    rw [snapshot_body, List.flatMap_cons, List.append_eq_nil_iff] at hnil
    have hlen := congrArg List.length hnil.1
    rw [length_pack_frame, List.length_nil, Frame.frame_size, HEADER_SIZE] at hlen
    omega

/-- A finished region replays its frames. -/
theorem Finished.read (h : Finished sha terms region frames) :
    read_recovery_snapshot sha terms region = { frames := frames } := by
  cases h with
  | absent => rfl
  | written _ rest hne hsizes hbody =>
    have hheader : (snapshot_header sha terms (snapshot_body frames)).length =
        SNAPSHOT_HEADER_SIZE := length_snapshot_header
    rw [read_finished (snapshot_body_ne_nil hne) hbody (List.take_left' hheader)
      (by rw [List.drop_left' hheader]; exact List.take_left' rfl)]
    exact read_frames_body hsizes

/-- Cut or extended, a finished region still replays its frames or is torn: the old header
is untouched and the digest covers the old body only. -/
theorem Finished.truncate (h : Finished sha terms region old) (new : List Frame) {size : Nat}
    (hsize : SNAPSHOT_HEADER_SIZE ≤ size) :
    Unmistaken sha terms old new (Bytes.truncate size region) := by
  cases h with
  | absent =>
    refine .inr (.inl ⟨_, read_zero_header (by rw [length_truncate]; exact hsize) ?_⟩)
    rw [truncate_nil, List.take_replicate, Nat.min_eq_left hsize]
  | written _ rest hne hsizes hbody =>
    have hnonempty := snapshot_body_ne_nil hne
    have hframes := read_frames_body hsizes
    generalize snapshot_body old = body at *
    have hfront : (snapshot_header sha terms body).length = SNAPSHOT_HEADER_SIZE :=
      length_snapshot_header
    have hheader : (Bytes.truncate size (snapshot_header sha terms body ++ (body ++ rest))).take
        SNAPSHOT_HEADER_SIZE = snapshot_header sha terms body := by
      rw [take_truncate hsize (by rw [List.length_append]; omega)]
      exact List.take_left' hfront
    by_cases hfits : SNAPSHOT_HEADER_SIZE + body.length ≤ size
    · refine .inl ((read_finished hnonempty hbody hheader ?_).trans hframes)
      rw [slice_truncate hfits (by simp only [List.length_append]; omega), List.drop_left' hfront]
      exact List.take_left' rfl
    · refine .inr (.inl ⟨_, read_cut hnonempty hbody hheader ?_⟩)
      rw [length_truncate]
      omega

/-- A region of a given length whose header is zero. -/
def Retired (size : Nat) (region : List UInt8) : Prop :=
  region.length = size ∧ region.take SNAPSHOT_HEADER_SIZE = List.replicate SNAPSHOT_HEADER_SIZE 0

theorem Retired.unmistaken {size : Nat} (hsize : SNAPSHOT_HEADER_SIZE ≤ size)
    (h : Retired size region) : Unmistaken sha terms old new region :=
  .inr (.inl ⟨_, read_zero_header (by rw [h.1]; exact hsize) h.2⟩)

/-- Zeros over the front retire whatever was there. -/
theorem retired_of_zeros {size count : Nat} (hlen : region.length = size)
    (hcount : SNAPSHOT_HEADER_SIZE ≤ count) (hfits : count ≤ size) :
    Retired size (Bytes.assign 0 (List.replicate count 0) region) := by
  refine ⟨?_, ?_⟩
  · rw [length_assign (by rw [List.length_replicate]; omega), hlen]
  · rw [assign_zero, List.take_append_of_le_length (by rw [List.length_replicate]; exact hcount),
      List.take_replicate, Nat.min_eq_left hcount]

/-- An assignment behind the header leaves the region retired. -/
theorem Retired.assign {size start : Nat} (h : Retired size region) (bytes : List UInt8)
    (hstart : SNAPSHOT_HEADER_SIZE ≤ start) (hfits : start + bytes.length ≤ size) :
    Retired size (Bytes.assign start bytes region) := by
  have hlen := h.1
  refine ⟨?_, ?_⟩
  · rw [length_assign (by omega), hlen]
  · rw [take_assign hstart (by omega), h.2]

/-- The pages behind the header are zeroed. -/
theorem retired_write_pages {size position : Nat} (hposition : SNAPSHOT_HEADER_SIZE ≤ position)
    (h : Retired size region) :
    Throughout (Retired size) (backing.write_pages position size) region := by
  fun_induction backing.write_pages position size generalizing region with
  | case1 position hmore span count =>
    rename_i ih
    have hcount : count ≤ span := backing.pwrite_le position span
    have hspan : span ≤ size - position := Nat.min_le_right ..
    have hnext := h.assign (List.replicate count 0) hposition
      (by rw [List.length_replicate]; omega)
    exact throughout_cons.mpr ⟨h, ih (by omega) hnext⟩
  | case2 position hdone => exact throughout_nil.mpr h

/-- Reserving space leaves the region as it was, or retires it. -/
theorem throughout_populate_pages (backing : Backing) (P : List UInt8 → Prop) {size : Nat}
    (hsize : SNAPSHOT_HEADER_SIZE ≤ size) (hlen : region.length = size) (hP : P region)
    (hretired : ∀ region, Retired size region → P region) :
    Throughout (fun region => region.length = size ∧ P region) (backing.populate_pages size)
      region := by
  unfold Backing.populate_pages
  split
  · exact throughout_nil.mpr ⟨hlen, hP⟩
  · have hpage := backing.page_header
    have hcount := backing.pwrite_header (min backing.page (size - 0)) (by omega)
    have hle := backing.pwrite_le 0 (min backing.page (size - 0))
    rw [Backing.write_pages, if_pos (by unfold SNAPSHOT_HEADER_SIZE at hsize; omega)]
    refine throughout_cons.mpr ⟨⟨hlen, hP⟩, ?_⟩
    -- The first write covers the header, the others lie behind it.
    have hfirst := retired_of_zeros hlen hcount (by omega)
    exact (retired_write_pages (by omega) hfirst).mono fun region h => ⟨h.1, hretired region h⟩

/-- The assignments of a rewrite, from any contents of the right length. -/
theorem finished_write_region {size : Nat} (hframes : frames ≠ [])
    (hsizes : ∀ f ∈ frames, f.frame_size ≤ MAX_FRAME_SIZE)
    (hsize : SNAPSHOT_HEADER_SIZE + (snapshot_body frames).length ≤ size)
    (hlen : region.length = size)
    (hraised : (write_region sha terms (snapshot_body frames)).raised = none) :
    Finished sha terms (run (write_region sha terms (snapshot_body frames)).steps region)
      frames := by
  have hzeroed : Retired size (Bytes.assign 0 (List.replicate SNAPSHOT_HEADER_SIZE 0) region) :=
    retired_of_zeros hlen (Nat.le_refl _) (by omega)
  unfold write_region at hraised ⊢
  split at hraised
  · rename_i hbody
    rw [if_pos hbody]
    simp only [List.cons_append, List.nil_append, run_cons, run_nil, Step.apply]
    rw [assign_zero (snapshot_header _ _ _), length_snapshot_header,
      drop_assign (by rw [hzeroed.1]; omega)]
    exact .written frames _ hframes hsizes hbody
  · cases hraised

/-- Wherever the assignments stop. -/
theorem throughout_write_region {size : Nat} (hframes : frames ≠ [])
    (hsizes : ∀ f ∈ frames, f.frame_size ≤ MAX_FRAME_SIZE)
    (hsize : SNAPSHOT_HEADER_SIZE + (snapshot_body frames).length ≤ size)
    (hlen : region.length = size) (hnow : Unmistaken sha terms old frames region) :
    Throughout (Unmistaken sha terms old frames)
      (write_region sha terms (snapshot_body frames)).steps region := by
  have hfinished : (write_region sha terms (snapshot_body frames)).raised = none →
      Finished sha terms (run (write_region sha terms (snapshot_body frames)).steps region)
        frames := finished_write_region hframes hsizes hsize hlen
  have hzeroed : Retired size (Bytes.assign 0 (List.replicate SNAPSHOT_HEADER_SIZE 0) region) :=
    retired_of_zeros hlen (Nat.le_refl _) (by omega)
  have hfilled := hzeroed.assign (snapshot_body frames) (Nat.le_refl _) hsize
  have hwide : SNAPSHOT_HEADER_SIZE ≤ size := by omega
  unfold write_region at hfinished ⊢
  split
  · rename_i hbody
    rw [if_pos hbody] at hfinished
    exact throughout_cons.mpr ⟨hnow, throughout_cons.mpr ⟨hzeroed.unmistaken hwide,
      throughout_cons.mpr ⟨hfilled.unmistaken hwide,
        throughout_nil.mpr (.inr (.inr (hfinished rfl).read))⟩⟩⟩
  · exact throughout_cons.mpr ⟨hnow, throughout_cons.mpr ⟨hzeroed.unmistaken hwide,
      throughout_nil.mpr (hfilled.unmistaken hwide)⟩⟩

/-- Wherever a rewrite stops after it has come to the file. -/
theorem stops_snapshot_region (h : Finished sha terms region old) (hframes : frames ≠ [])
    (hsizes : ∀ f ∈ frames, f.frame_size ≤ MAX_FRAME_SIZE)
    (fault : Option (Nat × SnapshotError)) {taken : List Step} {written : Rewrite}
    (hwritten : written = snapshot_region backing
      (SNAPSHOT_HEADER_SIZE + (snapshot_body frames).length)
      (write_region sha terms (snapshot_body frames)) fault)
    (htaken : taken <+: written.steps) :
    Unmistaken sha terms old frames (run taken region) ∨
      (written.raised.isSome ∧ taken = written.steps ∧ run taken region = []) := by
  have hsize := backing.le_align (SNAPSHOT_HEADER_SIZE + (snapshot_body frames).length)
  unfold snapshot_region at hwritten
  generalize backing.align (SNAPSHOT_HEADER_SIZE + (snapshot_body frames).length) = size at *
  have hwide : SNAPSHOT_HEADER_SIZE ≤ size := by omega
  have hpopulate := throughout_populate_pages backing (Unmistaken sha terms old frames) hwide
    (length_truncate size region) (h.truncate frames hwide)
    fun _ hretired => hretired.unmistaken hwide
  obtain ⟨hlen, hnow⟩ := hpopulate.last
  have htried : Throughout (Unmistaken sha terms old frames)
      (.truncate size :: (backing.populate_pages size ++
        (write_region sha terms (snapshot_body frames)).steps)) region :=
    throughout_cons.mpr ⟨.inl h.read, (hpopulate.mono fun _ hx => hx.2).append
      (throughout_write_region hframes hsizes hsize hlen hnow)⟩
  -- An exception cuts the steps short and appends a truncation.
  split at hwritten
  · subst hwritten
    have hcut := List.take_prefix ‹Nat› (backing.populate_pages size ++
      (write_region sha terms (snapshot_body frames)).steps)
    exact (htried.abandon (List.cons_prefix_cons.mpr ⟨rfl, hcut⟩) htaken).imp_right fun hx =>
      ⟨rfl, hx⟩
  · subst hwritten
    exact (htried.abandon List.prefix_rfl htaken).imp_right fun hx => ⟨rfl, hx⟩
  · subst hwritten
    exact .inl (htried taken htaken)

/-- What the writer has checked when it comes to the file. -/
theorem sizes_of_find? (hfind : new.find? (fun f => MAX_FRAME_SIZE < f.frame_size) = none) :
    ∀ f ∈ new, f.frame_size ≤ MAX_FRAME_SIZE := by
  intro f hf
  have hsmall := List.find?_eq_none.mp hfind f hf
  simpa using hsmall

/-- Wherever a rewrite stops, a read finds the old frames, a torn region or the new frames;
if it raises inside the region and lives to truncate it, no region is left. -/
theorem stops_rewrite (h : Finished sha terms region old) (new : List Frame)
    (fault : Option (Nat × SnapshotError)) {taken : List Step}
    (htaken : taken <+: (write_recovery_snapshot sha backing terms new fault).steps) :
    Unmistaken sha terms old new (run taken region) ∨
      ((write_recovery_snapshot sha backing terms new fault).raised.isSome ∧
        taken = (write_recovery_snapshot sha backing terms new fault).steps ∧
        run taken region = []) := by
  unfold write_recovery_snapshot at htaken ⊢
  split at htaken
  · -- A frame too large raises before the file is touched.
    rw [List.prefix_nil.mp htaken]
    exact .inl (.inl h.read)
  · rename_i hfind
    by_cases hnew : new = []
    · subst hnew
      have hempty : Throughout (Unmistaken sha terms old []) [.truncate 0] region := by
        refine throughout_cons.mpr ⟨.inl h.read, throughout_nil.mpr (.inr (.inr ?_))⟩
        rw [Step.apply, truncate_zero]
        rfl
      exact .inl (hempty taken htaken)
    · simp only [if_neg (snapshot_body_ne_nil hnew)] at htaken ⊢
      exact stops_snapshot_region h hnew (sizes_of_find? hfind) fault rfl htaken

/-- A rewrite that raises after it has touched the file leaves none of it. -/
theorem abandoned_rewrite (region : List UInt8) (new : List Frame)
    (fault : Option (Nat × SnapshotError)) {written : Rewrite}
    (hwritten : written = write_recovery_snapshot sha backing terms new fault)
    (hraised : written.raised.isSome) (hsteps : written.steps ≠ []) :
    run written.steps region = [] := by
  unfold write_recovery_snapshot at hwritten
  split at hwritten
  · subst hwritten
    exact absurd rfl hsteps
  · by_cases hbody : snapshot_body new = []
    · simp only [if_pos hbody] at hwritten
      subst hwritten
      cases hraised
    · simp only [if_neg hbody] at hwritten
      unfold snapshot_region at hwritten
      split at hwritten
      · subst hwritten
        rw [run_cons, run_append]
        exact truncate_zero _
      · subst hwritten
        rw [run_cons, run_append]
        exact truncate_zero _
      · subst hwritten
        cases hraised

/-- A rewrite that returns has finished the region, whatever was there. -/
theorem finished_rewrite (region : List UInt8) (new : List Frame)
    (fault : Option (Nat × SnapshotError))
    (hraised : (write_recovery_snapshot sha backing terms new fault).raised = none) :
    Finished sha terms
      (run (write_recovery_snapshot sha backing terms new fault).steps region) new := by
  unfold write_recovery_snapshot at hraised ⊢
  split at hraised
  · cases hraised
  · rename_i hfind
    by_cases hnew : new = []
    · subst hnew
      simp only [snapshot_body, List.flatMap_nil, if_true, run_cons, run_nil, Step.apply,
        truncate_zero]
      exact .absent
    · simp only [if_neg (snapshot_body_ne_nil hnew)] at hraised ⊢
      have hsize := backing.le_align (SNAPSHOT_HEADER_SIZE + (snapshot_body new).length)
      unfold snapshot_region at hraised ⊢
      generalize backing.align (SNAPSHOT_HEADER_SIZE + (snapshot_body new).length) = size at *
      split at hraised
      · cases hraised
      · cases hraised
      · have hlen := (throughout_populate_pages backing (fun _ => True)
          (show SNAPSHOT_HEADER_SIZE ≤ size by omega) (length_truncate size region) trivial
          fun _ _ => trivial).last.1
        rw [run_cons, run_append]
        exact finished_write_region hnew (sizes_of_find? hfind) hsize hlen ‹_›

end Rewriting

end Kvcr.Handback
