/-
Recovered state and its two carriers.

A Guard that stands down leaves its records twice: as frames in the handback region, and
in its own mirror, which adopts the table it served in place. Here both are functions of
one record table. `recovery_frames`, the region and `read_handback` are the first;
`RecoveryMirror.adopt` is the second.

The two meet in the middle. Decoding an encoded projection gives `RecoveryBlock.record`,
a record built from the projection alone, and scrubbing a record in place gives that same
record up to the label index a residency caches. So the tables agree entry by entry, and
because a replay appends keys in the order the frames were written, they also agree in
order.

msgpack and SHA-256 are parameters: a codec that takes back what it produced, and a
digest of 32 bytes.
-/
import Kvcr.Base
import Kvcr.Handback
import Mathlib.Data.Countable.Basic
import Mathlib.Logic.Equiv.List
import Mathlib.Tactic.DeriveCountable

set_option autoImplicit false

namespace Kvcr

open Bytes Journal Handback

/-! ## Records as values -/

/-- `_block_record_map` as values. -/
def Core.records (s : Core) : Dict BlockKey Record :=
  s.block_record_map.filterMap fun record => some ((s.recs record).value s)

namespace Record

/-- `_is_recoverable`. -/
def is_recoverable (r : Record) : Bool := r.g3.isSome || r.local_dram.any (·.complete)

/-- What the loop of `adopt` leaves of a record. -/
def scrub (r : Record) : Record :=
  { fw_mem := none
    local_dram := r.local_dram.bind fun d =>
      if d.complete then
        some { d with
          pending_deposits := 0
          writers := none
          remote_indices := none
          remote_cancelled := false
          claim_count := 0
          source_readers := 0
          retire_on_release := false
          refs := none }
      else none
    g3 := r.g3.map fun g => { g with claim_count := 0 }
    in_flight_ops := OrderedSet.empty
    access_count := 0
    last_access := none
    position := r.position }

/-- A record without the label index its residency caches. -/
def uncached (r : Record) : Record :=
  { r with local_dram := r.local_dram.map fun d => { d with indices_by_label := none } }

end Record

/-! ## Payloads -/

/-- The msgpack codec of `_RecoveryBlock`. -/
structure Msgpack where
  encode : RecoveryBlock → List UInt8
  decode : List UInt8 → Option RecoveryBlock
  decode_encode : ∀ block, decode (encode block) = some block

instance countable_string : Countable String := by
  refine Function.Injective.countable (f := fun s : String => s.toList.map Char.toNat) ?_
  intro s t h
  exact String.toList_inj.mp ((List.map_injective_iff.mpr fun a b hab => Char.toNat_inj.mp hab) h)

deriving instance Countable for Label
deriving instance Countable for RecoveryBlock

/-- Codecs exist, with any payload for one block. -/
theorem exists_msgpack (block : RecoveryBlock) (payload : List UInt8) :
    ∃ msgpack : Msgpack, msgpack.encode block = payload := by
  classical
  obtain ⟨number, hnumber⟩ := exists_injective_nat RecoveryBlock
  let encode (b : RecoveryBlock) : List UInt8 :=
    if b = block then payload else payload ++ List.replicate (number b + 1) 0
  have hinj : Function.Injective encode := by
    intro a b hab
    have hlen := congrArg List.length hab
    by_cases ha : a = block <;> by_cases hb : b = block <;> simp [encode, ha, hb] at hlen
    · rw [ha, hb]
    · exact hnumber hlen
  let decode (bytes : List UInt8) : Option RecoveryBlock :=
    if h : ∃ b, encode b = bytes then some h.choose else none
  have hdecode : ∀ b, decode (encode b) = some b := by
    intro b
    have h : ∃ b', encode b' = encode b := ⟨b, rfl⟩
    simp only [decode]
    rw [dif_pos h, hinj h.choose_spec]
  exact ⟨{ encode := encode, decode := decode, decode_encode := hdecode }, if_pos rfl⟩

/-- The constraints the decoder checks: no empty location list, no position below -1. -/
def RecoveryBlock.valid (b : RecoveryBlock) : Bool :=
  b.g2 ≠ some [] && b.g3.all (fun g => g.1 ≠ [] && g.2 ≠ []) && -1 ≤ b.position

/-- The label loops of `_decode_recovery_record`, with the labels seen so far. -/
def labels_match (pool_names : List String) : List Label → List Label → Bool
  | [], _ => true
  | label :: rest, labels =>
    if label.pool ∉ pool_names ∨ (label.part.isSome ∧ (label.bad_part ∨ label ∈ labels)) then false
    else labels_match pool_names rest (label :: labels)

/-- The record a decoded block stands for. -/
def RecoveryBlock.record (b : RecoveryBlock) : Record :=
  { local_dram := b.g2.map fun slots =>
      { slots := slots, state := .READY, key_layout := slots.map Prod.fst }
    g3 := b.g3.map fun g => { layout := g.1, slots := g.2 }
    position := b.position }

/-- `_decode_recovery_record`. -/
def decode_recovery_record (msgpack : Msgpack) (payload : List UInt8) (pool_names : List String) :
    Except String Record :=
  match (msgpack.decode payload).filter RecoveryBlock.valid with
  | none => .error "msgspec.DecodeError"
  | some recovered =>
    if ¬ recovered.g3.all fun g => labels_match pool_names g.1 [] then
      .error "G3 recovery layout does not match the pool group"
    else if ¬ labels_match pool_names ((recovered.g2.getD []).map Prod.fst) [] then
      .error "G2 recovery location does not match the pool group"
    else .ok recovered.record

/-! ## The mirror -/

/-- What replaying recovered state may raise. -/
inductive RecoveryError where
  | snapshot (error : SnapshotError)
  | mirror (message : String)
deriving DecidableEq

/-- `_RecoveryMirror`. -/
structure RecoveryMirror where
  pool_names : List String
  records : Dict BlockKey Record := Dict.empty

namespace RecoveryMirror

/-- `apply` of a block frame. -/
def apply (msgpack : Msgpack) (m : RecoveryMirror) (f : Frame) :
    Except RecoveryError RecoveryMirror :=
  match decode_recovery_record msgpack f.payload m.pool_names with
  | .error _ => .error (.mirror "recovery record is malformed")
  | .ok record =>
    if record.local_dram.isNone ∧ record.g3.isNone then
      .ok { m with records := m.records.erase ⟨f.key⟩ }
    else .ok { m with records := m.records.set ⟨f.key⟩ record }

/-- `adopt`. -/
def adopt (m : RecoveryMirror) (records : Dict BlockKey Record) : RecoveryMirror :=
  { m with records := records.filterMap fun record =>
      if record.scrub.is_recoverable then some record.scrub else none }

/-- Apply frames one after the other. -/
def apply_all (msgpack : Msgpack) (m : RecoveryMirror) (frames : List Frame) :
    Except RecoveryError RecoveryMirror := frames.foldlM (apply msgpack) m

end RecoveryMirror

/-- The entries of a table that can be recovered. -/
def recoverable_entries (records : Dict BlockKey Record) : List (BlockKey × Record) :=
  records.entries.filter fun p => p.2.is_recoverable

/-- `_recovery_frames`. -/
def recovery_frames (msgpack : Msgpack) (records : Dict BlockKey Record) : List Frame :=
  (recoverable_entries records).map fun p =>
    { key := p.1.bytes, payload := msgpack.encode p.2.project }

/-- `read_handback`: the mirror, or what was raised, and the region afterwards. -/
def read_handback (msgpack : Msgpack) (sha : Sha256) (terms : List UInt8)
    (pool_names : List String) (region : List UInt8) :
    Except RecoveryError RecoveryMirror × List UInt8 :=
  let replay := read_recovery_snapshot sha terms region
  match RecoveryMirror.apply_all msgpack { pool_names := pool_names } replay.frames with
  | .error e => (.error e, region)
  | .ok mirror =>
    match replay.raised with
    | none => (.ok mirror, region)
    | some (.torn _) => (.ok { pool_names := pool_names }, truncate 0 region)
    | some e => (.error (.snapshot e), region)

/-! ## Decoding an encoded projection -/

/-- The records a core's table holds: complete residencies and disk residencies have the
labels of configured pools, as every layout the core accepts does. -/
structure Record.Holdable (pool_names : List String) (r : Record) : Prop where
  local_dram : ∀ d ∈ r.local_dram, d.complete →
    d.slots ≠ [] ∧ d.key_layout = d.slots.map Prod.fst ∧
      labels_match pool_names (d.slots.map Prod.fst) []
  g3 : ∀ g ∈ r.g3, g.layout ≠ [] ∧ g.slots ≠ [] ∧ labels_match pool_names g.layout []
  position : -1 ≤ r.position

section Decode

variable {msgpack : Msgpack} {pool_names : List String} {r : Record}

theorem Record.Holdable.valid (h : r.Holdable pool_names) : r.project.valid = true := by
  rw [RecoveryBlock.valid, Bool.and_eq_true, Bool.and_eq_true, decide_eq_true_iff,
    decide_eq_true_iff]
  refine ⟨⟨?_, ?_⟩, h.position⟩
  · cases hd : r.local_dram with
    | none => simp [Record.project, hd]
    | some d =>
      by_cases hcomplete : d.complete = true
      · simpa [Record.project, hd, hcomplete] using (h.local_dram d hd hcomplete).1
      · simp [Record.project, hd, hcomplete]
  · cases hg : r.g3 with
    | none => simp [Record.project, hg]
    | some g =>
      obtain ⟨hlayout, hslots, -⟩ := h.g3 g hg
      simp [Record.project, hg, hlayout, hslots]

/-- A projection survives encoding and decoding. -/
theorem decode_encode_project (h : r.Holdable pool_names) :
    decode_recovery_record msgpack (msgpack.encode r.project) pool_names =
      .ok r.project.record := by
  have hdisk : r.project.g3.all (fun g => labels_match pool_names g.1 []) = true := by
    cases hg : r.g3 with
    | none => simp [Record.project, hg]
    | some g => simpa [Record.project, hg] using (h.g3 g hg).2.2
  have hlocal : labels_match pool_names ((r.project.g2.getD []).map Prod.fst) [] = true := by
    cases hd : r.local_dram with
    | none => simp [Record.project, hd, labels_match]
    | some d =>
      by_cases hcomplete : d.complete = true
      · simpa [Record.project, hd, hcomplete] using (h.local_dram d hd hcomplete).2.2
      · simp [Record.project, hd, hcomplete, labels_match]
  rw [decode_recovery_record, msgpack.decode_encode, Option.filter_some_pos h.valid]
  simp only [hdisk, hlocal, not_true_eq_false, if_false]

/-- Rebuilding a record from its projection and scrubbing it in place come to the same. -/
theorem Record.uncached_project_record (h : r.Holdable pool_names) :
    r.project.record.uncached = r.scrub.uncached := by
  have hlocal : r.project.record.uncached.local_dram = r.scrub.uncached.local_dram := by
    cases hd : r.local_dram with
    | none => simp [Record.project, RecoveryBlock.record, Record.uncached, Record.scrub, hd]
    | some d =>
      by_cases hcomplete : d.complete = true
      · -- Only the layout, the state and the pending labels are kept, and they are known.
        have hlayout := (h.local_dram d hd hcomplete).2.1
        have hready : d.state = .READY ∧ d.pending_labels = OrderedSet.empty := by
          simp only [LocalDramResidency.complete, Bool.and_eq_true, decide_eq_true_eq,
            List.isEmpty_iff] at hcomplete
          exact ⟨hcomplete.1, OrderedSet.ext_elems hcomplete.2⟩
        simp [Record.project, RecoveryBlock.record, Record.uncached, Record.scrub, hd, hcomplete,
          hlayout, hready]
      · simp [Record.project, RecoveryBlock.record, Record.uncached, Record.scrub, hd, hcomplete]
  have hdisk : r.project.record.uncached.g3 = r.scrub.uncached.g3 := by
    cases hg : r.g3 <;>
      simp [Record.project, RecoveryBlock.record, Record.uncached, Record.scrub, hg]
  have hrest : ∀ a b : Record, a.local_dram = b.local_dram → a.g3 = b.g3 → a.fw_mem = b.fw_mem →
      a.in_flight_ops = b.in_flight_ops → a.access_count = b.access_count →
      a.last_access = b.last_access → a.position = b.position → a = b := by
    rintro ⟨⟩ ⟨⟩ rfl rfl rfl rfl rfl rfl rfl
    rfl
  exact hrest _ _ hlocal hdisk rfl rfl rfl rfl rfl

/-- Scrubbing does not change what is recoverable. -/
theorem Record.is_recoverable_scrub (r : Record) : r.scrub.is_recoverable = r.is_recoverable := by
  have hlocal : r.scrub.local_dram.any (·.complete) = r.local_dram.any (·.complete) := by
    cases hd : r.local_dram with
    | none => simp [Record.scrub, hd]
    | some d =>
      by_cases hcomplete : d.complete = true
      · have hsame : LocalDramResidency.complete
            { d with
              pending_deposits := 0, writers := none, remote_indices := none,
              remote_cancelled := false, claim_count := 0, source_readers := 0,
              retire_on_release := false, refs := none } = d.complete := rfl
        simp [Record.scrub, hd, hcomplete, hsame]
      · simp [Record.scrub, hd, hcomplete]
  rw [Record.is_recoverable, Record.is_recoverable, hlocal]
  simp [Record.scrub]

/-- A recoverable record does not read as a tombstone. -/
theorem Record.not_tombstone (hr : r.is_recoverable = true) :
    ¬ (r.project.record.local_dram.isNone ∧ r.project.record.g3.isNone) := by
  rintro ⟨hlocal, hdisk⟩
  have hg : r.g3 = none := by
    simpa [Record.project, RecoveryBlock.record] using hdisk
  cases hd : r.local_dram with
  | none => simp [Record.is_recoverable, hg, hd] at hr
  | some d =>
    have hcomplete : d.complete = true := by simpa [Record.is_recoverable, hg, hd] using hr
    simp [Record.project, RecoveryBlock.record, hd, hcomplete] at hlocal

end Decode

/-! ## The two carriers -/

section Carriers

variable {msgpack : Msgpack} {pool_names : List String}

/-- The frame of an entry sets the entry's canonical record. -/
theorem RecoveryMirror.apply_entry {m : RecoveryMirror} {key : BlockKey} {r : Record}
    (h : r.Holdable m.pool_names) (hr : r.is_recoverable = true) :
    m.apply msgpack { key := key.bytes, payload := msgpack.encode r.project } =
      .ok { m with records := m.records.set key r.project.record } := by
  rw [RecoveryMirror.apply, decode_encode_project h]
  simp only [if_neg (Record.not_tombstone hr)]

/-- Frames of distinct keys append their entries. -/
theorem RecoveryMirror.apply_all_entries (msgpack : Msgpack) (entries : List (BlockKey × Record))
    (m : RecoveryMirror)
    (hnodup : (m.records.keys ++ entries.map Prod.fst).Nodup)
    (hold : ∀ p ∈ entries, p.2.Holdable m.pool_names)
    (hr : ∀ p ∈ entries, p.2.is_recoverable = true) :
    ∃ replayed : RecoveryMirror,
      m.apply_all msgpack (entries.map fun p =>
        { key := p.1.bytes, payload := msgpack.encode p.2.project }) = .ok replayed ∧
      replayed.pool_names = m.pool_names ∧
      replayed.records.entries =
        m.records.entries ++ entries.map fun p => (p.1, p.2.project.record) := by
  induction entries generalizing m with
  | nil => exact ⟨m, rfl, rfl, (List.append_nil _).symm⟩
  | cons p entries ih =>
    have hnew : p.1 ∉ m.records.keys := by
      intro hmem
      exact List.disjoint_of_nodup_append hnodup hmem (by simp)
    have hset := Dict.entries_set_of_notMem hnew p.2.project.record
    obtain ⟨replayed, hall, hnames, hentries⟩ := ih
      { m with records := m.records.set p.1 p.2.project.record }
      (by rw [Dict.keys, hset]; simpa [Dict.keys] using hnodup)
      (fun q hq => hold q (List.mem_cons_of_mem _ hq))
      (fun q hq => hr q (List.mem_cons_of_mem _ hq))
    refine ⟨replayed, ?_, hnames, ?_⟩
    · rw [List.map_cons, RecoveryMirror.apply_all, List.foldlM_cons,
        RecoveryMirror.apply_entry (hold p (by simp)) (hr p (by simp))]
      exact hall
    · rw [hentries, hset]
      simp

theorem mem_recoverable_entries {records : Dict BlockKey Record} {p : BlockKey × Record} :
    p ∈ recoverable_entries records ↔ p ∈ records.entries ∧ p.2.is_recoverable = true := by
  rw [recoverable_entries, List.mem_filter]

/-- Among the keys of a table, those of the recoverable records. -/
theorem key_mem_recoverable {records : Dict BlockKey Record} {p : BlockKey × Record}
    (hp : p ∈ records.entries) :
    p.1 ∈ (recoverable_entries records).map Prod.fst ↔ p.2.is_recoverable = true := by
  constructor
  · intro hmem
    obtain ⟨q, hq, hkey⟩ := List.mem_map.mp hmem
    obtain ⟨hentry, hr⟩ := mem_recoverable_entries.mp hq
    rwa [← List.inj_on_of_nodup_map records.nodup hentry hp hkey]
  · intro hr
    exact List.mem_map_of_mem (mem_recoverable_entries.mpr ⟨hp, hr⟩)

/-- Adoption keeps the recoverable entries, scrubbed. -/
theorem RecoveryMirror.entries_adopt (m : RecoveryMirror) (records : Dict BlockKey Record) :
    (m.adopt records).records.entries =
      (recoverable_entries records).map fun p => (p.1, p.2.scrub) := by
  simp only [RecoveryMirror.adopt, Dict.filterMap, Record.is_recoverable_scrub,
    recoverable_entries]
  induction records.entries with
  | nil => rfl
  | cons p entries ih =>
    rw [List.filterMap_cons, List.filter_cons, ih]
    by_cases hr : p.2.is_recoverable = true <;> simp [hr]

/-- A replay of the frames of a table keeps the recoverable entries, rebuilt. -/
theorem RecoveryMirror.apply_all_recovery_frames (msgpack : Msgpack)
    {records : Dict BlockKey Record}
    (hold : ∀ p ∈ records.entries, p.2.Holdable pool_names) :
    ∃ replayed : RecoveryMirror,
      RecoveryMirror.apply_all msgpack { pool_names := pool_names }
        (recovery_frames msgpack records) = .ok replayed ∧
      replayed.records.entries =
        (recoverable_entries records).map fun p => (p.1, p.2.project.record) := by
  have hnodup : ((recoverable_entries records).map Prod.fst).Nodup :=
    records.nodup.sublist (List.filter_sublist.map _)
  obtain ⟨replayed, hall, -, hentries⟩ := RecoveryMirror.apply_all_entries msgpack
    (recoverable_entries records) { pool_names := pool_names } hnodup
    (fun p hp => hold p (mem_recoverable_entries.mp hp).1)
    (fun p hp => (mem_recoverable_entries.mp hp).2)
  exact ⟨replayed, hall, hentries⟩

/-- What replaying a written table gives, and what adopting it gives, are the same. -/
theorem replayed_eq_adopted (msgpack : Msgpack) (sha : Sha256) (backing : Backing)
    (terms region : List UInt8) {records : Dict BlockKey Record}
    {fault : Option (Nat × SnapshotError)} (m : RecoveryMirror)
    (hold : ∀ p ∈ records.entries, p.2.Holdable pool_names)
    (hwritten : (write_recovery_snapshot sha backing terms (recovery_frames msgpack records)
      fault).raised = none) :
    ∃ replayed : RecoveryMirror,
      read_handback msgpack sha terms pool_names
          (run (write_recovery_snapshot sha backing terms (recovery_frames msgpack records)
            fault).steps region) =
        (.ok replayed, run (write_recovery_snapshot sha backing terms
          (recovery_frames msgpack records) fault).steps region) ∧
      replayed.records.entries =
        (recoverable_entries records).map (fun p => (p.1, p.2.project.record)) ∧
      (replayed.records.entries.map fun p => (p.1, p.2.uncached)) =
        (m.adopt records).records.entries.map fun p => (p.1, p.2.uncached) := by
  obtain ⟨replayed, hall, hentries⟩ :=
    RecoveryMirror.apply_all_recovery_frames msgpack hold
  refine ⟨replayed, ?_, hentries, ?_⟩
  · simp only [read_handback, (finished_rewrite region _ fault hwritten).read, hall]
  · rw [hentries, RecoveryMirror.entries_adopt, List.map_map, List.map_map]
    refine List.map_congr_left fun p hp => ?_
    have hp := hold p (mem_recoverable_entries.mp hp).1
    exact congrArg (Prod.mk p.1) (Record.uncached_project_record hp)

/-- The two carriers agree. Writing the frames of a table over any old region and replaying
the region under the same terms gives the table adoption in place gives: the same keys in the
same order with the same records. Decoding an encoded projection gives the canonical record,
and the keys kept are those of the recoverable records. -/
theorem carriers_agree (msgpack : Msgpack) (sha : Sha256) (backing : Backing)
    (terms region : List UInt8) (pool_names : List String) (records : Dict BlockKey Record)
    (hold : ∀ p ∈ records.entries, p.2.Holdable pool_names)
    (hwritten : (write_recovery_snapshot sha backing terms (recovery_frames msgpack records)
      none).raised = none) :
    let written := run (write_recovery_snapshot sha backing terms
      (recovery_frames msgpack records) none).steps region
    let adopted := (RecoveryMirror.adopt { pool_names := pool_names } records).records
    ∃ replayed : RecoveryMirror,
      read_handback msgpack sha terms pool_names written = (.ok replayed, written) ∧
      (replayed.records.entries.map fun p => (p.1, p.2.uncached)) =
        (adopted.entries.map fun p => (p.1, p.2.uncached)) ∧
      (∀ p ∈ records.entries, decode_recovery_record msgpack (msgpack.encode p.2.project)
          pool_names = .ok p.2.project.record ∧
        p.2.project.record.uncached = p.2.scrub.uncached) ∧
      (∀ p ∈ records.entries, (p.1 ∈ replayed.records.keys ↔ p.2.is_recoverable = true) ∧
        (p.1 ∈ adopted.keys ↔ p.2.is_recoverable = true)) := by
  intro written adopted
  obtain ⟨replayed, hread, hentries, hsame⟩ := replayed_eq_adopted msgpack sha backing terms region
    { pool_names := pool_names } hold hwritten
  have hadopted : adopted.entries = (recoverable_entries records).map fun p => (p.1, p.2.scrub) :=
    RecoveryMirror.entries_adopt _ records
  refine ⟨replayed, hread, hsame, ?_, ?_⟩
  · exact fun p hp =>
      ⟨decode_encode_project (hold p hp), Record.uncached_project_record (hold p hp)⟩
  · intro p hp
    rw [Dict.keys, Dict.keys, hentries, hadopted, List.map_map, List.map_map]
    exact ⟨key_mem_recoverable hp, key_mem_recoverable hp⟩

/-- A record with one residency in the pool `full`. -/
def served_record (slot : Nat) (state : LocalDramState) : Record :=
  { local_dram := some
      { slots := [(⟨"full", none⟩, slot)]
        state := state
        key_layout := [⟨"full", none⟩]
        claim_count := 2
        source_readers := 2 } }

theorem carriers_agree_served :
    let records : Dict BlockKey Record :=
      ⟨[(⟨[1]⟩, served_record 0 .READY), (⟨[2]⟩, served_record 1 .DISCARDING)], by decide⟩
    (∀ p ∈ records.entries, p.2.Holdable ["full"]) ∧
    ∃ (msgpack : Msgpack) (replayed : RecoveryMirror) (written : List UInt8),
      read_handback msgpack Sha256.zero [] ["full"] written = (.ok replayed, written) ∧
      (replayed.records.entries.map fun p => (p.1, p.2.uncached)) =
        ((RecoveryMirror.adopt { pool_names := ["full"] } records).records.entries.map
          fun p => (p.1, p.2.uncached)) := by
  intro records
  have hold : ∀ p ∈ records.entries, p.2.Holdable ["full"] := by
    intro p hp
    simp only [records, List.mem_cons, List.not_mem_nil, or_false] at hp
    rcases hp with rfl | rfl
    · exact ⟨by simp [served_record, labels_match], by simp [served_record],
        by simp [served_record]⟩
    · exact ⟨by simp [served_record, LocalDramResidency.complete], by simp [served_record],
        by simp [served_record]⟩
  obtain ⟨msgpack, hpayload⟩ := exists_msgpack (served_record 0 .READY).project []
  have hframes : recovery_frames msgpack records = [{ key := [1], payload := [] }] := by
    have hkept : recoverable_entries records = [(⟨[1]⟩, served_record 0 .READY)] := rfl
    rw [recovery_frames, hkept, List.map_singleton, hpayload]
  have hwritten : (write_recovery_snapshot Sha256.zero Backing.plain []
      (recovery_frames msgpack records) none).raised = none := by
    rw [hframes]
    rfl
  obtain ⟨replayed, hread, hsame, -⟩ := carriers_agree msgpack Sha256.zero Backing.plain [] []
    ["full"] records hold hwritten
  exact ⟨hold, msgpack, replayed, _, hread, hsame⟩

end Carriers

/-! ## An interrupted handback -/

/-- A torn region is discarded. -/
theorem read_handback_torn {msgpack : Msgpack} {sha : Sha256} {terms region : List UInt8}
    {pool_names : List String} {message : String}
    (h : read_recovery_snapshot sha terms region = .fail (.torn message)) :
    read_handback msgpack sha terms pool_names region =
      (.ok { pool_names := pool_names }, []) := by
  rw [read_handback, h]
  simp only [Replay.fail, RecoveryMirror.apply_all, List.foldlM_nil, truncate_zero]
  rfl

/-- An interrupted rewrite is never mistaken. From any region that a rewrite finished under
these terms, or none, and for any new frames: wherever the writer stops, a later read under
the same terms replays exactly the old frames, or finds the region torn and discards it, or
replays exactly the new frames. An exception inside the region, with the truncation that
follows it, leaves no region. -/
theorem interrupted_rewrite (msgpack : Msgpack) (sha : Sha256) (backing : Backing)
    (terms region : List UInt8) (pool_names : List String) (old new : List Frame)
    (fault : Option (Nat × SnapshotError)) (taken : List Step)
    (hold : Finished sha terms region old)
    (htaken : taken <+: (write_recovery_snapshot sha backing terms new fault).steps) :
    let rewrite := write_recovery_snapshot sha backing terms new fault
    let left := run taken region
    (read_recovery_snapshot sha terms left = { frames := old } ∨
      (∃ message, read_recovery_snapshot sha terms left = .fail (.torn message) ∧
        read_handback msgpack sha terms pool_names left = (.ok { pool_names := pool_names }, [])) ∨
      read_recovery_snapshot sha terms left = { frames := new } ∨
      (rewrite.raised.isSome ∧ taken = rewrite.steps ∧ left = [])) ∧
    (rewrite.raised.isSome → rewrite.steps ≠ [] → run rewrite.steps region = []) := by
  intro rewrite left
  refine ⟨?_, abandoned_rewrite region new fault rfl⟩
  rcases stops_rewrite hold new fault htaken with (hread | ⟨message, hread⟩ | hread) | hgone
  · exact .inl hread
  · exact .inr (.inl ⟨message, hread, read_handback_torn hread⟩)
  · exact .inr (.inr (.inl hread))
  · exact .inr (.inr (.inr hgone))

/-- A region of one block, rewritten for another block up to the header: the old block is
gone and the new one is not there, so the region is torn. -/
theorem interrupted_rewrite_torn :
    let old : Frame := { key := [1], payload := [] }
    let new : Frame := { key := [2], payload := [3] }
    let rewrite (f : Frame) := write_recovery_snapshot Sha256.zero Backing.plain [] [f] none
    let region := run (rewrite old).steps []
    let left := run ((rewrite new).steps.take 3) region
    Finished Sha256.zero [] region [old] ∧
      read_recovery_snapshot Sha256.zero [] region = { frames := [old] } ∧
      ∃ (msgpack : Msgpack) (message : String),
        read_recovery_snapshot Sha256.zero [] left = .fail (.torn message) ∧
        read_handback msgpack Sha256.zero [] ["full"] left =
          (.ok { pool_names := ["full"] }, []) := by
  intro old new rewrite region left
  have hold : Finished Sha256.zero [] region [old] := finished_rewrite [] [old] none rfl
  obtain ⟨msgpack, -⟩ := exists_msgpack {} []
  refine ⟨hold, hold.read, msgpack, ?_⟩
  have hread : read_recovery_snapshot Sha256.zero [] left =
      .fail (.torn "handback region is unfinished") :=
    read_zero_header (by decide) (by decide)
  have hfull (frames : List Frame) :
      read_recovery_snapshot Sha256.zero [] left ≠ { frames := frames } := by
    rw [hread]
    exact fun h => nomatch congrArg Replay.raised h
  have hstops := (interrupted_rewrite msgpack Sha256.zero Backing.plain [] region ["full"] [old]
    [new] none _ hold (List.take_prefix 3 _)).1
  rcases hstops with hkept | htorn | hmade | ⟨hraised, -⟩
  · exact absurd hkept (hfull [old])
  · exact htorn
  · exact absurd hmade (hfull [new])
  · exact absurd hraised (by decide)

end Kvcr
