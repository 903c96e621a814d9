/-
`_RecoveryState`: what a Guard keeps of the primaries it outlives.

Recovered state is in up to three places: the mirror, the handback region at the end of
the pool file, and the frames of the journal nobody has read yet. The functions here move
it between them. Each returns what it raises as a value; a function that fails has often
changed something already, so the state is returned beside the outcome.

The journal is what `RecoveryJournal` makes of the ring: the frames published and not
read, in order, and whether the ring was invalidated. A reader that catches up with an
invalid journal raises.
-/
import Kvcr.RecoveryMirror

set_option autoImplicit false

namespace Kvcr.Guard

open Bytes Journal Handback

/-! ## Configuration -/

/-- `_compute_pool_geometry`. -/
def compute_pool_geometry (requested_bytes block_size_bytes : Nat) : Except String (Nat × Nat) :=
  if requested_bytes = 0 then .error "requested_bytes must be positive"
  else if block_size_bytes = 0 then .error "block_size_bytes must be positive"
  else
    let block_count := requested_bytes / block_size_bytes
    if block_count = 0 then
      .error ("requested_bytes must hold at least one complete KV block of " ++
        toString block_size_bytes ++ " bytes")
    else .ok (block_count * block_size_bytes, block_count)

/-- `_PoolDescriptor`. -/
structure PoolDescriptor where
  name : String
  size_bytes : Nat
  block_size_bytes : Nat
  offset_bytes : Nat
deriving DecidableEq

/-- `_PoolDescriptor.__post_init__`: what it raises. -/
def PoolDescriptor.refusal (pool : PoolDescriptor) : Option String :=
  match compute_pool_geometry pool.size_bytes pool.block_size_bytes with
  | .error message => some message
  | .ok _ => none

/-- `_G3Config`. -/
structure G3Config where
  paths : List String
  capacity_bytes_per_file : Nat
  backend : String
  backend_options : List (String × String)
deriving DecidableEq

/-- `_TierConfig`. -/
structure TierConfig where
  pool_layouts : List (String × Nat)
  g3 : Option G3Config
  remote_fw_dram_backend : String
deriving DecidableEq

/-- What a Guard is built over. -/
structure Setting where
  msgpack : Msgpack
  sha : Sha256
  backing : Backing
  /-- `canonical_pool_terms` of this Guard's digest and pool. -/
  canonical_pool_terms : List PoolDescriptor → List UInt8
  guard_index : Nat
  journal_bytes : Nat
  pool_sizes_bytes : List Nat

/-- Exceptions a Guard sees. -/
inductive GuardError where
  /-- `KVCRServiceError` -/
  | service (message : String)
  | value_error (message : String)
  /-- `RecoveryMirrorError` -/
  | mirror (message : String)
  /-- what reading or writing the region raised -/
  | snapshot (error : SnapshotError)
  | other (message : String)
deriving DecidableEq

def GuardError.of_recovery : RecoveryError → GuardError
  | .snapshot e => .snapshot e
  | .mirror message => .mirror message

/-! ## The state -/

/-- The reader's end of the journal. -/
structure JournalReader where
  unread : List Frame := []
  invalid : Bool := false

/-- `_RecoveryState`. -/
structure RecoveryState where
  pools : List PoolDescriptor := []
  mirror : Option RecoveryMirror := none
  g3_records : Dict BlockKey (G3Residency × Int) := Dict.empty
  /-- the tail of the pool file -/
  region : List UInt8 := []
  journal : JournalReader := {}

/-- `_without_g3`. -/
def without_g3 (records : Dict BlockKey Record) : Dict BlockKey Record :=
  records.filterMap fun r => if r.local_dram.isNone then none else some { r with g3 := none }

/-- `_with_g3`. -/
def with_g3 (records : Dict BlockKey Record) (g3_records : Dict BlockKey (G3Residency × Int)) :
    Dict BlockKey Record :=
  g3_records.entries.foldl (fun records (key, g3, position) =>
    match records.get? key with
    | none => records.set key { g3 := some g3, position := position }
    | some record => records.set key { record with g3 := some g3 }) records

namespace RecoveryState

variable (setting : Setting) (r : RecoveryState)

/-- The descriptors of a layout, from an offset on. -/
def descriptors : List Nat → List (String × Nat) → Nat → List PoolDescriptor
  | size_bytes :: sizes, (name, block_size_bytes) :: layouts, offset =>
    ⟨name, size_bytes, block_size_bytes, offset⟩ :: descriptors sizes layouts (offset + size_bytes)
  | _, _, _ => []

/-- `_RecoveryMirror(tuple(pool.name for pool in self.pools))`. -/
def fresh_mirror : RecoveryMirror := { pool_names := r.pools.map (·.name) }

/-- `configure`. -/
def configure (pool_layouts : List (String × Nat)) : Except GuardError Unit × RecoveryState :=
  if pool_layouts.length ≠ setting.pool_sizes_bytes.length then
    (.error (.value_error "pool layout must match the number of pools in the Guard"), r)
  else
    let pools := descriptors setting.pool_sizes_bytes pool_layouts setting.journal_bytes
    match pools.findSome? PoolDescriptor.refusal, r.mirror with
    -- The first pool that holds no complete block.
    | some message, _ => (.error (.value_error message), r)
    | none, some _ => (.ok (), { r with pools := pools })
    | none, none =>
      match read_handback setting.msgpack setting.sha (setting.canonical_pool_terms pools)
          (pools.map (·.name)) r.region with
      | (.error e, region) => (.error (.of_recovery e), { r with region := region })
      | (.ok mirror, region) =>
        (.ok (), { r with pools := pools, mirror := some mirror, region := region })

/-- `start_primary`. -/
def start_primary : RecoveryState :=
  { r with mirror := some (r.mirror.getD r.fresh_mirror), journal := {} }

/-- `_drop_recovery`. -/
def drop_recovery : RecoveryState := { r with mirror := none }

/-- One round of the loop of `poll`: `noticed` tells whether an invalidation is seen before
the next frame is read. -/
def poll_frame (noticed : Bool) : RecoveryState :=
  match r.mirror, r.journal.unread with
  | none, _ => r
  | some _, [] => if r.journal.invalid then r.drop_recovery else r
  | some mirror, frame :: unread =>
    if r.journal.invalid ∧ noticed then r.drop_recovery
    else
      match mirror.apply setting.msgpack frame with
      | .error _ => { r with journal.unread := unread }.drop_recovery
      | .ok mirror => { r with mirror := some mirror, journal.unread := unread }

/-- Apply everything the journal still holds. -/
def drain (mirror : RecoveryMirror) : Except GuardError RecoveryMirror :=
  match mirror.apply_all setting.msgpack r.journal.unread with
  | .error e => .error (.of_recovery e)
  | .ok mirror =>
    if r.journal.invalid then .error (.snapshot (.refused "the recovery journal is invalid"))
    else .ok mirror

/-- `take_for_promotion`. -/
def take_for_promotion : Dict BlockKey Record × RecoveryState :=
  let records :=
    match r.mirror with
    | none => Dict.empty
    | some mirror =>
      match r.drain setting mirror with
      | .error _ => Dict.empty
      | .ok mirror => mirror.records
  (records, { r with mirror := some r.fresh_mirror, journal.unread := [] })

/-- `prepare_to_serve`. -/
def prepare_to_serve (records : Dict BlockKey Record) : Dict BlockKey Record × RecoveryState :=
  (without_g3 records,
    { r with g3_records := records.filterMap fun record =>
        record.g3.map fun g3 => (g3, record.position) })

/-- `release_snapshot_region`. -/
def release_snapshot_region : RecoveryState := { r with region := truncate 0 r.region }

/-- `_write_handback`: what it raises, and the state with the region it leaves. -/
def write_handback (records : Dict BlockKey Record) (fault : Option (Nat × SnapshotError)) :
    Option SnapshotError × RecoveryState :=
  let rewrite := write_recovery_snapshot setting.sha setting.backing
    (setting.canonical_pool_terms r.pools) (recovery_frames setting.msgpack records) fault
  (rewrite.raised, { r with region := run rewrite.steps r.region })

/-- `hand_back`. -/
def hand_back (records : Dict BlockKey Record) (fault : Option (Nat × SnapshotError)) :
    Except GuardError Unit × RecoveryState :=
  let records := with_g3 records r.g3_records
  match r.write_handback setting records fault with
  | (none, r') =>
    (.ok (), { r' with
      mirror := r'.mirror.map fun mirror => mirror.adopt records
      g3_records := Dict.empty })
  | (some (.capacity _), r') => (.ok (), { r'.drop_recovery with g3_records := Dict.empty })
  | (some e, r') => (.error (.snapshot e), r')

/-- `release`. -/
def release (mirror : RecoveryMirror) (fault : Option (Nat × SnapshotError)) :
    Except GuardError Unit × RecoveryState :=
  match r.drain setting mirror with
  | .error _ => (.ok (), { r.drop_recovery with journal.unread := [] })
  | .ok drained =>
    match { r with journal.unread := [] }.write_handback setting drained.records fault with
    | (none, r') => (.ok (), r'.drop_recovery)
    | (some (.other e), r') =>
      (.error (.snapshot (.other e)),
        { r' with mirror := some { drained with records := Dict.empty } })
    -- A journal error or full storage leaves the pool claimable, but cold.
    | (some _, r') => (.ok (), r'.drop_recovery)

end RecoveryState

end Kvcr.Guard
