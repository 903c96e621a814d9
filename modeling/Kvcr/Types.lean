/-
The value types of the cache: block keys, descriptor labels, memory references,
tiers, results, and the configuration a core is built from.

Two types differ in form from the source and not in content. A descriptor label
is a string `pool` or `pool:part` there, taken apart with `partition(":")` at
every use; it is a pair here, with `part = none` when there is no colon (pool
names never contain one). A set of block keys or labels is an `OrderedSet`,
because iterating a set visits it in an order nobody promises: wherever the
source iterates one, the model asks the environment for the order.
-/
import Kvcr.Lib.Ordered

set_option autoImplicit false

namespace Kvcr

/-! ## Names -/

/-- `BlockKey`: opaque bytes. -/
structure BlockKey where
  bytes : List UInt8
deriving DecidableEq, Inhabited

/-- A descriptor label, `pool` or `pool:part`. -/
structure Label where
  pool : String
  part : Option String
deriving DecidableEq, Inhabited

/-- A clock reading, in milliseconds. -/
abbrev Time := Nat

/-- Handles of public operations count up from the seed, handles of internal fills
and copies count down from its negation. -/
abbrev OpHandle := Int

abbrev ReleaseHandle := Nat
abbrev RequestId := String
abbrev PinHandle := String
abbrev PinRequestId := Int

/-- `_OpId`: the kind of an operation and its number or key. -/
inductive OpId where
  | deposit (op_handle : OpHandle)
  | fetch (op_handle : OpHandle)
  | local_deliver (op_handle : OpHandle)
  | local_copy (handle : OpHandle)
  | g3_store (key : BlockKey)
  | g3_fill (op_handle : OpHandle)
  | g3_deliver (op_handle : OpHandle)
  | target (op_handle : OpHandle)
  | source (number : Nat)
deriving DecidableEq, Inhabited

/-- `op_id[0] == "fetch"`. -/
def OpId.is_fetch : OpId → Bool
  | .fetch _ => true
  | _ => false

inductive CacheTier where
  | FW_G1 | FW_G2 | LOCAL_G2 | REMOTE_G2 | G3
deriving DecidableEq, Inhabited

/-! ## Memory -/

/-- `MemoryRef`: one element in a named registered buffer. -/
structure MemoryRef where
  end_point_name : String
  label : Label
  element_index : Nat
deriving DecidableEq, Inhabited

/-- `_TransferRef`: an element in an agent's framework or KVCR-owned memory. -/
structure TransferRef where
  end_point_name : String
  element_index : Nat
  label : Label
  framework : Bool := true
deriving DecidableEq, Inhabited

/-- `_MemDescriptor`: raw memory addresses, or file offsets for `FILE`. -/
structure MemDescriptor where
  mem_type : String
  addr : Nat
  size : Nat
  device_Id : Nat
deriving DecidableEq, Inhabited

/-- `RegionDescriptor`: registered memory of `count` elements of one size. -/
structure RegionDescriptor where
  mem_type : String := "DRAM"
  device_Id : Nat := 0
  addr : Nat
  stride : Nat := 0
  count : Nat := 1
  size : Nat
  label : Label
deriving DecidableEq, Inhabited

/-! ## Results -/

inductive OpEntryStatus where
  | SUCCESS | DROPPED | FAILED
deriving DecidableEq, Inhabited

/-- `OpEntryResult`. -/
structure OpEntryResult where
  status : OpEntryStatus
  descriptors : Option (List MemoryRef) := none
  release_handle : Option ReleaseHandle := none
deriving DecidableEq, Inhabited

def OpEntryResult.success (r : OpEntryResult) : Bool := r.status = .SUCCESS

def SUCCESS_RESULT : OpEntryResult := { status := .SUCCESS }
def FAILED_RESULT : OpEntryResult := { status := .FAILED }
def DROPPED_RESULT : OpEntryResult := { status := .DROPPED }

/-- The entries of one operation. -/
abbrev Results := Dict BlockKey OpEntryResult

inductive QueryStatus where
  | HIT | FETCHING | FETCHABLE | MISS
deriving DecidableEq, Inhabited

/-! ## Policy vocabulary -/

inductive PlacementAction where
  | KEEP | DROP | COPY_TO | MOVE_TO
deriving DecidableEq, Inhabited

abbrev PlacementDecision := PlacementAction × Option CacheTier

/-- `BlockMeta`, what a policy is told about a block. -/
structure BlockMeta where
  block_key : BlockKey
  size_bytes : Nat
  access_count : Nat
  last_access : Option Time
  resident_tiers : List CacheTier
  position : Int := -1
deriving Inhabited

/-- A finite eviction score. Only comparisons are ever made with one. -/
abbrev Score := Int

/-- What a policy answers when it is asked for a score: a finite number; an exception or
something else; or an integer that no float can hold. -/
inductive ScoreAnswer where
  | number (score : Score)
  | invalid
  | too_large
deriving DecidableEq

/-! ## Exceptions -/

/-- Exceptions. `value_error` is the refusal of an argument; the others are
internal. -/
inductive Err where
  | value_error (message : String)
  | recovery_mirror_error (message : String)
  | runtime_error (message : String)
  | key_error
  | attribute_error
  | overflow_error
  | progress_failed
deriving DecidableEq, Inhabited

/-! ## Configuration -/

/-- `LocalDramOptions`: pool name, address and size in bytes. -/
structure LocalDramOptions where
  pools : List (String × Nat × Nat)
deriving Inhabited

/-- `G3Options`: how many files, and the budget of each. -/
structure G3Options where
  paths : Nat
  capacity_bytes_per_file : Nat
deriving Inhabited

/-- Everything a core is constructed from: `KVCRConfig`, the backend
configurations and which of the framework's bindings are present. -/
structure Config where
  nixl_agent_name : String
  pool_layouts : List (String × Nat)
  operation_timeout_ms : Nat := 1000
  abandon_timeout_ms : Nat := 5000
  capacity_low_watermark_percent : Nat := 0
  framework_regions : List RegionDescriptor := []
  local_dram : Option LocalDramOptions := none
  g3 : Option G3Options := none
  page_size : Nat := 4096
  eager_ctrl_connect : Bool := true
  opportunistic_query : Bool := false
  /-- a control channel is bound -/
  framework_control : Bool := false
  /-- the pin callbacks are bound -/
  framework_pinning : Bool := false
  inventory_sink : Bool := false
  capacity_needed_callback : Bool := false
  /-- `KeyAdapter.encode_to_router` -/
  key_adapter : Option (BlockKey → Nat) := none
  /-- a recovery journal is attached -/
  journal : Bool := false

namespace Config

/-- `_block_sizes.get(pool)`. -/
def block_size (cfg : Config) (pool : String) : Option Nat :=
  (cfg.pool_layouts.find? fun p => p.1 = pool).map Prod.snd

/-- The local DRAM pools with their slot size, `_regions`. -/
def regions (cfg : Config) : List (String × Nat × Nat × Nat) :=
  match cfg.local_dram with
  | none => []
  | some options => (options.pools.zip cfg.pool_layouts).map fun p =>
      (p.1.1, p.1.2.1, p.1.2.2, p.2.2)

/-- `length // slot_size` of one pool. -/
def slot_count (cfg : Config) (pool : String) : Nat :=
  match cfg.regions.find? fun p => p.1 = pool with
  | none => 0
  | some (_, _, length, slot_size) => length / slot_size

/-- The slot size of a pool, `_regions[pool][2]`. -/
def slot_size (cfg : Config) (pool : String) : Nat :=
  match cfg.regions.find? fun p => p.1 = pool with
  | none => 0
  | some (_, _, _, slot_size) => slot_size

/-- The G3 slot: the greatest common divisor of the block sizes. -/
def g3_slot_size (cfg : Config) : Nat :=
  (cfg.pool_layouts.map Prod.snd).foldr Nat.gcd 0

/-- `_total_slots`: complete slots of all files. -/
def g3_total_slots (cfg : Config) : Nat :=
  match cfg.g3 with
  | none => 0
  | some options => options.paths * (options.capacity_bytes_per_file / cfg.g3_slot_size)

/-- The registered regions of the local DRAM pools. -/
def memory_regions (cfg : Config) : List RegionDescriptor :=
  cfg.regions.map fun p =>
    { addr := p.2.1, count := p.2.2.1 / p.2.2.2, size := p.2.2.2, label := ⟨p.1, none⟩ }

/-- `_capacity_low_watermarks`: the percentage of each pool, rounded up. -/
def capacity_low_watermarks (cfg : Config) : List (String × Nat) :=
  cfg.regions.map fun p =>
    (p.1, (p.2.2.1 / p.2.2.2 * cfg.capacity_low_watermark_percent + 99) / 100)

/-- The capacity callback is dropped when no pool has a watermark. -/
def capacity_callback (cfg : Config) : Bool :=
  cfg.capacity_needed_callback && cfg.capacity_low_watermarks.any fun p => p.2 ≠ 0

/-- Grace between an operation's deadline and its abandonment. -/
def abandon_grace (cfg : Config) : Nat := cfg.abandon_timeout_ms - cfg.operation_timeout_ms

end Config

/-! ## Layouts -/

/-- `prepare_label_index`: each label's position, `None` when it repeats. -/
def prepare_label_index (layout : List Label) : Dict Label (Option Nat) :=
  layout.zipIdx.foldl
    (fun indices p => indices.set p.1 (if indices.contains p.1 then none else some p.2))
    Dict.empty

/-- `_layout_indices`: match full layouts or unambiguous pieces in the requested
order. -/
def layout_indices (layout requested : List Label)
    (indices_by_label : Option (Dict Label (Option Nat)) := none) : Option (List Nat) :=
  if layout = requested then
    some (List.range layout.length)
  else if requested = [] then
    none
  else if ¬ requested.Nodup then
    -- Repeated pools are positional: every occurrence, in layout order.
    let indices := (layout.zipIdx.filter fun p => p.1 ∈ requested).map Prod.snd
    if indices.map (fun i => layout.getD i default) = requested then some indices else none
  else
    match indices_by_label with
    | some table => requested.mapM fun label => (table.get? label).join
    | none =>
      if requested.any fun label => layout.count label ≠ 1 then none
      else some (requested.map fun label => layout.idxOf label)

end Kvcr
