/-
The state of a core, what it asks its environment, and what it logs.

The source is a graph of mutable objects on one thread. Objects whose identity
matters (a block record held in a local variable while the table changes, the
residency a claim names, an operation that has already completed) live in heaps
and are referred to by number; everything else is a value in the state. A function
of the source is a program over this state: it may raise, and it may run out of the
fuel that bounds its re-entry.

Whatever the code does not decide itself it asks for: the clock, the policy, the
order in which a set is visited, what the progress thread does while a lock is
free, whether a submission fails. The answers are functions of a counter that every
question advances, so one environment fixes one run and a theorem about every
environment is a theorem about every policy, every schedule and every native
outcome.

The log is the run as an observer sees it. Each entry is an act together with the
state it was taken in, so "at the moment the slots were given back, nobody held
them" is a statement about log entries, and a crash is a prefix of the log.
-/
import Kvcr.Lib.Prog
import Kvcr.Policy
import Mathlib.Logic.Function.Basic

set_option autoImplicit false

namespace Kvcr

/-! ## Residencies and records -/

abbrev ResId := Nat
abbrev G3Id := Nat
abbrev RecId := Nat

inductive LocalDramState where
  | FILLING | READY | DISCARDING
deriving DecidableEq, Inhabited

/-- `_LocalDramResidency`. `pending_labels` is `None` or a set in the source and
both empty forms mean that nothing is pending; `refs` is the published tuple, the
sparse cache before publication holding nothing but `_descriptor(*slots[i])`. -/
structure LocalDramResidency where
  /-- full descriptor label and parent-pool slot -/
  slots : List (Label × Nat)
  state : LocalDramState
  claim_count : Nat := 0
  retire_on_release : Bool := false
  key_layout : List Label
  pending_labels : OrderedSet Label := OrderedSet.empty
  pending_deposits : Int := 0
  writers : Option (List Int) := none
  remote_indices : Option (List Nat) := none
  remote_cancelled : Bool := false
  refs : Option (List TransferRef) := none
  indices_by_label : Option (Dict Label (Option Nat)) := none
  /-- includes completed reads awaiting access accounting -/
  source_readers : Nat := 0
deriving Inhabited

/-- `_G3Residency`. -/
structure G3Residency where
  layout : List Label
  slots : List Nat
  claim_count : Nat := 0
deriving Inhabited, DecidableEq

/-- `_FwMemResidency`. -/
structure FwMemResidency where
  descriptors : List TransferRef
  pin_handle : PinHandle
deriving Inhabited

/-- `_BlockRecord`. -/
structure BlockRecord where
  fw_mem : Option FwMemResidency := none
  local_dram : Option ResId := none
  g3 : Option G3Id := none
  in_flight_ops : OrderedSet OpId := OrderedSet.empty
  access_count : Nat := 0
  last_access : Option Time := none
  position : Int := -1
deriving Inhabited

/-! ## Operations -/

/-- `_PendingResidencyOp`: a deposit or a fetch. -/
structure PendingResidencyOp where
  op_id : OpId
  keys : OrderedSet BlockKey
  deadline : Time
  claim_on_ready : Bool
  request_id : Option RequestId := none
  results : Results := Dict.empty
  remote_fill_keys : OrderedSet BlockKey := OrderedSet.empty
  capacity_waiters : OrderedSet BlockKey := OrderedSet.empty
  sources : Option (Dict BlockKey (List TransferRef)) := none
  active_keys : OrderedSet BlockKey := OrderedSet.empty
  requested_layout : List Label := []
  key_layout : Option (List Label) := none
  fill_sources : Dict BlockKey CacheTier := Dict.empty
  claimed_keys : OrderedSet BlockKey := OrderedSet.empty
deriving Inhabited

/-- `_PendingDeliverOp`. -/
structure PendingDeliverOp where
  op_id : OpId
  keys : OrderedSet BlockKey
  deadline : Time
  destinations : Dict BlockKey (List TransferRef)
  results : Results := Dict.empty
  active_keys : OrderedSet BlockKey := OrderedSet.empty
  claimed_keys : OrderedSet BlockKey := OrderedSet.empty
deriving Inhabited

/-- `_LocalCopyOp`. -/
structure LocalCopyOp where
  handle : OpHandle
  deliver_op_id : Option OpId
  ordered_keys : List BlockKey
  local_indices : List (List Nat)
  src_descriptors : List TransferRef
  dst_descriptors : List TransferRef
  deadline : Time
  abandon_deadline : Time
  transfer_id : Option Nat := none
  success : Bool := false
  failure_latched : Bool := false
  uncertain : Bool := false
  deposit_op : Option OpId := none
deriving Inhabited

inductive G3Kind where
  | store | fill | deliver
deriving DecidableEq, Inhabited

/-- `_G3TransferOp`. `blocks` are the references the memory descriptors were made
from, kept for the log. -/
structure G3TransferOp where
  op_id : OpId
  keys : OrderedSet BlockKey
  kind : G3Kind
  ordered_keys : List BlockKey
  memory_descriptors : List MemDescriptor
  file_descriptors : List MemDescriptor
  deadline : Time
  reservations : List (BlockKey × G3Id) := []
  claims : List (BlockKey × G3Id) := []
  memory_refs : List TransferRef := []
  lifecycle_handle : Option OpHandle := none
  abandon_deadline : Option Time := none
  uncertain : Bool := false
  transfer_id : Option Nat := none
  failure_latched : Bool := false
  success : Bool := false
  blocks : Dict BlockKey (List TransferRef) := Dict.empty
deriving Inhabited

inductive TargetPullState where
  | START_WRITE | WAITING_WRITE_DONE | WAITING_TERMINAL | QUARANTINED | FINISHED
deriving DecidableEq, Inhabited

/-- `_TargetPullOp`. -/
structure TargetPullOp where
  op_handle : OpHandle
  /-- also the remembered misses -/
  keys : OrderedSet BlockKey
  deadline : Time
  state : TargetPullState
  local_fill : Bool
  remote_ctrl_ep : String
  /-- the keys sent to the source -/
  ordered_keys : List BlockKey := []
  dst_descriptors : List (List TransferRef) := []
  request_id : Option RequestId := none
  key_layout : List Label := []
  success : Bool := false
  completed_keys : OrderedSet BlockKey := OrderedSet.empty
  probe_sent : Bool := false
  source_incarnation : Option String := none
  uncertain : Bool := false
  retried : Bool := false
deriving Inhabited

inductive SourceWriteState where
  | READY_TO_WRITE | NOTIFY_FAILURE | WRITING | CANCEL_PENDING | FINISHED
deriving DecidableEq, Inhabited

/-- `_SourceWriteOp`. -/
structure SourceWriteOp where
  op_id : OpId
  keys : OrderedSet BlockKey
  deadline : Time
  state : SourceWriteState
  remote_agent : String
  op_handle : OpHandle
  source_keys : List BlockKey
  dst_descriptors : List (List TransferRef)
  src_descriptors : List (List TransferRef) := []
  transfer_id : Option Nat := none
  success : Bool := false
  completed_indices : List Nat := []
  route : String × Nat := ("", 0)
  /-- `None` uses caller cleanup; a tuple is owned by progress -/
  local_sources : Option (List ResId) := none
deriving Inhabited

/-- `_SourcePinOp`. -/
structure SourcePinOp where
  op_id : OpId
  keys : OrderedSet BlockKey
  deadline : Time
  remote_agent : String
  op_handle : OpHandle
  ordered_keys : List BlockKey
  dst_descriptors : List (List TransferRef)
  route : String × Nat := ("", 0)
  key_layout : List Label := []
  framework_pins : OrderedSet PinHandle := OrderedSet.empty
  pending_pin_ids : OrderedSet PinRequestId := OrderedSet.empty
  framework_acquire_attempted : Bool := false
deriving Inhabited

/-- An operation the progress thread advances. -/
inductive ProgressOp where
  | local_copy (op : LocalCopyOp)
  | g3_transfer (op : G3TransferOp)
  | target_pull (op : TargetPullOp)
  | source_write (op : SourceWriteOp)
deriving Inhabited

/-- What the progress thread hands to `poll_completed`. -/
inductive Item where
  | op (op : ProgressOp)
  | source_pin (op : SourcePinOp)
  | update (connected_remote_count : Nat)
deriving Inhabited

/-- The entries of a completion. A deposit, fetch or local delivery completes with
the result dictionary it keeps, not with a copy of it. -/
inductive Entries where
  | residency_results (op_id : OpId)
  | deliver_results (op_id : OpId)
  | literal (results : Results)
deriving Inhabited

/-! ## The state -/

/-- `_LocalDramPools` with the source state it shares with the progress thread.
`readers` are the acquired readers progress has not released yet. -/
structure Pools where
  free_slots : Dict String (List Nat) := Dict.empty
  evictable : EvictionQueue Score := {}
  evictable_slots : Dict String Int := Dict.empty
  unscored : OrderedSet BlockKey := OrderedSet.empty
  capacity_eviction_key : Option BlockKey := none
  public_claims : Dict ReleaseHandle (BlockKey × ResId) := Dict.empty
  next_release_handle : ReleaseHandle := 1
  draining_source_completions : Bool := false
  index : Dict BlockKey (Option ResId) := Dict.empty
  active : Dict BlockKey ResId := Dict.empty
  operations : Int := 0
  completions : List (List BlockKey × List ResId × Bool) := []
  readers : List (List BlockKey × List ResId) := []
deriving Inhabited

/-- `_LocalDram`. -/
structure LocalDram where
  pending_residency_ops : OrderedSet OpId := OrderedSet.empty
  pending_deliver_ops : OrderedSet OpId := OrderedSet.empty
  capacity_waiters : List (OpId × BlockKey) := []
  resuming_capacity_waiters : Bool := false
deriving Inhabited

/-- `_G3`. -/
structure G3 where
  free_slots : List Nat := []
  evictable : EvictionQueue Score := {}
  evictable_slots : Int := 0
  unscored : OrderedSet BlockKey := OrderedSet.empty
  pending_keys : OrderedSet BlockKey := OrderedSet.empty
  active : OrderedSet OpId := OrderedSet.empty
deriving Inhabited

/-- `_RequestHint`. -/
structure RequestHint where
  source : Option String
  block_hashes : List Nat
  failed : Bool := false
  missing_keys : OrderedSet BlockKey := OrderedSet.empty
deriving Inhabited

/-- `_PendingPinWait`. -/
structure PendingPinWait where
  request : PinRequestId
  keys : List BlockKey
  op_ids : OrderedSet OpId := OrderedSet.empty
deriving Inhabited

/-- The main-thread half of `_RemoteFWDram` and `_RemoteSources`. -/
structure Remote where
  request_hints : Dict RequestId RequestHint := Dict.empty
  connected_remote_count : Nat := 0
  source_pin_ops : OrderedSet OpId := OrderedSet.empty
  pending_pin_ops : Dict PinRequestId PendingPinWait := Dict.empty
  pending_pin_keys : Dict BlockKey (OrderedSet PinRequestId) := Dict.empty
  fw_pins_by_op : Dict OpId (OrderedSet PinHandle) := Dict.empty
  releasing_framework_pins : OrderedSet PinHandle := OrderedSet.empty
deriving Inhabited

/-- What the progress thread owns: operations in flight, finished items not yet
taken, and whether it has died. -/
structure Progress where
  in_flight : List ProgressOp := []
  completed : List Item := []
  failed : Bool := false
  next_source_op_id : Nat := 1
deriving Inhabited

/-- `_KVCRCore`, its backends, and the heaps. -/
structure Core where
  recs : RecId → BlockRecord := fun _ => default
  next_rec : RecId := 0
  residencies : ResId → LocalDramResidency := fun _ => default
  next_res : ResId := 0
  g3_residencies : G3Id → G3Residency := fun _ => default
  next_g3 : G3Id := 0
  residency_ops : OpId → PendingResidencyOp := fun _ => default
  deliver_ops : OpId → PendingDeliverOp := fun _ => default
  source_pins : OpId → SourcePinOp := fun _ => default
  block_record_map : Dict BlockKey RecId := Dict.empty
  remote_delivery_keys : Dict RequestId (OrderedSet BlockKey) := Dict.empty
  capacity_pressure_pools : OrderedSet String := OrderedSet.empty
  closed : Bool := false
  outstanding_operations : Int := 0
  framework_pin_keys : Dict PinHandle (OrderedSet BlockKey) := Dict.empty
  local_dram_sources_by_op : Dict OpId (Dict BlockKey ResId) := Dict.empty
  completion_queue : List (OpHandle × Entries) := []
  joined_completions : Dict OpHandle (OrderedSet BlockKey × Results) := Dict.empty
  next_op_handle : OpHandle := 1
  next_fill_handle : OpHandle := -1
  pools : Pools := {}
  dram : LocalDram := {}
  g3 : G3 := {}
  remote : Remote := {}
  progress : Progress := {}
  journal_enabled : Bool := false
  /-- how many questions the environment has answered -/
  tick : Nat := 0
deriving Inhabited

/-! ## Questions -/

/-- What the progress thread does to the shared source state: claim published
sources for a write, or give a finished write's readers back. -/
inductive ReaderAct where
  | acquire (keys : List BlockKey) (destinations : List (List TransferRef))
      (key_layout : List Label)
  | release (index : Nat) (success : Bool)

/-- The answers, each a function of how many questions were asked before it. -/
structure Env where
  clock : Nat → Time
  /-- a visiting order, as the positions to pick -/
  order : Nat → List Nat
  /-- the policy; `none` when it raised or answered with nonsense -/
  eviction_score : Nat → BlockMeta → CacheTier → ScoreAnswer
  decide_ingest : Nat → BlockMeta → CacheTier → Bool → Option PlacementDecision
  decide_eviction : Nat → BlockMeta → CacheTier → Option PlacementDecision
  decide_recovery : Nat → BlockMeta → Option PlacementDecision
  /-- what the progress thread did before this lock was taken -/
  readers : Nat → List ReaderAct
  /-- the progress thread has died -/
  progress_failed : Nat → Bool
  /-- the ring accepted this frame -/
  journal_accepts : Nat → Bool
  /-- the frame of this G3 residency fits the ring -/
  recovery_preflight : Nat → Bool
  /-- the route of a queued source write was replaced meanwhile -/
  route_changed : Nat → Bool
  /-- framework pin callbacks -/
  request_pin : Nat → Option PinRequestId
  poll_pin_results : Nat →
    List (PinRequestId × Option (PinHandle × Dict BlockKey (Option (List MemoryRef))))
  release_pin : Nat → Bool

/-- Pick the elements at the given positions, then the rest. -/
def permute {α : Type} : List Nat → List α → List α
  | [], xs => xs
  | i :: is, xs =>
    match xs[i]? with
    | none => permute is xs
    | some x => x :: permute is (xs.eraseIdx i)

/-! ## The log -/

/-- `_RecoveryBlock`, the canonical record of a key. -/
structure RecoveryBlock where
  g2 : Option (List (Label × Nat)) := none
  g3 : Option (List Label × List Nat) := none
  position : Int := -1
deriving DecidableEq, Inhabited

/-- An element of KVCR-owned memory: pool and slot. -/
abbrev Slot := String × Nat

/-- The pool and slot of a location. -/
def location_slot (p : Label × Nat) : Slot := (p.1.pool, p.2)

/-- What a run does that an observer can tell. -/
inductive Act where
  /-- slots leave the free lists -/
  | allocate (locations : List (Label × Nat))
  /-- slots return to the free lists -/
  | free (locations : List (Label × Nat))
  /-- a new residency becomes the one of `key` in `record` -/
  | attach (key : BlockKey) (record : RecId) (residency : ResId)
  /-- a capacity victim is about to be detached -/
  | evict (key : BlockKey) (record : RecId) (residency : ResId)
  /-- a residency with no claim left is about to be detached -/
  | retire (key : BlockKey) (record : RecId) (residency : ResId)
  /-- an operation records a claim on `key` -/
  | record_claim (op_id : OpId) (key : BlockKey)
  /-- pieces become the destination of a deposit copy or a fill -/
  | write_into (key : BlockKey) (residency : ResId) (indices : List Nat)
  /-- a native transfer into these references reported success -/
  | landed (refs : List TransferRef)
  /-- the pieces stop being pending; `cancelled` tells whether the fill in flight had been
  cancelled -/
  | commit (key : BlockKey) (residency : ResId) (indices : List Nat) (deposit cancelled : Bool)
  /-- pieces are reported readable to the framework -/
  | grant (key : BlockKey) (residency : ResId) (indices : List Nat)
  /-- pieces become the source of a local delivery or of a remote write -/
  | read_from (key : BlockKey) (residency : ResId) (refs : List TransferRef)
  /-- recovered rows are adopted -/
  | adopt (key : BlockKey) (locations : List (Label × Nat))
  /-- a G3 slot leaves, or slots return to, the free list -/
  | g3_allocate (slot : Nat)
  | g3_free (slots : List Nat)
  /-- a store into reserved G3 slots is submitted -/
  | g3_write_into (key : BlockKey) (slots : List Nat)
  /-- a G3 residency is about to be evicted -/
  | g3_evict (key : BlockKey) (record : RecId)
  /-- a recovery frame was accepted by, or rejected by, the ring -/
  | frame (key : BlockKey) (block : RecoveryBlock)
  | frame_rejected (key : BlockKey)
  /-- lifecycle hooks of the policy -/
  | on_ingest (key : BlockKey) (source : CacheTier)
  | on_remove (key : BlockKey)
  | inventory (keys : List BlockKey) (tier : CacheTier) (removed : Bool)
  | capacity_needed (request : List (String × Nat))
  /-- an entry is written into an operation's results -/
  | result (op_id : OpId) (key : BlockKey) (entry : OpEntryResult)
  /-- a release handle is created, or redeemed -/
  | claim_handle (handle : ReleaseHandle) (key : BlockKey)
  | release_handle (handle : ReleaseHandle)
  /-- a completion is returned to the caller -/
  | returned (op_handle : OpHandle) (entries : Results)
  /-- recovering from a store that did not start raised -/
  | recovery_raised (key : BlockKey)

/-- A log entry: an act and the state it was taken in. -/
structure Ev where
  act : Act
  state : Core

/-- A function of the core. -/
abbrev KM (α : Type) := Prog Core Err Ev α

open Prog

/-- Log an act. -/
def act (a : Act) : KM Unit := emit fun s => ⟨a, s⟩

/-- Ask the environment. -/
def ask {α : Type} (answer : Nat → α) : KM α :=
  step (fun s => answer s.tick) fun s => { s with tick := s.tick + 1 }

/-- Change one residency. -/
def modify_residency (r : ResId) (f : LocalDramResidency → LocalDramResidency) : KM Unit :=
  change fun s => { s with residencies := Function.update s.residencies r (f (s.residencies r)) }

/-- Change one record. -/
def modify_rec (r : RecId) (f : BlockRecord → BlockRecord) : KM Unit :=
  change fun s => { s with recs := Function.update s.recs r (f (s.recs r)) }

/-- Change one G3 residency. -/
def modify_g3_residency (r : G3Id) (f : G3Residency → G3Residency) : KM Unit :=
  change fun s =>
    { s with g3_residencies := Function.update s.g3_residencies r (f (s.g3_residencies r)) }

/-- Change one pending deposit or fetch. -/
def modify_op (op_id : OpId) (f : PendingResidencyOp → PendingResidencyOp) : KM Unit :=
  change fun s =>
    { s with residency_ops := Function.update s.residency_ops op_id (f (s.residency_ops op_id)) }

/-- Change one pending delivery. -/
def modify_deliver_op (op_id : OpId) (f : PendingDeliverOp → PendingDeliverOp) : KM Unit :=
  change fun s =>
    { s with deliver_ops := Function.update s.deliver_ops op_id (f (s.deliver_ops op_id)) }

/-- Change one source pin operation. -/
def modify_source_pin (op_id : OpId) (f : SourcePinOp → SourcePinOp) : KM Unit :=
  change fun s =>
    { s with source_pins := Function.update s.source_pins op_id (f (s.source_pins op_id)) }

namespace Core

/-- `_block_record_map.get(key)`. -/
def record (s : Core) (key : BlockKey) : Option RecId := s.block_record_map.get? key

/-- The local DRAM residency of a key. -/
def local_dram (s : Core) (key : BlockKey) : Option ResId :=
  (s.record key).bind fun record => (s.recs record).local_dram

/-- The G3 residency of a key. -/
def g3_residency (s : Core) (key : BlockKey) : Option G3Id :=
  (s.record key).bind fun record => (s.recs record).g3

end Core

end Kvcr
