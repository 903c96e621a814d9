/-
Runs of a core: how one is built, what can happen to it, and the states and logs it
can reach.

What happens is a sequence of events. The caller makes a public call; the progress
thread advances one of its operations by one iteration, hands over a request of a
peer, or takes and gives back readers of published sources. The two threads share
nothing else, so an iteration that overlaps a call is one before or after it, except
for the reader acts, which every lock inside a call lets in (`lock`).
-/
import Kvcr.Core
import Kvcr.RemoteOps

set_option autoImplicit false

namespace Kvcr

open Prog

/-! ## Construction -/

namespace Config

/-- The checks of the constructor on the pools and timeouts. -/
structure Valid (cfg : Config) : Prop where
  pools_nonempty : cfg.pool_layouts ≠ []
  pool_names : (cfg.pool_layouts.map Prod.fst).Nodup
  pool_sizes : ∀ p ∈ cfg.pool_layouts, 0 < p.2
  /-- local DRAM pools match `pool_layouts` and hold at least one block each -/
  local_pools : ∀ options ∈ cfg.local_dram,
    options.pools.map Prod.fst = cfg.pool_layouts.map Prod.fst
  local_sizes : ∀ p ∈ cfg.regions, 0 < p.2.1 ∧ 0 < p.2.2.1 / p.2.2.2
  /-- G3 requires configured local DRAM -/
  g3_local : cfg.g3.isSome → cfg.local_dram.isSome
  g3_files : ∀ options ∈ cfg.g3, 0 < options.paths
  timeout : 0 < cfg.operation_timeout_ms
  abandon : 2 * cfg.operation_timeout_ms ≤ cfg.abandon_timeout_ms

end Config

/-- A core as `__init__` leaves it; `seed` is the clock reading the handles count
from. -/
def Core.initial (cfg : Config) (seed : Nat) : Core :=
  { pools.free_slots := free_slots_without cfg []
    g3.free_slots := List.range cfg.g3_total_slots
    next_op_handle := seed
    next_fill_handle := -seed
    journal_enabled := cfg.journal }

/-! ## The progress thread -/

/-- What one iteration observed for an operation. -/
inductive ProgressInput where
  | transfer (i : TransferInput)
  | target (i : TargetInput)
  | source (i : SourceInput) (status : SourceWriteStatus)

/-- The destinations a successful disk read has filled. -/
def G3TransferOp.destinations (op : G3TransferOp) : List TransferRef :=
  op.ordered_keys.flatMap (block_refs op.blocks)

/-- The destinations of the keys a pull reports as written. -/
def TargetPullOp.written (op : TargetPullOp) : List TransferRef :=
  ((op.ordered_keys.zip op.dst_descriptors).filter fun p => p.1 ∈ op.completed_keys).flatMap
    Prod.snd

/-- One iteration over an operation: the operation, what it hands over before it is
done, the destinations reported written, and whether it is done. -/
def ProgressOp.progress (cfg : Config) : ProgressOp → ProgressInput →
    Option (ProgressOp × List ProgressOp × List TransferRef × Bool)
  | .local_copy op, .transfer i =>
    let step := op.progress i
    some (.local_copy step.op, step.outbound.map .local_copy,
      if step.done ∧ step.op.success then step.op.dst_descriptors else [], step.done)
  | .g3_transfer op, .transfer i =>
    let step := op.progress i
    some (.g3_transfer step.op, step.outbound.map .g3_transfer,
      if step.done ∧ step.op.success ∧ op.kind ≠ .store then step.op.destinations else [],
      step.done)
  | .target_pull op, .target i =>
    let step := op.progress cfg i
    some (.target_pull step.op, step.outbound.map .target_pull,
      if step.done ∧ step.op.success then step.op.written else [], step.done)
  | .source_write op, .source i status =>
    let step := op.progress cfg i status
    some (.source_write step.op, step.outbound.map .source_write, [], step.done)
  | _, _ => none

/-- The progress thread advances the operation at `index`. -/
def advance (cfg : Config) (index : Nat) (input : ProgressInput) : KM Unit := do
  let s ← read
  match s.progress.in_flight[index]? with
  | none => pure ()
  | some op =>
    match op.progress cfg input with
    | none => pure ()
    | some (op, outbound, landed, done) =>
      if landed = [] then pure () else act (.landed landed)
      let in_flight := if done then s.progress.in_flight.eraseIdx index
        else s.progress.in_flight.set index op
      let items := outbound.map Item.op ++ if done then [Item.op op] else []
      change fun s =>
        { s with
          progress.in_flight := in_flight
          progress.completed := s.progress.completed ++ items }

/-- A peer's request that needs the caller, as `_handle_start_write` queues it. -/
structure SourceRequest where
  keys : List BlockKey
  dst_descriptors : List (List TransferRef)
  key_layout : List Label
  deadline : Time
  remote_agent : String
  op_handle : OpHandle
  route : String × Nat

/-- `_queue_source_pin` of a request that passed the checks of `_handle_start_write`. -/
def queue_source_pin (request : SourceRequest) : KM Unit := do
  let s ← read
  if request.keys ≠ [] ∧ request.keys.Nodup ∧
      request.keys.length = request.dst_descriptors.length then
    let op : SourcePinOp :=
      { op_id := .source s.progress.next_source_op_id
        keys := OrderedSet.ofList request.keys
        deadline := request.deadline
        remote_agent := request.remote_agent
        op_handle := request.op_handle
        ordered_keys := request.keys
        dst_descriptors := request.dst_descriptors
        route := request.route
        key_layout := request.key_layout }
    change fun s =>
      { s with
        progress.next_source_op_id := s.progress.next_source_op_id + 1
        progress.completed := s.progress.completed ++ [.source_pin op] }
  else pure ()

/-! ## Events and runs -/

/-- A public call. -/
inductive Call where
  | deposit (blocks : Dict BlockKey (List MemoryRef)) (no_evict : Bool)
      (expected_layout : Option (List Label))
  | fetch (keys : List BlockKey) (request_id : Option RequestId)
      (expected_layout : Option (List Label))
  | deliver (blocks : Dict BlockKey (List MemoryRef)) (request_id : Option RequestId)
  | release (handles : List ReleaseHandle)
  | align_sequence (ordered_keys : List BlockKey) (use_current_time : Bool)
  | query (keys : List BlockKey) (request_id : Option RequestId)
  | submit_hint (source : Option String) (block_hashes : List Nat)
      (request_id : Option RequestId)
  | discard_hint (request_id : RequestId)
  | poll_completed (available : Nat)

/-- Run a public call, forgetting what it returns to the caller. -/
def Call.run (K : Knot) : Call → KM Unit
  | .deposit blocks no_evict expected_layout => do
    let _ ← Kvcr.deposit K blocks no_evict expected_layout
  | .fetch keys request_id expected_layout => do
    let _ ← Kvcr.fetch K keys request_id expected_layout
  | .deliver blocks request_id => do
    let _ ← Kvcr.deliver K blocks request_id
  | .release handles => do
    let _ ← Kvcr.release K handles
  | .align_sequence ordered_keys use_current_time =>
    Kvcr.align_sequence K ordered_keys use_current_time
  | .query keys request_id => do
    let _ ← Kvcr.query K keys request_id
  | .submit_hint source block_hashes request_id => Kvcr.submit_hint K source block_hashes request_id
  | .discard_hint request_id => Kvcr.discard_hint request_id
  | .poll_completed available => do
    let _ ← Kvcr.poll_completed K available

/-- What can happen to a core. A call comes with the fuel its re-entry may use. -/
inductive Event where
  | call (fuel : Nat) (c : Call)
  | progress (index : Nat) (input : ProgressInput)
  | reader (a : ReaderAct)
  | request (r : SourceRequest)

/-- What an event does. -/
def Event.run (cfg : Config) (env : Env) : Event → KM Unit
  | .call fuel c => c.run (knot cfg env fuel)
  | .progress index input => advance cfg index input
  | .reader a => reader_act cfg a
  | .request r => queue_source_pin r

/-- What an outcome has logged. -/
def log {α : Type} : Outcome Core Err Ev α → List Ev
  | .ok _ _ t => t
  | .err _ _ t => t
  | .diverged t => t

section Runs

variable (cfg : Config) (env : Env)

/-- The start of a run: a new core, with the table of a recovery mirror adopted. -/
def start (seed fuel : Nat) (table : Dict BlockKey RecoveryBlock) : Outcome Core Err Ev Unit :=
  adopt_recovery_records (knot cfg env fuel) table (Core.initial cfg seed)

/-- The states and logs at which no call is under way: every event so far returned. -/
inductive Reachable (table : Dict BlockKey RecoveryBlock) : Core → List Ev → Prop
  | start (seed fuel : Nat) {s : Core} {t : List Ev} (positive : 0 < seed)
      (adopted : Kvcr.start cfg env seed fuel table = .ok () s t) : Reachable table s t
  | step {s s' : Core} {t t' : List Ev} (event : Event) (reached : Reachable table s t)
      (returned : event.run cfg env s = .ok () s' t') : Reachable table s' (t ++ t')

/-- The logs of a core that may have died anywhere: what a run has logged, and any part
of what one further event logs. -/
inductive CrashLog (table : Dict BlockKey RecoveryBlock) : List Ev → Prop
  | adopting (seed fuel : Nat) {s : Core} {t t' : List Ev} (positive : 0 < seed)
      (adopted : Kvcr.start cfg env seed fuel table = .ok () s t) (died : t' <+: t) :
      CrashLog table t'
  | running {s : Core} {t t' : List Ev} (event : Event) (reached : Reachable cfg env table s t)
      (died : t' <+: log (event.run cfg env s)) : CrashLog table (t ++ t')

end Runs

end Kvcr
