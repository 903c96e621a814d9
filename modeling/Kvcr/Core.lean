/-
`core.py`: what `poll_completed` does with the items of the progress thread, and the
public calls.

A refused argument is a result of a public call: it is raised before the call has
done anything, and the run goes on. Whatever is raised inside a call is an internal
error, and no state after it is a state "at the return" of a call.
-/
import Kvcr.RemoteSources

set_option autoImplicit false

namespace Kvcr

open Prog

variable (K : Knot)

/-! ## Finished disk transfers -/

/-- `_commit` of a reservation. -/
def g3_commit (key : BlockKey) (g : G3Id) : KM Unit := do
  let s ← read
  if key ∈ s.g3.pending_keys then
    change fun s => { s with g3.pending_keys := s.g3.pending_keys.erase key }
    let record ← block_record key
    let s ← read
    if (s.recs record).g3.isSome then
      raise (.runtime_error "G3 destination became resident before commit")
    else
      modify_rec record fun rec => { rec with g3 := some g }
      residency_observer K key record
      g3_make_evictable K key
      publish_inventory K [key] .G3 false
  else raise .key_error

/-- Every key of a finished fill still has the fill in flight. -/
def fill_is_live (s : Core) (keys : List BlockKey) : Bool :=
  keys.all fun key => (s.local_dram key).any fun r =>
    (s.residencies r).state ≠ .DISCARDING && (s.residencies r).remote_indices.isSome

/-- `_finish`. -/
def g3_finish (op : G3TransferOp) : KM Unit := do
  match op.kind with
  | .store =>
    if op.success then
      forEach op.reservations fun (key, g) => g3_commit K key g
      retire_local_sources K op.op_id
    else
      g3_rollback op.reservations
      match op.ordered_keys with
      | [key] => recover_store_failure K key
      | _ => raise (.value_error "too many values to unpack")
  | .fill =>
    let s ← read
    let success := op.success && fill_is_live s op.ordered_keys
    ensure (complete_fill K op.ordered_keys success) (g3_release_claims K op.claims)
  | .deliver =>
    ensure (if op.success then record_access K op.ordered_keys else pure ())
      (g3_release_claims K op.claims)
    if op.uncertain then pure ()
    else complete op.op_id.op_handle (.literal (fromkeys op.ordered_keys
      (if op.success then SUCCESS_RESULT else FAILED_RESULT)))

/-- One item of `poll_main` of the disk tier. -/
def g3_poll_item (op : G3TransferOp) : KM Unit := do
  let s ← read
  if op.uncertain ∧ op.transfer_id.isSome then
    if op.op_id ∈ s.g3.active then
      complete op.op_id.op_handle (.literal (fromkeys op.ordered_keys FAILED_RESULT))
    else raise (.runtime_error "unknown uncertain G3 operation")
  else if op.op_id ∈ s.g3.active then
    change fun s => { s with g3.active := s.g3.active.erase op.op_id }
    ensure (g3_finish K op) (remove_block_dependencies K op.op_id op.keys.elems)
  else raise (.runtime_error "unknown completed G3 operation")

/-- `poll_main` of the disk tier: the items it does not handle. -/
def g3_poll_main (items : List Item) : KM (List Item) :=
  foldEach items [] fun unhandled item => do
    match item with
    | .op (.g3_transfer op) =>
      g3_poll_item K op
      pure unhandled
    | item => pure (unhandled ++ [item])

/-! ## Finished pulls -/

/-- The hint of a finished pull: failed, or richer by the keys that were missing. -/
def update_request_hint (op : TargetPullOp) : KM Unit := do
  if ¬ op.success then fail_request_hint op.request_id
  else
    match op.request_id with
    | none => pure ()
    | some request_id =>
      let s ← read
      match s.remote.request_hints.get? request_id with
      | none => pure ()
      | some hint =>
        let missing := (op.keys.elems.foldl OrderedSet.insert hint.missing_keys).filter
          fun key => key ∉ op.completed_keys
        set_hint request_id { hint with missing_keys := missing }

/-- `_finish_target_pull`. -/
def finish_target_pull (op : TargetPullOp) : KM Unit := do
  let op_id := OpId.target op.op_handle
  if op.state = .QUARANTINED then pure () else remove_block_dependencies K op_id op.keys.elems
  let completed := if op.success then op.completed_keys else OrderedSet.empty
  update_request_hint op
  if op.local_fill then
    -- DISCARDING already failed callers, but still owns the slots.
    if op.state = .QUARANTINED then pure ()
    else
      let done := op.ordered_keys.filter fun key => key ∈ completed
      if completed.elems = [] then pure () else complete_fill K done true
      let rest := op.keys.elems.filter fun key => key ∉ completed
      if rest = [] then pure ()
      else
        let rest ← visit K rest
        complete_fill K rest false
  else
    complete op.op_handle (.literal (op.keys.elems.foldl (fun d key =>
      d.set key (if key ∈ completed then SUCCESS_RESULT else FAILED_RESULT)) Dict.empty))

/-- One target pull of `poll_main` of the remote tier. -/
def poll_target_pull (op : TargetPullOp) : KM Unit := do
  match op.state with
  | .WAITING_TERMINAL =>
    if op.local_fill then discard_fill K op.keys.elems
    else raise (.runtime_error "non-local target pull is waiting for terminal state")
  | .QUARANTINED => finish_target_pull K op
  | .FINISHED =>
    if op.uncertain then
      remove_block_dependencies K (.target op.op_handle) op.keys.elems
      if op.local_fill then
        let keys ← visit K op.keys.elems
        complete_fill K keys false
      else pure ()
    else finish_target_pull K op
  | _ => raise (.runtime_error "KVCR target operation returned to main")

/-- `poll_main` of the remote tier. -/
def remote_poll_main (items : List Item) : KM Unit := do
  let s ← read
  release_framework_pins K s.remote.releasing_framework_pins.elems
  forEach items fun item => do
    match item with
    | .source_pin op => start_source_pin K op
    | .op (.source_write op) => finish_source_write K op
    | .op (.target_pull op) => poll_target_pull K op
    | .update connected_remote_count =>
      change fun s => { s with remote.connected_remote_count := connected_remote_count }
    | .op (.local_copy _) | .op (.g3_transfer _) =>
      raise (.runtime_error "unsupported KVCR main item")
  poll_sources K

/-! ## Public calls -/

/-- A new public handle. -/
def next_op_handle : KM OpHandle := do
  let s ← read
  change fun s => { s with next_op_handle := s.next_op_handle + 1 }
  pure s.next_op_handle

/-- The normalized blocks of a call. -/
def normalize_blocks (cfg : Config) (blocks : Dict BlockKey (List MemoryRef)) :
    Except Err (Dict BlockKey (List TransferRef)) :=
  blocks.entries.foldlM (fun d (key, refs) => do
    let refs ← normalize_descriptors cfg refs
    pure (d.set key refs)) Dict.empty

/-- The pieces of a deposit belong to the declared layout. -/
def pieces_match (layout : List Label) (blocks : Dict BlockKey (List TransferRef)) : Bool :=
  blocks.entries.all fun (_, refs) =>
    (layout_indices layout (refs.map (·.label)) (some (prepare_label_index layout))).isSome

/-- The argument checks of `deposit`. -/
def check_deposit (cfg : Config) (blocks : Dict BlockKey (List MemoryRef))
    (expected_layout : Option (List Label)) : Except Err (Dict BlockKey (List TransferRef)) := do
  let blocks ← normalize_blocks cfg blocks
  match expected_layout with
  | none => pure blocks
  | some layout =>
    if pieces_match layout blocks then pure blocks
    else .error (.value_error "deposit pieces must belong to the local key layout")

/-- The key layout a deposit of `refs` would have. -/
def deposit_layout (s : Core) (expected_layout : Option (List Label)) (key : BlockKey)
    (refs : List TransferRef) : List Label :=
  match expected_layout, s.local_dram key with
  | some layout, _ => layout
  | none, some r => (s.residencies r).key_layout
  | none, none => refs.map (·.label)

/-- A deposit would give a key of the disk tier another layout. -/
def g3_layout_conflict (cfg : Config) (s : Core) (blocks : Dict BlockKey (List TransferRef))
    (expected_layout : Option (List Label)) : Bool :=
  cfg.g3.isSome && blocks.entries.any fun (key, refs) =>
    g3_is_ready s key && !g3_is_ready s key (some (deposit_layout s expected_layout key refs))

/-- `deposit`. -/
def deposit (blocks : Dict BlockKey (List MemoryRef)) (no_evict : Bool)
    (expected_layout : Option (List Label)) : KM (Except Err OpHandle) := do
  match expected_layout.elim (.ok ()) (validate_expected_layout K.cfg) with
  | .error e => pure (.error e)
  | .ok () =>
    let op_handle ← next_op_handle
    if K.cfg.local_dram.isNone then
      complete op_handle (.literal (fromkeys blocks.keys FAILED_RESULT))
      pure (.ok op_handle)
    else
      match check_deposit K.cfg blocks expected_layout with
      | .error e => pure (.error e)
      | .ok blocks =>
        drain_source_completions K
        let s ← read
        if g3_layout_conflict K.cfg s blocks expected_layout then
          pure (.error (.value_error "deposit layout must match existing G3 key layout"))
        else
          local_deposit K op_handle blocks no_evict expected_layout
          pure (.ok op_handle)

/-- The tier each key of a fetch would be filled from. -/
def fetch_sources (cfg : Config) (s : Core) (request_id : Option RequestId) (layout : List Label) :
    List BlockKey → Except Err (Dict BlockKey CacheTier)
  | [] => .ok Dict.empty
  | keys => keys.foldlM (fun sources key =>
      if (s.local_dram key).any fun r => ((s.residencies r).ready_indices layout).isSome then
        pure sources
      else if cfg.g3.isSome ∧ g3_is_ready s key then
        if g3_is_ready s key (some layout) then pure (sources.set key .G3)
        else .error (.value_error "fetch layout must match existing G3 key layout")
      else if request_id.any fun request_id => remote_query cfg s key request_id then
        pure (sources.set key .REMOTE_G2)
      else pure sources) Dict.empty

/-- Keep the destinations whose source is the given tier. -/
def destinations_from (sources : Dict BlockKey CacheTier) (tier : CacheTier)
    (destinations : Dict BlockKey (List TransferRef)) : Dict BlockKey (List TransferRef) :=
  (destinations.entries.filter fun p => sources.get? p.1 = some tier).foldl
    (fun d p => d.set p.1 p.2) Dict.empty

/-- `fetch`. -/
def fetch (keys : List BlockKey) (request_id : Option RequestId)
    (expected_layout : Option (List Label)) : KM (Except Err OpHandle) := do
  let layout := expected_layout.getD [⟨"", none⟩]
  match validate_expected_layout K.cfg layout with
  | .error e => pure (.error e)
  | .ok () =>
    let op_handle ← next_op_handle
    let ordered_keys := (OrderedSet.ofList keys).elems
    if K.cfg.local_dram.isNone then
      complete op_handle (.literal (fromkeys ordered_keys FAILED_RESULT))
      pure (.ok op_handle)
    else
      drain_source_completions K
      let s ← read
      match fetch_sources K.cfg s request_id layout ordered_keys with
      | .error e => pure (.error e)
      | .ok sources =>
        let deadline ← operation_deadline K
        let destinations ← local_fetch K op_handle ordered_keys sources request_id deadline layout
        start_local_fill K .G3 (destinations_from sources .G3 destinations) request_id deadline
        start_local_fill K .REMOTE_G2 (destinations_from sources .REMOTE_G2 destinations)
          request_id deadline
        pure (.ok op_handle)

/-- `_has_complete_local`. -/
def has_complete_local (s : Core) (key : BlockKey) : Bool :=
  (s.local_dram key).any fun r => (s.residencies r).complete &&
    (s.residencies r).slots.length = (s.residencies r).key_layout.length

/-- `_is_local_resident`. -/
def is_local_resident (s : Core) (key : BlockKey) : Bool :=
  (s.local_dram key).any fun r => (s.residencies r).state ≠ .DISCARDING

/-- The keys a request reads from its peer. -/
def remote_keys_of (s : Core) (request_id : Option RequestId) : OrderedSet BlockKey :=
  (request_id.bind s.remote_delivery_keys.get?).getD OrderedSet.empty

/-- The tier `deliver` reads a key from. -/
def deliver_tier (cfg : Config) (s : Core) (request_id : Option RequestId) (key : BlockKey) :
    CacheTier :=
  if key ∈ remote_keys_of s request_id ∧ (¬ has_complete_local s key ∨
      request_id.any fun request_id => remote_query cfg s key request_id) then .REMOTE_G2
  else if is_local_resident s key then .LOCAL_G2
  else if cfg.g3.isSome ∧ g3_is_ready s key then .G3
  else .REMOTE_G2

/-- The blocks `deliver` reads from one tier. -/
def blocks_from (tier : BlockKey → CacheTier) (wanted : CacheTier)
    (blocks : Dict BlockKey (List TransferRef)) : Dict BlockKey (List TransferRef) :=
  (blocks.entries.filter fun p => tier p.1 = wanted).foldl (fun d p => d.set p.1 p.2) Dict.empty

/-- `deliver` after it has routed every block: `route` has the blocks of each tier. -/
def dispatch (op_handle : OpHandle) (deadline : Time) (request_id : Option RequestId)
    (blocks : Dict BlockKey (List TransferRef))
    (route : CacheTier → Dict BlockKey (List TransferRef)) : KM (Except Err OpHandle) := do
  if 1 < ([route .LOCAL_G2, route .G3, route .REMOTE_G2].filter (·.entries ≠ [])).length then
    change fun s =>
      { s with joined_completions :=
          s.joined_completions.set op_handle (OrderedSet.ofList blocks.keys, Dict.empty) }
  else pure ()
  if K.cfg.local_dram.isSome ∧ (route .LOCAL_G2).entries ≠ [] then
    local_deliver K op_handle (route .LOCAL_G2) deadline
  else pure ()
  if (route .G3).entries ≠ [] then
    let started ← g3_start_read K .deliver op_handle (route .G3) deadline
    if started then pure ()
    else complete op_handle (.literal (fromkeys (route .G3).keys FAILED_RESULT))
  else pure ()
  if (route .REMOTE_G2).entries ≠ [] then
    remote_deliver K op_handle (route .REMOTE_G2) request_id deadline
  else if blocks.entries = [] then complete op_handle (.literal Dict.empty)
  else pure ()
  pure (.ok op_handle)

/-- The part of a delivery before it looks at the tiers. -/
def open_delivery : KM (OpHandle × Time) := do
  let op_handle ← next_op_handle
  let deadline ← operation_deadline K
  pure (op_handle, deadline)

/-- `deliver`. -/
def deliver (blocks : Dict BlockKey (List MemoryRef)) (request_id : Option RequestId) :
    KM (Except Err OpHandle) := do
  let (op_handle, deadline) ← open_delivery K
  match normalize_blocks K.cfg blocks with
  | .error e => pure (.error e)
  | .ok blocks =>
    let s ← read
    dispatch K op_handle deadline request_id blocks
      fun tier => blocks_from (deliver_tier K.cfg s request_id) tier blocks

/-- `release`. -/
def release (handles : List ReleaseHandle) : KM (List (ReleaseHandle × Bool)) :=
  if K.cfg.local_dram.isNone then pure (handles.map fun handle => (handle, false))
  else release_handles K handles

/-- The records `align_sequence` moves, with their positions. -/
def aligned_records (s : Core) (ordered_keys : List BlockKey) : Dict BlockKey (Nat × RecId) :=
  ordered_keys.zipIdx.foldl (fun records (key, position) =>
    match s.record key with
    | none => records
    | some record =>
      let ready := (s.recs record).g3.isSome ||
        (s.recs record).local_dram.any fun r => (s.residencies r).state = .READY
      if records.contains key ∨ ¬ ready then records
      else records.set key (position, record)) Dict.empty

/-- The loop body of `align_sequence`. -/
def align_record (timestamp : Option Time) (key : BlockKey) (position : Nat) (record : RecId) :
    KM Unit := do
  modify_rec record fun rec => { rec with last_access := timestamp }
  let s ← read
  if (s.recs record).position = position then pure ()
  else
    modify_rec record fun rec => { rec with position := position }
    let complete : Bool := (s.recs record).local_dram.any fun r =>
      (s.residencies r).pending_labels.elems.isEmpty
    if (s.recs record).g3.isSome ∨ complete then residency_observer K key record else pure ()

/-- `align_sequence`. -/
def align_sequence (ordered_keys : List BlockKey) (use_current_time : Bool) : KM Unit := do
  let s ← read
  let records := aligned_records s ordered_keys
  if records.entries = [] then pure ()
  else
    let timestamp ← if use_current_time then do
        let now ← clock K
        pure (some now)
      else pure (records.values.filterMap fun p => (s.recs p.2).last_access).max?
    forEach records.entries fun (key, position, record) =>
      align_record K timestamp key position record
    forEach records.keys fun key => do
      if K.cfg.local_dram.isSome then make_evictable K key else pure ()
      if K.cfg.g3.isSome then g3_make_evictable K key else pure ()
    if K.cfg.local_dram.isSome then update_capacity_pressure K else pure ()

/-- Some fetch of this request is filling the key. -/
def fetching_locally (s : Core) (key : BlockKey) (request_id : Option RequestId) : Bool :=
  (s.record key).any fun record =>
    ((s.recs record).local_dram.any fun r => (s.residencies r).state = .FILLING) &&
    (s.recs record).in_flight_ops.elems.any fun op_id =>
      op_id.is_fetch && decide (op_id ∈ s.dram.pending_residency_ops) &&
      decide ((s.residency_ops op_id).request_id = request_id) &&
      !(s.residency_ops op_id).results.contains key

/-- What the tiers say about a key that the request does not read from its peer. -/
def query_tiers (s : Core) (key : BlockKey) : Option (QueryStatus × Option CacheTier) :=
  let residency := (s.local_dram key).map s.residencies
  if residency.any fun r => r.state = .READY then some (.HIT, some .LOCAL_G2)
  else if residency.any fun r => r.state = .FILLING then some (.FETCHING, some .LOCAL_G2)
  else if (s.g3_residency key).isSome then some (.FETCHABLE, some .G3)
  else none

/-- `query` of one key. -/
def query_key (request_id : Option RequestId) (key : BlockKey) :
    KM (QueryStatus × Option CacheTier) := do
  let s ← read
  let reachable := request_id.any fun request_id => remote_query K.cfg s key request_id
  let remote : Bool := key ∈ remote_keys_of s request_id
  if remote ∧ ¬ fetching_locally s key request_id ∧ reachable then
    pure (.FETCHABLE, some .REMOTE_G2)
  else if remote ∧ ¬ fetching_locally s key request_id ∧ ¬ has_complete_local s key then
    pure (.MISS, none)
  else
    match query_tiers s key, request_id with
    | some status, _ => pure status
    | none, some request_id =>
      if reachable then
        remember_remote_keys request_id [key]
        pure (.FETCHABLE, some .REMOTE_G2)
      else pure (.MISS, none)
    | none, none => pure (.MISS, none)

/-- `query`. -/
def query (keys : List BlockKey) (request_id : Option RequestId) :
    KM (List (QueryStatus × Option CacheTier)) :=
  foldEach keys [] fun statuses key => do
    let status ← query_key K request_id key
    pure (statuses ++ [status])

/-- `_batch_size` of the progress loop. -/
def batch_size : Nat := 64

/-- `take_completed`, when the progress thread has published `available` items. -/
def take_completed (available : Nat) : KM (List Item) := do
  let s ← read
  let count := min available batch_size
  change fun s => { s with progress.completed := s.progress.completed.drop count }
  pure (s.progress.completed.take count)

/-- The first half of `poll_completed`: take the items, and let the disk tier have its own. -/
def poll_disk (available : Nat) : KM (List Item) := do
  let items ← take_completed available
  if K.cfg.g3.isSome then g3_poll_main K items else pure items

/-- `poll_completed`. -/
def poll_completed (available : Nat) : KM (List (OpHandle × Results)) := do
  raise_if_failed K
  let items ← poll_disk K available
  let items ← if K.cfg.local_dram.isSome then local_poll_main K items else pure items
  remote_poll_main K items
  let s ← read
  change fun s => { s with completion_queue := [] }
  let completed := s.completion_queue.map fun (op_handle, entries) => (op_handle, entries.resolve s)
  forEach completed fun (op_handle, entries) => act (.returned op_handle entries)
  pure completed

/-! ## Recovered records -/

/-- The state after one more record. -/
def installed (key : BlockKey) (block : RecoveryBlock) (s : Core) : Core :=
  { s with
    residencies := match block.g2 with
      | none => s.residencies
      | some slots => Function.update s.residencies s.next_res
          { slots := slots, state := .READY, key_layout := slots.map Prod.fst }
    next_res := s.next_res + 1
    g3_residencies := match block.g3 with
      | none => s.g3_residencies
      | some (layout, slots) => Function.update s.g3_residencies s.next_g3
          { layout := layout, slots := slots }
    next_g3 := s.next_g3 + 1
    recs := Function.update s.recs s.next_rec
      { local_dram := block.g2.map fun _ => s.next_res
        g3 := block.g3.map fun _ => s.next_g3
        position := block.position }
    next_rec := s.next_rec + 1
    block_record_map := s.block_record_map.set key s.next_rec }

/-- A record of the recovery mirror enters the table. -/
def install_record (key : BlockKey) (block : RecoveryBlock) : KM Unit :=
  change (installed key block)

/-- The policy is told of a recovered block, once also for a block in both tiers. -/
def announce_recovered (key : BlockKey) (record : RecId) : KM Unit := do
  let s ← read
  if (s.recs record).local_dram.isNone ∧ (s.recs record).g3.isNone then
    -- the size of no residency
    raise .attribute_error
  else
    act (.on_ingest key
      (if (s.recs record).local_dram.isSome ∨ K.cfg.g3.isNone then .LOCAL_G2 else .G3))

/-- `adopt_recovery_records` of the table a mirror hands over. -/
def adopt_recovery_records (table : Dict BlockKey RecoveryBlock) : KM Unit := do
  let s ← read
  if table.entries = [] then pure ()
  else if K.cfg.local_dram.isNone then
    raise (.recovery_mirror_error "recovered records need a local DRAM tier")
  else if K.cfg.g3.isNone ∧ table.values.any fun block => block.g3.isSome then
    raise (.recovery_mirror_error "recovered G3 residency has no configured G3")
  else if s.block_record_map.entries ≠ [] then
    raise (.recovery_mirror_error "recovered records need a core that holds none")
  else
    forEach table.entries fun (key, block) => install_record key block
    let s ← read
    let records := s.block_record_map.entries
    adopt_recovery_slots K records
    if K.cfg.g3.isSome then g3_adopt_recovery_slots K records else pure ()
    forEach records fun (key, record) => announce_recovered K key record
    rank_recovered K records
    if K.cfg.g3.isSome then g3_rank_recovered K records else pure ()

end Kvcr
