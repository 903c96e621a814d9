/-
`local_dram.py`: deposits, fetches and local deliveries, the completion of copies and
fills, and the queue of operations waiting for slots.

One pending operation is completed key by key, and any of a dozen events may write an
entry into its results: a copy that ended, a fill that ended, was cancelled or
expired, a deposit of another operation, a waiter that was resumed. Each place that
writes an entry logs it (`set_result`).
-/
import Kvcr.Allocation

set_option autoImplicit false

namespace Kvcr

open Prog

variable (K : Knot)

/-! ## Finishing operations -/

/-- The public handle of an operation. -/
def OpId.op_handle : OpId → OpHandle
  | .deposit h | .fetch h | .local_deliver h | .local_copy h => h
  | .g3_fill h | .g3_deliver h | .target h => h
  | .g3_store _ => 0
  | .source n => n

/-- `op.results[key] = entry`. -/
def set_result (op_id : OpId) (key : BlockKey) (entry : OpEntryResult) : KM Unit := do
  act (.result op_id key entry)
  modify_op op_id fun op => { op with results := op.results.set key entry }

/-- `op.results[key] = entry` of a delivery. -/
def set_deliver_result (op_id : OpId) (key : BlockKey) (entry : OpEntryResult) : KM Unit := do
  act (.result op_id key entry)
  modify_deliver_op op_id fun op => { op with results := op.results.set key entry }

/-- A fetch that succeeded for a key no longer prefers the peer for it. -/
def forget_remote_keys (op : PendingResidencyOp) : KM Unit := do
  let s ← read
  match op.request_id with
  | none => pure ()
  | some request_id =>
    match s.remote_delivery_keys.get? request_id with
    | none => pure ()
    | some remote_keys =>
      let successes := (op.results.entries.filter fun p => p.2.success).map Prod.fst
      let remaining := remote_keys.filter fun key => key ∉ successes
      change fun s =>
        { s with remote_delivery_keys := s.remote_delivery_keys.set request_id remaining }

/-- `_finish_residency_if_ready`. -/
def finish_residency_if_ready (op_id : OpId) : KM Unit := do
  let s ← read
  let op := s.residency_ops op_id
  if op.results.entries.length ≠ op.keys.elems.length ∨ op_id ∉ s.dram.pending_residency_ops then
    pure ()
  else
    if op_id.is_fetch then forget_remote_keys op else pure ()
    modify_op op_id fun op => { op with capacity_waiters := OrderedSet.empty }
    change fun s =>
      { s with dram.pending_residency_ops := s.dram.pending_residency_ops.erase op_id }
    modify_op op_id fun op => { op with claimed_keys := OrderedSet.empty }
    if op.claimed_keys.elems = [] then pure () else release_sources K op.claimed_keys.elems
    remove_block_dependencies K op_id op.keys.elems
    complete op_id.op_handle (.residency_results op_id)

/-- `_finish_deliver_if_ready`. -/
def finish_deliver_if_ready (op_id : OpId) : KM Unit := do
  let s ← read
  let op := s.deliver_ops op_id
  if op.results.entries.length ≠ op.keys.elems.length then pure ()
  else
    -- Submitted copies retain their claims until native completion.
    release_sources K (op.claimed_keys.elems.filter fun key => key ∉ op.active_keys)
    modify_deliver_op op_id fun op => { op with claimed_keys := OrderedSet.empty }
    let s ← read
    if op_id ∈ s.dram.pending_deliver_ops then
      change fun s =>
        { s with dram.pending_deliver_ops := s.dram.pending_deliver_ops.erase op_id }
      remove_block_dependencies K op_id op.keys.elems
      complete op_id.op_handle (.deliver_results op_id)
    else raise .key_error

/-- `_enqueue_capacity_waiter`. -/
def enqueue_capacity_waiter (op_id : OpId) (key : BlockKey) : KM Unit := do
  let s ← read
  if key ∈ (s.residency_ops op_id).capacity_waiters then
    raise (.runtime_error "duplicate local capacity waiter")
  else
    change fun s => { s with dram.capacity_waiters := s.dram.capacity_waiters ++ [(op_id, key)] }
    modify_op op_id fun op => { op with capacity_waiters := op.capacity_waiters.insert key }

/-- Put a new residency into the record the caller holds. -/
def attach_residency (key : BlockKey) (record : RecId) (residency : LocalDramResidency) :
    KM ResId := do
  mark_source_pending K key
  let s ← read
  act (.attach key record s.next_res)
  change fun s =>
    { s with
      residencies := Function.update s.residencies s.next_res residency
      next_res := s.next_res + 1
      recs := Function.update s.recs record
        { s.recs record with local_dram := some s.next_res } }
  pure s.next_res

/-! ## Deposits -/

/-- The copy a deposit is putting together. -/
structure CopyPlan where
  keys : List BlockKey := []
  indices : List (List Nat) := []
  src : List TransferRef := []
  dst : List TransferRef := []
  evicted : List BlockKey := []

/-- Add one to the writers of the given pieces. -/
def add_writers (indices : List Nat) (delta : Int) (writers : List Int) : List Int :=
  indices.foldl (fun w i => w.set i (w.getD i 0 + delta)) writers

/-- The end of the loop body of `_start_deposits`: the copy of `key` holds a claim. -/
def plan_copy (op_id : OpId) (key : BlockKey) (r : ResId) (indices : List Nat)
    (src : List TransferRef) (plan : CopyPlan) : KM CopyPlan := do
  act (.write_into key r indices)
  modify_residency r fun residency =>
    { residency with
      claim_count := residency.claim_count + 1
      pending_deposits := residency.pending_deposits + 1 }
  modify_op op_id fun op => { op with active_keys := op.active_keys.insert key }
  let s ← read
  pure
    { plan with
      keys := plan.keys ++ [key]
      indices := plan.indices ++ [indices]
      src := plan.src ++ src
      dst := plan.dst ++ indices.map fun i =>
        descriptor K.cfg ((s.residencies r).slots.getD i default) }

/-- A deposit into a residency that may hold some of its pieces already. -/
def deposit_pieces (op_id : OpId) (key : BlockKey) (r : ResId) (sources : List TransferRef)
    (plan : CopyPlan) : KM CopyPlan := do
  modify_residency r LocalDramResidency.with_label_index
  let s ← read
  let op := s.residency_ops op_id
  let residency := s.residencies r
  match layout_indices residency.layout (sources.map (·.label)) residency.indices_by_label with
  | none =>
    set_result op_id key FAILED_RESULT
    pure plan
  | some indices =>
    let is_pending (i : Nat) : Bool := (residency.slots.getD i default).1 ∈ residency.pending_labels
    let selected := indices.filter is_pending
    if selected = [] then
      act (.grant key r indices)
      if op.claim_on_ready then
        let entry ← new_public_claim K key r
        set_result op_id key entry
      else set_result op_id key SUCCESS_RESULT
      pure plan
    else
      match residency.writers with
      | none => raise (.runtime_error "local DRAM writers lost")
      | some writers =>
        if selected.all fun i => writers.getD i 0 ≠ 0 then
          -- Attach duplicates; new pieces can still proceed.
          pure plan
        else
          remove_evictable key r
          modify_residency r fun residency =>
            { residency with writers := some (add_writers selected 1 writers) }
          plan_copy K op_id key r selected
            (((sources.zip indices).filter fun p => is_pending p.2).map Prod.fst) plan

/-- A deposit of a key that has no residency: ingest decision, allocation, and a
reservation that the deposit fills or starts to fill. -/
def deposit_new (op_id : OpId) (key : BlockKey) (record : RecId) (sources : List TransferRef)
    (plan : CopyPlan) : KM CopyPlan := do
  let s ← read
  let op := s.residency_ops op_id
  let layout := sources.map (·.label)
  let local_layout := op.key_layout.getD layout
  let bytes := (local_layout.map fun label => K.cfg.slot_size label.pool).sum
  let answer ← ask fun tick => K.env.decide_ingest tick (block_meta s key record bytes) .FW_G2
    op.claim_on_ready
  if (decide_ingest answer op.claim_on_ready).1 = .DROP then
    set_result op_id key DROPPED_RESULT
    pure plan
  else
    let (locations, evicted, eviction_pending) ←
      allocate_slots K local_layout op.keys.elems op.deadline
    let plan := { plan with evicted := plan.evicted ++ evicted }
    match locations with
    | none =>
      if eviction_pending then enqueue_capacity_waiter op_id key
      else set_result op_id key FAILED_RESULT
      pure plan
    | some locations =>
      let full_deposit : Bool := layout = local_layout
      let r ← attach_residency K key record
        (.filling locations local_layout
          (List.replicate locations.length (if full_deposit then 1 else 0)))
      if full_deposit then
        plan_copy K op_id key r (List.range locations.length) sources plan
      else deposit_pieces K op_id key r sources plan

/-- The loop body of `_start_deposits`. -/
def start_deposit (op_id : OpId) (plan : CopyPlan) (key : BlockKey) : KM CopyPlan := do
  let s ← read
  let op := s.residency_ops op_id
  if op.results.contains key ∨ key ∈ op.capacity_waiters ∨ key ∈ op.active_keys then pure plan
  else
    let now ← clock K
    if now ≥ op.deadline then
      set_result op_id key FAILED_RESULT
      pure plan
    else
      match op.sources.bind fun sources => sources.get? key with
      | none => raise .key_error
      | some sources =>
        let record ← block_record key
        let s ← read
        match (s.recs record).local_dram with
        | none => deposit_new K op_id key record sources plan
        | some r =>
          let residency := s.residencies r
          if residency.state = .DISCARDING ∨ residency.retire_on_release ∨
              op.key_layout.any (fun layout => residency.key_layout ≠ layout) then
            set_result op_id key FAILED_RESULT
            pure plan
          else deposit_pieces K op_id key r sources plan

/-- Hand a local copy to the progress thread. -/
def submit_copy (op : LocalCopyOp) : KM Unit := do
  submit K (.local_copy op)
  change fun s => { s with next_fill_handle := s.next_fill_handle - 1 }

/-- `_start_deposits`. -/
def start_deposits (op_id : OpId) (keys : List BlockKey) : KM Unit := do
  let plan ← foldEach keys ({} : CopyPlan) (start_deposit K op_id)
  update_capacity_pressure K
  publish_inventory K plan.evicted .LOCAL_G2 true
  finish_residency_if_ready K op_id
  if plan.keys = [] then pure ()
  else
    let s ← read
    submit_copy K
      { handle := s.next_fill_handle
        deliver_op_id := none
        ordered_keys := plan.keys
        local_indices := plan.indices
        src_descriptors := plan.src
        dst_descriptors := plan.dst
        deadline := (s.residency_ops op_id).deadline
        abandon_deadline := (s.residency_ops op_id).deadline + K.cfg.abandon_grace
        deposit_op := some op_id }

/-- Register a new deposit or fetch. -/
def register_residency_op (op : PendingResidencyOp) : KM Unit := do
  modify_op op.op_id fun _ => op
  change fun s =>
    { s with dram.pending_residency_ops := s.dram.pending_residency_ops.insert op.op_id }
  add_block_dependencies K op.op_id op.keys.elems

/-- `deposit` of the local tier. -/
def local_deposit (op_handle : OpHandle) (blocks : Dict BlockKey (List TransferRef))
    (no_evict : Bool) (key_layout : Option (List Label)) : KM Unit := do
  if blocks.entries = [] then complete op_handle (.literal Dict.empty)
  else
    let deadline ← operation_deadline K
    register_residency_op K
      { op_id := .deposit op_handle
        keys := OrderedSet.ofList blocks.keys
        deadline := deadline
        claim_on_ready := no_evict
        sources := some blocks
        key_layout := key_layout }
    start_deposits K (.deposit op_handle) blocks.keys

/-! ## Fetches -/

/-- `_reserve_fill`: whether a residency was reserved, and whether to wait. -/
def reserve_fill (key : BlockKey) (op_id : OpId) (source : CacheTier) : KM (Bool × Bool) := do
  let record ← block_record key
  let s ← read
  let op := s.residency_ops op_id
  let layout := op.requested_layout
  let bytes := (layout.map fun label => K.cfg.slot_size label.pool).sum
  let answer ← ask fun tick => K.env.decide_ingest tick (block_meta s key record bytes) source true
  if (decide_ingest answer true).1 = .DROP then pure (false, false)
  else
    let (locations, evicted, waiting) ← allocate_slots K layout op.keys.elems op.deadline
    match locations with
    | none => pure ()
    | some locations =>
      let _ ← attach_residency K key record
        (.filling locations (op.key_layout.getD (locations.map Prod.fst))
          (List.replicate locations.length 0))
      pure ()
    update_capacity_pressure K
    publish_inventory K evicted .LOCAL_G2 true
    pure (locations.isSome, waiting)

/-- The claim a waiting fetch takes on a residency that is not readable yet. -/
def claim_for_fetch (op_id : OpId) (key : BlockKey) (r : ResId) : KM Unit := do
  let s ← read
  if key ∈ (s.residency_ops op_id).claimed_keys then pure ()
  else
    acquire_claim key r
    act (.record_claim op_id key)
    modify_op op_id fun op => { op with claimed_keys := op.claimed_keys.insert key }

/-- Serve a fetch from a residency: grant it, join its fill, or start one. -/
def fetch_from_residency (op_id : OpId) (key : BlockKey) (r : ResId) (source : Option CacheTier) :
    KM (Option (List TransferRef)) := do
  modify_residency r LocalDramResidency.with_label_index
  let s ← read
  let layout := (s.residency_ops op_id).requested_layout
  let residency := s.residencies r
  match layout_indices residency.layout layout residency.indices_by_label with
  | none =>
    set_result op_id key FAILED_RESULT
    pure none
  | some indices =>
    if residency.pending_labels.elems.all fun label => label ∉ layout then
      record_access K [key]
      act (.grant key r indices)
      let entry ← new_public_claim K key r (some indices)
      set_result op_id key entry
      pure none
    else
      claim_for_fetch op_id key r
      if source = none ∨ residency.remote_indices.isSome then pure none
      else
        match residency.writers with
        | none => raise (.runtime_error "local DRAM writers lost")
        | some writers =>
          -- One remote fill owns these destinations until its native terminal.
          let missing := indices.filter fun i =>
            (residency.slots.getD i default).1 ∈ residency.pending_labels ∧ writers.getD i 0 = 0
          if missing = [] then pure none
          else
            remove_evictable key r
            act (.write_into key r missing)
            modify_residency r fun residency =>
              { residency with
                remote_indices := some missing
                writers := some (add_writers missing 1 writers)
                claim_count := residency.claim_count + 1 }
            modify_op op_id fun op =>
              { op with remote_fill_keys := op.remote_fill_keys.insert key }
            pure (some (missing.map fun i =>
              descriptor K.cfg (residency.slots.getD i default)))

/-- `_prepare_fetch`: the destinations of a fill the caller has to start. -/
def prepare_fetch (op_id : OpId) (key : BlockKey) : KM (Option (List TransferRef)) := do
  let record ← block_record key
  let s ← read
  let op := s.residency_ops op_id
  let source := op.fill_sources.get? key
  let now ← clock K
  if now ≥ op.deadline then
    set_result op_id key FAILED_RESULT
    pure none
  else
    match (s.recs record).local_dram with
    | some r =>
      if (s.residencies r).state = .DISCARDING then
        if source.isSome then enqueue_capacity_waiter op_id key
        else set_result op_id key FAILED_RESULT
        pure none
      else if op.key_layout.any fun layout => layout ≠ (s.residencies r).key_layout then
        set_result op_id key FAILED_RESULT
        pure none
      else fetch_from_residency K op_id key r source
    | none =>
      match source with
      | none =>
        set_result op_id key FAILED_RESULT
        pure none
      | some tier =>
        let (reserved, waiting) ← reserve_fill K key op_id tier
        if ¬ reserved then
          if waiting then enqueue_capacity_waiter op_id key
          else set_result op_id key FAILED_RESULT
          pure none
        else
          let s ← read
          match (s.recs record).local_dram with
          | none => raise .key_error
          | some r => fetch_from_residency K op_id key r source

/-- `fetch` of the local tier: the destinations of the fills to start. -/
def local_fetch (op_handle : OpHandle) (keys : List BlockKey) (sources : Dict BlockKey CacheTier)
    (request_id : Option RequestId) (deadline : Time) (layout : List Label) :
    KM (Dict BlockKey (List TransferRef)) := do
  if keys = [] then
    complete op_handle (.literal Dict.empty)
    pure Dict.empty
  else
    register_residency_op K
      { op_id := .fetch op_handle
        keys := OrderedSet.ofList keys
        deadline := deadline
        claim_on_ready := true
        request_id := request_id
        requested_layout := layout
        key_layout := some layout
        fill_sources := sources }
    let destinations ← foldEach keys Dict.empty
      fun (destinations : Dict BlockKey (List TransferRef)) key => do
        match ← prepare_fetch K (.fetch op_handle) key with
        | none => pure destinations
        | some refs => pure (destinations.set key refs)
    finish_residency_if_ready K (.fetch op_handle)
    pure destinations

/-- `_resolve_fetch_waiter`: whether the key now has an entry. -/
def resolve_fetch_waiter (key : BlockKey) (op_id : OpId) : KM Bool := do
  match ← prepare_fetch K op_id key with
  | none => pure ()
  | some refs =>
    let s ← read
    let op := s.residency_ops op_id
    match op.fill_sources.get? key with
    | none => raise .key_error
    | some source =>
      start_local_fill K source (Dict.empty.set key refs) op.request_id op.deadline
  let s ← read
  pure ((s.residency_ops op_id).results.contains key)

/-! ## Deliveries -/

/-- The copy a delivery is putting together. -/
structure DeliveryPlan where
  keys : List BlockKey := []
  src : List TransferRef := []
  dst : List TransferRef := []

/-- The loop body of `_start_deliveries`. -/
def start_delivery (op_id : OpId) (now : Time) (plan : DeliveryPlan) (key : BlockKey) :
    KM DeliveryPlan := do
  let s ← read
  let op := s.deliver_ops op_id
  if op.results.contains key ∨ key ∈ op.active_keys then pure plan
  else
    match s.local_dram key with
    | none =>
      set_deliver_result op_id key FAILED_RESULT
      pure plan
    | some r =>
      if (s.residencies r).state = .DISCARDING ∨ now ≥ op.deadline then
        set_deliver_result op_id key FAILED_RESULT
        pure plan
      else
        let destination := (op.destinations.get? key).getD []
        let labels := destination.map (·.label)
        modify_residency r LocalDramResidency.with_label_index
        let s ← read
        let residency := s.residencies r
        let indices := residency.ready_indices labels
        if indices = none ∧ ¬ residency.can_wait_for_pieces labels then
          set_deliver_result op_id key FAILED_RESULT
          pure plan
        else
          if key ∈ op.claimed_keys then pure ()
          else
            acquire_claim key r
            modify_deliver_op op_id fun op => { op with claimed_keys := op.claimed_keys.insert key }
          match indices with
          | none => pure plan  -- A producer may submit the next piece after this delivery.
          | some indices =>
            let refs := source_refs K.cfg residency indices
            act (.read_from key r refs)
            modify_deliver_op op_id fun op => { op with active_keys := op.active_keys.insert key }
            pure
              { keys := plan.keys ++ [key]
                src := plan.src ++ refs
                dst := plan.dst ++ destination }

/-- `_start_deliveries`. -/
def start_deliveries (op_id : OpId) (keys : List BlockKey) : KM Unit := do
  let now ← clock K
  let plan ← foldEach keys ({} : DeliveryPlan) (start_delivery K op_id now)
  update_capacity_pressure K
  if plan.keys = [] then pure ()
  else
    let s ← read
    submit_copy K
      { handle := s.next_fill_handle
        deliver_op_id := some op_id
        ordered_keys := plan.keys
        local_indices := []  -- The claim protects immutable source slots.
        src_descriptors := plan.src
        dst_descriptors := plan.dst
        deadline := (s.deliver_ops op_id).deadline
        abandon_deadline := (s.deliver_ops op_id).deadline + K.cfg.abandon_grace }
  finish_deliver_if_ready K op_id

/-- `deliver` of the local tier. -/
def local_deliver (op_handle : OpHandle) (blocks : Dict BlockKey (List TransferRef))
    (deadline : Time) : KM Unit := do
  modify_deliver_op (.local_deliver op_handle) fun _ =>
    { op_id := .local_deliver op_handle
      keys := OrderedSet.ofList blocks.keys
      deadline := deadline
      destinations := blocks }
  change fun s =>
    { s with dram.pending_deliver_ops :=
        s.dram.pending_deliver_ops.insert (.local_deliver op_handle) }
  add_block_dependencies K (.local_deliver op_handle) blocks.keys
  start_deliveries K (.local_deliver op_handle) blocks.keys

/-- `_finish_delivery_copy`. -/
def finish_delivery_copy (copy : LocalCopyOp) (op_id : OpId) : KM Unit := do
  let s ← read
  let pending : Bool := op_id ∈ s.dram.pending_deliver_ops
  forEach copy.ordered_keys fun key => do
    let s ← read
    match s.local_dram key with
    | none => raise (.runtime_error "local DRAM delivery state lost")
    | some r =>
      if (pending ∧ key ∉ (s.deliver_ops op_id).claimed_keys) ∨
          (s.residencies r).state ≠ .READY then
        raise (.runtime_error "local DRAM delivery state lost")
      else
        if copy.success then record_access K [key] else pure ()
        release_claim K key r
        if pending then
          let entry := if copy.success then SUCCESS_RESULT else FAILED_RESULT
          act (.result op_id key entry)
          modify_deliver_op op_id fun op =>
            { op with
              claimed_keys := op.claimed_keys.erase key
              active_keys := op.active_keys.erase key
              results := op.results.set key entry }
        else pure ()
  update_capacity_pressure K
  if pending then finish_deliver_if_ready K op_id else pure ()

/-! ## The result of a copy or fill -/

/-- What `_apply_fill_result` gathers over its keys. -/
structure FillAcc where
  committed : List BlockKey := []
  failed : List BlockKey := []
  affected_residency_ops : OrderedSet OpId := OrderedSet.empty
  queued_deposits : Dict OpId (List BlockKey) := Dict.empty
  affected_deliver_ops : OrderedSet OpId := OrderedSet.empty
  deliver_keys : Dict OpId (List BlockKey) := Dict.empty

/-- `d.setdefault(op_id, []).append(key)`. -/
def append_key (d : Dict OpId (List BlockKey)) (op_id : OpId) (key : BlockKey) :
    Dict OpId (List BlockKey) :=
  d.set op_id ((d.get? op_id).getD [] ++ [key])

/-- The pieces of a successful copy stop being pending; the first readable piece makes
the residency READY, the last one makes it complete. -/
def commit_pieces (key : BlockKey) (record : RecId) (r : ResId) (indices : List Nat)
    (source : CacheTier) (refs : Option (List TransferRef)) (deposit cancelled : Bool)
    (now : Time) (acc : FillAcc) : KM FillAcc := do
  let s ← read
  let residency := s.residencies r
  let was_ready : Bool := residency.state = .READY
  let written : List Label := indices.map fun i => (residency.slots.getD i default).1
  let pending : OrderedSet Label :=
    if indices.length = residency.slots.length then OrderedSet.empty
    else residency.pending_labels.filter fun label => label ∉ written
  if pending.elems.length < residency.pending_labels.elems.length then
    act (.commit key r indices deposit cancelled)
    modify_residency r fun residency =>
      { residency with pending_labels := pending, state := .READY }.with_label_index
    let full : Bool := indices = List.range residency.slots.length
    publish_source K key r (if full then refs else none)
    modify_rec record fun rec => { rec with last_access := some now }
    let s ← read
    if was_ready then pure ()
    else on_ingest (block_meta s key record (size_bytes K.cfg residency)) source
    if pending.elems = [] then
      residency_observer K key record
      pure { acc with committed := acc.committed ++ [key] }
    else pure acc
  else pure acc

/-- The entry of the depositing operation itself. -/
def resolve_writer (writer : OpId) (key : BlockKey) (r : ResId) (indices : List Nat)
    (key_success : Bool) (acc : FillAcc) : KM FillAcc := do
  let s ← read
  let op := s.residency_ops writer
  if op.results.contains key then pure acc
  else
    if key_success then
      act (.grant key r indices)
      if op.claim_on_ready then
        let entry ← new_public_claim K key r
        set_result writer key entry
      else set_result writer key SUCCESS_RESULT
    else set_result writer key FAILED_RESULT
    pure { acc with affected_residency_ops := acc.affected_residency_ops.insert writer }

/-- The entries of the operations that started this fill. -/
def resolve_fillers (key : BlockKey) (record : RecId) (key_success : Bool) (acc : FillAcc) :
    KM FillAcc := do
  let op_ids ← active_op_ids K record
  foldEach op_ids acc fun acc op_id => do
    let s ← read
    if op_id ∈ s.dram.pending_residency_ops ∧ key ∈ (s.residency_ops op_id).remote_fill_keys then
      modify_op op_id fun op => { op with remote_fill_keys := op.remote_fill_keys.erase key }
      if key_success then pure acc
      else
        set_result op_id key FAILED_RESULT
        pure { acc with affected_residency_ops := acc.affected_residency_ops.insert op_id }
    else pure acc

/-- The operations that were waiting for this residency. -/
def resolve_waiters (key : BlockKey) (record : RecId) (writer : Option OpId) (acc : FillAcc) :
    KM FillAcc := do
  let op_ids ← active_op_ids K record
  foldEach op_ids acc fun acc op_id => do
    if writer = some op_id then pure acc
    else
      let s ← read
      let op := s.residency_ops op_id
      if op_id ∈ s.dram.pending_residency_ops ∧ key ∈ op.keys ∧ ¬ op.results.contains key ∧
          key ∉ op.capacity_waiters ∧ key ∉ op.active_keys then
        if op.sources.isSome then
          pure { acc with queued_deposits := append_key acc.queued_deposits op_id key }
        else
          let resolved ← resolve_fetch_waiter K key op_id
          if resolved then
            pure { acc with affected_residency_ops := acc.affected_residency_ops.insert op_id }
          else pure acc
      else
        let deliver_op := s.deliver_ops op_id
        if op_id ∈ s.dram.pending_deliver_ops ∧ key ∈ deliver_op.keys ∧
            ¬ deliver_op.results.contains key then
          let acc := { acc with affected_deliver_ops := acc.affected_deliver_ops.insert op_id }
          if (s.recs record).local_dram.isSome then
            pure { acc with deliver_keys := append_key acc.deliver_keys op_id key }
          else
            set_deliver_result op_id key FAILED_RESULT
            pure acc
        else pure acc

/-- Drop the writer counts of a copy that ended. -/
def drop_writers (r : ResId) (indices : List Nat) : KM Unit := do
  let s ← read
  match (s.residencies r).writers with
  | none => raise (.runtime_error "local DRAM writer ownership lost")
  | some writers =>
    let writers := add_writers indices (-1) writers
    if indices.any fun i => writers.getD i 0 < 0 then
      raise (.runtime_error "local DRAM writer ownership lost")
    else modify_residency r fun residency => { residency with writers := some writers }

/-- The copy or fill that ended no longer writes. -/
def drop_writer (writer : Option OpId) (key : BlockKey) (r : ResId) : KM Unit := do
  match writer with
  | some writer =>
    let s ← read
    if key ∈ (s.residency_ops writer).active_keys then
      modify_op writer fun op => { op with active_keys := op.active_keys.erase key }
      modify_residency r fun residency =>
        { residency with pending_deposits := residency.pending_deposits - 1 }
    else raise .key_error
  | none =>
    modify_residency r fun residency =>
      { residency with remote_indices := none, remote_cancelled := false }

/-- The loop body of `_apply_fill_result`. -/
def apply_fill_key (success : Bool) (source : CacheTier) (writer : Option OpId) (now : Time)
    (acc : FillAcc) (key : BlockKey) (indices : List Nat) (refs : Option (List TransferRef)) :
    KM FillAcc := do
  let s ← read
  match s.record key with
  | none => raise (.runtime_error "local DRAM fill state lost")
  | some record =>
    match (s.recs record).local_dram with
    | none => raise (.runtime_error "local DRAM fill state lost")
    | some r =>
      let residency := s.residencies r
      let key_success : Bool := success && residency.state ≠ .DISCARDING &&
        (writer.isSome || !residency.remote_cancelled)
      drop_writers r indices
      drop_writer writer key r
      let acc ← if key_success ∧ residency.pending_labels.elems ≠ [] then
          commit_pieces K key record r indices source refs writer.isSome
            residency.remote_cancelled now acc
        else pure acc
      modify_residency r LocalDramResidency.settle
      let acc ← match writer with
        | some writer => resolve_writer K writer key r indices key_success acc
        | none => resolve_fillers K key record key_success acc
      release_claim K key r
      -- Releasing the final claim may retire this residency and wake a waiter.
      let s ← read
      let acc := if (s.recs record).local_dram.isNone then
          { acc with failed := acc.failed ++ [key] } else acc
      resolve_waiters K key record writer acc

/-- The loop of `_apply_fill_result`; `start` is the offset of the key's own part of the
destination descriptors. -/
def apply_fill_loop (success : Bool) (source : CacheTier) (writer : Option OpId) (now : Time)
    (dst_descriptors : List TransferRef) :
    List (BlockKey × List Nat) → Nat → FillAcc → KM FillAcc
  | [], _, acc => pure acc
  | (key, indices) :: rest, start, acc => do
    let refs := if dst_descriptors = [] then none
      else some ((dst_descriptors.drop start).take indices.length)
    let acc ← apply_fill_key K success source writer now acc key indices refs
    apply_fill_loop success source writer now dst_descriptors rest (start + indices.length) acc

/-- `_apply_fill_result`. -/
def apply_fill_result (ordered_keys : List BlockKey) (local_indices : List (List Nat))
    (success : Bool) (source : CacheTier) (writer : Option OpId)
    (dst_descriptors : List TransferRef) : KM Unit := do
  let now ← clock K
  let acc ← apply_fill_loop K success source writer now dst_descriptors
    (ordered_keys.zip local_indices) 0 {}
  update_capacity_pressure K
  publish_inventory K acc.committed .LOCAL_G2 false
  forEach acc.affected_residency_ops.elems (finish_residency_if_ready K)
  forEach acc.queued_deposits.entries fun (op_id, keys) => do
    let s ← read
    if op_id ∈ s.dram.pending_residency_ops then start_deposits K op_id keys else pure ()
  forEach acc.affected_deliver_ops.elems fun op_id =>
    start_deliveries K op_id ((acc.deliver_keys.get? op_id).getD [])
  forEach acc.failed prune_block_record
  K.resume_capacity_waiters

/-- The pieces of the fill in flight of each key. -/
def fill_indices (s : Core) : List BlockKey → KM (List (List Nat))
  | [] => pure []
  | key :: keys =>
    match (s.local_dram key).bind fun r => (s.residencies r).remote_indices with
    | none => raise (.runtime_error "local DRAM fill state lost")
    | some indices => do
      let rest ← fill_indices s keys
      pure (indices :: rest)

/-- `complete_fill`. -/
def complete_fill (keys : List BlockKey) (success : Bool) : KM Unit := do
  let s ← read
  let indices ← fill_indices s keys
  apply_fill_result K keys indices success .REMOTE_G2 none []

/-- `_finish_copy`. -/
def finish_copy (copy : LocalCopyOp) : KM Unit := do
  if copy.transfer_id.isSome then
    -- Unresolved: fail this writer, retaining its slots and any committed pieces.
    match copy.deliver_op_id, copy.deposit_op with
    | none, some op_id =>
      forEach copy.ordered_keys fun key => set_result op_id key FAILED_RESULT
      finish_residency_if_ready K op_id
    | some op_id, _ =>
      let s ← read
      if op_id ∈ s.dram.pending_deliver_ops then
        forEach copy.ordered_keys fun key => set_deliver_result op_id key FAILED_RESULT
        finish_deliver_if_ready K op_id
      else raise .key_error
    | none, none => raise .key_error
  else
    match copy.deliver_op_id with
    | some op_id => finish_delivery_copy K copy op_id
    | none =>
      apply_fill_result K copy.ordered_keys copy.local_indices copy.success .FW_G2 copy.deposit_op
        (if K.cfg.framework_control then copy.dst_descriptors else [])

/-! ## Discarding and expiry -/

/-- The operations of one record that a discarded fill fails. -/
def discard_ops (key : BlockKey) (r : ResId) (op_ids : List OpId)
    (acc : OrderedSet OpId × OrderedSet OpId) : KM (OrderedSet OpId × OrderedSet OpId) :=
  foldEach op_ids acc fun (residency_ops, deliver_ops) op_id => do
    let s ← read
    let discarding : Bool := (s.residencies r).state = .DISCARDING
    let op := s.residency_ops op_id
    let residency_ops ←
      if op_id ∈ s.dram.pending_residency_ops ∧ key ∈ op.keys ∧ ¬ op.results.contains key ∧
          -- Capacity waiters never owned this fill.
          key ∉ op.capacity_waiters ∧ (key ∈ op.remote_fill_keys ∨ discarding) then do
        set_result op_id key FAILED_RESULT
        pure (residency_ops.insert op_id)
      else pure residency_ops
    let deliver_op := s.deliver_ops op_id
    let deliver_ops ←
      if op_id ∈ s.dram.pending_deliver_ops ∧ key ∈ deliver_op.keys ∧
          ¬ deliver_op.results.contains key ∧ discarding then do
        set_deliver_result op_id key FAILED_RESULT
        pure (deliver_ops.insert op_id)
      else pure deliver_ops
    pure (residency_ops, deliver_ops)

/-- The loop body of `discard_fill`. -/
def discard_key (acc : OrderedSet OpId × OrderedSet OpId) (key : BlockKey) :
    KM (OrderedSet OpId × OrderedSet OpId) := do
  let s ← read
  match s.record key with
  | none => raise (.runtime_error "local DRAM fill state lost")
  | some record =>
    match (s.recs record).local_dram with
    | none => raise (.runtime_error "local DRAM fill state lost")
    | some r =>
      let residency := s.residencies r
      if residency.remote_indices = none ∧ residency.state = .READY then
        raise (.runtime_error "local DRAM fill state lost")
      else
        if residency.remote_indices = none ∨
            (residency.state = .FILLING ∧ residency.pending_deposits = 0) then
          lock K
          if K.cfg.framework_control then
            change fun s => { s with pools.index := s.pools.index.set key none }
          else pure ()
          modify_residency r fun residency => { residency with state := .DISCARDING }
        else pure ()
        if residency.remote_indices.isSome then
          modify_residency r fun residency => { residency with remote_cancelled := true }
        else pure ()
        let op_ids ← active_op_ids K record
        discard_ops key r op_ids acc

/-- `discard_fill` of a set of keys. -/
def discard_fill (keys : List BlockKey) : KM Unit := do
  let keys ← visit K keys
  let (residency_ops, deliver_ops) ← foldEach keys (OrderedSet.empty, OrderedSet.empty)
    (discard_key K)
  forEach residency_ops.elems (finish_residency_if_ready K)
  forEach deliver_ops.elems (finish_deliver_if_ready K)

/-- Expire one deposit or fetch. -/
def expire_residency_op (now : Time) (op_id : OpId) : KM Unit := do
  let s ← read
  let op := s.residency_ops op_id
  -- discard_fill() can finish other operations from this snapshot.
  if op_id ∉ s.dram.pending_residency_ops ∨ now < op.deadline then pure ()
  else
    let waiting := op.keys.elems.filter fun key => ¬ op.results.contains key
    if op_id.is_fetch then
      let filling := waiting.filter fun key => key ∈ op.remote_fill_keys
      let others ← visit K (waiting.filter fun key => key ∉ op.remote_fill_keys)
      forEach others fun key => set_result op_id key FAILED_RESULT
      if filling = [] then finish_residency_if_ready K op_id else discard_fill K filling
    else
      let waiting ← visit K waiting
      forEach waiting fun key => do
        let s ← read
        if key ∈ (s.residency_ops op_id).active_keys then pure ()
        else
          modify_op op_id fun op => { op with capacity_waiters := op.capacity_waiters.erase key }
          set_result op_id key FAILED_RESULT
      finish_residency_if_ready K op_id

/-- Expire one delivery. -/
def expire_deliver_op (now : Time) (op_id : OpId) : KM Unit := do
  let s ← read
  let op := s.deliver_ops op_id
  if now < op.deadline then pure ()
  else
    let waiting ← visit K (op.keys.elems.filter fun key =>
      ¬ op.results.contains key ∧ key ∉ op.active_keys)
    forEach waiting fun key => set_deliver_result op_id key FAILED_RESULT
    finish_deliver_if_ready K op_id

/-- `_expire_pending_ops`. -/
def expire_pending_ops (now : Time) : KM Unit := do
  let s ← read
  forEach s.dram.pending_residency_ops.elems (expire_residency_op K now)
  let s ← read
  forEach s.dram.pending_deliver_ops.elems (expire_deliver_op K now)

/-- `poll_main` of the local tier: the items it does not handle. -/
def local_poll_main (items : List Item) : KM (List Item) := do
  drain_source_completions K
  -- Progress-side source claims defer framework callbacks to the caller.
  update_capacity_pressure K
  let unhandled ← foldEach items [] fun unhandled item => do
    match item with
    | .op (.local_copy copy) =>
      finish_copy K copy
      pure unhandled
    | item => pure (unhandled ++ [item])
  let now ← clock K
  expire_pending_ops K now
  pure unhandled

/-! ## Capacity waiters -/

/-- Take the first waiter out of the queue. -/
def pop_waiter : KM Unit :=
  change fun s => { s with dram.capacity_waiters := s.dram.capacity_waiters.tail }

/-- `op.capacity_waiters.remove(key)`. -/
def forget_waiter (op_id : OpId) (key : BlockKey) : KM Unit :=
  modify_op op_id fun op => { op with capacity_waiters := op.capacity_waiters.erase key }

/-- `rotate(-1)`: the first waiter goes to the back. -/
def rotate_left (q : List (OpId × BlockKey)) : List (OpId × BlockKey) :=
  match q with
  | [] => []
  | w :: ws => ws ++ [w]

/-- `rotate(1)`: the last waiter comes to the front. -/
def rotate_right (q : List (OpId × BlockKey)) : List (OpId × BlockKey) :=
  match q.getLast? with
  | none => []
  | some w => w :: q.dropLast

/-- Look at the first waiter: whether the pass goes on. -/
def resume_waiter : KM Bool := do
  let s ← read
  match s.dram.capacity_waiters with
  | [] => raise (.runtime_error "deque index out of range")
  | (op_id, key) :: _ =>
    let op := s.residency_ops op_id
    if key ∉ op.capacity_waiters ∨ op_id ∉ s.dram.pending_residency_ops then
      pop_waiter
      pure true
    else if op.results.contains key then
      pop_waiter
      forget_waiter op_id key
      pure true
    else
      let now ← clock K
      if now ≥ op.deadline then
        pop_waiter
        forget_waiter op_id key
        set_result op_id key FAILED_RESULT
        finish_residency_if_ready K op_id
        pure true
      else
        let record ← block_record key
        let s ← read
        if (s.recs record).local_dram.any fun r => (s.residencies r).state = .DISCARDING then
          change fun s => { s with dram.capacity_waiters := rotate_left s.dram.capacity_waiters }
          pure true
        else
          pop_waiter
          forget_waiter op_id key
          if op.sources.isSome then
            start_deposits K op_id [key]
            pure true
          else
            let _ ← resolve_fetch_waiter K key op_id
            let s ← read
            if key ∈ (s.residency_ops op_id).capacity_waiters then
              -- Keep a pending spill ahead of later capacity waiters.
              change fun s =>
                { s with dram.capacity_waiters := rotate_right s.dram.capacity_waiters }
              pure false
            else
              finish_residency_if_ready K op_id
              pure true

/-- One pass over the queue as it was when the pass began. -/
def resume_pass : Nat → KM Unit
  | 0 => pure ()
  | n + 1 => do
    let go ← resume_waiter K
    if go then resume_pass n else pure ()

/-- `_resume_capacity_waiters`. -/
def resume_capacity_waiters : KM Unit := do
  let s ← read
  if s.dram.resuming_capacity_waiters then pure ()
  else
    change fun s => { s with dram.resuming_capacity_waiters := true }
    ensure
      (do
        drain_source_completions K
        let s ← read
        resume_pass K s.dram.capacity_waiters.length)
      (do
        change fun s => { s with dram.resuming_capacity_waiters := false }
        update_capacity_pressure K)

/-! ## Tying the knot -/

/-- The core run on `fuel`: each re-entrant call runs on one less. -/
def knot (cfg : Config) (env : Env) : Nat → Knot
  | 0 =>
    { cfg := cfg, env := env, fuel := 0
      resume_capacity_waiters := exhausted
      fail_local_dram_fill := fun _ => exhausted }
  | n + 1 =>
    { cfg := cfg, env := env, fuel := n + 1
      resume_capacity_waiters := resume_capacity_waiters (knot cfg env n)
      fail_local_dram_fill := fun keys => complete_fill (knot cfg env n) keys false }

end Kvcr
