/-
`remote_sources.py`: the caller's half of a remote write. A request the progress
thread could not serve from published sources arrives here; its keys are claimed in
local DRAM or pinned in framework memory, and the write goes back to progress with
the descriptors of the keys that matched.

An operation listed as an owner of local sources holds one claim per key until its
write has ended, also while it waits for pieces or pins.
-/
import Kvcr.LocalDram

set_option autoImplicit false

namespace Kvcr

open Prog

variable (K : Knot)

/-! ## Framework pins -/

/-- Some source operation still reads through this pin. -/
def pin_in_use (s : Core) (pin_handle : PinHandle) : Bool :=
  s.remote.source_pin_ops.elems.any (fun op_id => pin_handle ∈ (s.source_pins op_id).framework_pins)
    || s.remote.fw_pins_by_op.values.any (fun pins => pin_handle ∈ pins)

/-- The descriptors of a pin under release are no longer handed out. -/
def forget_pinned_key (pin_handle : PinHandle) (key : BlockKey) : KM Unit := do
  let s ← read
  match s.record key with
  | none => pure ()
  | some record =>
    if (s.recs record).fw_mem.any fun m => m.pin_handle = pin_handle then
      modify_rec record fun rec => { rec with fw_mem := none }
      prune_block_record key
    else pure ()

/-- The loop body of `_release_framework_pins`. -/
def release_framework_pin (pin_handle : PinHandle) : KM Unit := do
  let s ← read
  if pin_in_use s pin_handle then pure ()
  else
    match s.framework_pin_keys.get? pin_handle with
    | none => pure ()
    | some pin_keys =>
      -- Keep the keys until release is accepted, so overlapping pins wait.
      change fun s =>
        { s with remote.releasing_framework_pins :=
            s.remote.releasing_framework_pins.insert pin_handle }
      let keys ← visit K pin_keys.elems
      forEach keys (forget_pinned_key pin_handle)
      let released ← ask K.env.release_pin
      if released then
        change fun s =>
          { s with
            framework_pin_keys := s.framework_pin_keys.erase pin_handle
            remote.releasing_framework_pins :=
              s.remote.releasing_framework_pins.erase pin_handle }
      else pure ()

/-- `_release_framework_pins`. -/
def release_framework_pins (pins : List PinHandle) : KM Unit := do
  let pins ← visit K pins
  forEach pins (release_framework_pin K)

/-- `_framework_pin_keys.setdefault(pin_handle, set()).update(keys)`. -/
def add_pin_keys (pin_handle : PinHandle) (keys : List BlockKey) : KM Unit :=
  change fun s =>
    let known := (s.framework_pin_keys.get? pin_handle).getD OrderedSet.empty
    { s with framework_pin_keys :=
        s.framework_pin_keys.set pin_handle (keys.foldl OrderedSet.insert known) }

/-- What a framework answers to a pin request. -/
abbrev PinResult := Option (PinHandle × Dict BlockKey (Option (List MemoryRef)))

/-- `_discard_pin_result`. -/
def discard_pin_result (result : PinResult) (keys : List BlockKey) : KM Unit := do
  match result with
  | none => pure ()
  | some (pin_handle, descriptors) =>
    add_pin_keys pin_handle (keys ++ descriptors.keys)
    release_framework_pins K [pin_handle]

/-- The normalized descriptors of a pin result, if it is acceptable. -/
def normalize_pin (cfg : Config) (keys : List BlockKey)
    (descriptors : Dict BlockKey (Option (List MemoryRef))) :
    Except Err (List (BlockKey × List TransferRef)) := do
  if ¬ (descriptors.keys.all (· ∈ keys) ∧ keys.all descriptors.contains) then
    .error .key_error
  else
    let normalized ← descriptors.entries.mapM fun (key, refs) =>
      match refs with
      | none => pure (key, none)
      | some refs => do
        let refs ← normalize_descriptors cfg refs
        pure (key, some refs)
    let usable := normalized.filterMap fun (key, refs) => refs.map fun refs => (key, refs)
    if usable = [] then .error (.value_error "request_pin returned no descriptors")
    else pure usable

/-- `_install_framework_pin`: whether the pin was installed. -/
def install_framework_pin (keys : List BlockKey) (pin_handle : PinHandle)
    (descriptors : Dict BlockKey (Option (List MemoryRef))) : KM Bool := do
  match normalize_pin K.cfg keys descriptors with
  | .error _ =>
    discard_pin_result K (some (pin_handle, descriptors)) keys
    pure false
  | .ok normalized =>
    add_pin_keys pin_handle []
    forEach normalized fun (key, refs) => do
      let record ← block_record key
      let s ← read
      if (s.recs record).fw_mem.isSome then pure ()
      else
        modify_rec record fun rec => { rec with fw_mem := some ⟨refs, pin_handle⟩ }
        add_pin_keys pin_handle [key]
    pure true

/-! ## Pending pin requests -/

/-- `_remove_pending_pin_state`. -/
def remove_pending_pin_state (request : PinRequestId) : KM (Option PendingPinWait) := do
  let s ← read
  match s.remote.pending_pin_ops.get? request with
  | none => pure none
  | some wait =>
    change fun s =>
      { s with remote.pending_pin_ops := s.remote.pending_pin_ops.erase request }
    forEach wait.keys fun key => do
      let s ← read
      match s.remote.pending_pin_keys.get? key with
      | none => pure ()
      | some requests =>
        let requests := requests.erase request
        let pending := if requests.elems = [] then s.remote.pending_pin_keys.erase key
          else s.remote.pending_pin_keys.set key requests
        change fun s => { s with remote.pending_pin_keys := pending }
    pure (some wait)

/-- `_register_pending_pin`. -/
def register_pending_pin (op_id : OpId) (request : PinRequestId) : KM Unit := do
  let s ← read
  match s.remote.pending_pin_ops.get? request with
  | none => pure ()
  | some wait =>
    let wait := { wait with op_ids := wait.op_ids.insert op_id }
    change fun s =>
      { s with remote.pending_pin_ops := s.remote.pending_pin_ops.set request wait }
    if op_id ∈ s.remote.source_pin_ops then
      modify_source_pin op_id fun op =>
        { op with pending_pin_ids := op.pending_pin_ids.insert request }
    else pure ()

/-- The pending request a key can share: the smallest one. -/
def shared_request (s : Core) (key : BlockKey) : Option PinRequestId :=
  match s.remote.pending_pin_keys.get? key with
  | none => none
  | some requests => (requests.elems.filter s.remote.pending_pin_ops.contains).min?

/-- `_pin_framework_keys`. -/
def pin_framework_keys (keys : List BlockKey) : KM (Option PinRequestId) := do
  if keys = [] then pure none
  else
    match ← ask K.env.request_pin with
    | none => pure none
    | some request =>
      let s ← read
      if s.remote.pending_pin_ops.contains request then pure none
      else
        let pending := keys.foldl (fun d key =>
          d.set key (((d.get? key).getD OrderedSet.empty).insert request))
          s.remote.pending_pin_keys
        change fun s =>
          { s with
            remote.pending_pin_ops :=
              s.remote.pending_pin_ops.set request { request := request, keys := keys }
            remote.pending_pin_keys := pending }
        pure (some request)

/-- `_cancel_pending_pin_for_op`. -/
def cancel_pending_pin_for_op (op_id : OpId) : KM Unit := do
  let s ← read
  let requests ← visit K (s.source_pins op_id).pending_pin_ids.elems
  forEach requests fun request => do
    let s ← read
    match s.remote.pending_pin_ops.get? request with
    | none => pure ()
    | some wait =>
      let wait := { wait with op_ids := wait.op_ids.erase op_id }
      change fun s =>
        { s with remote.pending_pin_ops := s.remote.pending_pin_ops.set request wait }
      if wait.op_ids.elems = [] then
        let _ ← remove_pending_pin_state request
        pure ()
      else pure ()
  modify_source_pin op_id fun op => { op with pending_pin_ids := OrderedSet.empty }

/-- The pin handles of the framework memory of some keys. -/
def framework_pins_of (s : Core) (keys : List BlockKey) : OrderedSet PinHandle :=
  OrderedSet.ofList (keys.filterMap fun key =>
    (s.record key).bind fun record => (s.recs record).fw_mem.map (·.pin_handle))

/-- `_acquire_framework_sources`: the pins to hold, and the requests to wait for. -/
def acquire_framework_sources (keys : List BlockKey) :
    KM (OrderedSet PinHandle × List PinRequestId) := do
  if ¬ K.cfg.framework_pinning then pure (OrderedSet.empty, [])
  else
    let s ← read
    let pinned (key : BlockKey) : Bool := (s.record key).any fun record =>
      (s.recs record).fw_mem.isSome
    let keys_to_pin := keys.filter fun key => ¬ pinned key
    let held := framework_pins_of s keys
    if keys_to_pin = [] then pure (held, [])
    else
      let shared := (OrderedSet.ofList (keys_to_pin.filterMap (shared_request s))).elems
      let request ← pin_framework_keys K
        (keys_to_pin.filter fun key => (shared_request s key).isNone)
      pure (held, shared ++ request.toList)

/-! ## Submitting the write -/

/-- What the key loop of `_submit_prepared_source_write` gathers. -/
structure Selection where
  completed_indices : List Nat := []
  selected_sources : List (List TransferRef) := []
  waiting : Bool := false

/-- The pieces of one source key that the request asked for: `none` on a mismatch. -/
def source_indices (key_layout layout : List Label) (residency : Option LocalDramResidency)
    (labels : List Label) : Option (List Nat) :=
  if key_layout ≠ [] ∧ key_layout ≠ layout then none
  else
    match residency with
    | some residency => if residency.state = .READY then residency.ready_indices labels else none
    | none => layout_indices layout labels

/-- The pieces may still arrive. -/
def source_waits (key_layout layout : List Label) (residency : Option LocalDramResidency)
    (labels : List Label) : Bool :=
  (key_layout = [] || key_layout = layout) &&
    residency.any fun r => r.state ≠ .DISCARDING && r.can_wait_for_pieces labels

/-- A key whose layout does not match leaves the operation. -/
def drop_source_key (op_id : OpId) (key : BlockKey) : KM Unit := do
  modify_source_pin op_id fun op => { op with keys := op.keys.erase key }
  let s ← read
  match s.record key with
  | none => raise .key_error
  | some record =>
    modify_rec record fun r => { r with in_flight_ops := r.in_flight_ops.erase op_id }
    prune_block_record key

/-- The loop body of `_submit_prepared_source_write`. -/
def select_source (op_id : OpId) (local_sources : Dict BlockKey ResId)
    (framework_sources : BlockKey → Option (List TransferRef)) (acc : Selection)
    (key : BlockKey) (destination : List TransferRef) (index : Nat) : KM Selection := do
  let s ← read
  let op := s.source_pins op_id
  if key ∉ op.keys then pure acc
  else
    let residency := (local_sources.get? key).map s.residencies
    let labels := destination.map (·.label)
    match local_sources.get? key, framework_sources key with
    | none, none => pure acc
    | r, source =>
      let layout := match residency with
        | some residency => residency.key_layout
        | none => (source.getD []).map (·.label)
      match source_indices op.key_layout layout residency labels with
      | none =>
        if source_waits op.key_layout layout residency labels then
          pure { acc with waiting := true }
        else
          drop_source_key op_id key
          pure acc
      | some indices =>
        match r with
        | some r =>
          let refs := source_refs K.cfg (s.residencies r) indices
          act (.read_from key r refs)
          pure
            { acc with
              completed_indices := acc.completed_indices ++ [index]
              selected_sources := acc.selected_sources ++ [refs] }
        | none =>
          pure
            { acc with
              completed_indices := acc.completed_indices ++ [index]
              selected_sources := acc.selected_sources ++
                [indices.map fun i => (source.getD []).getD i default] }

/-- `_submit_prepared_source_write`. -/
def submit_prepared_source_write (op_id : OpId) (force_failure : Bool) : KM Unit := do
  let s ← read
  let changed ← ask K.env.route_changed
  let force_failure := force_failure || ((s.source_pins op_id).route.1 ≠ "" && changed)
  let keys ← visit K (s.source_pins op_id).keys.elems
  let local_sources ← claim_local_dram_sources K op_id keys
  let s ← read
  let op := s.source_pins op_id
  let framework_sources (key : BlockKey) : Option (List TransferRef) :=
    if local_sources.contains key then none
    else (s.record key).bind fun record => (s.recs record).fw_mem.map (·.descriptors)
  let requests := if force_failure then [] else (op.ordered_keys.zip op.dst_descriptors).zipIdx
  let selection ← foldEach requests ({} : Selection) fun acc ((key, destination), index) =>
    select_source K op_id local_sources framework_sources acc key destination index
  let s ← read
  let completed_keys := selection.completed_indices.map fun i => op.ordered_keys.getD i default
  let retained := if selection.waiting then (s.source_pins op_id).keys.elems else completed_keys
  release_local_dram_sources K op_id
    (some (local_sources.keys.filter fun key => key ∉ retained))
  let s ← read
  let held := (s.local_dram_sources_by_op.get? op_id).getD Dict.empty
  let framework_pins := framework_pins_of s (retained.filter fun key => ¬ held.contains key)
  let unused_pins := (s.source_pins op_id).framework_pins.elems.filter
    fun pin => pin ∉ framework_pins
  if selection.waiting then
    modify_source_pin op_id fun op => { op with framework_pins := framework_pins }
    release_framework_pins K unused_pins
  else
    modify_source_pin op_id fun op => { op with framework_pins := OrderedSet.empty }
    change fun s =>
      { s with remote.source_pin_ops := s.remote.source_pin_ops.erase op_id }
    remove_block_dependencies K op_id (s.source_pins op_id).keys.elems
    let write : SourceWriteOp :=
      { op_id := op_id
        keys := if completed_keys = [] then (s.source_pins op_id).keys
          else OrderedSet.ofList completed_keys
        deadline := op.deadline
        state := if force_failure then .NOTIFY_FAILURE else .READY_TO_WRITE
        remote_agent := op.remote_agent
        op_handle := op.op_handle
        source_keys := completed_keys
        dst_descriptors := selection.completed_indices.map fun i => op.dst_descriptors.getD i []
        src_descriptors := selection.selected_sources
        completed_indices := selection.completed_indices
        route := op.route }
    add_block_dependencies K op_id write.keys.elems
    change fun s =>
      { s with remote.fw_pins_by_op := s.remote.fw_pins_by_op.set op_id framework_pins }
    submit K (.source_write write)
    release_framework_pins K unused_pins

/-- Some pin under release still covers one of the keys. -/
def releasing_overlaps (s : Core) (keys : List BlockKey) : List PinHandle → KM Bool
  | [] => pure false
  | pin :: pins =>
    match s.framework_pin_keys.get? pin with
    | none => raise .key_error
    | some pinned =>
      if pinned.elems.any (· ∈ keys) then pure true else releasing_overlaps s keys pins

/-- `_resume_source_pin`. -/
def resume_source_pin (op_id : OpId) : KM Unit := do
  let s ← read
  if op_id ∉ s.remote.source_pin_ops then pure ()
  else
    let now ← clock K
    if now ≥ (s.source_pins op_id).deadline then submit_prepared_source_write K op_id true
    else
      let keys ← visit K (s.source_pins op_id).keys.elems
      let local_sources ← claim_local_dram_sources K op_id keys true
      let s ← read
      let op := s.source_pins op_id
      let unresolved := op.ordered_keys.filter fun key =>
        key ∈ op.keys ∧ ¬ local_sources.contains key
      if unresolved ≠ [] ∧ ¬ op.framework_acquire_attempted then
        let overlaps ← releasing_overlaps s unresolved s.remote.releasing_framework_pins.elems
        if overlaps then pure ()
        else
          modify_source_pin op_id fun op => { op with framework_acquire_attempted := true }
          let (held, pending) ← acquire_framework_sources K unresolved
          modify_source_pin op_id fun op =>
            { op with framework_pins := held.elems.foldl OrderedSet.insert op.framework_pins }
          if pending ≠ [] then forEach pending (register_pending_pin op_id)
          else submit_prepared_source_write K op_id false
      else submit_prepared_source_write K op_id false

/-- `start_source_pin`. -/
def start_source_pin (op : SourcePinOp) : KM Unit := do
  modify_source_pin op.op_id fun _ => op
  add_block_dependencies K op.op_id op.keys.elems
  change fun s =>
    { s with remote.source_pin_ops := s.remote.source_pin_ops.insert op.op_id }
  resume_source_pin K op.op_id

/-- `_expire_source_pin`. -/
def expire_source_pin (op_id : OpId) : KM Unit := do
  cancel_pending_pin_for_op K op_id
  submit_prepared_source_write K op_id true

/-- `_resolve_pending_source_pin`. -/
def resolve_pending_source_pin (request : PinRequestId) (op_id : OpId) : KM Unit := do
  let s ← read
  if request ∉ (s.source_pins op_id).pending_pin_ids then pure ()
  else
    modify_source_pin op_id fun op =>
      { op with pending_pin_ids := op.pending_pin_ids.erase request }
    let s ← read
    let op := s.source_pins op_id
    if op.pending_pin_ids.elems ≠ [] then pure ()
    else
      let relevant := framework_pins_of s op.keys.elems
      modify_source_pin op_id fun op => { op with framework_pins := relevant }
      release_framework_pins K (op.framework_pins.elems.filter fun pin => pin ∉ relevant)
      resume_source_pin K op_id

/-- One result of `_process_pending_pin_results`. -/
def process_pin_result (request : PinRequestId) (result : PinResult) : KM Unit := do
  let wait ← remove_pending_pin_state request
  let s ← read
  let waiters := (wait.map fun wait => wait.op_ids.elems).getD []
  let keys := (wait.map fun wait => wait.keys).getD []
  let ops := waiters.filter fun op_id =>
    op_id ∈ s.remote.source_pin_ops ∧ request ∈ (s.source_pins op_id).pending_pin_ids
  let ops ← visit K ops
  if ops = [] then discard_pin_result K result keys
  else
    let now ← clock K
    let expired := ops.filter fun op_id => (s.source_pins op_id).deadline ≤ now
    let active := ops.filter fun op_id => now < (s.source_pins op_id).deadline
    let expire (op_id : OpId) : KM Unit := do
      modify_source_pin op_id fun op =>
        { op with pending_pin_ids := op.pending_pin_ids.erase request }
      expire_source_pin K op_id
    if active = [] then
      discard_pin_result K result keys
      forEach expired expire
    else
      let installed ← match result with
        | none => pure none
        | some (pin_handle, descriptors) => do
          let installed ← install_framework_pin K keys pin_handle descriptors
          pure (if installed then some pin_handle else none)
      match installed with
      | none => pure ()
      | some pin_handle => forEach active fun op_id => modify_source_pin op_id fun op =>
          { op with framework_pins := op.framework_pins.insert pin_handle }
      forEach expired expire
      forEach active (resolve_pending_source_pin K request)
      match installed with
      | none => pure ()
      | some pin_handle => release_framework_pins K [pin_handle]

/-- `poll` of the sources. -/
def poll_sources : KM Unit := do
  if K.cfg.framework_pinning then
    let results ← ask K.env.poll_pin_results
    forEach results fun (request, result) => process_pin_result K request result
  else pure ()
  let now ← clock K
  let s ← read
  forEach s.remote.source_pin_ops.elems fun op_id => do
    let s ← read
    if now ≥ (s.source_pins op_id).deadline then expire_source_pin K op_id
    else if (s.source_pins op_id).pending_pin_ids.elems = [] then resume_source_pin K op_id
    else pure ()

/-- `finish_source_write`. -/
def finish_source_write (item : SourceWriteOp) : KM Unit := do
  if item.state = .FINISHED ∨ item.state = .CANCEL_PENDING then
    -- The reader releases of a progress-owned write are drained by the local tier.
    if item.local_sources.isSome then pure ()
    else
      let s ← read
      let pins := s.remote.fw_pins_by_op.get? item.op_id
      change fun s =>
        { s with remote.fw_pins_by_op := s.remote.fw_pins_by_op.erase item.op_id }
      -- KVCR-owned contents stay claimed until native quiescence.
      if item.state = .FINISHED then
        remove_block_dependencies K item.op_id item.keys.elems
        if item.success then
          let s ← read
          record_access K ((s.local_dram_sources_by_op.get? item.op_id).getD Dict.empty).keys
        else pure ()
        release_local_dram_sources K item.op_id
      else pure ()
      match pins with
      | none => pure ()
      | some pins => release_framework_pins K pins.elems
  else raise (.runtime_error "KVCR source operation returned to main")

end Kvcr
