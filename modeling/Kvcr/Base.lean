/-
The part of `core.py` the memory tiers call: the record table, block metadata and
lifecycle hooks, operation dependencies, completions, descriptor validation, and
the publication of residency changes.

The tiers call back into each other without end: a claim released inside an
allocation wakes a waiter, which allocates. Those two ways back in are the fields of
a `Knot`; a function takes the knot it is tied into, and `Kvcr.Core` ties it by
recursion on fuel. Everything else a function needs and cannot change, the
configuration and the environment, travels in the knot too.
-/
import Kvcr.Regions
import Kvcr.State

set_option autoImplicit false

namespace Kvcr

open Prog

/-- What a function of the core runs against: the configuration, the environment,
fuel for its own loops, and the two re-entrant calls. -/
structure Knot where
  cfg : Config
  env : Env
  fuel : Nat
  /-- `_resume_capacity_waiters` -/
  resume_capacity_waiters : KM Unit
  /-- `_complete_local_dram_fill(keys, success=False)` -/
  fail_local_dram_fill : List BlockKey → KM Unit

variable (K : Knot)

/-- `self._clock()`. -/
def clock : KM Time := ask K.env.clock

/-- Visit a set in the order the environment chooses. -/
def visit {α : Type} (xs : List α) : KM (List α) := do
  let order ← ask K.env.order
  pure (permute order xs)

/-- Raise what a pure check refused. -/
def lift_except {α : Type} (x : Except Err α) : KM α :=
  match x with
  | .ok a => pure a
  | .error e => raise e

/-! ## Records -/

/-- `_block_record`. -/
def block_record (key : BlockKey) : KM RecId := do
  let s ← read
  match s.record key with
  | some record => pure record
  | none =>
    change fun s =>
      { s with
        recs := Function.update s.recs s.next_rec {}
        next_rec := s.next_rec + 1
        block_record_map := s.block_record_map.set key s.next_rec }
    pure s.next_rec

/-- `_prune_block_record`. -/
def prune_block_record (key : BlockKey) : KM Unit := do
  let s ← read
  match s.record key with
  | none => pure ()
  | some record =>
    let r := s.recs record
    if r.fw_mem.isNone ∧ r.local_dram.isNone ∧ r.g3.isNone ∧ r.in_flight_ops.elems = [] then
      change fun s => { s with block_record_map := s.block_record_map.erase key }
    else pure ()

/-- `_block_meta`. -/
def block_meta (s : Core) (key : BlockKey) (record : RecId) (size_bytes : Nat) : BlockMeta :=
  let r := s.recs record
  { block_key := key
    size_bytes := size_bytes
    access_count := r.access_count
    last_access := r.last_access
    resident_tiers :=
      (if r.fw_mem.isSome then [.FW_G2] else []) ++
      (if r.local_dram.isSome then [.LOCAL_G2] else []) ++
      (if r.g3.isSome then [.G3] else [])
    position := r.position }

/-- The tiers of a block that KVCR itself manages. -/
def managed_tiers (m : BlockMeta) : List CacheTier :=
  m.resident_tiers.filter fun tier => tier = .LOCAL_G2 ∨ tier = .G3

/-- `_on_ingest`. -/
def on_ingest (m : BlockMeta) (source : CacheTier) : KM Unit :=
  if (managed_tiers m).length = 1 then act (.on_ingest m.block_key source) else pure ()

/-- `_on_remove`. -/
def on_remove (m : BlockMeta) : KM Unit :=
  if managed_tiers m = [] then act (.on_remove m.block_key) else pure ()

/-- `_record_access`. -/
def record_access (keys : List BlockKey) : KM Unit := do
  let now ← clock K
  forEach keys fun key => do
    let s ← read
    match s.record key with
    | none => raise .key_error
    | some record => modify_rec record fun r =>
        { r with access_count := r.access_count + 1, last_access := some now }

/-! ## Dependencies and completions -/

/-- `_add_block_dependencies(op, new_operation=True)`. -/
def add_block_dependencies (op_id : OpId) (keys : List BlockKey) : KM Unit := do
  change fun s => { s with outstanding_operations := s.outstanding_operations + 1 }
  let keys ← visit K keys
  forEach keys fun key => do
    let record ← block_record key
    modify_rec record fun r => { r with in_flight_ops := r.in_flight_ops.insert op_id }

/-- `_remove_block_dependencies`. -/
def remove_block_dependencies (op_id : OpId) (keys : List BlockKey) : KM Unit := do
  change fun s => { s with outstanding_operations := s.outstanding_operations - 1 }
  let keys ← visit K keys
  forEach keys fun key => do
    let s ← read
    match s.record key with
    | none => pure ()
    | some record =>
      modify_rec record fun r => { r with in_flight_ops := r.in_flight_ops.erase op_id }
      prune_block_record key

/-- `record.active_op_ids`: a snapshot, in the order of the set. -/
def active_op_ids (record : RecId) : KM (List OpId) := do
  let s ← read
  visit K (s.recs record).in_flight_ops.elems

/-- The dictionary behind the entries of a completion. -/
def Entries.resolve (s : Core) : Entries → Results
  | .residency_results op_id => (s.residency_ops op_id).results
  | .deliver_results op_id => (s.deliver_ops op_id).results
  | .literal results => results

/-- `dict.fromkeys(keys, result)`. -/
def fromkeys (keys : List BlockKey) (result : OpEntryResult) : Results :=
  keys.foldl (fun d key => d.set key result) Dict.empty

/-- `d.update(e)`. -/
def update_results (d e : Results) : Results :=
  e.entries.foldl (fun d p => d.set p.1 p.2) d

/-- `_complete`. -/
def complete (op_handle : OpHandle) (entries : Entries) : KM Unit := do
  let s ← read
  match s.joined_completions.get? op_handle with
  | none =>
    change fun s => { s with completion_queue := s.completion_queue ++ [(op_handle, entries)] }
  | some (expected, completed) =>
    let completed := update_results completed (entries.resolve s)
    if expected.elems.all completed.contains then
      change fun s =>
        { s with
          joined_completions := s.joined_completions.erase op_handle
          completion_queue := s.completion_queue ++ [(op_handle, .literal completed)] }
    else
      change fun s =>
        { s with joined_completions := s.joined_completions.set op_handle (expected, completed) }

/-- `_publish_inventory`. -/
def publish_inventory (keys : List BlockKey) (tier : CacheTier) (removed : Bool) : KM Unit :=
  if keys ≠ [] ∧ K.cfg.inventory_sink then act (.inventory keys tier removed) else pure ()

/-- `_operation_deadline`. -/
def operation_deadline : KM Time := do
  let now ← clock K
  pure (now + K.cfg.operation_timeout_ms)

/-- `_progress.raise_if_failed`. -/
def raise_if_failed : KM Unit := do
  let failed ← ask K.env.progress_failed
  change fun s => { s with progress.failed := s.progress.failed || failed }
  let s ← read
  if s.progress.failed then raise .progress_failed else pure ()

/-- `_progress.submit` of an operation. -/
def submit (op : ProgressOp) : KM Unit := do
  raise_if_failed K
  change fun s => { s with progress.in_flight := s.progress.in_flight ++ [op] }

/-! ## Recovery frames -/

/-- A READY local residency none of whose pieces is pending. -/
def LocalDramResidency.complete (r : LocalDramResidency) : Bool :=
  r.state = .READY && r.pending_labels.elems.isEmpty

/-- `_BlockRecord` with the residencies it owns. -/
structure Record where
  fw_mem : Option FwMemResidency := none
  local_dram : Option LocalDramResidency := none
  g3 : Option G3Residency := none
  in_flight_ops : OrderedSet OpId := OrderedSet.empty
  access_count : Nat := 0
  last_access : Option Time := none
  position : Int := -1
deriving Inhabited

/-- A record of a core. -/
def BlockRecord.value (s : Core) (r : BlockRecord) : Record :=
  { fw_mem := r.fw_mem
    local_dram := r.local_dram.map s.residencies
    g3 := r.g3.map s.g3_residencies
    in_flight_ops := r.in_flight_ops
    access_count := r.access_count
    last_access := r.last_access
    position := r.position }

/-- `_project_recovery_record`. -/
def Record.project (r : Record) : RecoveryBlock :=
  { g2 := r.local_dram.bind fun d => if d.complete then some d.slots else none
    g3 := r.g3.map fun g => (g.layout, g.slots)
    position := r.position }

/-- `_residency_observer`, once a journal is attached: publish the record's frame;
the first rejected frame disables publication for good. -/
def residency_observer (key : BlockKey) (record : RecId) : KM Unit := do
  let s ← read
  if s.journal_enabled then
    let accepted ← ask K.env.journal_accepts
    if accepted then act (.frame key ((s.recs record).value s).project)
    else
      act (.frame_rejected key)
      change fun s => { s with journal_enabled := false }
  else pure ()

/-! ## Descriptors -/

variable (cfg : Config)

/-- `_region`: `_resolve_region` against the core's own registrations. -/
def own_region (ref : TransferRef) : Except Err RegionDescriptor :=
  (resolve_region cfg.region_maps cfg.nixl_agent_name ref).mapError .value_error

/-- `_address_descriptor`. -/
def address_descriptor (ref : TransferRef) : Except Err MemDescriptor :=
  (address_descriptor_in cfg.region_maps cfg.nixl_agent_name ref).mapError .value_error

theorem address_descriptor_eq_ok {ref : TransferRef} {d : MemDescriptor} :
    address_descriptor cfg ref = .ok d ↔
      ∃ region, resolve_region cfg.region_maps cfg.nixl_agent_name ref = .ok region ∧
        region.element ref.element_index = d := by
  rw [← address_descriptor_in_eq_ok, address_descriptor]
  cases address_descriptor_in cfg.region_maps cfg.nixl_agent_name ref with
  | error message => exact iff_of_false (fun h => by cases h) fun h => by cases h
  | ok d' => exact ⟨fun h => congrArg _ (Except.ok.inj h), fun h => congrArg _ (Except.ok.inj h)⟩

/-- `_descriptor_bytes`; every label was validated when it entered the core. -/
def descriptor_bytes (refs : List TransferRef) : Nat :=
  (refs.map fun ref => (cfg.block_size ref.label.pool).getD 0).sum

/-- The part of a label is empty or reserved. -/
def Label.bad_part (label : Label) : Bool := label.part = some "" || label.part = some "*"

/-- The loop of `_validate_descriptors`, with the part labels seen so far. -/
def validate_descriptors_loop : List TransferRef → List Label → Except Err Unit
  | [], _ => .ok ()
  | ref :: refs, labels => do
    let region ← own_region cfg ref
    match cfg.block_size ref.label.pool with
    | none => .error (.value_error "block descriptors must use configured pools")
    | some block_size =>
      if ref.label.bad_part then
        .error (.value_error "block descriptors must use configured pools")
      else if region.size ≠ block_size then
        .error (.value_error "block descriptor has the wrong byte count")
      else if ref.label.part.isSome ∧ ref.label ∈ labels then
        .error (.value_error "block part labels must be unique")
      else validate_descriptors_loop refs (ref.label :: labels)

/-- `_normalize_descriptors`. -/
def normalize_descriptors (descriptors : List MemoryRef) : Except Err (List TransferRef) :=
  if descriptors = [] then
    .error (.value_error "each block requires at least one MemoryRef")
  else do
    let normalized : List TransferRef := descriptors.map fun ref =>
      { end_point_name := ref.end_point_name, element_index := ref.element_index,
        label := ref.label }
    validate_descriptors_loop cfg normalized []
    pure normalized

/-- The loop of `_validate_expected_layout`. -/
def validate_layout_loop : List Label → List Label → Except Err Unit
  | [], _ => .ok ()
  | label :: layout, labels =>
    if cfg.block_size label.pool = none ∨ label.bad_part then
      .error (.value_error "expected layout must include configured local pools")
    else if label.part.isSome ∧ label ∈ labels then
      .error (.value_error "block part labels must be unique")
    else validate_layout_loop layout (label :: labels)

/-- `_validate_expected_layout` of a layout that is given. -/
def validate_expected_layout (layout : List Label) : Except Err Unit :=
  if layout = [] then
    .error (.value_error "expected layout must include configured local pools")
  else validate_layout_loop cfg layout []

end Kvcr
