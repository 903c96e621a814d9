/-
The caller's half of `remote_fw_dram.py`: request hints, and starting a pull from a
peer into local DRAM (`fetch`) or into framework memory (`deliver`).
-/
import Kvcr.LocalDisk

set_option autoImplicit false

namespace Kvcr

open Prog

variable (K : Knot)

/-! ## Hints -/

/-- `self._request_hints[request_id] = hint`. -/
def set_hint (request_id : RequestId) (hint : RequestHint) : KM Unit :=
  change fun s =>
    { s with remote.request_hints := s.remote.request_hints.set request_id hint }

/-- The eager metadata request: it only has to find the progress thread alive. -/
def eager_connect (src : Option String) : KM Unit :=
  if src.isSome ∧ K.cfg.eager_ctrl_connect then raise_if_failed K else pure ()

/-- `submit_hint`: a hint that names another source than the last one fails the
request closed. -/
def submit_hint (src : Option String) (block_hashes : List Nat)
    (request_id : Option RequestId) : KM Unit := do
  match request_id with
  | none => eager_connect K src
  | some request_id =>
    let s ← read
    let hint : RequestHint := { source := src, block_hashes := block_hashes }
    match s.remote.request_hints.get? request_id with
    | some previous =>
      if previous.source ≠ src then set_hint request_id { previous with failed := true }
      else
        set_hint request_id hint
        eager_connect K src
    | none =>
      set_hint request_id hint
      eager_connect K src

/-- `query`: whether `key` matches the request's remote hint. -/
def remote_query (cfg : Config) (s : Core) (key : BlockKey) (request_id : RequestId) : Bool :=
  match s.remote.request_hints.get? request_id, cfg.key_adapter with
  | some hint, some encode_to_router =>
    hint.source.isSome && !hint.failed && !decide (key ∈ hint.missing_keys) &&
      (cfg.opportunistic_query || decide (encode_to_router key ∈ hint.block_hashes))
  | _, _ => false

/-- `discard_hint` of the core and of the backend. -/
def discard_hint (request_id : RequestId) : KM Unit :=
  change fun s =>
    { s with
      remote_delivery_keys := s.remote_delivery_keys.erase request_id
      remote.request_hints := s.remote.request_hints.erase request_id }

/-- `_fail_request_hint`. -/
def fail_request_hint (request_id : Option RequestId) : KM Unit := do
  match request_id with
  | none => pure ()
  | some request_id =>
    let s ← read
    match s.remote.request_hints.get? request_id with
    | none => pure ()
    | some hint => set_hint request_id { hint with failed := true }

/-! ## Pulls -/

/-- The layout a local fill sends along: that of the first key's residency. -/
def fill_key_layout (s : Core) (keys : List BlockKey) : KM (List Label) :=
  match keys with
  | [] => raise .key_error
  | key :: _ =>
    match s.local_dram key with
    | none => raise .key_error
    | some r => pure (s.residencies r).key_layout

/-- `_remote_delivery_keys.setdefault(request_id, set()).update(keys)`. -/
def remember_remote_keys (request_id : RequestId) (keys : List BlockKey) : KM Unit :=
  change fun s =>
    let known := (s.remote_delivery_keys.get? request_id).getD OrderedSet.empty
    { s with remote_delivery_keys :=
        s.remote_delivery_keys.set request_id (keys.foldl OrderedSet.insert known) }

/-- `_start_target_pull`: whether the hint lets a pull start. -/
def start_target_pull (blocks : Dict BlockKey (List TransferRef)) (request_id : Option RequestId)
    (deadline : Time) (op_handle : OpHandle) (local_fill : Bool) : KM Bool := do
  let s ← read
  match request_id.bind s.remote.request_hints.get? with
  | none => pure false
  | some hint =>
    match hint.source with
    | none => pure false
    | some source =>
      if hint.failed ∨ blocks.keys.all (fun key => key ∈ hint.missing_keys) then pure false
      else
        let keys := blocks.keys.filter fun key => key ∉ hint.missing_keys
        let key_layout ← if local_fill then fill_key_layout s keys else pure []
        let op : TargetPullOp :=
          { op_handle := op_handle
            keys := OrderedSet.ofList blocks.keys
            deadline := deadline
            state := .START_WRITE
            local_fill := local_fill
            remote_ctrl_ep := source
            ordered_keys := keys
            dst_descriptors := keys.map fun key => (blocks.get? key).getD []
            request_id := request_id
            key_layout := key_layout }
        add_block_dependencies K (.target op_handle) op.keys.elems
        submit K (.target_pull op)
        match local_fill, request_id with
        | false, some request_id => remember_remote_keys request_id keys
        | _, _ => pure ()
        pure true

/-- `deliver` of the backend. -/
def remote_deliver (op_handle : OpHandle) (blocks : Dict BlockKey (List TransferRef))
    (request_id : Option RequestId) (deadline : Time) : KM Unit := do
  let started ← start_target_pull K blocks request_id deadline op_handle false
  if started then pure ()
  else complete op_handle (.literal (fromkeys blocks.keys FAILED_RESULT))

/-- `_start_local_fill`: a fill that does not start fails at once. -/
def start_local_fill (source : CacheTier) (blocks : Dict BlockKey (List TransferRef))
    (request_id : Option RequestId) (deadline : Time) : KM Unit := do
  if blocks.entries = [] then pure ()
  else
    let s ← read
    let fill_handle := s.next_fill_handle
    change fun s => { s with next_fill_handle := s.next_fill_handle - 1 }
    let started ← match source with
      | .G3 =>
        if K.cfg.g3.isSome then g3_start_read K .fill fill_handle blocks deadline else pure false
      | .REMOTE_G2 => start_target_pull K blocks request_id deadline fill_handle true
      | _ => raise (.value_error "unsupported local fill source")
    if started then pure () else K.fail_local_dram_fill blocks.keys

end Kvcr
