/-
The NIXL side of `progress.py`: native transfers, the prepared memory grids they name
their elements in.

NIXL is the environment. Each of its calls is a function of how many calls were made
before it, so quantifying over agents quantifies over every sequence of answers; a call
returns, raises, or raises `nixlRemoteDisconnectError`. What the thread asked and what it
was told about a transfer goes into the log. Lifecycle traces, log lines and the rate limit
of one of them are left out: nothing reads them.
-/
import Kvcr.Regions
import Kvcr.Lib.Prog

set_option autoImplicit false

namespace Kvcr

/-! ## Regions and references -/

/-- The half of a pair that belongs to a namespace, the framework's first. -/
def in_namespace {α : Type} (framework : Bool) (p : α × α) : α := if framework then p.1 else p.2

/-- What a function of this file raises. -/
inductive NixlError where
  | value_error (message : String)
  | runtime_error (message : String)
  | key_error
  | attribute_error
  /-- a native call raised, `disconnect` for `nixlRemoteDisconnectError` -/
  | native (disconnect : Bool)
deriving DecidableEq, Inhabited

/-- The fields `_validate_memory_regions` checks, each with its least value. -/
def RegionDescriptor.uint64_fields (region : RegionDescriptor) : List (String × Nat × Nat) :=
  [("addr", 0, region.addr), ("size", 1, region.size), ("device_Id", 0, region.device_Id),
    ("stride", 0, region.stride), ("count", 1, region.count)]

/-- `_validate_memory_regions`: the checks of one region, with the elements counted so far
for each memory type. -/
def validate_memory_region (region : RegionDescriptor) (counts : Dict String Nat) :
    Except NixlError (Dict String Nat) :=
  match region.uint64_fields.find? fun field =>
      ¬ (field.2.1 ≤ field.2.2 ∧ field.2.2 ≤ 2 ^ 64 - 1) with
  | some (name, _, _) =>
    .error (.value_error ("registration " ++ name ++ " must be in uint64 range"))
  | none =>
    if region.stride ≠ 0 ∧ region.stride < region.size then
      .error (.value_error "registration stride must be zero or at least size")
    else if region.addr + (region.size + (region.count - 1) * region.pitch) > 2 ^ 64 - 1 then
      .error (.value_error "registration extent exceeds uint64 address range")
    else if region.mem_type = "" then
      .error (.value_error "registration memory type must be a non-empty string")
    else if region.label.part = some "" then
      .error (.value_error "registration name must be a pool or pool:part string")
    else
      let count := (counts.get? region.mem_type).getD 0 + region.count
      if count > 2 ^ 31 then .error (.value_error "registration indices exceed int32 range")
      else .ok (counts.set region.mem_type count)

/-- `_validate_memory_regions`. -/
def validate_memory_regions (regions : List RegionDescriptor)
    (counts : Dict String Nat := Dict.empty) : Except NixlError Unit :=
  match regions with
  | [] => .ok ()
  | region :: regions =>
    match validate_memory_region region counts with
    | .error e => .error e
    | .ok counts => validate_memory_regions regions counts

/-! ## NIXL -/

/-- The state NIXL reports for a transfer. -/
inductive XferState where
  | PROC | PEND | DONE | ERR
  | unexpected
deriving DecidableEq, Inhabited

/-- `xfer_state in ("PROC", "PEND")`. -/
def XferState.pending : XferState → Bool
  | .PROC | .PEND => true
  | _ => false

/-- How a native call ended. -/
inductive Native (α : Type) where
  | returned (a : α)
  | raised
  | disconnected
deriving DecidableEq

/-- The state a poll goes by: an exception counts as an error. -/
def Native.xfer_state : Native XferState → XferState
  | .returned state => state
  | .raised | .disconnected => .ERR

/-- One row of a prepared grid: address, size, device, pitch and number of elements. -/
structure GridRow where
  addr : Nat
  size : Nat
  device_Id : Nat
  stride : Nat
  count : Nat
deriving DecidableEq, Inhabited

/-- A descriptor list: references into registered memory, or raw addresses. -/
inductive Descriptors where
  | refs (entries : List TransferRef)
  | raw (entries : List MemDescriptor)
deriving DecidableEq

def Descriptors.isEmpty : Descriptors → Bool
  | .refs entries => entries.isEmpty
  | .raw entries => entries.isEmpty

/-- `descriptors[0]` is a raw descriptor of a file. -/
def Descriptors.is_file : Descriptors → Bool
  | .raw (descriptor :: _) => descriptor.mem_type = "FILE"
  | _ => false

/-- What a transfer is created from. -/
inductive XferRequest where
  /-- `make_prepped_xfer`: two prepared grids and the elements of each -/
  | prepped (operation : String) (local_handle : Nat) (local_indices : List Nat)
      (remote_handle : Nat) (remote_indices : List Nat)
  /-- `initialize_xfer`: raw descriptors and the remote agent's name -/
  | raw (operation : String) (local_descriptors remote_descriptors : List MemDescriptor)
      (remote_agent : String)
deriving DecidableEq

/-- The native agent. An optional call is one the agent may lack. -/
structure NixlAgent where
  create_xfer : Nat → XferRequest → Native (Option Nat)
  transfer : Nat → Nat → Native XferState
  check_xfer_state : Nat → Nat → Native XferState
  release_xfer_handle : Option (Nat → Nat → Native Bool)
  get_xfer_telemetry : Option (Nat → Nat → Native Nat)
  prep_xfer_dlist : Nat → String → List GridRow → String → Native (Option Nat)
  release_dlist_handle : Nat → Nat → Native Bool

/-- What the log says of a transfer: how its submission was answered, what each poll was
told, each request to release its handle, and the result its caller was given. -/
inductive NixlEv where
  | posted (transfer_id : Nat) (answer : Native XferState)
  | checked (transfer_id : Nat) (answer : Native XferState)
  | release_asked (transfer_id : Nat) (answer : Native Bool)
  | returned (transfer_id : Nat) (success : Bool)
deriving DecidableEq

/-- `_TransferState`. -/
structure TransferState where
  handle : Nat
  remote_side_agent : String
  capture_telemetry : Bool := false
  outcome : Option Bool := none
  telemetry : Option Nat := none
deriving DecidableEq, Inhabited

/-- The offsets of a prepared grid: the framework's labels and the cache's own. -/
abbrev GridOffsets := Dict Label Nat × Dict Label Nat

/-- The part of `_KVCRProgress` that stands between the operations and NIXL. -/
structure KVCRProgress where
  nixl_agent_name : String
  active_transfers : Dict Nat TransferState := Dict.empty
  disconnected_remote_agents : OrderedSet String := OrderedSet.empty
  next_transfer_id : Nat := 0
  prepared : Dict String (Dict String (Nat × GridOffsets)) := Dict.empty
  catalogs : Dict String (String × RegionMaps) := Dict.empty
  /-- how many native calls were made -/
  tick : Nat := 0

/-- A function of the progress thread. -/
abbrev PM (α : Type) := Prog KVCRProgress NixlError NixlEv α

open Prog

/-- Make a native call. -/
def native {α : Type} (answer : Nat → α) : PM α :=
  step (fun s => answer s.tick) fun s => { s with tick := s.tick + 1 }

theorem wp_native {α : Type} {answer : Nat → α} {W : Watch KVCRProgress NixlError NixlEv}
    {Q : α → KVCRProgress → List NixlEv → Prop} {s : KVCRProgress} {t : List NixlEv} :
    wp W (native answer) Q s t ↔ Q (answer s.tick) { s with tick := s.tick + 1 } t := wp_step

/-- What a native call that is not guarded leaves its caller with. -/
def unguarded {α : Type} : Native α → PM α
  | .returned a => pure a
  | .raised => raise (.native false)
  | .disconnected => raise (.native true)

/-! ## Prepared memory -/

/-- All registered regions, each with its namespace, the framework's before the cache's
own. -/
def tagged_regions (regions : RegionMaps) : List (Bool × RegionDescriptor) :=
  regions.1.values.map (fun r => (true, r)) ++ regions.2.values.map fun r => (false, r)

/-- The registered regions by memory type. -/
def entries_by_type (regions : RegionMaps) : Dict String (List (Bool × RegionDescriptor)) :=
  (tagged_regions regions).foldl
    (fun by_type entry => by_type.set entry.2.mem_type
      ((by_type.get? entry.2.mem_type).getD [] ++ [entry]))
    Dict.empty

/-- `offsets[region.label] = offset; offset += region.count`. -/
def place_region (acc : GridOffsets × Nat) (entry : Bool × RegionDescriptor) : GridOffsets × Nat :=
  (if entry.1 then (acc.1.1.set entry.2.label acc.2, acc.1.2)
    else (acc.1.1, acc.1.2.set entry.2.label acc.2), acc.2 + entry.2.count)

/-- Where the elements of each region of one memory type start in the grid. -/
def grid_offsets (entries : List (Bool × RegionDescriptor)) : GridOffsets :=
  (entries.foldl place_region ((Dict.empty, Dict.empty), 0)).1

/-- The rows `prep_xfer_dlist` is given. -/
def grid_rows (entries : List (Bool × RegionDescriptor)) : List GridRow :=
  entries.map fun entry =>
    { addr := entry.2.addr, size := entry.2.size, device_Id := entry.2.device_Id
      stride := entry.2.pitch, count := entry.2.count }

variable (agent : NixlAgent)

/-- `release_prepared`. -/
def release_prepared (agent_name : String) : PM Unit := do
  let s ← read
  if s.active_transfers.values.any fun state =>
      agent_name = "" ∨ state.remote_side_agent = agent_name then
    raise (.runtime_error "cannot release prepared memory with active transfers")
  else
    forEach ((s.prepared.get? agent_name).getD Dict.empty).entries fun (mem_type, handle, _) => do
      let answer ← native fun tick => agent.release_dlist_handle tick handle
      if ← unguarded answer then
        change fun s =>
          { s with
            prepared := s.prepared.set agent_name
              (((s.prepared.get? agent_name).getD Dict.empty).erase mem_type) }
      else raise (.runtime_error "NIXL prepared memory did not close")
    change fun s =>
      { s with prepared := s.prepared.erase agent_name, catalogs := s.catalogs.erase agent_name }

/-- The body of the loop of `prepare_memory`. -/
def prepare_grid (agent_name mem_type : String) (entries : List (Bool × RegionDescriptor)) :
    PM Unit := do
  let answer ← native fun tick => agent.prep_xfer_dlist tick agent_name (grid_rows entries) mem_type
  match ← unguarded answer with
  | none => raise (.runtime_error "prep_xfer_dlist returned None")
  | some handle =>
    change fun s =>
      { s with
        prepared := s.prepared.set agent_name
          (((s.prepared.get? agent_name).getD Dict.empty).set mem_type
            (handle, grid_offsets entries)) }

/-- `prepare_memory`. -/
def prepare_memory (agent_name : String) (regions : RegionMaps) (owner_name : Option String) :
    PM Unit := do
  let s ← read
  if s.prepared.contains agent_name then
    raise (.runtime_error "NIXL prepared memory is already initialized")
  else
    let owner := owner_name.getD (if agent_name = "" then s.nixl_agent_name else agent_name)
    change fun s =>
      { s with
        catalogs := s.catalogs.set agent_name (owner, regions)
        prepared := s.prepared.set agent_name Dict.empty }
    handle (forEach (entries_by_type regions).entries fun (mem_type, entries) =>
        prepare_grid agent agent_name mem_type entries)
      fun e => do
        release_prepared agent agent_name
        raise e
    let s ← read
    if ((s.prepared.get? agent_name).getD Dict.empty).entries = [] then
      change fun s =>
        { s with prepared := s.prepared.erase agent_name, catalogs := s.catalogs.erase agent_name }
    else pure ()

/-- The regions and offsets that a descriptor list has named so far, by label: how many
elements the region has and where they start. -/
abbrev ResolvedLabels := Dict Label (Nat × Nat) × Dict Label (Nat × Nat)

/-- `resolved[namespace][label] = (count, offset)`. -/
def ResolvedLabels.note (resolved : ResolvedLabels) (framework : Bool) (label : Label)
    (entry : Nat × Nat) : ResolvedLabels :=
  if framework then (resolved.1.set label entry, resolved.2)
  else (resolved.1, resolved.2.set label entry)

/-- The loop of `_prepared_indices` over the references after the first. -/
def prepared_indices_loop (regions : RegionMaps) (owner mem_type : String)
    (offsets : GridOffsets) (resolved : ResolvedLabels) (indices : List Nat) :
    List TransferRef → Except NixlError (List Nat)
  | [] => .ok indices
  | ref :: refs =>
    match (in_namespace ref.framework resolved).get? ref.label with
    | some (count, offset) =>
      if ref.element_index < count then
        prepared_indices_loop regions owner mem_type offsets resolved
          (indices ++ [offset + ref.element_index]) refs
      else .error (.value_error "memory reference element_index is outside its region")
    | none =>
      match resolve_region regions owner ref with
      | .error message => .error (.value_error message)
      | .ok region =>
        if region.mem_type ≠ mem_type then
          .error (.value_error "one NIXL descriptor list cannot mix memory types")
        else
          match (in_namespace ref.framework offsets).get? region.label with
          | none => .error .key_error
          | some offset =>
            prepared_indices_loop regions owner mem_type offsets
              (resolved.note ref.framework ref.label (region.count, offset))
              (indices ++ [offset + ref.element_index]) refs

/-- `_prepared_indices`: the grid and the elements of it that the references name. -/
def prepared_indices (s : KVCRProgress) (agent_name : String) (refs : List TransferRef) :
    Except NixlError (Nat × List Nat) :=
  match s.catalogs.get? agent_name, refs with
  | none, _ => .error (.value_error ("no prepared memory for agent " ++ quoted agent_name))
  | some _, [] => .error (.runtime_error "StopIteration")
  | some (owner, regions), first_ref :: refs =>
    match resolve_region regions owner first_ref with
    | .error message => .error (.value_error message)
    | .ok first =>
      match (s.prepared.get? agent_name).bind fun grids => grids.get? first.mem_type with
      | none => .error .key_error
      | some (handle, offsets) =>
        match (in_namespace first_ref.framework offsets).get? first.label with
        | none => .error .key_error
        | some offset =>
          (prepared_indices_loop regions owner first.mem_type offsets
            (ResolvedLabels.note (Dict.empty, Dict.empty) first_ref.framework first_ref.label
              (first.count, offset))
            [offset + first_ref.element_index] refs).map fun indices => (handle, indices)

/-! ## Transfers -/

/-- `_make_transfer_descriptors`. -/
def make_transfer_descriptors : Descriptors → Except NixlError (List MemDescriptor)
  | .refs _ => .error .attribute_error
  | .raw entries =>
    if entries.any fun descriptor => some descriptor.mem_type ≠ entries.head?.map (·.mem_type) then
      .error (.value_error "one NIXL descriptor list cannot mix memory types")
    else .ok entries

/-- `_prepared_indices` of a descriptor list, which has to consist of references. -/
def Descriptors.prepared_indices (s : KVCRProgress) (agent_name : String) :
    Descriptors → Except NixlError (Nat × List Nat)
  | .refs entries => Kvcr.prepared_indices s agent_name entries
  | .raw _ => .error (.value_error "memory transfers require _TransferRef entries")

/-- What `submit_transfer` asks NIXL to create. -/
def xfer_request (s : KVCRProgress) (operation : String)
    (local_descriptors remote_descriptors : Descriptors) (remote_side_agent : String) :
    Except NixlError XferRequest :=
  if local_descriptors.is_file ∨ remote_descriptors.is_file then do
    let source ← make_transfer_descriptors local_descriptors
    let destination ← make_transfer_descriptors remote_descriptors
    pure (.raw operation source destination remote_side_agent)
  else do
    let source ← local_descriptors.prepared_indices s ""
    let destination ← remote_descriptors.prepared_indices s remote_side_agent
    pure (.prepped operation source.1 source.2 destination.1 destination.2)

/-- Change one transfer. -/
def modify_transfer (transfer_id : Nat) (f : TransferState → TransferState) : PM Unit :=
  change fun s =>
    match s.active_transfers.get? transfer_id with
    | none => s
    | some state => { s with active_transfers := s.active_transfers.set transfer_id (f state) }

/-- `_disconnected_remote_agents.add`. -/
def note_disconnect (remote_side_agent : String) : PM Unit :=
  change fun s =>
    { s with
      disconnected_remote_agents := s.disconnected_remote_agents.insert remote_side_agent }

/-- The native submission of a registered transfer, and whether it was taken. -/
def post_transfer (transfer_id handle : Nat) (remote_side_agent : String) : PM Bool := do
  let answer ← native fun tick => agent.transfer tick handle
  emit fun _ => .posted transfer_id answer
  match answer with
  | .returned .DONE =>
    modify_transfer transfer_id fun state => { state with outcome := some true }
    pure true
  | .returned .ERR =>
    modify_transfer transfer_id fun state => { state with outcome := some false }
    pure false
  | .returned state => pure state.pending
  | .raised => pure false
  | .disconnected =>
    note_disconnect remote_side_agent
    pure false

/-- `submit_transfer`. -/
def submit_transfer (operation : String) (local_descriptors remote_descriptors : Descriptors)
    (remote_side_agent : String) (capture_telemetry : Bool) : PM (Nat × Bool) := do
  if local_descriptors.isEmpty ∨ remote_descriptors.isEmpty then
    raise (.value_error "NIXL transfer descriptors must be non-empty")
  else if remote_side_agent = "" then
    raise (.value_error "NIXL remote-side agent must be non-empty")
  else
    let s ← read
    match xfer_request s operation local_descriptors remote_descriptors remote_side_agent with
    | .error e => raise e
    | .ok request =>
      let answer ← native fun tick => agent.create_xfer tick request
      match ← unguarded answer with
      | none => raise (.runtime_error "NIXL transfer creation returned None")
      | some handle =>
        change fun s =>
          { s with
            next_transfer_id := s.next_transfer_id + 1
            active_transfers := s.active_transfers.set (s.next_transfer_id + 1)
              { handle := handle, remote_side_agent := remote_side_agent
                capture_telemetry := capture_telemetry } }
        let submitted ← post_transfer agent (s.next_transfer_id + 1) handle remote_side_agent
        pure (s.next_transfer_id + 1, submitted)

/-- `_release_transfer`. -/
def release_transfer (transfer_id : Nat) (state : TransferState) : PM Bool := do
  match agent.release_xfer_handle with
  | none => pure false
  | some release_xfer =>
    let answer ← native fun tick => release_xfer tick state.handle
    emit fun _ => .release_asked transfer_id answer
    match answer with
    | .returned true =>
      change fun s => { s with active_transfers := s.active_transfers.erase transfer_id }
      pure true
    | _ => pure false

/-- `get_xfer_telemetry`, where the agent has it; telemetry that raises is left out. -/
def ask_telemetry (transfer_id : Nat) (state : TransferState) : PM Unit := do
  match agent.get_xfer_telemetry with
  | none => pure ()
  | some get_telemetry =>
    match ← native fun tick => get_telemetry tick state.handle with
    | .returned telemetry =>
      modify_transfer transfer_id fun state => { state with telemetry := some telemetry }
    | _ => pure ()

/-- The telemetry of a transfer that succeeded is asked for once. -/
def capture_telemetry (transfer_id : Nat) (state : TransferState) : PM Unit := do
  ask_telemetry agent transfer_id state
  modify_transfer transfer_id fun state => { state with capture_telemetry := false }

/-- The end of `poll_transfer`: the outcome is known and the handle has to go. -/
def finish_transfer (transfer_id : Nat) (state : TransferState) (outcome : Bool) :
    PM (Option (Bool × Option Nat)) := do
  if outcome ∧ state.capture_telemetry then capture_telemetry agent transfer_id state
  let s ← read
  let state := (s.active_transfers.get? transfer_id).getD state
  if ← release_transfer agent transfer_id state then pure (some (outcome, state.telemetry))
  else pure none

/-- `poll_transfer`. -/
def poll_transfer (transfer_id : Nat) (require_completion : Bool) :
    PM (Option (Bool × Option Nat)) := do
  let s ← read
  match s.active_transfers.get? transfer_id with
  | none => raise .key_error
  | some state =>
    if state.outcome = none ∨ (require_completion ∧ state.outcome = some false) then
      let answer ← native fun tick => agent.check_xfer_state tick state.handle
      emit fun _ => .checked transfer_id answer
      -- a disconnect is the handle's final status, so nothing more is waited for
      if answer = .disconnected then note_disconnect state.remote_side_agent
      let require_completion := require_completion && answer ≠ .disconnected
      if require_completion ∧ answer.xfer_state ≠ .DONE then
        if ¬ answer.xfer_state.pending then
          modify_transfer transfer_id fun state => { state with outcome := some false }
        pure none
      else if answer.xfer_state.pending then pure none
      else
        let outcome := answer.xfer_state = .DONE && state.outcome ≠ some false
        modify_transfer transfer_id fun state => { state with outcome := some outcome }
        finish_transfer agent transfer_id state outcome
    else finish_transfer agent transfer_id state (state.outcome = some true)

end Kvcr
