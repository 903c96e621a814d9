/-
What the progress thread does to one operation in one iteration: `progress` of
`local_dram.py`, `local_disk.py` and `remote_ops.py`, and the notifications a source
write and a target pull exchange.

Each is a function of the operation and of what that iteration observed: clock
readings, the answers of NIXL, the event found for the operation, whether a control
message could be sent. It returns the operation, the copies of it handed to the
caller, what it tried to send, and whether it is done.
-/
import Kvcr.State

set_option autoImplicit false

namespace Kvcr

/-! ## Local copies and disk transfers -/

/-- One iteration over a native transfer. `submission` is `none` when submitting
raised; `result` is what `poll_transfer(require_completion=True)` returned. -/
structure TransferInput where
  submit_clock : Time
  submission : Option (Nat × Bool)
  deadline_clock : Time
  result : Option Bool
  abandon_clock : Time
deriving Inhabited

/-- The outcome of an iteration over a local copy. -/
structure CopyStep where
  op : LocalCopyOp
  outbound : List LocalCopyOp := []
  done : Bool

/-- The polling half of `_LocalCopyOp.progress`. -/
def LocalCopyOp.poll (i : TransferInput) (op : LocalCopyOp) : CopyStep :=
  let op := { op with failure_latched := op.failure_latched || op.deadline ≤ i.deadline_clock }
  match i.result with
  | none =>
    if op.failure_latched ∧ ¬ op.uncertain ∧ op.abandon_deadline ≤ i.abandon_clock then
      -- Report failure without returning the native handle or pool memory.
      let op := { op with uncertain := true }
      { op := op, outbound := [op], done := false }
    else { op := op, done := false }
  | some succeeded =>
    { op := { op with transfer_id := none, success := succeeded && !op.failure_latched }
      done := true }

/-- `_LocalCopyOp.progress`. -/
def LocalCopyOp.progress (i : TransferInput) (op : LocalCopyOp) : CopyStep :=
  match op.transfer_id with
  | some _ => op.poll i
  | none =>
    if op.deadline ≤ i.submit_clock then { op := op, done := true }
    else
      match i.submission with
      | none => { op := op, done := true }
      | some (transfer_id, submitted) =>
        { op with transfer_id := some transfer_id, failure_latched := !submitted }.poll i

/-- The outcome of an iteration over a disk transfer. -/
structure G3Step where
  op : G3TransferOp
  outbound : List G3TransferOp := []
  done : Bool

/-- The polling half of `_G3TransferOp.progress`. -/
def G3TransferOp.poll (i : TransferInput) (op : G3TransferOp) : G3Step :=
  let op := { op with failure_latched := op.failure_latched || op.deadline ≤ i.deadline_clock }
  match i.result with
  | none =>
    if op.failure_latched ∧ ¬ op.uncertain ∧
        op.abandon_deadline.any (fun deadline => deadline ≤ i.abandon_clock) then
      let op := { op with uncertain := true }
      { op := op, outbound := [op], done := false }
    else { op := op, done := false }
  | some succeeded =>
    { op := { op with transfer_id := none, success := succeeded && !op.failure_latched }
      done := true }

/-- `_G3TransferOp.progress`. -/
def G3TransferOp.progress (i : TransferInput) (op : G3TransferOp) : G3Step :=
  match op.transfer_id with
  | some _ => op.poll i
  | none =>
    if op.deadline ≤ i.submit_clock then { op := op, done := true }
    else
      match i.submission with
      | none => { op := op, done := true }
      | some (transfer_id, submitted) =>
        { op with transfer_id := some transfer_id, failure_latched := !submitted }.poll i

/-! ## Notifications -/

/-- A decoded `write_done` notification; `completed_indices` is `none` when the field
is missing or is not a list of integers. -/
structure WriteDone where
  op_handle : OpHandle
  success : Bool
  terminal : Bool := true
  completed_indices : Option (List Int) := none
deriving DecidableEq, Inhabited

/-- `_write_done_notif`. -/
def write_done_notif (op_handle : OpHandle) (success : Bool) (completed_indices : List Nat := [])
    (terminal : Bool := true) : WriteDone :=
  { op_handle := op_handle
    success := success
    terminal := terminal
    completed_indices := if success then some (completed_indices.map Int.ofNat) else none }

/-- What a poll found for a target operation: a merged notification or a refusal. -/
structure TargetEvent where
  success : Bool := false
  terminal : Bool := true
  cancelled : Bool := false
  completed_indices : Option (List Int) := none
  retry_metadata : Option String := none
deriving DecidableEq, Inhabited

/-- The body of `_poll_notifications`: merge a notification into what the batch already
holds for its operation. -/
def merge_notification (previous : Option TargetEvent) (payload : WriteDone) : TargetEvent :=
  { success := payload.success
    terminal := payload.terminal || previous.any (·.terminal)
    cancelled := previous.any (·.cancelled) || !payload.success
    completed_indices := payload.completed_indices }

/-- `_poll_notifications`. -/
def poll_notifications (batch : List WriteDone) : Dict OpHandle TargetEvent :=
  batch.foldl (fun events payload => events.set payload.op_handle
    (merge_notification (events.get? payload.op_handle) payload)) Dict.empty

/-- Only terminal notifications outrank a refusal for the same operation. -/
def merge_refusal (events : Dict OpHandle TargetEvent) (op_handle : OpHandle)
    (refusal : TargetEvent) : Dict OpHandle TargetEvent :=
  let native := events.get? op_handle
  if ¬ native.any (·.terminal) ∧ ¬ (refusal.retry_metadata.isSome ∧ native.any (·.cancelled)) then
    events.set op_handle refusal
  else events

/-- The event part of `poll_progress`. -/
def poll_events (batch : List WriteDone) (refused_writes : Dict OpHandle TargetEvent) :
    Dict OpHandle TargetEvent :=
  refused_writes.entries.foldl (fun events p => merge_refusal events p.1 p.2)
    (poll_notifications batch)

/-- `_notification_completed_indices`; `none` is a `TypeError`. -/
def notification_completed_indices (event : TargetEvent) (requested_count : Nat) :
    Option (List Nat) :=
  match event.completed_indices with
  | none => none
  | some indices =>
    if indices.length > requested_count ∨
        ¬ indices.all (fun index => 0 ≤ index ∧ index < requested_count) ∨ ¬ indices.Nodup then
      none
    else some (indices.map Int.toNat)

/-! ## Target pulls -/

/-- One iteration over a target pull: the clock, the source generation known for its
endpoint, whether a control message it sends is accepted, and its event. -/
structure TargetInput where
  now : Time
  known_incarnation : Option String := none
  sent : Bool := true
  event : Option TargetEvent := none
deriving Inhabited

/-- A control message a target pull tried to send. -/
inductive TargetSend where
  | start_write (source_incarnation : Option String)
  | write_probe (source_incarnation : Option String)
deriving DecidableEq

/-- The outcome of an iteration over a target pull. -/
structure TargetStep where
  op : TargetPullOp
  sends : List TargetSend := []
  outbound : List TargetPullOp := []
  done : Bool

namespace TargetPullOp

/-- A pull that did not reach its source. -/
def fail_start (op : TargetPullOp) : TargetPullOp :=
  { op with success := false, state := .FINISHED }

/-- The START_WRITE state: send the request, or give up. -/
def start (i : TargetInput) (op : TargetPullOp) : TargetStep :=
  let op := if op.retried then op else { op with source_incarnation := i.known_incarnation }
  if op.deadline ≤ i.now then { op := op.fail_start, done := true }
  else
    let sends := [TargetSend.start_write op.source_incarnation]
    if i.sent then { op := { op with state := .WAITING_WRITE_DONE }, sends := sends, done := false }
    else { op := op.fail_start, sends := sends, done := true }

/-- A terminal event ends the pull; after cancellation, native success only permits
cleanup. -/
def finish (i : TargetInput) (event : TargetEvent) (op : TargetPullOp) : TargetStep :=
  if op.uncertain then { op := { op with state := .FINISHED }, done := true }
  else
    let waiting : Bool := op.state = .WAITING_WRITE_DONE
    let success : Bool := event.success && !event.cancelled && waiting &&
      (!op.local_fill || i.now < op.deadline)
    match success, notification_completed_indices event op.ordered_keys.length with
    | true, some indices =>
      { op :=
          { op with
            success := true
            completed_keys :=
              OrderedSet.ofList (indices.map fun index => op.ordered_keys.getD index default)
            state := .FINISHED }
        done := true }
    | _, _ =>
      { op := { op with success := false, completed_keys := OrderedSet.empty, state := .FINISHED }
        done := true }

/-- Time passed, or the source reported a failure without being done. -/
def wait (cfg : Config) (i : TargetInput) (cancelled : Bool) (op : TargetPullOp) : TargetStep :=
  let probe := [TargetSend.write_probe op.source_incarnation]
  if op.deadline ≤ i.now ∨ (cancelled ∧ op.state = .WAITING_WRITE_DONE) then
    if op.state = .WAITING_TERMINAL then
      let op := { op with state := .QUARANTINED }
      if op.uncertain then { op := op, done := false }
      else
        let op := { op with uncertain := true }
        { op := op, sends := probe, outbound := [op], done := false }
    else
      let op :=
        { op with
          state := .WAITING_TERMINAL
          deadline := op.deadline + cfg.abandon_grace
          probe_sent := i.sent }
      { op := op, sends := probe, outbound := if op.local_fill then [op] else [], done := false }
  else if op.state = .WAITING_TERMINAL ∧ ¬ op.probe_sent then
    { op := { op with probe_sent := i.sent }, sends := probe, done := false }
  else { op := op, done := false }

/-- The first refusal that invites a retry: nothing was written, so resend in this poll. -/
def retry (event : Option TargetEvent) (op : TargetPullOp) : TargetPullOp :=
  match event.bind (·.retry_metadata) with
  | some incarnation =>
    if op.state = .WAITING_WRITE_DONE ∧ ¬ op.retried then
      { op with source_incarnation := some incarnation, retried := true, state := .START_WRITE }
    else op
  | none => op

/-- `_TargetPullOp._progress`. -/
def progress (cfg : Config) (i : TargetInput) (op : TargetPullOp) : TargetStep :=
  let cancelled := i.event.any (·.cancelled)
  let op := op.retry i.event
  match op.state with
  | .START_WRITE => op.start i
  | .FINISHED => op.wait cfg i cancelled
  | .WAITING_WRITE_DONE | .WAITING_TERMINAL =>
    match i.event with
    | some event => if event.terminal then op.finish i event else op.wait cfg i cancelled
    | none => op.wait cfg i cancelled
  | .QUARANTINED =>
    match i.event with
    | some event => if event.terminal then op.finish i event else { op := op, done := false }
    | none => { op := op, done := false }

end TargetPullOp

/-! ## Source writes -/

/-- `_SourceWriteStatus`. -/
structure SourceWriteStatus where
  submitted : Bool := false
  cancel_requested : Bool := false
  cancel_deadline : Option Time := none
  abandoned : Bool := false
deriving DecidableEq, Inhabited

/-- One iteration over a source write. `outcome_false` says that the native transfer
is known to have failed though it has not ended. -/
structure SourceInput where
  responsive : Bool := true
  submit_clock : Time
  route_changed : Bool := false
  submission : Option (Nat × Bool)
  deadline_clock : Time
  result : Option Bool
  abandon_clock : Time
  outcome_false : Bool := false
deriving Inhabited

/-- The outcome of an iteration over a source write; `status` is `none` when the entry
was dropped. -/
structure SourceStep where
  op : SourceWriteOp
  status : Option SourceWriteStatus
  notifications : List WriteDone := []
  outbound : List SourceWriteOp := []
  done : Bool

namespace SourceWriteOp

/-- End the write and drop its status. -/
def ended (op : SourceWriteOp) (success : Bool) (notifications : List WriteDone) : SourceStep :=
  { op := { op with success := success, state := .FINISHED }
    status := none
    notifications := notifications
    done := true }

/-- The polling half of `progress`: a transfer is under way. -/
def poll (cfg : Config) (i : SourceInput) (status : SourceWriteStatus) (op : SourceWriteOp) :
    SourceStep :=
  let op :=
    if op.state ≠ .CANCEL_PENDING ∧ (status.cancel_requested ∨ op.deadline ≤ i.deadline_clock) then
      { op with state := .CANCEL_PENDING }
    else op
  let cancelling : Bool := op.state = .CANCEL_PENDING
  let first : Bool := cancelling && status.cancel_deadline.isNone
  let status :=
    if first then { status with cancel_deadline := some (op.deadline + cfg.abandon_grace) }
    else status
  let notifications := if first then [write_done_notif op.op_handle false [] false] else []
  match i.result with
  | none =>
    let abandon : Bool := cancelling && !status.abandoned &&
      status.cancel_deadline.any fun deadline => deadline ≤ i.abandon_clock
    { op := if i.outcome_false then { op with state := .CANCEL_PENDING } else op
      status := some (if abandon then { status with abandoned := true } else status)
      notifications := notifications
      outbound := if abandon then [op] else []
      done := false }
  | some succeeded =>
    let success := succeeded && !cancelling
    { op with transfer_id := none }.ended success
      (notifications ++ if success then [] else [write_done_notif op.op_handle false])

/-- `_SourceWriteOp.progress`. -/
def progress (cfg : Config) (i : SourceInput) (status : SourceWriteStatus) (op : SourceWriteOp) :
    SourceStep :=
  match op.transfer_id with
  | some _ => op.poll cfg i status
  | none =>
    let op :=
      if ¬ i.responsive ∨ status.cancel_requested then { op with state := .NOTIFY_FAILURE }
      else op
    if op.state = .NOTIFY_FAILURE ∨ op.deadline ≤ i.submit_clock then
      op.ended false [write_done_notif op.op_handle false]
    else if op.route.1 ≠ "" ∧ i.route_changed then
      { op := { op with state := .NOTIFY_FAILURE }, status := some status, done := false }
    else if op.src_descriptors = [] then
      op.ended true [write_done_notif op.op_handle true]
    else
      let status := { status with submitted := true }
      match i.submission with
      | none => op.ended false [write_done_notif op.op_handle false]
      | some (transfer_id, submitted) =>
        { op with
          transfer_id := some transfer_id
          state := if submitted then .WRITING else .CANCEL_PENDING }.poll cfg i status

end SourceWriteOp

end Kvcr
