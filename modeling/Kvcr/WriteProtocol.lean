/-
The write protocol between a target pull and the processes that may serve it.

The destinations of a pull are reused once it is FINISHED, on the word of a peer. This
file puts the two state machines of `RemoteOps` into one system: a target operation,
the source processes that may receive its request (the process behind an endpoint may
have been replaced by another, told apart by its incarnation), the control messages
and native notifications under way between them. Messages may be lost, delayed and
reordered; they are not duplicated and not forged.

A system is about one operation: every table of the source process that matters here is
indexed by target agent and operation handle. What a step depends on beyond it (clocks,
whether a message could be sent, what NIXL answered) is free.
-/
import Kvcr.RemoteOps
import Mathlib.Data.List.Induction

set_option autoImplicit false

namespace Kvcr.Protocol

/-! ## The system -/

/-- A control message about the operation. `sender` is the incarnation that sent it. -/
inductive Message where
  | start_write (source_incarnation : Option String)
  | metadata_ack (sender : String)
  /-- `retryable`: the reason is `metadata_required` or `source_restarted` -/
  | write_refused (sender : String) (retryable : Bool)
  | write_probe (source_incarnation : Option String)
  | write_probe_ack (sender : String) (terminal : Bool) (dead_incarnation : Option String)
deriving DecidableEq

/-- Where a source process stands with the write: it has none, it is waiting for the
sources of one, or its progress thread advances one. -/
inductive Stage where
  | absent
  | waiting
  | running (op : SourceWriteOp)

/-- A source process, as far as this operation is concerned. -/
structure Source where
  alive : Bool := true
  /-- its progress thread closes its operations -/
  stopping : Bool := false
  /-- `source_writes[(target_agent, op_handle)]` -/
  status : Option SourceWriteStatus := none
  stage : Stage := .absent
  /-- native access to the destinations is under way -/
  active : Bool := false
  dead_incarnations : List String := []

structure System where
  target : TargetPullOp
  /-- `_refused_writes[("target", op_handle)]` -/
  refused : Option TargetEvent := none
  control : List Message := []
  notifications : List WriteDone := []
  sources : String → Source

namespace System

/-- Change one process. -/
def modify_source (s : System) (p : String) (f : Source → Source) : System :=
  { s with sources := Function.update s.sources p (f (s.sources p)) }

/-- Put a control message on its way. -/
def send (s : System) (m : Message) : System := { s with control := s.control ++ [m] }

/-- Put a notification on its way. -/
def notify (s : System) (n : WriteDone) : System :=
  { s with notifications := s.notifications ++ [n] }

/-! ## The target -/

/-- The event a poll finds for the operation. -/
def event (s : System) (batch : List WriteDone) : Option TargetEvent :=
  let refused_writes : Dict OpHandle TargetEvent :=
    match s.refused with
    | none => Dict.empty
    | some refusal => Dict.empty.set s.target.op_handle refusal
  (poll_events batch refused_writes).get? s.target.op_handle

/-- The message of an attempt to send. -/
def message : TargetSend → Message
  | .start_write source_incarnation => .start_write source_incarnation
  | .write_probe source_incarnation => .write_probe source_incarnation

/-- One poll of the target: the notifications of `batch` have arrived, `rest` have not.
A send that returned `False` was not delivered. -/
def poll_target (cfg : Config) (now : Time) (known_incarnation : Option String) (sent : Bool)
    (batch rest : List WriteDone) (s : System) : System :=
  let step := s.target.progress cfg
    { now := now, known_incarnation := known_incarnation, sent := sent, event := s.event batch }
  { s with
    target := step.op
    refused := none
    control := s.control ++ if sent then step.sends.map message else []
    notifications := rest }

/-- `_handle_write_refused`; `in_time` is the rest of its condition for a retry. -/
def handle_write_refused (sender : String) (retryable in_time : Bool) (s : System) : System :=
  if retryable ∧ ¬ s.target.retried ∧ s.target.state = .WAITING_WRITE_DONE ∧ in_time then
    { s with refused := some { terminal := false, retry_metadata := some sender } }
  else { s with refused := some {} }

/-- `_handle_target_metadata_ack`. -/
def handle_target_metadata_ack (sender : String) (s : System) : System :=
  if s.target.source_incarnation = none then
    { s with target.source_incarnation := some sender }
  else s

/-- `handle_probe_ack`. -/
def handle_probe_ack (sender : String) (terminal : Bool) (dead_incarnation : Option String)
    (s : System) : System :=
  let expected := s.target.source_incarnation
  if expected.isSome ∧ dead_incarnation = expected then { s with refused := some {} }
  else if expected = some sender ∧ terminal then { s with refused := some {} }
  else s

/-! ## The sources -/

/-- How a source gets through the setup of a request: it finds the way home, perhaps
acknowledging metadata; it fails natively; or it can only refuse, or say nothing. -/
inductive Setup where
  | resolved (acknowledged : Bool)
  | failed
  | refused (retryable : Bool)
  | silent

/-- What `_handle_start_write` does once the route home is known. -/
def accept_start_write (p : String) (source_incarnation : Option String) (responsive : Bool)
    (s : System) : System :=
  match (s.sources p).status with
  | some status =>
    if status.cancel_requested ∧ ¬ status.submitted then
      s.notify (write_done_notif s.target.op_handle false)
    else s
  | none =>
    if source_incarnation.any fun expected => expected ≠ p then s.send (.write_refused p true)
    else if ¬ responsive then s.notify (write_done_notif s.target.op_handle false)
    else s.modify_source p fun source => { source with status := some {}, stage := .waiting }

/-- `_handle_start_write`. -/
def handle_start_write (p : String) (source_incarnation : Option String) (setup : Setup)
    (responsive : Bool) (s : System) : System :=
  match setup with
  | .silent => s
  | .failed => s.notify (write_done_notif s.target.op_handle false)
  | .refused retryable => s.send (.write_refused p retryable)
  | .resolved acknowledged =>
    let s := if acknowledged then s.send (.metadata_ack p) else s
    s.accept_start_write p source_incarnation responsive

/-- `handle_probe`. -/
def handle_probe (p : String) (source_incarnation : Option String) (s : System) : System :=
  let ours : Bool := source_incarnation = none ∨ source_incarnation = some p
  let s := if ours then
      s.modify_source p fun source =>
        { source with
          status := some { source.status.getD {} with cancel_requested := true } }
    else s
  let source := s.sources p
  let terminal : Bool := ours && source.status.all fun status => !status.submitted
  let dead := source_incarnation.filter fun expected => decide (expected ∈ source.dead_incarnations)
  s.send (.write_probe_ack p terminal dead)

end System

/-- This iteration hands the write to NIXL. -/
def submits (i : SourceInput) (status : SourceWriteStatus) (op : SourceWriteOp) : Bool :=
  op.transfer_id.isNone && i.responsive && !status.cancel_requested &&
    op.state ≠ .NOTIFY_FAILURE && i.submit_clock < op.deadline &&
    !(op.route.1 ≠ "" && i.route_changed) && op.src_descriptors ≠ [] && i.submission.isSome

namespace System

/-- One iteration of the progress thread of `p` over its write. The notification of
success is attached to the transfer: it goes out when the transfer lands. -/
def progress_source (cfg : Config) (p : String) (i : SourceInput) (status : SourceWriteStatus)
    (op : SourceWriteOp) (s : System) : System :=
  let step := op.progress cfg i status
  let submitted := submits i status op
  let landed := if submitted ∧ i.result = some true then
    [write_done_notif s.target.op_handle true op.completed_indices] else []
  { s with
    notifications := s.notifications ++ landed ++ step.notifications
    sources := Function.update s.sources p
      { s.sources p with
        status := step.status
        stage := if step.done then .absent else .running step.op
        active := if submitted then i.result.isNone else (s.sources p).active } }

/-- `close_progress` of `p`, the end of its progress thread. Whatever it knows of the write and
has not submitted is answered with a failure, if the way to the target is known (`routed`);
the sources it waits for are given up. -/
def close_progress (p : String) (routed : Bool) (s : System) : System :=
  let unsubmitted : Bool := (s.sources p).status.any fun status => !status.submitted
  let s := s.modify_source p fun source =>
    { source with alive := false, stage := if unsubmitted then .absent else source.stage }
  if routed ∧ unsubmitted then s.notify (write_done_notif s.target.op_handle false) else s

end System

/-! ## Steps and runs -/

/-- Everything that can happen. -/
inductive Step (cfg : Config) : System → System → Prop
  | lose_message {s : System} {l l' : List Message} (m : Message) (h : s.control = l ++ m :: l') :
      Step cfg s { s with control := l ++ l' }
  | lose_notification {s : System} {l l' : List WriteDone} (n : WriteDone)
      (h : s.notifications = l ++ n :: l') : Step cfg s { s with notifications := l ++ l' }
  | poll_target {s : System} (now : Time) (known : Option String) (sent : Bool)
      (batch rest : List WriteDone) (arrived : s.notifications.Perm (batch ++ rest))
      (in_flight : s.target.state ≠ .FINISHED) :
      Step cfg s (s.poll_target cfg now known sent batch rest)
  | write_refused {s : System} {l l' : List Message} (sender : String) (retryable in_time : Bool)
      (h : s.control = l ++ .write_refused sender retryable :: l')
      (in_flight : s.target.state ≠ .FINISHED) :
      Step cfg s
        ({ s with control := l ++ l' }.handle_write_refused sender retryable in_time)
  | metadata_ack {s : System} {l l' : List Message} (sender : String)
      (h : s.control = l ++ .metadata_ack sender :: l') (in_flight : s.target.state ≠ .FINISHED) :
      Step cfg s ({ s with control := l ++ l' }.handle_target_metadata_ack sender)
  | probe_ack {s : System} {l l' : List Message} (sender : String) (terminal : Bool)
      (dead : Option String) (h : s.control = l ++ .write_probe_ack sender terminal dead :: l')
      (in_flight : s.target.state ≠ .FINISHED) :
      Step cfg s ({ s with control := l ++ l' }.handle_probe_ack sender terminal dead)
  | start_write {s : System} {l l' : List Message} (p : String) (expected : Option String)
      (setup : System.Setup) (responsive : Bool) (h : s.control = l ++ .start_write expected :: l')
      (alive : (s.sources p).alive = true)
      (stopping : (s.sources p).stopping = true → responsive = false) :
      Step cfg s ({ s with control := l ++ l' }.handle_start_write p expected setup responsive)
  | probe {s : System} {l l' : List Message} (p : String) (expected : Option String)
      (h : s.control = l ++ .write_probe expected :: l') (alive : (s.sources p).alive = true) :
      Step cfg s ({ s with control := l ++ l' }.handle_probe p expected)
  /-- the sources of the write were claimed, or it is to report a failure -/
  | prepare {s : System} (p : String) (op : SourceWriteOp) (alive : (s.sources p).alive = true)
      (going : (s.sources p).stopping = false)
      (waiting : (s.sources p).stage = .waiting) (unsubmitted : op.transfer_id = none)
      (handle : op.op_handle = s.target.op_handle) :
      Step cfg s (s.modify_source p fun source => { source with stage := .running op })
  /-- a transfer reported DONE, or failed and released, no longer accesses memory; a thread
  that stops only goes on with what it has submitted -/
  | progress {s : System} (p : String) (i : SourceInput) (status : SourceWriteStatus)
      (op : SourceWriteOp) (alive : (s.sources p).alive = true)
      (running : (s.sources p).stage = .running op) (known : (s.sources p).status = some status)
      (going : (s.sources p).stopping = true → op.transfer_id.isSome = true)
      (ended : op.transfer_id.isSome → i.result.isSome → (s.sources p).active = false) :
      Step cfg s (s.progress_source cfg p i status op)
  | land {s : System} (p : String) (indices : List Nat) (active : (s.sources p).active = true) :
      Step cfg s ((s.modify_source p fun source => { source with active := false }).notify
        (write_done_notif s.target.op_handle true indices))
  | break_off {s : System} (p : String) (active : (s.sources p).active = true) :
      Step cfg s (s.modify_source p fun source => { source with active := false })
  | stop {s : System} (p : String) (alive : (s.sources p).alive = true) :
      Step cfg s (s.modify_source p fun source => { source with stopping := true })
  /-- `close` of the write: not while a transfer is unresolved -/
  | close {s : System} (p : String) (op : SourceWriteOp) (alive : (s.sources p).alive = true)
      (stopping : (s.sources p).stopping = true) (running : (s.sources p).stage = .running op)
      (ended : (s.sources p).active = false) :
      Step cfg s ((s.modify_source p fun source =>
        { source with status := none, stage := .absent }).notify
          (write_done_notif s.target.op_handle false))
  | close_progress {s : System} (p : String) (routed : Bool) (alive : (s.sources p).alive = true)
      (stopping : (s.sources p).stopping = true) : Step cfg s (s.close_progress p routed)
  | die {s : System} (p : String) :
      Step cfg s (s.modify_source p fun source => { source with alive := false })
  /-- a verified death: the process is gone and its writes have ended -/
  | learn_dead {s : System} (p q : String) (dead : (s.sources q).alive = false)
      (ended : (s.sources q).active = false) :
      Step cfg s (s.modify_source p fun source =>
        { source with dead_incarnations := q :: source.dead_incarnations })

/-- A run. -/
inductive Run (cfg : Config) : System → System → Prop
  | refl (s : System) : Run cfg s s
  | step {s s' s'' : System} (run : Run cfg s s') (step : Step cfg s' s'') : Run cfg s s''

/-- The request is under way, or some process has taken it up. -/
def System.Requested (s : System) : Prop :=
  (∃ e, .start_write e ∈ s.control) ∨ ∃ p, (s.sources p).stage ≠ .absent

/-- The process knows nothing of the write but that a probe has barred it. -/
def Source.FenceOnly (x : Source) : Prop :=
  x.stage = .absent ∧ x.status.any (fun status => !status.submitted) = true

/-- A process that stops answers for a fence alone. -/
def AnswersFence (s s' : System) : Prop :=
  ∃ p, (s.sources p).FenceOnly ∧ s' = s.close_progress p true

/-- A run in which no process that stops answers for a fence alone while the request is under
way or taken up. -/
inductive ClearRun (cfg : Config) : System → System → Prop
  | refl (s : System) : ClearRun cfg s s
  | step {s s' s'' : System} (run : ClearRun cfg s s') (step : Step cfg s' s'')
      (clear : AnswersFence s' s'' → ¬ s'.Requested) : ClearRun cfg s s''

/-- The pull has not been started; no process has heard of it. -/
structure Initial (s : System) : Prop where
  state : s.target.state = .START_WRITE
  retried : s.target.retried = false
  refused : s.refused = none
  control : s.control = []
  notifications : s.notifications = []
  sources : ∀ p, s.sources p = {}

/-! ## What the functions of the two sides do -/

/-- A merged notification invites no retry, and is terminal only if some notification of
the batch was. -/
theorem poll_notifications_spec (batch : List WriteDone) (op_handle : OpHandle)
    (event : TargetEvent)
    (h : (poll_notifications batch).get? op_handle = some event) :
    event.retry_metadata = none ∧ (event.terminal = true → ∃ n ∈ batch, n.terminal = true) := by
  induction batch using List.reverseRecOn generalizing event with
  | nil => simp [poll_notifications] at h
  | append_singleton batch n ih =>
    rw [poll_notifications, List.foldl_append, List.foldl_cons, List.foldl_nil,
      ← poll_notifications, Dict.get?_set] at h
    split at h
    · rename_i hhandle
      subst hhandle
      obtain rfl := Option.some.inj h
      refine ⟨rfl, fun hterminal => ?_⟩
      rw [merge_notification, Bool.or_eq_true] at hterminal
      rcases hterminal with hterminal | hterminal
      · exact ⟨n, by simp, hterminal⟩
      · rw [Option.any_eq_true] at hterminal
        obtain ⟨previous, hprevious, hterminal⟩ := hterminal
        obtain ⟨m, hm, hmt⟩ := (ih previous hprevious).2 hterminal
        exact ⟨m, List.mem_append_left _ hm, hmt⟩
    · obtain ⟨hretry, hterminal⟩ := ih event h
      refine ⟨hretry, fun ht => ?_⟩
      obtain ⟨m, hm, hmt⟩ := hterminal ht
      exact ⟨m, List.mem_append_left _ hm, hmt⟩

/-- The event of a poll is the refusal on hand, or comes from the batch. -/
theorem event_cases {s : System} {batch : List WriteDone} {event : TargetEvent}
    (h : s.event batch = some event) :
    s.refused = some event ∨
      (event.retry_metadata = none ∧ (event.terminal = true → ∃ n ∈ batch, n.terminal = true)) := by
  unfold System.event at h
  cases hrefused : s.refused with
  | none =>
    rw [hrefused] at h
    exact .inr (poll_notifications_spec batch _ event h)
  | some refusal =>
    rw [hrefused] at h
    have hsingle : (Dict.empty.set s.target.op_handle refusal).entries =
        [(s.target.op_handle, refusal)] := rfl
    simp only [poll_events, hsingle, List.foldl_cons, List.foldl_nil, merge_refusal] at h
    split at h
    · rw [Dict.get?_set_self] at h
      exact .inl h
    · exact .inr (poll_notifications_spec batch _ event h)

/-- What one poll of a pull in flight can do: send the request, give up before sending it,
end on a terminal event, or go on waiting, perhaps with a probe. -/
inductive TargetMoves (op : TargetPullOp) (sent : Bool) (event : Option TargetEvent) :
    TargetStep → Prop
  | requests (step : TargetStep)
      (resend : op.state = .START_WRITE ∨ (op.state = .WAITING_WRITE_DONE ∧ op.retried = false ∧
        ∃ e ∈ event, e.retry_metadata.isSome))
      (waits : step.op.state = .WAITING_WRITE_DONE)
      (known : op.state = .START_WRITE ∨ step.op.source_incarnation.isSome = true)
      (sends : step.sends = [.start_write step.op.source_incarnation]) (reached : sent = true) :
      TargetMoves op sent event step
  | gives_up (step : TargetStep)
      (resend : op.state = .START_WRITE ∨ (op.state = .WAITING_WRITE_DONE ∧ op.retried = false ∧
        ∃ e ∈ event, e.retry_metadata.isSome))
      (finished : step.op.state = .FINISHED) (unsent : sent = true → step.sends = []) :
      TargetMoves op sent event step
  | ends (step : TargetStep) (waiting : op.state ≠ .START_WRITE)
      (terminal : ∃ e ∈ event, e.terminal = true) (finished : step.op.state = .FINISHED)
      (same : step.op.source_incarnation = op.source_incarnation)
      (silent : step.sends = []) : TargetMoves op sent event step
  | waits (step : TargetStep) (waiting : op.state ≠ .START_WRITE)
      (state : step.op.state = op.state ∨
        step.op.state = .WAITING_TERMINAL ∨ step.op.state = .QUARANTINED)
      (same : step.op.source_incarnation = op.source_incarnation)
      (sends : step.sends = [] ∨ (step.sends = [.write_probe op.source_incarnation] ∧
        step.op.state ≠ .WAITING_WRITE_DONE)) : TargetMoves op sent event step

theorem start_moves (op : TargetPullOp) (i : TargetInput) {op₀ : TargetPullOp}
    (h : op₀.state = .START_WRITE ∨ (op₀.state = .WAITING_WRITE_DONE ∧ op₀.retried = false ∧
        ∃ e ∈ i.event, e.retry_metadata.isSome))
    (hknown : op₀.state = .START_WRITE ∨
      (op.retried = true ∧ op.source_incarnation.isSome = true)) :
    TargetMoves op₀ i.sent i.event (op.start i) := by
  have hstill : op₀.state = .START_WRITE ∨ (if op.retried = true then op
      else { op with source_incarnation := i.known_incarnation }).source_incarnation.isSome =
        true := by
    rcases hknown with hfirst | ⟨hretried, hsome⟩
    · exact .inl hfirst
    · rw [if_pos hretried]
      exact .inr hsome
  unfold TargetPullOp.start
  dsimp only
  generalize (if op.retried = true then op
    else { op with source_incarnation := i.known_incarnation }) = op' at hstill ⊢
  split
  · exact .gives_up _ h rfl fun _ => rfl
  · split
    · exact .requests _ h rfl hstill rfl ‹_›
    · refine .gives_up _ h rfl fun hsent => ?_
      exact absurd hsent ‹_›

theorem finish_state (op : TargetPullOp) (i : TargetInput) (event : TargetEvent) :
    (op.finish i event).op.state = .FINISHED ∧
      (op.finish i event).op.source_incarnation = op.source_incarnation ∧
      (op.finish i event).sends = [] := by
  unfold TargetPullOp.finish
  grind

theorem wait_moves (cfg : Config) (op : TargetPullOp) (i : TargetInput) (cancelled : Bool)
    (hstart : op.state ≠ .START_WRITE) :
    TargetMoves op i.sent i.event (op.wait cfg i cancelled) := by
  unfold TargetPullOp.wait
  refine .waits _ hstart ?_ ?_ ?_ <;> grind

theorem retry_cases (op : TargetPullOp) (event : Option TargetEvent) :
    op.retry event = op ∨ ((op.retry event).state = .START_WRITE ∧
      ((op.retry event).retried = true ∧ (op.retry event).source_incarnation.isSome = true) ∧
      op.state = .WAITING_WRITE_DONE ∧ op.retried = false ∧
      ∃ e ∈ event, e.retry_metadata.isSome) := by
  unfold TargetPullOp.retry
  split
  · rename_i incarnation hincarnation
    obtain ⟨e, he, hretry⟩ := Option.bind_eq_some_iff.mp hincarnation
    split
    · rename_i hwaiting
      refine .inr ⟨rfl, ⟨rfl, rfl⟩, hwaiting.1, by simpa using hwaiting.2, e, he, ?_⟩
      rw [hretry, Option.isSome_some]
    · exact .inl rfl
  · exact .inl rfl

/-- The inversion of a poll. -/
theorem progress_moves (cfg : Config) (op : TargetPullOp) (i : TargetInput)
    (hflight : op.state ≠ .FINISHED) :
    TargetMoves op i.sent i.event (op.progress cfg i) := by
  unfold TargetPullOp.progress
  dsimp only
  rcases retry_cases op i.event with hsame | ⟨hresends, hknown, hstate, hretried, hevent⟩
  · rw [hsame]
    cases hstate : op.state with
    | START_WRITE => exact start_moves op i (.inl hstate) (.inl hstate)
    | FINISHED => exact absurd hstate hflight
    | WAITING_WRITE_DONE | WAITING_TERMINAL =>
      have hwaits := wait_moves cfg op i (i.event.any (·.cancelled)) (by simp [hstate])
      cases hevent : i.event with
      | none => simpa only [hevent] using hwaits
      | some event =>
        dsimp only
        split
        · obtain ⟨hfinished, hsame, hsilent⟩ := finish_state op i event
          exact .ends _ (by simp [hstate]) ⟨event, rfl, ‹_›⟩ hfinished hsame hsilent
        · simpa only [hevent] using hwaits
    | QUARANTINED =>
      have hstays : TargetMoves op i.sent i.event { op := op, done := false } :=
        .waits _ (by simp [hstate]) (.inl rfl) rfl (.inl rfl)
      cases hevent : i.event with
      | none => simpa only [hevent] using hstays
      | some event =>
        dsimp only
        split
        · obtain ⟨hfinished, hsame, hsilent⟩ := finish_state op i event
          exact .ends _ (by simp [hstate]) ⟨event, rfl, ‹_›⟩ hfinished hsame hsilent
        · simpa only [hevent] using hstays
  · rw [hresends]
    exact start_moves _ i (.inr ⟨hstate, hretried, hevent⟩) (.inr hknown)

/-- What one iteration over a write can do. -/
inductive SourceMoves (i : SourceInput) (status : SourceWriteStatus) (op : SourceWriteOp) :
    SourceStep → Prop
  /-- it ends; the native transfer, if there was one, has ended -/
  | ends (step : SourceStep) (done : step.done = true) (dropped : step.status = none)
      (native : op.transfer_id.isSome ∨ submits i status op → i.result.isSome) :
      SourceMoves i status op step
  /-- it goes on without a native transfer -/
  | stays (step : SourceStep) (going : step.done = false)
      (unsubmitted : op.transfer_id = none) (still : step.op.transfer_id = none)
      (skips : submits i status op = false) (willing : status.cancel_requested = false)
      (kept : step.status = some status) (silent : step.notifications = []) :
      SourceMoves i status op step
  /-- it goes on with a native transfer, submitted now or earlier -/
  | writes (step : SourceStep) (st : SourceWriteStatus) (going : step.done = false)
      (transfer : step.op.transfer_id.isSome) (kept : step.status = some st)
      (cancel : st.cancel_requested = status.cancel_requested)
      (submitted : st.submitted = true ∨ (op.transfer_id.isSome ∧ st.submitted = status.submitted))
      (native : op.transfer_id.isSome ∨ (submits i status op = true ∧
        status.cancel_requested = false ∧ i.result = none))
      (warned : ∀ n ∈ step.notifications, n.terminal = false) : SourceMoves i status op step

/-- The only notification of a write that goes on is a warning. -/
theorem warning_nonterminal {c : Bool} {op_handle : OpHandle} {n : WriteDone}
    (hn : n ∈ if c then [write_done_notif op_handle false [] false] else []) :
    n.terminal = false := by
  cases c with
  | true =>
    rw [if_pos rfl, List.mem_singleton] at hn
    rw [hn]
    rfl
  | false => exact absurd hn List.not_mem_nil

/-- Polling ends the write when NIXL has an answer, and otherwise only warns. -/
theorem poll_cases (cfg : Config) (i : SourceInput) (status : SourceWriteStatus)
    (op : SourceWriteOp) :
    ((op.poll cfg i status).done = true ∧ (op.poll cfg i status).status = none ∧
        i.result.isSome = true) ∨
      ((op.poll cfg i status).done = false ∧ i.result = none ∧
        (op.poll cfg i status).op.transfer_id = op.transfer_id ∧
        (∃ st, (op.poll cfg i status).status = some st ∧ st.submitted = status.submitted ∧
          st.cancel_requested = status.cancel_requested) ∧
        ∀ n ∈ (op.poll cfg i status).notifications, n.terminal = false) := by
  cases hresult : i.result with
  | some succeeded =>
    refine .inl ?_
    simp only [SourceWriteOp.poll, hresult, SourceWriteOp.ended]
    simp
  | none =>
    refine .inr ?_
    simp only [SourceWriteOp.poll, hresult]
    refine ⟨trivial, trivial, ?_, ?_, ?_⟩
    · grind
    · refine ⟨_, rfl, ?_, ?_⟩ <;> grind
    · exact fun n hn => warning_nonterminal hn

/-- The inversion of an iteration. -/
theorem source_moves (cfg : Config) (i : SourceInput) (status : SourceWriteStatus)
    (op : SourceWriteOp) : SourceMoves i status op (op.progress cfg i status) := by
  unfold SourceWriteOp.progress
  cases htransfer : op.transfer_id with
  | some transfer_id =>
    dsimp only
    rcases poll_cases cfg i status op with
      ⟨hdone, hstatus, hresult⟩ | ⟨hgoing, -, hsame, ⟨st, hst, hsub, hcancel⟩, hwarned⟩
    · exact .ends _ hdone hstatus fun _ => hresult
    · refine .writes _ st hgoing ?_ hst hcancel (.inr ⟨?_, hsub⟩) (.inl ?_) hwarned
      · rw [hsame, htransfer]
        rfl
      · rw [htransfer]
        rfl
      · rw [htransfer]
        rfl
  | none =>
    have hquits : ∀ (op' : SourceWriteOp) (success : Bool) (ns : List WriteDone),
        submits i status op = false → SourceMoves i status op (op'.ended success ns) := by
      intro op' success ns hsubmits
      refine .ends _ rfl rfl ?_
      rw [htransfer, hsubmits]
      simp
    dsimp only
    by_cases hfailing : i.responsive = false ∨ status.cancel_requested = true
    · -- A source that stalls, or that a probe has fenced off, reports failure.
      have hcond : ¬ i.responsive = true ∨ status.cancel_requested = true := by
        simpa using hfailing
      simp only [hcond, if_true, true_or]
      refine hquits _ _ _ ?_
      rcases hfailing with h | h <;> simp [submits, h]
    · obtain ⟨hresponsive, hwilling⟩ : i.responsive = true ∧ status.cancel_requested = false := by
        simpa using hfailing
      have hcond : ¬ (¬ i.responsive = true ∨ status.cancel_requested = true) := by
        simp [hresponsive, hwilling]
      simp only [if_neg hcond]
      split
      · rename_i hstop
        refine hquits _ _ _ ?_
        rcases hstop with h | h
        · simp [submits, h]
        · have hlate : ¬ i.submit_clock < op.deadline := Nat.not_lt.mpr h
          simp [submits, hlate]
      · split
        · rename_i hroute
          refine .stays _ rfl htransfer htransfer ?_ hwilling rfl rfl
          simp [submits, hroute.1, hroute.2]
        · split
          · rename_i hempty
            refine hquits _ _ _ ?_
            simp [submits, hempty]
          · rename_i hready hroute hsources
            cases hsubmission : i.submission with
            | none =>
              refine hquits _ _ _ ?_
              simp [submits, hsubmission]
            | some submission =>
              obtain ⟨transfer_id, submitted⟩ := submission
              have hsubmits : submits i status op = true := by
                obtain ⟨hstate, hdeadline⟩ := not_or.mp hready
                have hintime : i.submit_clock < op.deadline := Nat.lt_of_not_le hdeadline
                have hsameroute : ¬ op.route.1 = "" → i.route_changed = false := by
                  intro hr
                  by_contra hc
                  exact hroute ⟨hr, by simpa using hc⟩
                simp only [submits, htransfer, hresponsive, hwilling, hsubmission]
                simp [hstate, hintime, hsources]
                by_cases hr : op.route.1 = ""
                · exact .inl hr
                · exact .inr (hsameroute hr)
              dsimp only
              rcases poll_cases cfg i { status with submitted := true }
                { op with
                  transfer_id := some transfer_id
                  state := if submitted = true then .WRITING else .CANCEL_PENDING } with
                ⟨hdone, hstatus, hresult⟩ |
                ⟨hgoing, hnone, hsame, ⟨st, hst, hsub, hcancel⟩, hwarned⟩
              · exact .ends _ hdone hstatus fun _ => hresult
              · refine .writes _ st hgoing ?_ hst hcancel (.inl hsub)
                  (.inr ⟨hsubmits, hwilling, hnone⟩) hwarned
                rw [hsame]
                rfl

end Kvcr.Protocol
