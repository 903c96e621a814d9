/-
`_Guard`: the lifecycle of one pool group, and everybody who talks to it.

One actor thread runs commands and watches the holder's pidfd. Any number of callers
claim, end leases, close, or refuse claims. They share the fields under `_phase_lock`
(`Shared`), the mailbox, and the registry's refusal flag; everything else belongs to the
actor (`Owned`). So a run is an interleaving of lock sections: each caller is one section
and then a `put`, and the actor is a program counter that stands between two sections.
What the actor does between sections is a program over `Owned` alone.

The one section that reads something set outside the lock is the commit of a claim, which
reads the refusal flag. It is two transitions, with the lock held in between.

`reported`, `aborted` and `refused` are history: the leases whose pidfd was polled and
showed POLLIN, the leases whose holder asked for an abort, and whether a `refuse_claims`
has returned.
-/
import Kvcr.GuardRecovery

set_option autoImplicit false

namespace Kvcr.Guard

open Journal Handback Prog

/-! ## The state -/

/-- `_Lease`: a pidfd object, told apart by its number. -/
structure Lease where
  number : Nat
  incarnation : Option String
deriving DecidableEq

abbrev Address := String × Nat

inductive Phase where
  | UNCONFIGURED | IDLE | STANDBY | PRIMARY | FAILED | CLOSED | CLAIMING | RELEASING | PROMOTING
deriving DecidableEq

/-- `_Command`. -/
inductive Command where
  | claim (liveness : Lease) (tier_config : TierConfig) (bind : Address)
  | release (lease : Lease)
  | abort (lease : Lease)
  | close
deriving DecidableEq

/-- The fields under `_phase_lock`. -/
structure Shared where
  phase : Phase := .UNCONFIGURED
  reserved : Option Phase := none
  closing : Bool := false
  failure : Option GuardError := none
  /-- `_pool_lease.current` -/
  current : Option Lease := none
  dead_incarnations : OrderedSet String := OrderedSet.empty

/-- A Guard's core: whether its registration is done, and its record table. -/
structure GuardCore where
  prepare_ready : Bool := false
  records : Dict BlockKey Record := Dict.empty

def GuardCore.ready (core : GuardCore) : GuardCore := { core with prepare_ready := true }

/-- What only the actor touches. -/
structure Owned where
  serving : Bool := false
  resumable : Bool := false
  closed : Bool := false
  configured : Option TierConfig := none
  /-- `_pool_lease.bind_address`, while there is a listener -/
  listener : Option Address := none
  /-- `_control` is open -/
  control : Bool := false
  core : Option GuardCore := none
  orphans : List GuardCore := []
  recovery : RecoveryState := {}

/-! ## What the actor does between lock sections -/

/-- Calls that may raise. -/
inductive Call where
  | create_server | dup | from_shared_listener | close_core | close_control | prepare_core
  | adopt_recovery_records | start | poll_completed | raise_if_failed | close_attachment
  | close_listener
deriving DecidableEq

/-- What the actor cannot decide itself. -/
structure Oracle where
  /-- whether a call raises, and what -/
  raises : Call → Option GuardError := fun _ => none
  /-- whether writing the region raises, after how many steps, and what -/
  fault : Option (Nat × SnapshotError) := none
  /-- the table of the core, as serving has left it -/
  records : Dict BlockKey Record := Dict.empty
  /-- an invalidated journal is noticed before the next frame -/
  noticed : Bool := false

/-- A program of the actor between two lock sections. It logs nothing. -/
abbrev Segment (α : Type) := Prog Owned GuardError Empty α

namespace Segment

variable (setting : Setting) (o : Oracle)

/-- A call that may raise. -/
def call (c : Call) : Segment Unit :=
  match o.raises c with
  | none => pure ()
  | some e => raise e

/-- A function of the recovery state. -/
def recover (f : RecoveryState → Except GuardError Unit × RecoveryState) : Segment Unit := do
  let own ← read
  let (outcome, recovery) := f own.recovery
  change fun own => { own with recovery := recovery }
  match outcome with
  | .ok () => pure ()
  | .error e => raise e

/-- `_pool_lease.bind`: whether this call created the listener. -/
def bind (address : Address) : Segment Bool := do
  let own ← read
  match own.listener with
  | some bound =>
    if bound = address then pure false
    else raise (.service ("KVCR Guard " ++ toString setting.guard_index ++ " answers on " ++
      bound.1 ++ ":" ++ toString bound.2 ++ " and cannot be moved to " ++ address.1 ++ ":" ++
      toString address.2))
  | none =>
    call o .create_server
    change fun own => { own with listener := some address }
    pure true

/-- `_hand_back`. -/
def hand_back : Segment Unit := do
  let own ← read
  match own.core, own.recovery.mirror with
  | some _, some _ =>
    call o .close_core
    recover fun r => r.hand_back setting o.records o.fault
    change fun own => { own with core := none, serving := false }
  | _, _ => raise (.mirror "a serving Guard has no state to hand back")

/-- `_prepare_core`. -/
def prepare_core : Segment Unit := do
  call o .prepare_core
  change fun own => { own with core := some {} }

/-- The first half of `_adopt`: everything that can refuse a claim. -/
def check_claim (failure : Option GuardError) (tier_config : TierConfig) : Segment Unit := do
  match failure with
  | some e => raise e
  | none =>
    let own ← read
    if own.configured.isSome ∧ own.configured ≠ some tier_config then
      raise (.mirror "KVCR pool was claimed with another tier configuration")
    else
      recover fun r => r.configure setting tier_config.pool_layouts
      change fun own => { own with configured := some tier_config }

/-- The second half of `_adopt`: the pool changes hands. -/
def adopt : Segment Unit := do
  let own ← read
  when own.serving do
    hand_back setting o
    change fun own => { own with resumable := true }
  change fun own => { own with recovery := own.recovery.start_primary }
  when own.control (call o .close_control)
  change fun own => { own with control := true }
  prepare_core o

/-- `_release`. -/
def release (failure : Option GuardError) : Segment Unit := do
  change fun own => { own with resumable := false }
  match failure with
  | some e => raise e
  | none =>
    let own ← read
    if own.serving then do
      hand_back setting o
      change fun own => { own with recovery := own.recovery.drop_recovery }
      write_out
    else do
      drop_core own.core
      write_out
where
  /-- a core that never served -/
  drop_core : Option GuardCore → Segment Unit
    | none => pure ()
    | some core =>
      if core.prepare_ready then do
        call o .close_core
        change fun own => { own with control := false, core := none }
      else change fun own => { own with orphans := own.orphans ++ [core], core := none }
  /-- the mirror, if there is one still, and the control channel -/
  write_out : Segment Unit := do
    let own ← read
    release_mirror own.recovery.mirror
    let own ← read
    when own.control do
      call o .close_control
      change fun own => { own with control := false }
  release_mirror : Option RecoveryMirror → Segment Unit
    | none => pure ()
    | some mirror => recover fun r => r.release setting mirror o.fault

/-- `_promote` and `_serve`. -/
def promote (failure : Option GuardError) : Segment Unit := do
  change fun own => { own with resumable := false }
  match failure with
  | some e => raise e
  | none =>
    let own ← read
    let (records, recovery) := own.recovery.take_for_promotion setting
    let (records, recovery) := recovery.prepare_to_serve records
    change fun own => { own with recovery := recovery }
    match own.core with
    | none => raise (.mirror "Guard transport was not prepared")
    | some core =>
      call o .adopt_recovery_records
      change fun own =>
        { own with
          core := some { core with records := records }
          recovery := own.recovery.release_snapshot_region }
      call o .start
      change fun own => { own with serving := true }

/-- `_poll`, in rounds: an orphan, then the serving core or a frame. -/
def poll : Segment Unit := do
  let own ← read
  close_orphan own.orphans
  if own.serving then do
    call o .poll_completed
    change fun own =>
      { own with core := own.core.map fun core => { core with records := o.records } }
  else do
    when own.core.isSome (call o .raise_if_failed)
    change fun own => { own with recovery := own.recovery.poll_frame setting o.noticed }
where
  close_orphan : List GuardCore → Segment Unit
    | [] => pure ()
    | orphan :: orphans =>
      when orphan.prepare_ready do
        call o .close_core
        change fun own => { own with orphans := orphans }

end Segment

/-- The closes at the end of `_close_resources`, the lease's apart: every one runs, and the
first failure is raised. -/
def Owned.close_rest (own : Owned) (o : Oracle) : Option GuardError × Owned :=
  let control := o.raises .close_control
  let attachment := o.raises .close_attachment
  let listener := o.raises .close_listener
  (control.or (attachment.or listener),
    { own with
      control := own.control && control.isSome
      recovery := if attachment.isSome then own.recovery
        else { region := own.recovery.region, journal := own.recovery.journal }
      listener := if listener.isSome then own.listener else none })

/-! ## The actor -/

/-- Who `_promote_for` runs for: a death the actor observed, or a command. -/
inductive Origin where
  | death
  | command (c : Command)
deriving DecidableEq

/-- Where the actor stands. -/
inductive Actor where
  /-- waiting for a command -/
  | loop
  /-- `_observe_holder` has read the lease -/
  | observing (lease : Option Lease)
  /-- and polled its pidfd: whether there were events, and POLLIN among them -/
  | polled (lease : Lease) (flags : Option Bool)
  /-- and reserved the promotion -/
  | promoting (lease : Lease) (pollin : Bool)
  /-- `_poll` -/
  | polling
  /-- a command is taken off the mailbox, and then runs -/
  | dispatched (c : Command)
  | running (c : Command)
  /-- `_claim`, after the checks of `_adopt`; after all of it; with the lock held and
  nothing against the commit; and refused at the commit, before and after `_release` -/
  | adopting (c : Command) (bound_here : Bool)
  | adopted (c : Command) (liveness : Lease) (bound_here : Bool)
  | committing (c : Command) (liveness : Lease)
  | refused (c : Command) (bound_here : Bool)
  | refused_idle (c : Command) (bound_here : Bool)
  /-- `_claim` raises: unbind a listener this claim created -/
  | claim_failed (c : Command) (bound_here : Bool) (error : GuardError)
  /-- `_promote_for`: its body, its `finally`, its last section -/
  | promote (origin : Origin) (lease : Lease)
  | promoted (origin : Origin) (lease : Lease) (error : Option GuardError)
  | standby (origin : Origin)
  /-- `_stand_down`: its body, its `finally`, its last section -/
  | stand_down (c : Command) (lease : Lease)
  | stood_down (c : Command) (lease : Lease) (error : Option GuardError)
  | idle (c : Command)
  /-- `_close`, after the resources -/
  | closed (c : Command)
  /-- the section that records a failure, and what comes after it -/
  | fail (error : GuardError) (next : Actor)
  /-- the reservation is cleared and the command answered -/
  | finish (origin : Origin) (error : Option GuardError)
  /-- `_run` ends -/
  | stopping
  | stopped

/-- What `poll(0)` on a pidfd does. -/
inductive Poll where
  | silent
  | events (pollin : Bool)
  /-- the pidfd is closed -/
  | raised

/-- A Guard, the registry's flag, the mailbox and the threads. -/
structure System where
  shared : Shared := {}
  own : Owned := {}
  actor : Actor := .loop
  /-- the actor holds `_phase_lock` between two transitions -/
  locked : Bool := false
  /-- `_refusing` -/
  refusing : Bool := false
  commands : List Command := []
  /-- the commands of callers between their section and their `put` -/
  submitting : List Command := []
  reported : List Lease := []
  aborted : List Lease := []
  refused : Bool := false

namespace System

variable (setting : Setting) (sys : System)

/-- `_pool_lease.clear_if_current`. -/
def clear_if_current (lease : Lease) : System :=
  if sys.shared.current = some lease then { sys with shared.current := none } else sys

/-! ### Callers -/

/-- A caller's section lets its command through. -/
def accept (c : Command) : System :=
  { sys with
    submitting := sys.submitting ++ [c]
    aborted := match c with
      | .abort lease => lease :: sys.aborted
      | _ => sys.aborted }

/-- `_reserve_claim`; `alive` is what polling the holder's pidfd says. -/
def reserve_claim (c : Command) (alive : Bool) : Except GuardError System :=
  if sys.shared.closing then .error (.service "KVCR pool registry is closed")
  else
    match sys.shared.failure with
    | some e => .error e
    | none =>
      if sys.shared.reserved.isSome then
        .error (.service ("KVCR Guard " ++ toString setting.guard_index ++ " is busy"))
      else if sys.shared.phase = .PRIMARY then
        if alive then
          .error (.service ("KVCR Guard " ++ toString setting.guard_index ++
            " is held by another worker"))
        else .error (.service ("KVCR Guard " ++ toString setting.guard_index ++ " is busy"))
      else if sys.shared.phase = .FAILED ∨ sys.shared.phase = .CLOSED then
        .error (.service "KVCR pool registry is closed")
      else
        .ok { sys.accept c with shared.reserved := some .CLAIMING }

/-- `claim`, up to its `put`; the registry has a fast path of its own for refusing. -/
def claim (liveness : Lease) (tier_config : TierConfig) (bind : Address) (alive : Bool) :
    Except GuardError System :=
  sys.reserve_claim setting (.claim liveness tier_config bind) alive

/-- `_end_lease`, up to its `put`. -/
def end_lease (lease : Lease) (c : Command) : Except GuardError System :=
  if sys.shared.closing ∨ sys.shared.current ≠ some lease then .ok sys
  else
    match sys.shared.reserved with
    | none => .ok { sys.accept c with shared.reserved := some .RELEASING }
    | some .PROMOTING => .ok (sys.accept c)
    | some _ => .error (.service ("KVCR Guard " ++ toString setting.guard_index ++ " is busy"))

/-- `release`. -/
def release (lease : Lease) : Except GuardError System :=
  sys.end_lease setting lease (.release lease)

/-- `abort_grant`. -/
def abort_grant (lease : Lease) : Except GuardError System :=
  sys.end_lease setting lease (.abort lease)

/-- `_close_resources`: what it raises. A core that is not quiescent keeps the rest open. -/
def close_resources (o : Oracle) : Option GuardError × System :=
  match o.raises .close_core with
  | some e => (some e, sys)
  | none =>
    let (error, own) := { sys.own with orphans := [] }.close_rest o
    (error, { sys with own := own, shared.current := none })

/-- `begin_close`: queued, or inline once the actor has ended. -/
def begin_close (o : Oracle) : System :=
  match sys.actor with
  | .stopped =>
    let sys := { sys with shared.closing := true }
    if sys.own.closed then sys
    else
      match sys.close_resources o with
      | (some _, sys) => sys
      | (none, sys) => { sys with own.closed := true }
  | _ =>
    if sys.shared.closing then sys
    else { sys.accept .close with shared.closing := true }

/-- `_commands.put`, for the caller at `index`. -/
def put (index : Nat) : System :=
  match sys.submitting[index]? with
  | none => sys
  | some c =>
    { sys with submitting := sys.submitting.eraseIdx index, commands := sys.commands ++ [c] }

/-! ### The actor's transitions -/

/-- Run a segment, then stand where its outcome says. Segments have no loops, so none runs
out of fuel. -/
def segment {α : Type} (p : Segment α) (ok : α → Actor) (error : GuardError → Actor) : System :=
  match p sys.own with
  | .ok a own _ => { sys with own := own, actor := ok a }
  | .err e own _ => { sys with own := own, actor := error e }
  | .diverged _ => sys

/-- The `except` clause of `_claim`: what is raised for an error. -/
def claim_error : GuardError → GuardError
  | .value_error message | .mirror message => .service message
  | e => e

/-- The body of `_claim` up to the point of no return: whether it bound the listener. -/
def prepare_claim (o : Oracle) (failure : Option GuardError) (tier_config : TierConfig)
    (address : Address) : Segment (Except GuardError Bool × Bool) := do
  let bound_here ← Segment.bind setting o address
  let checked : Segment Unit := do
    Segment.call o .dup
    Segment.call o .from_shared_listener
    Segment.check_claim setting failure tier_config
  handle (do checked; pure (.ok bound_here, bound_here)) fun e => pure (.error e, bound_here)

/-- A command begins. -/
def run_command (o : Oracle) : Command → System
  | .claim liveness tier_config address =>
    sys.segment (prepare_claim setting o sys.shared.failure tier_config address)
      (fun
        | (.ok bound_here, _) => .adopting (.claim liveness tier_config address) bound_here
        | (.error e, bound_here) =>
          .claim_failed (.claim liveness tier_config address) bound_here e)
      (fun e => .finish (.command (.claim liveness tier_config address)) (some (claim_error e)))
  | .release lease => { sys with actor := .stand_down (.release lease) lease }
  | .abort lease =>
    if sys.own.resumable ∧ ¬ sys.own.serving ∧ sys.own.recovery.mirror.isSome then
      { sys with actor := .promote (.command (.abort lease)) lease }
    else { sys with actor := .stand_down (.abort lease) lease }
  | .close =>
    match sys.close_resources o with
    | (some e, sys) => { sys with actor := .finish (.command .close) (some e) }
    | (none, sys) => { sys with actor := .closed .close }

/-- The last section of a command, and what the loop does next. -/
def finish (origin : Origin) (error : Option GuardError) : System :=
  let sys := { sys with shared.reserved := none }
  match origin, error with
  | .death, _ => { sys with actor := .polling }
  | .command .close, some e => { sys with actor := .fail e .stopping }
  | .command .close, none => { sys with actor := .stopping }
  | .command _, _ => { sys with actor := .loop }

/-- One transition of the actor; `none` where it has to wait. Only `fail` shuts what the
Guard answered on, and that changes nothing here. -/
def act (o : Oracle) (poll : Poll) : Option System :=
  match sys.actor with
  | .loop =>
    match sys.commands with
    | c :: commands => some { sys with commands := commands, actor := .dispatched c }
    | [] =>
      if sys.shared.phase ≠ .PRIMARY ∨ sys.shared.reserved.isSome ∨ sys.shared.closing then
        some { sys with actor := .polling }
      else some { sys with actor := .observing sys.shared.current }
  | .observing none => some { sys with actor := .fail (.other "no lease to poll") .stopping }
  | .observing (some lease) =>
    match poll with
    | .raised => some { sys with actor := .fail (.value_error "pidfd is closed") .stopping }
    | .silent => some { sys with actor := .polled lease none }
    | .events pollin =>
      some { sys with
        actor := .polled lease (some pollin)
        reported := if pollin then lease :: sys.reported else sys.reported }
  | .polled lease flags =>
    if sys.shared.current ≠ some lease ∨ sys.shared.reserved.isSome ∨ sys.shared.closing then
      some { sys with actor := .polling }
    else
      match flags with
      | none => some { sys with actor := .polling }
      | some pollin =>
        some { sys with shared.reserved := some .PROMOTING, actor := .promoting lease pollin }
  | .promoting lease pollin =>
    if pollin then
      some { sys with
        shared.dead_incarnations := match lease.incarnation with
          | none => sys.shared.dead_incarnations
          | some incarnation => sys.shared.dead_incarnations.insert incarnation
        actor := .promote .death lease }
    else
      let error : GuardError := .other "pidfd poll returned without POLLIN"
      some { sys with actor := .fail error (.finish .death none) }
  | .polling =>
    if sys.shared.failure.isSome then some { sys with actor := .loop }
    else some (sys.segment (Segment.poll setting o) (fun () => .loop) (fun e => .fail e .loop))
  | .dispatched c =>
    match c with
    | .release lease | .abort lease =>
      if sys.shared.current = some lease then
        some { sys with shared.reserved := some .RELEASING, actor := .running c }
      else some { sys with actor := .loop }
    | .claim .. | .close => some { sys with actor := .running c }
  | .running c => some (sys.run_command setting o c)
  | .adopting c bound_here =>
    match c with
    | .claim liveness _ _ =>
      some (sys.segment (Segment.adopt setting o) (fun () => .adopted c liveness bound_here)
        (fun e => .fail e (.claim_failed c bound_here e)))
    | _ => none
  | .adopted c liveness bound_here =>
    if sys.shared.closing ∨ sys.refusing then some { sys with actor := .refused c bound_here }
    else some { sys with locked := true, actor := .committing c liveness }
  | .committing c liveness =>
    some { sys with
      shared.current := some liveness
      shared.phase := .PRIMARY
      locked := false
      actor := .finish (.command c) none }
  | .refused c bound_here =>
    some (sys.segment (Segment.release setting o sys.shared.failure)
      (fun () => .refused_idle c bound_here) (fun e => .claim_failed c bound_here e))
  | .refused_idle c bound_here =>
    some { sys with
      shared.phase := .IDLE
      actor := .claim_failed c bound_here (.service "KVCR pool registry is closed") }
  | .claim_failed c bound_here error =>
    some { sys with
      own.listener := if bound_here then none else sys.own.listener
      actor := .finish (.command c) (some (claim_error error)) }
  | .promote origin lease =>
    if sys.own.serving then some { sys with actor := .promoted origin lease none }
    else some (sys.segment (Segment.promote setting o sys.shared.failure)
      (fun () => .promoted origin lease none) (fun e => .promoted origin lease (some e)))
  | .promoted origin lease error =>
    let sys := sys.clear_if_current lease
    match error with
    | none => some { sys with actor := .standby origin }
    | some e => some { sys with actor := .fail e (.finish origin (some e)) }
  | .standby origin =>
    some { sys with shared.phase := .STANDBY, actor := .finish origin none }
  | .stand_down c lease =>
    some (sys.segment (Segment.release setting o sys.shared.failure)
      (fun () => .stood_down c lease none) (fun e => .fail e (.stood_down c lease (some e))))
  | .stood_down c lease error =>
    let sys := sys.clear_if_current lease
    match error with
    | none => some { sys with actor := .idle c }
    | some e => some { sys with actor := .finish (.command c) (some e) }
  | .idle c => some { sys with shared.phase := .IDLE, actor := .finish (.command c) none }
  | .closed c =>
    some { sys with
      own.closed := true
      shared.phase := .CLOSED
      actor := .finish (.command c) none }
  | .fail e next =>
    some { sys with shared.failure := some e, shared.phase := .FAILED, actor := next }
  | .finish origin error => some (sys.finish origin error)
  | .stopping =>
    some { sys with shared.closing := true, commands := [], actor := .stopped }
  | .stopped => none

/-! ### Runs -/

/-- A Guard that has started, over a pool file with any tail. -/
def started (region : List UInt8) : System := { own.recovery.region := region }

/-- One transition of anybody. -/
inductive Step : System → System → Prop where
  | claim {sys sys' : System} (liveness : Lease) (tier_config : TierConfig) (bind : Address)
      (alive : Bool) (hlock : sys.locked = false)
      (h : sys.claim setting liveness tier_config bind alive = .ok sys') : Step sys sys'
  | release {sys sys' : System} (lease : Lease) (hlock : sys.locked = false)
      (h : sys.release setting lease = .ok sys') : Step sys sys'
  | abort_grant {sys sys' : System} (lease : Lease) (hlock : sys.locked = false)
      (h : sys.abort_grant setting lease = .ok sys') : Step sys sys'
  | begin_close {sys : System} (o : Oracle) (hlock : sys.locked = false) :
      Step sys (sys.begin_close o)
  | put {sys : System} (index : Nat) : Step sys (sys.put index)
  /-- `refuse_claims` sets the flag, passes the lock, and returns. -/
  | refuse_claims {sys : System} : Step sys { sys with refusing := true }
  | refused {sys : System} (hlock : sys.locked = false) (hset : sys.refusing = true) :
      Step sys { sys with refused := true }
  /-- A core, or a released one, finishes its registration. -/
  | prepared {sys : System} : Step sys { sys with own.core := sys.own.core.map GuardCore.ready }
  | orphan_prepared {sys : System} (index : Nat) :
      Step sys { sys with own.orphans := sys.own.orphans.modify index GuardCore.ready }
  /-- A primary writes its journal or the handback region. -/
  | memory {sys : System} (journal : JournalReader) (region : List UInt8) :
      Step sys
        { sys with own.recovery.journal := journal, own.recovery.region := region }
  | act {sys sys' : System} (o : Oracle) (poll : Poll) (h : sys.act setting o poll = some sys') :
      Step sys sys'

/-- The states of a Guard that has started. -/
inductive Reachable : System → Prop where
  | started (region : List UInt8) : Reachable (started region)
  | step {sys sys' : System} (h : Reachable sys) (hstep : Step setting sys sys') : Reachable sys'

end System

end Kvcr.Guard
