/-
`hints/`: from the envelope of a router to the hints of a request.

An envelope is request metadata of a router, so nothing about it is known: every field may be
missing or of any type. `Value` is what such a field can be as far as the code tells values
apart. `parse_hints` sorts the actions of an envelope into hints and rejections, the dispatcher
reports the rejections and hands each hint to its handler, and the handler of `kv.fetch` stores
the hint with the remote backend.

The parser is generic in the types of hints it is given; the dispatcher has the one type there
is. The issues that were warned about are a set of the process, which is why they are state here.
-/
import Kvcr.RemoteFWDram

set_option autoImplicit false

namespace Kvcr.Hints

open Prog

/-! ## Values -/

/-- A field of an envelope. `other` is a value of a type the code never asks for. -/
inductive Value where
  | none
  | bool (b : Bool)
  | int (n : Int)
  | str (text : String)
  | list (elems : List Value)
  | mapping (entries : List (String × Value))
  | struct (fields : List (String × Value))
  | other

namespace Value

/-- `entries.get(name)`. -/
def lookup (entries : List (String × Value)) (name : String) : Option Value :=
  (entries.find? fun p => p.1 = name).map Prod.snd

/-- `getattr(value, name, None)`. -/
def getattr (value : Value) (name : String) : Value :=
  match value with
  | struct fields => (lookup fields name).getD none
  | _ => none

/-- `value if isinstance(value, str) else None`. -/
def text? : Value → Option String
  | str text => some text
  | _ => Option.none

/-- `value == text`. -/
def is (value : Value) (text : String) : Bool := value.text? = some text

end Value

/-! ## `results.py` -/

inductive HintStatus where
  | ACCEPTED
  | REJECTED
deriving DecidableEq

structure HintResult where
  action_id : Option String
  action_type : String
  status : HintStatus
  reason : Option String := none
  request_id : Option RequestId := none
  message_id : Option String := none
deriving DecidableEq

/-! ## State -/

/-- The core, and what the process has warned about. -/
structure Desk where
  core : Core
  /-- `_LOGGED_HINT_ISSUES` -/
  logged_hint_issues : OrderedSet String := OrderedSet.empty
  /-- `_LOGGED_HANDLER_ERRORS` -/
  logged_handler_errors : OrderedSet String := OrderedSet.empty

/-- What is logged: the events of the core, warnings by their issue, and the results. -/
inductive Note where
  | core (e : Ev)
  | warning (issue : String)
  | report (result : HintResult)

abbrev HM (α : Type) := Prog Desk Err Note α

/-- A function of the core. -/
def on_core {α : Type} (m : KM α) : HM α :=
  zoom Desk.core (fun core desk => { desk with core := core }) Note.core m

/-! ## `parser.py` -/

/-- `_KV_HINT_PROTOCOL_VERSION`. -/
def protocol_version : String := "0.1"

/-- Warn about an issue, once in the life of the process. -/
def warn_hint_issue (issue : String) : HM Unit := do
  let desk ← read
  if issue ∈ desk.logged_hint_issues then pure ()
  else
    change fun desk => { desk with logged_hint_issues := desk.logged_hint_issues.insert issue }
    emit fun _ => .warning issue

/-- `_warn_version_mismatch`. -/
def warn_version_mismatch (supported : String) (received : Value) (issue : String) : HM Unit :=
  if received.is supported then pure () else warn_hint_issue issue

/-- What a parser raises: a `ValueError` with its reason, or anything else. -/
inductive ParseError where
  | value_error (reason : String)
  | other

/-- `HintType`: one supported hint type and how its payload is parsed. -/
structure HintType (H : Type) where
  action_type : String
  version : String
  parse : Option String → List (String × Value) → Except ParseError H

/-- The result `reject_hint` builds. -/
def rejection (action_id : Option String) (action_type reason : String)
    (message_id : Option String) : HintResult :=
  { action_id, action_type, status := .REJECTED, reason := some reason, message_id }

/-- `reject_hint`. A type that is not supported is the router's text, and stays out of the
issue. -/
def reject_hint (action_id : Option String) (action_type reason : String)
    (message_id : Option String) (supported : Bool := true) : HM HintResult := do
  warn_hint_issue ("rejected:" ++ (if supported then action_type else "unknown") ++ ":" ++ reason)
  pure (rejection action_id action_type reason message_id)

/-- `hint_message_id`. -/
def hint_message_id (hint : Value) : Option String := (hint.getattr "message_id").text?

section Parser

variable {H : Type} (types : Dict String (HintType H))

/-- The body of the loop of `parse_hints`: the hint, or the rejection. -/
def parse_action (message_id : Option String) (raw : Value) : HM (H ⊕ HintResult) :=
  match raw with
  | .struct _ =>
    match (raw.getattr "action_id").text? with
    | none => .inr <$> reject_hint none "unknown" "invalid_hint" message_id
    | some action_id =>
      match (raw.getattr "action_type").text? with
      | none => .inr <$> reject_hint (some action_id) "unknown" "invalid_hint" message_id
      | some action_type =>
        match types.get? action_type with
        | none =>
          .inr <$> reject_hint (some action_id) action_type "unsupported_action_type" message_id
            false
        | some hint_type => do
          warn_version_mismatch hint_type.version (raw.getattr "action_version")
            (action_type ++ "-version-mismatch")
          match raw.getattr "payload" with
          | .mapping payload =>
            match hint_type.parse (some action_id) payload with
            | .ok hint => pure (.inl hint)
            | .error (.value_error reason) =>
              .inr <$> reject_hint (some action_id) action_type reason message_id
            | .error .other =>
              .inr <$> reject_hint (some action_id) action_type "invalid_hint" message_id
          | _ => .inr <$> reject_hint (some action_id) action_type "invalid_payload" message_id
  | _ => .inr <$> reject_hint none "unknown" "invalid_hint" message_id

/-- `parse_hints`. -/
def parse_hints (hint : Value) : HM (List H × List HintResult) :=
  match hint with
  | .struct _ => do
    warn_version_mismatch protocol_version (hint.getattr "protocol_version")
      "protocol-version-mismatch"
    match hint.getattr "actions" with
    | .list raw_actions =>
      foldEach raw_actions ([], []) fun parsed raw => do
        match ← parse_action types (hint_message_id hint) raw with
        | .inl hint => pure (parsed.1 ++ [hint], parsed.2)
        | .inr result => pure (parsed.1, parsed.2 ++ [result])
    | _ => raise (.value_error "invalid router hint")
  | _ => raise (.value_error "invalid router hint")

end Parser

/-! ## `fetch.py` -/

/-- `_KVFetchHint`. -/
structure KVFetchHint where
  action_id : Option String
  source_endpoint : String
  block_hashes : OrderedSet Nat
deriving DecidableEq

/-- The loop of `_parse_kv_fetch` over the hashes. A `bool` is no hash, although it is an `int`. -/
def collect_hashes : List Value → OrderedSet Nat → Except ParseError (OrderedSet Nat)
  | [], hashes => .ok hashes
  | .int block_hash :: rest, hashes =>
    if 0 ≤ block_hash ∧ block_hash < 2 ^ 64 then
      collect_hashes rest (hashes.insert block_hash.toNat)
    else .error (.value_error "invalid router hint")
  | _ :: _, _ => .error (.value_error "invalid router hint")

/-- `_parse_kv_fetch`. -/
def parse_kv_fetch (action_id : Option String) (payload : List (String × Value)) :
    Except ParseError KVFetchHint :=
  if (Value.lookup payload "no_retain").isSome then
    .error (.value_error "no_retain is not currently supported")
  else if ¬ ((Value.lookup payload "mode").getD (.str "copy")).is "copy" then
    .error (.value_error "only copy mode is currently supported")
  else
    match (Value.lookup payload "source_control_endpoint").getD .none with
    | .none => .error (.value_error "source-less hints are not currently supported")
    | .str source =>
      match Value.lookup payload "block_hashes" with
      | some (.list block_hashes) =>
        if source = "" then .error (.value_error "invalid router hint")
        else
          match collect_hashes block_hashes OrderedSet.empty with
          | .error e => .error e
          | .ok hashes =>
            if hashes.elems = [] then .error (.value_error "invalid router hint")
            else .ok ⟨action_id, source, hashes⟩
      | _ => .error (.value_error "invalid router hint")
    | _ => .error (.value_error "invalid router hint")

/-- `KV_FETCH`. -/
def kv_fetch : HintType KVFetchHint := ⟨"kv.fetch", "1.0", parse_kv_fetch⟩

/-- `HintDispatcher.report`. -/
def report (result : HintResult) : HM Unit := emit fun _ => .report result

variable (K : Knot)

/-- `_FetchHintHandler.submit`. -/
def fetch_submit (hint : KVFetchHint) (request_id : Option RequestId)
    (message_id : Option String) : HM Unit := do
  on_core (submit_hint K (some hint.source_endpoint) hint.block_hashes.elems request_id)
  report
    { action_id := hint.action_id, action_type := kv_fetch.action_type, status := .ACCEPTED,
      request_id, message_id }

/-! ## `dispatcher.py` -/

/-- `_HINT_TYPES`, by action type. -/
def hint_types : Dict String (HintType KVFetchHint) := Dict.empty.set kv_fetch.action_type kv_fetch

/-- `_warn_handler_error`. -/
def warn_handler_error (action_type phase : String) : HM Unit := do
  let issue := phase ++ ":" ++ action_type
  let desk ← read
  if issue ∈ desk.logged_handler_errors then pure ()
  else
    change fun desk =>
      { desk with logged_handler_errors := desk.logged_handler_errors.insert issue }
    emit fun _ => .warning issue

/-- `_submit_to_handler`: a raise means REJECTED, unless the progress thread is dead. -/
def submit_to_handler (hint : KVFetchHint) (request_id : Option RequestId)
    (message_id : Option String) : HM Unit :=
  handle (fetch_submit K hint request_id message_id) fun _ => do
    on_core (raise_if_failed K)
    warn_handler_error kv_fetch.action_type "submit"
    report
      { action_id := hint.action_id, action_type := kv_fetch.action_type, status := .REJECTED,
        reason := some "handler_error", request_id, message_id }

/-- `HintDispatcher.submit`, which is `submit_hint` of the core. -/
def submit (envelope : Value) (request_id : Option RequestId) : HM Unit := do
  on_core (raise_if_failed K)
  let parsed ← parse_hints hint_types envelope
  forEach parsed.2 fun result => report { result with request_id := request_id }
  forEach parsed.1 fun hint => submit_to_handler K hint request_id (hint_message_id envelope)

end Kvcr.Hints
