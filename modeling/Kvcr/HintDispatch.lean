/-
What becomes of an envelope.

Each action of an envelope gets a verdict of its own, a hint or a rejection, which depends on
nothing but the action and the types of hints there are: that is `verdict`. What parsing does
besides is to warn, and `Warned` says all there is to know about that. The dispatcher is then
two loops over the verdicts. To the core, an envelope is the sequence of its hints, and so every
result about histories of hints is one about histories of envelopes.
-/
import Mathlib.Data.List.Perm.Subperm
import Kvcr.Hints
import Kvcr.RequestHints

set_option autoImplicit false

namespace Kvcr.Hints

open Prog

/-! ## The payload of `kv.fetch` -/

/-- The hash as the wire has it. -/
def wire_hash (n : Nat) : Value := .int n

theorem collect_hashes_ok {values : List Value} {hashes hashes' : OrderedSet Nat} :
    collect_hashes values hashes = .ok hashes' ↔
      ∃ ns : List Nat, values = ns.map wire_hash ∧ (∀ n ∈ ns, n < 2 ^ 64) ∧
        hashes' = ns.foldl OrderedSet.insert hashes := by
  induction values generalizing hashes with
  | nil =>
    rw [collect_hashes]
    constructor
    · rintro ⟨⟩
      exact ⟨[], rfl, fun _ h => (by cases h), rfl⟩
    · rintro ⟨ns, hns, _, rfl⟩
      rw [List.map_eq_nil_iff.mp hns.symm]
      rfl
  | cons value values ih =>
    have hrefused : (∀ n : Nat, n < 2 ^ 64 → value ≠ wire_hash n) →
        ¬ ∃ ns : List Nat, value :: values = ns.map wire_hash ∧ (∀ n ∈ ns, n < 2 ^ 64) ∧
          hashes' = ns.foldl OrderedSet.insert hashes := by
      rintro hvalue ⟨ns, hns, hrange, _⟩
      cases ns with
      | nil => cases hns
      | cons n ns =>
        rw [List.map_cons, List.cons.injEq] at hns
        exact hvalue n (hrange n List.mem_cons_self) hns.1
    cases value with
    | int z =>
      rw [collect_hashes]
      by_cases hz : 0 ≤ z ∧ z < 2 ^ 64
      · obtain ⟨n, rfl⟩ := Int.eq_ofNat_of_zero_le hz.1
        rw [if_pos hz, ih]
        constructor
        · rintro ⟨ns, hns, hrange, hfold⟩
          refine ⟨n :: ns, ?_, ?_, hfold⟩
          · rw [hns, List.map_cons]
            rfl
          · refine List.forall_mem_cons.mpr ⟨?_, hrange⟩
            have hlt := hz.2
            omega
        · rintro ⟨ns, hns, hrange, hfold⟩
          cases ns with
          | nil => cases hns
          | cons m ns =>
            rw [List.map_cons, List.cons.injEq] at hns
            have hm : n = m := by
              have hint := hns.1
              unfold wire_hash at hint
              injection hint with hint
              exact Int.ofNat.inj hint
            subst hm
            exact ⟨ns, hns.2, fun k hk => hrange k (List.mem_cons_of_mem _ hk), hfold⟩
      · rw [if_neg hz]
        refine ⟨fun h => (by cases h), fun h => absurd h (hrefused ?_)⟩
        rintro n hn heq
        unfold wire_hash at heq
        injection heq with heq
        subst heq
        exact hz ⟨Int.natCast_nonneg n, by exact_mod_cast hn⟩
    | _ =>
      refine ⟨fun h => (by cases h), fun h => absurd h (hrefused ?_)⟩
      intro n _ heq
      cases heq

/-- What a payload has to be. -/
structure FetchPayload (payload : List (String × Value)) (source : String) (ns : List Nat) :
    Prop where
  no_retain : Value.lookup payload "no_retain" = none
  mode : ((Value.lookup payload "mode").getD (.str "copy")).is "copy" = true
  endpoint : Value.lookup payload "source_control_endpoint" = some (.str source)
  named : source ≠ ""
  hashes : Value.lookup payload "block_hashes" = some (.list (ns.map wire_hash))
  some_hash : ns ≠ []
  range : ∀ n ∈ ns, n < 2 ^ 64

theorem ofList_eq_nil {ns : List Nat} : (OrderedSet.ofList ns).elems = [] ↔ ns = [] := by
  constructor
  · intro h
    cases ns with
    | nil => rfl
    | cons n ns =>
      have hmem : n ∈ OrderedSet.ofList (n :: ns) := OrderedSet.mem_ofList.mpr List.mem_cons_self
      rw [OrderedSet.mem_def, h] at hmem
      cases hmem
  · rintro rfl
    rfl

/-- A `kv.fetch` action is a hint exactly if it asks for a copy, names a source, and lists at
least one hash and nothing but 64-bit numbers; the hint has the source and the hashes. -/
theorem parse_kv_fetch_accepts {action_id : Option String} {payload : List (String × Value)}
    {hint : KVFetchHint} :
    parse_kv_fetch action_id payload = .ok hint ↔
      ∃ ns, FetchPayload payload hint.source_endpoint ns ∧ hint.action_id = action_id ∧
        hint.block_hashes = OrderedSet.ofList ns := by
  constructor
  · intro h
    unfold parse_kv_fetch at h
    split at h
    · cases h
    · next hretain =>
      split at h
      · cases h
      · next hmode =>
        split at h
        · cases h
        · next source hsource =>
          split at h
          · next values hhashes =>
            split at h
            · cases h
            · next hnamed =>
              split at h
              · cases h
              · next hashes hcollect =>
                split at h
                · cases h
                · next hnil =>
                  cases h
                  obtain ⟨ns, rfl, hrange, rfl⟩ := collect_hashes_ok.mp hcollect
                  refine ⟨ns, ⟨?_, not_not.mp hmode, ?_, hnamed, hhashes, ?_, hrange⟩, rfl, rfl⟩
                  · exact Option.not_isSome_iff_eq_none.mp hretain
                  · cases hget : Value.lookup payload "source_control_endpoint" with
                    | none =>
                      rw [hget] at hsource
                      cases hsource
                    | some value =>
                      rw [hget, Option.getD_some] at hsource
                      rw [hsource]
                  · exact fun h => hnil (ofList_eq_nil.mpr h)
          · cases h
        · cases h
  · rintro ⟨ns, hpayload, rfl, hhashes⟩
    obtain ⟨action_id, source, hashes⟩ := hint
    dsimp only at hpayload hhashes
    subst hhashes
    have hcollect : collect_hashes (ns.map wire_hash) OrderedSet.empty =
        .ok (OrderedSet.ofList ns) :=
      collect_hashes_ok.mpr ⟨ns, rfl, hpayload.range, rfl⟩
    have hnil : ¬ (OrderedSet.ofList ns).elems = [] := fun h =>
      hpayload.some_hash (ofList_eq_nil.mp h)
    unfold parse_kv_fetch
    rw [hpayload.no_retain, if_neg (by simp), if_neg (not_not.mpr hpayload.mode), hpayload.endpoint,
      hpayload.hashes]
    dsimp only [Option.getD_some]
    rw [if_neg hpayload.named, hcollect]
    dsimp only
    rw [if_neg hnil]

/-! ## Warnings -/

/-- The issues a log warns about. -/
def warnings (t : List Note) : List String :=
  t.filterMap fun
    | .warning issue => some issue
    | _ => none

/-- The results a log reports. -/
def reports (t : List Note) : List HintResult :=
  t.filterMap fun
    | .report result => some result
    | _ => none

theorem warnings_append {t u : List Note} : warnings (t ++ u) = warnings t ++ warnings u :=
  List.filterMap_append

theorem reports_append {t u : List Note} : reports (t ++ u) = reports t ++ reports u :=
  List.filterMap_append

/-- From `d` to `d'` every new issue was warned about once, and is a known one. -/
structure Warned (known : List String) (d d' : Desk) (t t' : List Note) : Prop where
  errors : d'.logged_handler_errors = d.logged_handler_errors
  issues : ∃ issues, d'.logged_hint_issues.elems = d.logged_hint_issues.elems ++ issues ∧
    warnings t' = warnings t ++ issues ∧ ∀ issue ∈ issues, issue ∈ known

theorem Warned.refl {known : List String} {d : Desk} {t : List Note} : Warned known d d t t :=
  ⟨rfl, [], (List.append_nil _).symm, (List.append_nil _).symm, fun _ h => (by cases h)⟩

theorem Warned.trans {known : List String} {d d' d'' : Desk} {t t' t'' : List Note}
    (h : Warned known d d' t t') (h' : Warned known d' d'' t' t'') : Warned known d d'' t t'' := by
  obtain ⟨issues, helems, hwarnings, hknown⟩ := h.issues
  obtain ⟨issues', helems', hwarnings', hknown'⟩ := h'.issues
  refine ⟨h'.errors.trans h.errors, issues ++ issues', ?_, ?_, fun issue hmem => ?_⟩
  · rw [helems', helems, List.append_assoc]
  · rw [hwarnings', hwarnings, List.append_assoc]
  · rcases List.mem_append.mp hmem with hmem | hmem
    · exact hknown issue hmem
    · exact hknown' issue hmem

/-- What happens to the core, or is reported, is no warning. -/
theorem Warned.quiet {known : List String} {d : Desk} {core : Core} {t u : List Note}
    (h : warnings u = []) : Warned known d { d with core := core } t (t ++ u) :=
  ⟨rfl, [], (List.append_nil _).symm, by rw [warnings_append, h], fun _ h => (by cases h)⟩

/-- Parsing warns, and does nothing else. -/
structure Parses (known : List String) (d d' : Desk) (t t' : List Note) : Prop
    extends Warned known d d' t t' where
  core : d'.core = d.core
  silent : reports t' = reports t

theorem Parses.refl {known : List String} {d : Desk} {t : List Note} : Parses known d d t t :=
  ⟨.refl, rfl, rfl⟩

theorem Parses.trans {known : List String} {d d' d'' : Desk} {t t' t'' : List Note}
    (h : Parses known d d' t t') (h' : Parses known d' d'' t' t'') : Parses known d d'' t t'' :=
  ⟨h.toWarned.trans h'.toWarned, h'.core.trans h.core, h'.silent.trans h.silent⟩

section Warnings

variable {known : List String} {W : Watch Desk Err Note} {d : Desk} {t : List Note}

theorem wp_warn_hint_issue {issue : String} (hissue : issue ∈ known) :
    wp W (warn_hint_issue issue) (fun _ d' t' => Parses known d d' t t') d t := by
  unfold warn_hint_issue
  refine wp_bind.mpr (wp_read.mpr (wp_ite.mpr ⟨fun _ => wp_pure.mpr .refl, fun hnew => ?_⟩))
  refine wp_bind.mpr (wp_change.mpr (wp_emit.mpr ⟨⟨rfl, [issue], ?_, ?_, ?_⟩, rfl, ?_⟩))
  · exact OrderedSet.insert_elems hnew
  · rw [warnings_append]
    rfl
  · intro issue' hmem
    rw [List.mem_singleton.mp hmem]
    exact hissue
  · rw [reports_append]
    exact List.append_nil _

theorem wp_warn_version_mismatch {supported : String} {received : Value} {issue : String}
    (hissue : issue ∈ known) :
    wp W (warn_version_mismatch supported received issue)
      (fun _ d' t' => Parses known d d' t t') d t :=
  wp_ite.mpr ⟨fun _ => wp_pure.mpr .refl, fun _ => wp_warn_hint_issue hissue⟩

/-- The issue of a rejection. -/
def rejection_issue (action_type reason : String) : String :=
  "rejected:" ++ action_type ++ ":" ++ reason

theorem wp_reject_hint {H : Type} {action_id : Option String} {action_type reason : String}
    {message_id : Option String} {supported : Bool}
    (hissue : rejection_issue (if supported then action_type else "unknown") reason ∈ known) :
    wp W (Sum.inr <$> reject_hint action_id action_type reason message_id supported :
        HM (H ⊕ HintResult))
      (fun v d' t' => v = .inr (rejection action_id action_type reason message_id) ∧
        Parses known d d' t t') d t := by
  refine wp_bind.mpr (wp_bind.mpr (wp_mono (wp_warn_hint_issue hissue) fun _ d' t' h => ?_))
  exact wp_pure.mpr (wp_pure.mpr ⟨rfl, h⟩)

end Warnings

/-! ## Verdicts -/

section Verdicts

variable {H : Type} (types : Dict String (HintType H)) (message_id : Option String)

/-- What becomes of one action: a hint, or a rejection. -/
def verdict (raw : Value) : H ⊕ HintResult :=
  match raw with
  | .struct _ =>
    match (raw.getattr "action_id").text?, (raw.getattr "action_type").text? with
    | none, _ => .inr (rejection none "unknown" "invalid_hint" message_id)
    | some action_id, none => .inr (rejection (some action_id) "unknown" "invalid_hint" message_id)
    | some action_id, some action_type =>
      match types.get? action_type, raw.getattr "payload" with
      | none, _ =>
        .inr (rejection (some action_id) action_type "unsupported_action_type" message_id)
      | some hint_type, .mapping payload =>
        match hint_type.parse (some action_id) payload with
        | .ok hint => .inl hint
        | .error (.value_error reason) =>
          .inr (rejection (some action_id) action_type reason message_id)
        | .error .other => .inr (rejection (some action_id) action_type "invalid_hint" message_id)
      | some _, _ => .inr (rejection (some action_id) action_type "invalid_payload" message_id)
  | _ => .inr (rejection none "unknown" "invalid_hint" message_id)

/-- All issues the parser can warn about are known, whatever the router sends. -/
structure Foreseen (known : List String) : Prop where
  protocol : "protocol-version-mismatch" ∈ known
  invalid : rejection_issue "unknown" "invalid_hint" ∈ known
  unsupported : rejection_issue "unknown" "unsupported_action_type" ∈ known
  version : ∀ action_type hint_type, types.get? action_type = some hint_type →
    action_type ++ "-version-mismatch" ∈ known
  payload : ∀ action_type hint_type, types.get? action_type = some hint_type →
    rejection_issue action_type "invalid_payload" ∈ known
  refused : ∀ action_type hint_type, types.get? action_type = some hint_type →
    ∀ action_id payload reason, hint_type.parse action_id payload = .error (.value_error reason) →
      rejection_issue action_type reason ∈ known
  failed : ∀ action_type hint_type, types.get? action_type = some hint_type →
    ∀ action_id payload, hint_type.parse action_id payload = .error .other →
      rejection_issue action_type "invalid_hint" ∈ known

variable {types message_id} {known : List String} {W : Watch Desk Err Note} {d : Desk}
  {t : List Note}

/-- Parsing an action gives its verdict. -/
theorem wp_parse_action (hknown : Foreseen types known) {raw : Value} :
    wp W (parse_action types message_id raw)
      (fun v d' t' => v = verdict types message_id raw ∧ Parses known d d' t t') d t := by
  unfold parse_action verdict
  cases raw with
  | struct fields =>
    dsimp only
    cases hid : (Value.getattr (.struct fields) "action_id").text? with
    | none => exact wp_reject_hint hknown.invalid
    | some action_id =>
      dsimp only
      cases htype : (Value.getattr (.struct fields) "action_type").text? with
      | none => exact wp_reject_hint hknown.invalid
      | some action_type =>
        dsimp only
        cases hget : types.get? action_type with
        | none => exact wp_reject_hint hknown.unsupported
        | some hint_type =>
          dsimp only
          refine wp_seq (wp_warn_version_mismatch (hknown.version _ _ hget))
            fun _ d₁ t₁ hwarned => ?_
          -- what comes after the version only adds to the warnings
          have hthen {v : H ⊕ HintResult} {m : HM (H ⊕ HintResult)}
              (h : wp W m (fun v' d' t' => v' = v ∧ Parses known d₁ d' t₁ t') d₁ t₁) :
              wp W m (fun v' d' t' => v' = v ∧ Parses known d d' t t') d₁ t₁ :=
            wp_mono h fun _ _ _ h => ⟨h.1, hwarned.trans h.2⟩
          cases hpayload : Value.getattr (.struct fields) "payload" with
          | mapping payload =>
            dsimp only
            cases hparse : hint_type.parse (some action_id) payload with
            | ok hint => exact wp_pure.mpr ⟨rfl, hwarned⟩
            | error e =>
              cases e with
              | value_error reason =>
                exact hthen (wp_reject_hint (hknown.refused _ _ hget _ _ _ hparse))
              | other => exact hthen (wp_reject_hint (hknown.failed _ _ hget _ _ hparse))
          | _ => exact hthen (wp_reject_hint (hknown.payload _ _ hget))
  | _ => exact wp_reject_hint hknown.invalid

/-- The actions of an envelope, if it is one. -/
def actions (envelope : Value) : Option (List Value) :=
  match envelope with
  | .struct _ =>
    match envelope.getattr "actions" with
    | .list raw_actions => some raw_actions
    | _ => none
  | _ => none

/-- The hints and the rejections among some verdicts. -/
def hints_of (verdicts : List (H ⊕ HintResult)) : List H := verdicts.filterMap Sum.getLeft?

def rejections_of (verdicts : List (H ⊕ HintResult)) : List HintResult :=
  verdicts.filterMap Sum.getRight?

/-- Parsing an envelope sorts the verdicts on its actions. -/
theorem wp_parse_hints (hknown : Foreseen types known) {envelope : Value} :
    wp ⟨fun e d' t' => e = .value_error "invalid router hint" ∧ actions envelope = none ∧
          Parses known d d' t t', fun _ => False⟩
      (parse_hints types envelope)
      (fun parsed d' t' => ∃ raw_actions, actions envelope = some raw_actions ∧
        parsed = (hints_of (raw_actions.map (verdict types (hint_message_id envelope))),
          rejections_of (raw_actions.map (verdict types (hint_message_id envelope)))) ∧
        Parses known d d' t t') d t := by
  unfold parse_hints actions
  cases envelope with
  | struct fields =>
    dsimp only
    refine wp_seq (wp_warn_version_mismatch hknown.protocol) fun _ d₁ t₁ hwarned => ?_
    cases hactions : Value.getattr (.struct fields) "actions" with
    | list raw_actions =>
      dsimp only
      generalize hint_message_id (.struct fields) = message_id
      refine wp_foldEach (fun rest parsed d' t' => ∃ done, raw_actions = done ++ rest ∧
        parsed = (hints_of (done.map (verdict types message_id)),
          rejections_of (done.map (verdict types message_id))) ∧ Parses known d d' t t')
        ?_ ?_ _ _ _ _ ⟨[], rfl, rfl, hwarned⟩
      · rintro raw rest parsed d₂ t₂ ⟨done, hdone, rfl, hparses⟩
        refine wp_seq (wp_parse_action hknown) ?_
        rintro v d₃ t₃ ⟨rfl, hparses₃⟩
        have hsplit : raw_actions = (done ++ [raw]) ++ rest := by
          rw [hdone, List.append_assoc]
          rfl
        cases hv : verdict types message_id raw with
        | inl hint =>
          refine wp_pure.mpr ⟨done ++ [raw], hsplit, ?_, hparses.trans hparses₃⟩
          simp [hints_of, rejections_of, hv]
        | inr result =>
          refine wp_pure.mpr ⟨done ++ [raw], hsplit, ?_, hparses.trans hparses₃⟩
          simp [hints_of, rejections_of, hv]
      · rintro parsed d₂ t₂ ⟨done, hdone, hparsed, hparses⟩
        rw [List.append_nil] at hdone
        rw [hdone]
        exact ⟨done, rfl, hparsed, hparses⟩
    | _ => exact wp_raise.mpr ⟨rfl, rfl, hwarned⟩
  | _ => exact wp_raise.mpr ⟨rfl, rfl, .refl⟩

end Verdicts

/-! ## The issues of `kv.fetch` -/

/-- Everything there is to warn about. -/
def kv_issues : List String :=
  ["protocol-version-mismatch", rejection_issue "unknown" "invalid_hint",
    rejection_issue "unknown" "unsupported_action_type", "kv.fetch" ++ "-version-mismatch",
    rejection_issue "kv.fetch" "invalid_payload",
    rejection_issue "kv.fetch" "no_retain is not currently supported",
    rejection_issue "kv.fetch" "only copy mode is currently supported",
    rejection_issue "kv.fetch" "source-less hints are not currently supported",
    rejection_issue "kv.fetch" "invalid router hint"]

theorem collect_hashes_error {values : List Value} {hashes : OrderedSet Nat} {e : ParseError}
    (h : collect_hashes values hashes = .error e) : e = .value_error "invalid router hint" := by
  induction values generalizing hashes with
  | nil => cases h
  | cons value values ih =>
    cases value with
    | int z =>
      rw [collect_hashes] at h
      split at h
      · exact ih h
      · cases h
        rfl
    | _ =>
      cases h
      rfl

/-- The parser of `kv.fetch` refuses for one of four reasons, and fails in no other way. -/
theorem parse_kv_fetch_error {action_id : Option String} {payload : List (String × Value)}
    {e : ParseError} (h : parse_kv_fetch action_id payload = .error e) :
    ∃ reason, e = .value_error reason ∧ rejection_issue "kv.fetch" reason ∈ kv_issues := by
  have hcopy : rejection_issue "kv.fetch" "invalid router hint" ∈ kv_issues := by simp [kv_issues]
  unfold parse_kv_fetch at h
  split at h
  · cases h
    exact ⟨_, rfl, by simp [kv_issues]⟩
  · split at h
    · cases h
      exact ⟨_, rfl, by simp [kv_issues]⟩
    · split at h
      · cases h
        exact ⟨_, rfl, by simp [kv_issues]⟩
      · split at h
        · split at h
          · cases h
            exact ⟨_, rfl, hcopy⟩
          · split at h
            · next hcollect =>
              cases h
              exact ⟨_, collect_hashes_error hcollect, hcopy⟩
            · split at h
              · cases h
                exact ⟨_, rfl, hcopy⟩
              · cases h
        · cases h
          exact ⟨_, rfl, hcopy⟩
      · cases h
        exact ⟨_, rfl, hcopy⟩

theorem get?_hint_types {action_type : String} {hint_type : HintType KVFetchHint}
    (h : hint_types.get? action_type = some hint_type) :
    action_type = "kv.fetch" ∧ hint_type = kv_fetch := by
  unfold hint_types at h
  rw [Dict.get?_set] at h
  split at h
  · next heq =>
    cases h
    exact ⟨heq, rfl⟩
  · cases h

theorem kv_foreseen : Foreseen hint_types kv_issues := by
  refine ⟨by simp [kv_issues], by simp [kv_issues], by simp [kv_issues], ?_, ?_, ?_, ?_⟩
  · intro action_type hint_type hget
    rw [(get?_hint_types hget).1]
    simp [kv_issues]
  · intro action_type hint_type hget
    rw [(get?_hint_types hget).1]
    simp [kv_issues]
  · intro action_type hint_type hget action_id payload reason hparse
    rw [(get?_hint_types hget).2] at hparse
    rw [(get?_hint_types hget).1]
    obtain ⟨_, heq, hmem⟩ := parse_kv_fetch_error hparse
    cases heq
    exact hmem
  · intro action_type hint_type hget action_id payload hparse
    rw [(get?_hint_types hget).2] at hparse
    obtain ⟨_, heq, _⟩ := parse_kv_fetch_error hparse
    cases heq

/-! ## The dispatcher -/

section Dispatcher

variable {cfg : Config} {env : Env} {fuel : Nat} {request_id : Option RequestId}
  {message_id : Option String}

/-- The result of a hint that was handled. -/
def accepted (request_id : Option RequestId) (message_id : Option String) (hint : KVFetchHint) :
    HintResult :=
  { action_id := hint.action_id, action_type := kv_fetch.action_type, status := .ACCEPTED,
    request_id, message_id }

/-- The result of an action, from its verdict. -/
def result_of (request_id : Option RequestId) (message_id : Option String) :
    KVFetchHint ⊕ HintResult → HintResult
  | .inl hint => accepted request_id message_id hint
  | .inr result => { result with request_id := request_id }

/-- The hint as an event of the core. -/
def hint_event (fuel : Nat) (request_id : Option RequestId) (hint : KVFetchHint) : Event :=
  .call fuel (.submit_hint (some hint.source_endpoint) hint.block_hashes.elems request_id)

/-- From `s` to `s'` the core saw these hints, in this order. -/
def Sees (cfg : Config) (env : Env) (fuel : Nat) (request_id : Option RequestId)
    (hints : List KVFetchHint) (s s' : Core) : Prop :=
  ∀ table events, History cfg env table events s →
    History cfg env table (events ++ hints.map (hint_event fuel request_id)) s'

theorem Sees.refl {s : Core} : Sees cfg env fuel request_id [] s s := by
  intro table events history
  rw [List.map_nil, List.append_nil]
  exact history

theorem Sees.trans {hints hints' : List KVFetchHint} {s s' s'' : Core}
    (h : Sees cfg env fuel request_id hints s s')
    (h' : Sees cfg env fuel request_id hints' s' s'') :
    Sees cfg env fuel request_id (hints ++ hints') s s'' := by
  intro table events history
  rw [List.map_append, ← List.append_assoc]
  exact h' table _ (h table events history)

theorem Sees.check {s s' : Core} (hend : (raise_if_failed (knot cfg env fuel) s).EndsIn s') :
    Sees cfg env fuel request_id [] s s' := by
  intro table events history
  rw [List.map_nil, List.append_nil]
  exact history.check fuel hend

theorem Sees.hint {s s' : Core} {hint : KVFetchHint}
    (hend : (submit_hint (knot cfg env fuel) (some hint.source_endpoint) hint.block_hashes.elems
      request_id s).EndsIn s') : Sees cfg env fuel request_id [hint] s s' :=
  fun _ _ history => history.step (hint_event fuel request_id hint) hend

/-- The only way a function of the core raises here: the progress thread is dead. -/
def dead (t : List Ev) : Watch Core Err Ev :=
  ⟨fun e s' t' => (e = .progress_failed ∧ s'.progress.failed = true) ∧ t' = t, fun _ => False⟩

theorem wp_raise_if_failed_dead {K : Knot} {s : Core} {t : List Ev} :
    wp (dead t) (raise_if_failed K) (fun _ _ t' => s.progress.failed = false ∧ t' = t) s t := by
  unfold raise_if_failed
  refine wp_bind.mpr (wp_step.mpr (wp_bind.mpr (wp_change.mpr (wp_bind.mpr (wp_read.mpr ?_)))))
  refine wp_ite.mpr ⟨fun hfailed => wp_raise.mpr ⟨⟨rfl, hfailed⟩, rfl⟩, fun halive => ?_⟩
  refine wp_pure.mpr ⟨Bool.eq_false_iff.mpr fun h => halive ?_, rfl⟩
  dsimp only
  rw [h, Bool.true_or]

theorem wp_submit_hint_dead {K : Knot} {src : Option String} {block_hashes : List Nat}
    {s : Core} {t : List Ev} :
    wp (dead t) (submit_hint K src block_hashes request_id) (fun _ _ t' => t' = t) s t := by
  have hconnect (s : Core) : wp (dead t) (eager_connect K src) (fun _ _ t' => t' = t) s t :=
    wp_ite.mpr ⟨fun _ => wp_mono wp_raise_if_failed_dead fun _ _ _ h => h.2,
      fun _ => wp_pure.mpr rfl⟩
  unfold submit_hint
  cases request_id with
  | none => exact hconnect s
  | some request_id =>
    refine wp_bind.mpr (wp_read.mpr ?_)
    dsimp only
    cases s.remote.request_hints.get? request_id with
    | none => exact wp_bind.mpr (wp_change.mpr (hconnect _))
    | some previous =>
      exact wp_ite.mpr ⟨fun _ => wp_change.mpr rfl, fun _ =>
        wp_bind.mpr (wp_change.mpr (hconnect _))⟩

variable {d : Desk} {t : List Note}

/-- A part of the envelope was seen, with these results. -/
structure Saw (cfg : Config) (env : Env) (fuel : Nat) (request_id : Option RequestId)
    (hints : List KVFetchHint) (results : List HintResult) (d d' : Desk) (t t' : List Note) :
    Prop where
  sees : Sees cfg env fuel request_id hints d.core d'.core
  warned : Warned kv_issues d d' t t'
  reported : reports t' = reports t ++ results

theorem Saw.trans {hints hints' : List KVFetchHint} {results results' : List HintResult}
    {d' d'' : Desk} {t' t'' : List Note}
    (h : Saw cfg env fuel request_id hints results d d' t t')
    (h' : Saw cfg env fuel request_id hints' results' d' d'' t' t'') :
    Saw cfg env fuel request_id (hints ++ hints') (results ++ results') d d'' t t'' :=
  ⟨h.sees.trans h'.sees, h.warned.trans h'.warned, by
    rw [h'.reported, h.reported, List.append_assoc]⟩

/-- A function of the core that logs nothing. -/
theorem Saw.core {hints : List KVFetchHint} {core : Core}
    (h : Sees cfg env fuel request_id hints d.core core) :
    Saw cfg env fuel request_id hints [] d { d with core := core } t (t ++ [].map Note.core) :=
  ⟨h, .quiet rfl, by rw [reports_append]; rfl⟩

theorem Saw.report {result : HintResult} :
    Saw cfg env fuel request_id [] [result] d d t (t ++ [.report result]) :=
  ⟨.refl, .quiet rfl, by rw [reports_append]; rfl⟩

theorem wp_check (request_id : Option RequestId) :
    wp ⟨fun e d' t' => (e = .progress_failed ∧ d'.core.progress.failed = true) ∧
          Saw cfg env fuel request_id [] [] d d' t t', fun _ => False⟩
      (on_core (raise_if_failed (knot cfg env fuel)))
      (fun _ d' t' => d.core.progress.failed = false ∧
        Saw cfg env fuel request_id [] [] d d' t t') d t := by
  refine wp_zoom.mpr (wp_conseq (wp_ends wp_raise_if_failed_dead) ?_ (fun _ h => h) ?_)
  · rintro e s' u ⟨⟨hdead, rfl⟩, hend⟩
    exact ⟨hdead, .core (.check hend)⟩
  · rintro _ s' u ⟨⟨halive, rfl⟩, hend⟩
    exact ⟨halive, .core (.check hend)⟩

/-- Handling a hint stores it and reports it, or finds the progress thread dead. -/
theorem wp_submit_to_handler {hint : KVFetchHint} :
    wp ⟨fun e d' t' => (e = .progress_failed ∧ d'.core.progress.failed = true) ∧
          Saw cfg env fuel request_id [hint] [] d d' t t', fun _ => False⟩
      (submit_to_handler (knot cfg env fuel) hint request_id message_id)
      (fun _ d' t' => Saw cfg env fuel request_id [hint] [accepted request_id message_id hint]
        d d' t t') d t := by
  refine wp_handle.mpr ?_
  refine wp_bind.mpr (wp_zoom.mpr (wp_conseq (wp_ends wp_submit_hint_dead) ?_ (fun _ h => h) ?_))
  · -- the store raised because the thread is dead, and so does looking at it again
    rintro e s' u ⟨⟨⟨_, hfailed⟩, rfl⟩, hend⟩
    refine wp_bind.mpr (wp_conseq (wp_check request_id) ?_ (fun _ h => h) ?_)
    · rintro e' d' t' ⟨hdead, hsaw⟩
      exact ⟨hdead, (Saw.core (.hint hend)).trans hsaw⟩
    · rintro _ d' t' ⟨halive, _⟩
      exact absurd (hfailed.symm.trans halive) (by decide)
  · rintro _ s' u ⟨rfl, hend⟩
    exact wp_emit.mpr ((Saw.core (.hint hend)).trans .report)

/-- The verdicts on the actions of an envelope. -/
def verdicts (envelope : Value) : List (KVFetchHint ⊕ HintResult) :=
  ((actions envelope).getD []).map (verdict hint_types (hint_message_id envelope))

/-- The results in the order they are reported in: what is rejected comes first. -/
def results (request_id : Option RequestId) (envelope : Value) : List HintResult :=
  (rejections_of (verdicts envelope)).map
      (fun result => { result with request_id := request_id }) ++
    (hints_of (verdicts envelope)).map (accepted request_id (hint_message_id envelope))

theorem Saw.refl : Saw cfg env fuel request_id [] [] d d t t :=
  ⟨.refl, .refl, (List.append_nil _).symm⟩

theorem wp_report_all (cfg : Config) (env : Env) (fuel : Nat) {W : Watch Desk Err Note}
    {rejected : List HintResult} :
    wp W (forEach rejected fun result => Hints.report { result with request_id := request_id })
      (fun _ d' t' => Saw cfg env fuel request_id []
        (rejected.map fun result => { result with request_id := request_id }) d d' t t') d t := by
  refine wp_forEach (fun rest d' t' => ∃ done, rejected = done ++ rest ∧
    Saw cfg env fuel request_id [] (done.map fun result => { result with request_id := request_id })
      d d' t t') ?_ ?_ _ _ _ ⟨[], rfl, .refl⟩
  · rintro result rest d₁ t₁ ⟨done, hdone, hsaw⟩
    refine wp_emit.mpr ⟨done ++ [result], by rw [hdone, List.append_assoc]; rfl, ?_⟩
    rw [List.map_append]
    exact hsaw.trans .report
  · rintro d₁ t₁ ⟨done, hdone, hsaw⟩
    rw [hdone, List.append_nil]
    exact hsaw

theorem wp_submit_all {hints : List KVFetchHint} :
    wp ⟨fun e d' t' => (e = .progress_failed ∧ d'.core.progress.failed = true) ∧
          ∃ k results, Saw cfg env fuel request_id (hints.take k) results d d' t t' ∧
            results <+: hints.map (accepted request_id message_id), fun _ => False⟩
      (forEach hints fun hint => submit_to_handler (knot cfg env fuel) hint request_id message_id)
      (fun _ d' t' => Saw cfg env fuel request_id hints
        (hints.map (accepted request_id message_id)) d d' t t') d t := by
  refine wp_forEach (fun rest d' t' => ∃ done, hints = done ++ rest ∧
    Saw cfg env fuel request_id done (done.map (accepted request_id message_id)) d d' t t')
    ?_ ?_ _ _ _ ⟨[], rfl, .refl⟩
  · rintro hint rest d₁ t₁ ⟨done, hdone, hsaw⟩
    refine wp_conseq wp_submit_to_handler ?_ (fun _ h => h) ?_
    · rintro e d₂ t₂ ⟨hdead, hsaw₂⟩
      refine ⟨hdead, done.length + 1, done.map (accepted request_id message_id) ++ [], ?_, ?_⟩
      · have htake : hints.take (done.length + 1) = done ++ [hint] := by
          rw [hdone, List.take_length_add_append]
          rfl
        rw [htake]
        exact hsaw.trans hsaw₂
      · rw [List.append_nil, hdone, List.map_append]
        exact List.prefix_append _ _
    · rintro _ d₂ t₂ hsaw₂
      refine ⟨done ++ [hint], by rw [hdone, List.append_assoc]; rfl, ?_⟩
      rw [List.map_append]
      exact hsaw.trans hsaw₂
  · rintro d₁ t₁ ⟨done, hdone, hsaw⟩
    rw [hdone, List.append_nil]
    exact hsaw

/-- All that submitting an envelope does, however it ends. -/
theorem wp_submit (cfg : Config) (env : Env) (fuel : Nat) (envelope : Value)
    (request_id : Option RequestId) (d : Desk) (t : List Note) :
    wp ⟨fun e d' t' => ∃ k reported,
          Saw cfg env fuel request_id ((hints_of (verdicts envelope)).take k) reported d d' t t' ∧
          (e = .progress_failed ∧ d'.core.progress.failed = true ∧
              reported <+: results request_id envelope ∨
            e = .value_error "invalid router hint" ∧ actions envelope = none ∧ reported = []),
        fun _ => False⟩
      (submit (knot cfg env fuel) envelope request_id)
      (fun _ d' t' => (actions envelope).isSome = true ∧
        Saw cfg env fuel request_id (hints_of (verdicts envelope)) (results request_id envelope)
          d d' t t') d t := by
  unfold submit
  refine wp_bind.mpr (wp_conseq (wp_check request_id) ?_ (fun _ h => h) ?_)
  · rintro e d₁ t₁ ⟨⟨he, hfailed⟩, hsaw⟩
    exact ⟨0, [], hsaw, .inl ⟨he, hfailed, List.nil_prefix⟩⟩
  rintro _ d₁ t₁ ⟨_, hsaw₁⟩
  -- parsing touches neither the core nor the results
  have hparses {d₂ : Desk} {t₂ : List Note} (h : Parses kv_issues d₁ d₂ t₁ t₂) :
      Saw cfg env fuel request_id [] [] d d₂ t t₂ := by
    refine hsaw₁.trans ⟨?_, h.toWarned, by rw [h.silent, List.append_nil]⟩
    rw [h.core]
    exact .refl
  refine wp_bind.mpr (wp_conseq (wp_parse_hints kv_foreseen) ?_ (fun _ h => h) ?_)
  · rintro e d₂ t₂ ⟨he, hnone, h⟩
    exact ⟨0, [], hparses h, .inr ⟨he, hnone, rfl⟩⟩
  rintro parsed d₂ t₂ ⟨raw_actions, hactions, rfl, h⟩
  have hverdicts : raw_actions.map (verdict hint_types (hint_message_id envelope)) =
      verdicts envelope := by
    rw [verdicts, hactions]
    rfl
  dsimp only
  rw [hverdicts]
  refine wp_seq (wp_report_all cfg env fuel) fun _ d₃ t₃ hsaw₃ => ?_
  have hsaw := (hparses h).trans hsaw₃
  refine wp_conseq wp_submit_all ?_ (fun _ h => h) ?_
  · rintro e d₄ t₄ ⟨⟨he, hfailed⟩, k, reported, hsaw₄, hprefix⟩
    refine ⟨k, _, hsaw.trans hsaw₄, .inl ⟨he, hfailed, ?_⟩⟩
    exact (List.prefix_append_right_inj _).mpr hprefix
  · rintro _ d₄ t₄ hsaw₄
    rw [hactions]
    exact ⟨rfl, hsaw.trans hsaw₄⟩

/-- The results are those of the actions, in another order. -/
theorem sorted_perm (request_id : Option RequestId) (message_id : Option String)
    (vs : List (KVFetchHint ⊕ HintResult)) :
    ((rejections_of vs).map (fun result : HintResult => { result with request_id := request_id }) ++
      (hints_of vs).map (accepted request_id message_id)).Perm
      (vs.map (result_of request_id message_id)) := by
  induction vs with
  | nil => exact List.Perm.nil
  | cons v vs ih =>
    cases v with
    | inl hint => exact List.perm_middle.trans (ih.cons _)
    | inr result => exact ih.cons _

/-- Submitting an envelope reports one result for each of its actions: first the rejections and
then the hints, each in the envelope's order, with the ids of the action, the request and the
envelope. It raises only for something that is no envelope, of which nothing is reported, and
for a dead progress thread, after reporting a part; it always ends. -/
theorem envelope_reports_each_action_once {envelope : Value} :
    (∀ d' u, submit (knot cfg env fuel) envelope request_id d = .ok () d' u →
      ∃ raw_actions, actions envelope = some raw_actions ∧
        reports u = results request_id envelope ∧
        (reports u).Perm (raw_actions.map fun raw => result_of request_id
          (hint_message_id envelope) (verdict hint_types (hint_message_id envelope) raw))) ∧
    (∀ e d' u, submit (knot cfg env fuel) envelope request_id d = .err e d' u →
      e = .progress_failed ∧ d'.core.progress.failed = true ∧
          reports u <+: results request_id envelope ∨
        e = .value_error "invalid router hint" ∧ actions envelope = none ∧ reports u = []) ∧
    ∀ u, submit (knot cfg env fuel) envelope request_id d ≠ .diverged u := by
  have hwp := wp_submit cfg env fuel envelope request_id d []
  unfold wp at hwp
  refine ⟨fun d' u hrun => ?_, fun e d' u hrun => ?_, fun u hrun => ?_⟩
  · rw [hrun] at hwp
    obtain ⟨hsome, hsaw⟩ := hwp
    obtain ⟨raw_actions, hactions⟩ := Option.isSome_iff_exists.mp hsome
    have hreports : reports u = results request_id envelope := hsaw.reported
    refine ⟨raw_actions, hactions, hreports, ?_⟩
    rw [hreports]
    refine (sorted_perm request_id (hint_message_id envelope) (verdicts envelope)).trans ?_
    rw [verdicts, hactions, Option.getD_some, List.map_map]
    exact List.Perm.refl _
  · rw [hrun] at hwp
    obtain ⟨k, reported, hsaw, hends⟩ := hwp
    have hreports : reports u = reported := hsaw.reported
    rw [hreports]
    exact hends
  · rw [hrun] at hwp
    exact hwp

/-- To the core an envelope is the sequence of its hints: whatever it has seen before, after an
envelope it has seen the hints among the actions too, in their order, all of them if the call
returned, and the first ones if it raised. -/
theorem envelope_is_its_hints {table : Dict BlockKey RecoveryBlock} {events : List Event}
    {d' : Desk} {envelope : Value} (history : History cfg env table events d.core)
    (hend : (submit (knot cfg env fuel) envelope request_id d).EndsIn d') :
    ∃ k, History cfg env table (events ++
        ((hints_of (verdicts envelope)).take k).map (hint_event fuel request_id)) d'.core ∧
      ∀ u, submit (knot cfg env fuel) envelope request_id d = .ok () d' u →
        k = (hints_of (verdicts envelope)).length := by
  have hwp := wp_submit cfg env fuel envelope request_id d []
  unfold wp at hwp
  generalize submit (knot cfg env fuel) envelope request_id d = outcome at hwp hend
  cases hend with
  | ok a u =>
    refine ⟨(hints_of (verdicts envelope)).length, ?_, fun _ _ => rfl⟩
    rw [List.take_length]
    exact hwp.2.sees table events history
  | err e u =>
    obtain ⟨k, reported, hsaw, _⟩ := hwp
    exact ⟨k, hsaw.sees table events history, fun _ h => (by cases h)⟩

/-- An envelope with one action of each kind: a hint, a type that is not known, no action. -/
def mixed_envelope : Value :=
  .struct [("message_id", .str "m"), ("actions", .list [
    .struct [("action_id", .str "1"), ("action_type", .str "kv.fetch"),
      ("payload", .mapping [("source_control_endpoint", .str "peer"),
        ("block_hashes", .list [.int 1])])],
    .struct [("action_id", .str "2"), ("action_type", .str "kv.drop")],
    .none])]

/-- The desk of a core that has seen nothing. -/
def fresh_desk : Desk := { core := Core.initial peer_only 1 }

theorem mixed_envelope_runs :
    ∃ d' u, submit (knot peer_only calm 1) mixed_envelope (some "req") fresh_desk = .ok () d' u :=
  ⟨_, _, rfl⟩

/-- The core has seen the one hint of the envelope. -/
theorem envelope_is_its_hints_mixed :
    ∃ (d' : Desk) (k : Nat), History peer_only calm .empty ([] ++
        ((hints_of (verdicts mixed_envelope)).take k).map (hint_event 1 (some "req"))) d'.core ∧
      k = 1 := by
  obtain ⟨d', u, hrun⟩ := mixed_envelope_runs
  have history : History peer_only calm .empty [] fresh_desk.core := .start 1 1 rfl
  have hend :
      (submit (knot peer_only calm 1) mixed_envelope (some "req") fresh_desk).EndsIn d' := by
    rw [hrun]
    exact .ok _ _ _
  obtain ⟨k, hhistory, hk⟩ := envelope_is_its_hints history hend
  exact ⟨d', k, hhistory, hk u hrun⟩

/-! ## Sessions -/

/-- A process that submits envelopes: what it has logged, and its state. Between two envelopes
anything may happen to the core. -/
inductive Session (cfg : Config) (env : Env) : List Note → Desk → Prop
  | start (core : Core) : Session cfg env [] { core }
  | meanwhile {t : List Note} {d : Desk} (core : Core) (session : Session cfg env t d) :
      Session cfg env t { d with core := core }
  | returned {t u : List Note} {d d' : Desk} (fuel : Nat) (envelope : Value)
      (request_id : Option RequestId) (session : Session cfg env t d)
      (run : submit (knot cfg env fuel) envelope request_id d = .ok () d' u) :
      Session cfg env (t ++ u) d'
  | raised {t u : List Note} {d d' : Desk} {e : Err} (fuel : Nat) (envelope : Value)
      (request_id : Option RequestId) (session : Session cfg env t d)
      (run : submit (knot cfg env fuel) envelope request_id d = .err e d' u) :
      Session cfg env (t ++ u) d'

/-- What the warnings of a session are. -/
structure Recorded (t : List Note) (d : Desk) : Prop where
  warned : warnings t = d.logged_hint_issues.elems
  known : ∀ issue ∈ warnings t, issue ∈ kv_issues
  errors : d.logged_handler_errors = OrderedSet.empty

theorem Recorded.next {t u : List Note} {d d' : Desk} (h : Recorded t d)
    (hwarned : Warned kv_issues d d' [] u) : Recorded (t ++ u) d' := by
  obtain ⟨issues, helems, hwarnings, hknown⟩ := hwarned.issues
  have hu : warnings u = issues := hwarnings
  refine ⟨?_, fun issue hmem => ?_, hwarned.errors.trans h.errors⟩
  · rw [warnings_append, h.warned, helems, hu]
  · rw [warnings_append, hu] at hmem
    rcases List.mem_append.mp hmem with hmem | hmem
    · exact h.known issue hmem
    · exact hknown issue hmem

theorem Session.recorded {t : List Note} {d : Desk} (session : Session cfg env t d) :
    Recorded t d := by
  induction session with
  | start core => exact ⟨rfl, fun _ h => (by cases h), rfl⟩
  | meanwhile core _ ih => exact ⟨ih.warned, ih.known, ih.errors⟩
  | @returned t u d d' fuel envelope request_id _ run ih =>
    have hwp := wp_submit cfg env fuel envelope request_id d []
    unfold wp at hwp
    rw [run] at hwp
    exact ih.next hwp.2.warned
  | @raised t u d d' e fuel envelope request_id _ run ih =>
    have hwp := wp_submit cfg env fuel envelope request_id d []
    unfold wp at hwp
    rw [run] at hwp
    obtain ⟨k, reported, hsaw, _⟩ := hwp
    exact ih.next hsaw.warned

/-- What a router sends cannot fill the log, nor the memory that keeps it from filling: in the
life of a process at most nine warnings are written, each for another issue out of a fixed list,
and the issues remembered are those. No handler ever fails. -/
theorem session_warns_of_few_issues {t : List Note} {d : Desk} (session : Session cfg env t d) :
    (warnings t).Nodup ∧ (warnings t).length ≤ 9 ∧ (∀ issue ∈ warnings t, issue ∈ kv_issues) ∧
      d.logged_hint_issues.elems = warnings t ∧ d.logged_handler_errors = OrderedSet.empty := by
  have hrecorded := session.recorded
  have hnodup : (warnings t).Nodup := by
    rw [hrecorded.warned]
    exact d.logged_hint_issues.nodup
  refine ⟨hnodup, ?_, hrecorded.known, hrecorded.warned.symm, hrecorded.errors⟩
  exact (List.subperm_of_subset hnodup hrecorded.known).length_le

theorem session_warns_of_few_issues_mixed :
    ∃ t d, Session peer_only calm t d ∧ (warnings t).length ≤ 9 := by
  obtain ⟨d', u, hrun⟩ := mixed_envelope_runs
  have session : Session peer_only calm ([] ++ u) d' :=
    (Session.start (Core.initial peer_only 1)).returned 1 mixed_envelope (some "req") hrun
  exact ⟨_, _, session, (session_warns_of_few_issues session).2.1⟩

end Dispatcher

end Kvcr.Hints
