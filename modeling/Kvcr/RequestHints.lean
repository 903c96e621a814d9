/-
Requests whose hints name different sources.

The hint of a request is rewritten by the next hint, by the pull that ended, and by nothing
else; a pull takes its endpoint from the hint it finds. So what a request's pulls may read from
is a property of everything that was submitted for it since its hints were last discarded, and
the stored hint has to stand for all of that. `Agrees` says how: the stored source is the first
one named, and the hint has failed as soon as another was named.

Submitting keeps that, with one exception. A hint that names the first source again, after
another one was named, replaces the failed hint by one that stands. `Returned` is that case; a
request to which it has not happened since its hints were discarded fails closed on mixed sources.
-/
import Kvcr.QueryRouting

set_option autoImplicit false

namespace Kvcr

open Prog

/-! ## What was submitted -/

/-- The sources named for a request since its hints were last discarded, the latest last. -/
def named (request_id : RequestId) (sources : List (Option String)) :
    Event → List (Option String)
  | .call _ (.submit_hint source _ (some rid)) =>
    if rid = request_id then sources ++ [source] else sources
  | .call _ (.discard_hint rid) => if rid = request_id then [] else sources
  | _ => sources

def hint_sources (request_id : RequestId) (events : List Event) : List (Option String) :=
  events.foldl (named request_id) []

theorem hint_sources_append {request_id : RequestId} {events : List Event} {event : Event} :
    hint_sources request_id (events ++ [event]) =
      named request_id (hint_sources request_id events) event := by
  unfold hint_sources
  rw [List.foldl_append]
  rfl

/-- Two of the sources differ. -/
def Mixed (sources : List (Option String)) : Prop := ∃ a ∈ sources, ∃ b ∈ sources, a ≠ b

theorem Mixed.append {sources : List (Option String)} {src : Option String} (h : Mixed sources) :
    Mixed (sources ++ [src]) := by
  obtain ⟨a, ha, b, hb, hne⟩ := h
  exact ⟨a, List.mem_append_left _ ha, b, List.mem_append_left _ hb, hne⟩

/-- One of the sources is the first one again, after another had been named. -/
def Returned (sources : List (Option String)) : Prop :=
  ∃ earlier source later, sources = earlier ++ source :: later ∧ earlier.head? = some source ∧
    Mixed earlier

theorem not_returned_nil : ¬ Returned [] := by
  rintro ⟨earlier, source, later, heq, -⟩
  exact absurd heq.symm (List.append_ne_nil_of_right_ne_nil _ (List.cons_ne_nil _ _))

theorem returned_append {sources : List (Option String)} {src : Option String} :
    Returned (sources ++ [src]) ↔ Returned sources ∨ sources.head? = some src ∧ Mixed sources := by
  constructor
  · rintro ⟨earlier, source, later, heq, hfirst, hmixed⟩
    rcases List.eq_nil_or_concat later with rfl | ⟨later', last, rfl⟩
    · obtain ⟨rfl, hlast⟩ := List.append_inj' heq rfl
      cases hlast
      exact .inr ⟨hfirst, hmixed⟩
    · rw [List.concat_eq_append, ← List.cons_append, ← List.append_assoc] at heq
      exact .inl ⟨earlier, source, later', (List.append_inj' heq rfl).1, hfirst, hmixed⟩
  · rintro (⟨earlier, source, later, rfl, hfirst, hmixed⟩ | ⟨hfirst, hmixed⟩)
    · exact ⟨earlier, source, later ++ [src], by rw [List.append_assoc, List.cons_append], hfirst,
        hmixed⟩
    · exact ⟨sources, src, [], rfl, hfirst, hmixed⟩

/-- The event names the first source of its request again, after another had been named. -/
def Event.returns (events : List Event) : Event → Prop
  | .call _ (.submit_hint source _ (some rid)) =>
    (hint_sources rid events).head? = some source ∧ Mixed (hint_sources rid events)
  | _ => False

/-- No hint of the history returns to the first source of its request. -/
def Steadfast (events : List Event) : Prop :=
  ∀ earlier event later, events = earlier ++ event :: later → ¬ event.returns earlier

theorem Steadfast.nil : Steadfast [] := by
  intro earlier event later h
  exact absurd h.symm (List.append_ne_nil_of_right_ne_nil _ (List.cons_ne_nil _ _))

theorem Steadfast.append {events : List Event} {event : Event} (h : Steadfast events)
    (hreturns : ¬ event.returns events) : Steadfast (events ++ [event]) := by
  intro earlier other later heq
  rcases List.eq_nil_or_concat later with rfl | ⟨later', last, rfl⟩
  · obtain ⟨rfl, hlast⟩ := List.append_inj' heq rfl
    cases hlast
    exact hreturns
  · rw [List.concat_eq_append, ← List.cons_append, ← List.append_assoc] at heq
    exact h earlier other later' (List.append_inj' heq rfl).1

theorem Steadfast.init {events : List Event} {event : Event} (h : Steadfast (events ++ [event])) :
    Steadfast events ∧ ¬ event.returns events := by
  refine ⟨fun earlier other later heq => ?_, h events event [] rfl⟩
  refine h earlier other (later ++ [event]) ?_
  rw [heq, List.append_assoc, List.cons_append]

/-- In a steadfast history no request has had its first source named again. -/
theorem Steadfast.not_returned {events : List Event} (h : Steadfast events)
    (request_id : RequestId) : ¬ Returned (hint_sources request_id events) := by
  induction events using List.reverseRecOn with
  | nil => exact not_returned_nil
  | append_singleton events event ih =>
    obtain ⟨hearlier, hreturns⟩ := h.init
    rw [hint_sources_append]
    unfold named
    split
    · next source _ rid =>
      split
      · next heq =>
        subst heq
        exact fun hreturned => (returned_append.mp hreturned).elim (ih hearlier) hreturns
      · exact ih hearlier
    · split
      · exact not_returned_nil
      · exact ih hearlier
    · exact ih hearlier

/-! ## The stored hint -/

/-- The stored hint stands for all sources named: its source is the first one, and it has
failed if another one was named. -/
inductive Agrees : List (Option String) → Option RequestHint → Prop where
  | unhinted : Agrees [] none
  | hinted {first : Option String} {rest : List (Option String)} {hint : RequestHint}
      (source : hint.source = first) (failed : ∀ other ∈ rest, other ≠ first → hint.failed = true) :
      Agrees (first :: rest) (some hint)

theorem Agrees.lasts {sources : List (Option String)} {hint hint' : Option RequestHint}
    (h : Agrees sources hint) (hl : Lasts hint hint') : Agrees sources hint' := by
  cases h with
  | unhinted =>
    cases hl
    exact .unhinted
  | hinted source failed =>
    cases hl with
    | some source' failed' =>
      exact .hinted (source'.trans source) fun other hmem hne => failed' (failed other hmem hne)

/-- One more hint. -/
theorem Agrees.submit {sources : List (Option String)} {hint : Option RequestHint}
    {src : Option String} {block_hashes : List Nat} (h : Agrees sources hint)
    (hreturns : ¬ (sources.head? = some src ∧ Mixed sources)) :
    Agrees (sources ++ [src]) (some (submitted_hint hint src block_hashes)) := by
  cases h with
  | unhinted => exact .hinted rfl (by simp)
  | @hinted first rest hint source failed =>
    unfold submitted_hint
    dsimp only
    split
    · -- another source: the hint fails and keeps the first one
      exact .hinted source fun _ _ _ => rfl
    · next heq =>
      have hsrc : src = first := by rw [← source]; exact (not_not.mp heq).symm
      refine .hinted hsrc fun other hmem hne => ?_
      rcases List.mem_append.mp hmem with hrest | hlast
      · -- the sources were mixed, so this hint would return to the first one
        refine absurd ⟨by rw [hsrc]; rfl, ?_⟩ hreturns
        exact ⟨other, List.mem_cons_of_mem _ hrest, first, List.mem_cons_self, hne⟩
      · exact absurd ((List.mem_singleton.mp hlast).trans hsrc) hne

theorem Agrees.failed_of_mixed {sources : List (Option String)} {hint : RequestHint}
    (h : Agrees sources (some hint)) (hmixed : Mixed sources) : hint.failed = true := by
  cases h with
  | @hinted first rest _ source failed =>
    obtain ⟨a, ha, b, hb, hne⟩ := hmixed
    rcases List.mem_cons.mp ha with rfl | ha
    · rcases List.mem_cons.mp hb with rfl | hb
      · exact absurd rfl hne
      · exact failed b hb (Ne.symm hne)
    · by_cases hfirst : a = first
      · rcases List.mem_cons.mp hb with rfl | hb
        · exact absurd hfirst hne
        · exact failed b hb fun h => hne (hfirst.trans h.symm)
      · exact failed a ha hfirst

/-- A hint that stands names the one source of its request. -/
theorem Agrees.source_of_stands {sources : List (Option String)} {hint : RequestHint}
    (h : Agrees sources (some hint)) (hstands : hint.failed = false) :
    sources ≠ [] ∧ ∀ source ∈ sources, source = hint.source := by
  cases h with
  | @hinted first rest _ source failed =>
    refine ⟨List.cons_ne_nil _ _, fun other hmem => ?_⟩
    rcases List.mem_cons.mp hmem with rfl | hmem
    · exact source.symm
    · by_contra hne
      rw [failed other hmem fun h => hne (h.trans source.symm)] at hstands
      cases hstands

/-! ## Histories -/

section Histories

variable {cfg : Config} {env : Env} {table : Dict BlockKey RecoveryBlock} {events : List Event}
  {s s' : Core} {event : Event}

theorem named_of_spares {request_id : RequestId} {sources : List (Option String)}
    (h : event.spares_hints = true) : named request_id sources event = sources := by
  cases event with
  | call fuel c =>
    cases c with
    | submit_hint source block_hashes rid =>
      cases rid with
      | none => rfl
      | some rid => cases h
    | discard_hint rid => cases h
    | _ => rfl
  | _ => rfl

/-- One event. -/
theorem event_agrees {request_id : RequestId} {sources : List (Option String)}
    (hgood : (steady cfg).G s)
    (h : ¬ Returned sources → Agrees sources (s.remote.request_hints.get? request_id))
    (hnot : ¬ Returned (named request_id sources event))
    (hend : (event.run cfg env s).EndsIn s') :
    Agrees (named request_id sources event) (s'.remote.request_hints.get? request_id) := by
  by_cases hspares : event.spares_hints = true
  · rw [named_of_spares hspares] at hnot ⊢
    exact (h hnot).lasts ((event_leaves hgood hspares hend).hints request_id)
  · cases event with
    | call fuel c =>
      cases c with
      | submit_hint src block_hashes rid =>
        cases rid with
        | none => exact absurd rfl hspares
        | some rid =>
          rw [(submit_hint_ends hend).hints]
          dsimp only [named] at hnot ⊢
          by_cases heq : rid = request_id
          · subst heq
            rw [if_pos rfl] at hnot ⊢
            rw [Dict.get?_set_self]
            rw [returned_append, not_or] at hnot
            exact (h hnot.1).submit hnot.2
          · rw [if_neg heq] at hnot ⊢
            rw [Dict.get?_set_ne _ _ (Ne.symm heq)]
            exact h hnot
      | discard_hint rid =>
        have hs' : s'.remote.request_hints = s.remote.request_hints.erase rid := by
          refine ends_of_wp (P := fun s' : Core => s'.remote.request_hints =
            s.remote.request_hints.erase rid) ?_ hend
          exact wp_change.mpr rfl
        rw [hs']
        dsimp only [named] at hnot ⊢
        by_cases heq : rid = request_id
        · subst heq
          rw [if_pos rfl, Dict.get?_erase_self]
          exact .unhinted
        · rw [if_neg heq] at hnot ⊢
          rw [Dict.get?_erase_ne _ (Ne.symm heq)]
          exact h hnot
      | _ => exact absurd rfl hspares
    | _ => exact absurd rfl hspares

/-- The stored hint stands for all that was submitted, unless the first source was named again. -/
theorem History.agrees (history : History cfg env table events s) {request_id : RequestId}
    (h : ¬ Returned (hint_sources request_id events)) :
    Agrees (hint_sources request_id events) (s.remote.request_hints.get? request_id) := by
  induction history with
  | start seed fuel adopted =>
    rw [(start_steady adopted).2.hints]
    exact .unhinted
  | @step events s s' event history ended ih =>
    rw [hint_sources_append] at h ⊢
    exact event_agrees history.good ih h ended
  | check fuel history ended ih =>
    rw [((check_moves (F := steady cfg)).ends ended history.good).2.hints]
    exact ih h

/-- A pull is started on a hint that stands, by whatever event starts it. -/
theorem event_started (hgood : (steady cfg).G s) (hend : (event.run cfg env s).EndsIn s')
    {op : TargetPullOp} (hop : op ∈ started s s') : Hinted s op := by
  by_cases hspares : event.spares_hints = true
  · exact (event_leaves hgood hspares hend).started op hop
  · -- a hint that comes or goes submits nothing
    have hsame : s'.progress.in_flight = s.progress.in_flight := by
      cases event with
      | call fuel c =>
        cases c with
        | submit_hint src block_hashes rid =>
          cases rid with
          | none => exact absurd rfl hspares
          | some rid => exact (submit_hint_ends hend).in_flight
        | discard_hint rid =>
          refine ends_of_wp (P := fun s' : Core =>
            s'.progress.in_flight = s.progress.in_flight) ?_ hend
          exact wp_change.mpr rfl
        | _ => exact absurd rfl hspares
      | _ => exact absurd rfl hspares
    rw [started_of_length_le (congrArg List.length hsame).le] at hop
    cases hop

/-- A pull reads from the one source its request was given. -/
theorem endpoint_of_started (history : History cfg env table events s)
    (hend : (event.run cfg env s).EndsIn s') {op : TargetPullOp} (hop : op ∈ started s s')
    {request_id : RequestId} (hrequest : op.request_id = some request_id)
    (hnot : ¬ Returned (hint_sources request_id events)) :
    hint_sources request_id events ≠ [] ∧
      ∀ source ∈ hint_sources request_id events, source = some op.remote_ctrl_ep := by
  obtain ⟨rid, hint, hrid, hget, hstands, hsource⟩ := event_started history.good hend hop
  cases hrequest.symm.trans hrid
  have hagrees := history.agrees hnot
  rw [hget] at hagrees
  obtain ⟨hne, hall⟩ := hagrees.source_of_stands hstands
  exact ⟨hne, fun source hmem => (hall source hmem).trans hsource⟩

/-- In a steadfast history a pull reads from the one source its request was ever given since its
hints were last discarded, whatever was submitted, pulled and failed in between. -/
theorem pull_reads_from_every_hint (history : History cfg env table events s)
    (hsteadfast : Steadfast events) (hend : (event.run cfg env s).EndsIn s') {op : TargetPullOp}
    (hop : op ∈ started s s') :
    ∃ request_id, op.request_id = some request_id ∧ hint_sources request_id events ≠ [] ∧
      ∀ source ∈ hint_sources request_id events, source = some op.remote_ctrl_ep := by
  obtain ⟨request_id, _, hrequest, _⟩ := event_started history.good hend hop
  exact ⟨request_id, hrequest,
    endpoint_of_started history hend hop hrequest (hsteadfast.not_returned request_id)⟩

/-- A hint for the request, its query, and its delivery. -/
def hint_from (source : String) : Event := .call 1 (.submit_hint (some source) [1] (some "req"))

def asks : Event := .call 1 (.query [⟨[1]⟩] (some "req"))

def delivers : Event :=
  .call 1 (.deliver (Dict.empty.set ⟨[1]⟩ [⟨"n", ⟨"p", none⟩, 0⟩]) (some "req"))

theorem history_hinted : History peer_only calm .empty [hint_from "peer"] hinted := hinted_history

theorem steadfast_hinted : Steadfast [hint_from "peer"] :=
  Steadfast.nil.append fun h => (by cases h.1)

theorem pull_reads_from_every_hint_peer :
    ∃ s' op, (delivers.run peer_only calm (remembered "req" ⟨[1]⟩ hinted)).EndsIn s' ∧
      op ∈ started (remembered "req" ⟨[1]⟩ hinted) s' ∧ ∃ request_id,
        op.request_id = some request_id ∧ hint_sources request_id [hint_from "peer", asks] ≠ [] ∧
        ∀ source ∈ hint_sources request_id [hint_from "peer", asks],
          source = some op.remote_ctrl_ep := by
  have history : History peer_only calm .empty [hint_from "peer", asks]
      (remembered "req" ⟨[1]⟩ hinted) := history_hinted.step asks (.ok () _ [])
  have hsteadfast : Steadfast [hint_from "peer", asks] := steadfast_hinted.append id
  obtain ⟨s', op, hend, hop⟩ : ∃ s' op,
      (delivers.run peer_only calm (remembered "req" ⟨[1]⟩ hinted)).EndsIn s' ∧
        op ∈ started (remembered "req" ⟨[1]⟩ hinted) s' :=
    ⟨_, _, .ok () _ _, List.mem_singleton_self _⟩
  exact ⟨s', op, hend, hop, pull_reads_from_every_hint history hsteadfast hend hop⟩

/-- No query offers the request a key from a peer, and no event starts a pull for it. -/
def FailsClosed (cfg : Config) (env : Env) (request_id : RequestId) (s : Core) : Prop :=
  (∀ fuel keys statuses s₁ t₁, query (knot cfg env fuel) keys (some request_id) s =
    .ok statuses s₁ t₁ → (.FETCHABLE, some .REMOTE_G2) ∉ statuses) ∧
  ∀ event s', (Event.run cfg env event s).EndsIn s' →
    ∀ op ∈ started s s', op.request_id ≠ some request_id

/-- Mixed sources fail closed, unless the first source was named again. -/
theorem fails_closed_of_mixed (history : History cfg env table events s) {request_id : RequestId}
    (hnot : ¬ Returned (hint_sources request_id events))
    (hmixed : Mixed (hint_sources request_id events)) : FailsClosed cfg env request_id s := by
  have hagrees := history.agrees hnot
  refine ⟨fun fuel keys statuses s₁ t₁ hquery hmem => ?_, fun event s' hend op hop hrequest => ?_⟩
  · obtain ⟨hsel, hlength, hsaid⟩ := ok_of_wp (W := Watch.any) query_said hquery
    obtain ⟨i, hi, hget⟩ := List.mem_iff_getElem.mp hmem
    have hzip : (keys[i], (QueryStatus.FETCHABLE, some CacheTier.REMOTE_G2)) ∈
        keys.zip statuses := by
      refine List.mem_iff_getElem.mpr ⟨i, by rw [List.length_zip]; omega, ?_⟩
      rw [List.getElem_zip, hget]
    have hreach := (hsaid _ hzip).2
    rw [hsel.reachable] at hreach
    obtain ⟨hint, source, hhint, _, hstands, _⟩ := hint_of_remote_query hreach
    rw [hhint] at hagrees
    rw [hagrees.failed_of_mixed hmixed] at hstands
    cases hstands
  · obtain ⟨rid, hint, hrid, hhint, hstands, _⟩ := event_started history.good hend hop
    cases hrequest.symm.trans hrid
    rw [hhint] at hagrees
    rw [hagrees.failed_of_mixed hmixed] at hstands
    cases hstands

/-- In a steadfast history a request whose hints name different sources is offered nothing from a
peer: no query answers that a key can be fetched from one, and no event starts a pull. -/
theorem mixed_sources_fail_closed (history : History cfg env table events s)
    (hsteadfast : Steadfast events) {request_id : RequestId}
    (hmixed : Mixed (hint_sources request_id events)) :
    (∀ fuel keys statuses s₁ t₁, query (knot cfg env fuel) keys (some request_id) s =
      .ok statuses s₁ t₁ → (.FETCHABLE, some .REMOTE_G2) ∉ statuses) ∧
    ∀ event s', (Event.run cfg env event s).EndsIn s' →
      ∀ op ∈ started s s', op.request_id ≠ some request_id :=
  fails_closed_of_mixed history (hsteadfast.not_returned request_id) hmixed

/-- The core after hints of two sources. -/
def hinted_twice : Core :=
  { hinted with
    remote.request_hints := hinted.remote.request_hints.set "req"
      { source := some "peer", block_hashes := [1], failed := true } }

theorem history_hinted_twice :
    History peer_only calm .empty [hint_from "peer", hint_from "other"] hinted_twice :=
  history_hinted.step (hint_from "other") (.ok () _ [])

theorem steadfast_hinted_twice : Steadfast [hint_from "peer", hint_from "other"] :=
  steadfast_hinted.append fun h => absurd h.1 (by decide)

theorem mixed_hinted_twice : Mixed (hint_sources "req" [hint_from "peer", hint_from "other"]) :=
  ⟨some "peer", by decide, some "other", by decide, by decide⟩

theorem mixed_sources_fail_closed_two :
    ∃ statuses s₁, query (knot peer_only calm 1) [⟨[1]⟩] (some "req") hinted_twice =
        .ok statuses s₁ [] ∧ (.FETCHABLE, some .REMOTE_G2) ∉ statuses := by
  have hclosed := mixed_sources_fail_closed history_hinted_twice steadfast_hinted_twice
    mixed_hinted_twice
  have hquery : query (knot peer_only calm 1) [⟨[1]⟩] (some "req") hinted_twice =
      .ok [(.MISS, none)] hinted_twice [] := rfl
  exact ⟨_, _, hquery, hclosed.1 _ _ _ _ _ hquery⟩

/-- A hint that names the first source again replaces the one that failed. -/
theorem hint_of_returned (history : History cfg env table events s) {fuel : Nat}
    {src : Option String} {block_hashes : List Nat} {request_id : RequestId}
    (hnot : ¬ Returned (hint_sources request_id events))
    (hfirst : (hint_sources request_id events).head? = some src)
    (hend : ((Event.call fuel (.submit_hint src block_hashes (some request_id))).run cfg env
      s).EndsIn s') :
    s'.remote.request_hints.get? request_id =
      some { source := src, block_hashes := block_hashes } := by
  have hagrees := history.agrees hnot
  rw [(submit_hint_ends hend).hints, Dict.get?_set_self]
  generalize hint_sources request_id events = sources at hfirst hagrees
  generalize s.remote.request_hints.get? request_id = stored at hagrees
  cases hagrees with
  | unhinted => cases hfirst
  | hinted source failed =>
    cases hfirst
    dsimp only [submitted_hint]
    rw [if_neg (not_not.mpr source)]

/-- The exception. A hint that returns to the first source of a request with mixed sources leaves
the request with a hint that stands, although its sources are as mixed as before. -/
theorem returning_hint_revives (history : History cfg env table events s)
    (hsteadfast : Steadfast events) {fuel : Nat} {src : Option String} {block_hashes : List Nat}
    {request_id : RequestId}
    (hreturns : (Event.call fuel (.submit_hint src block_hashes (some request_id))).returns events)
    (hend : ((Event.call fuel (.submit_hint src block_hashes (some request_id))).run cfg env
      s).EndsIn s') :
    Mixed (hint_sources request_id
        (events ++ [.call fuel (.submit_hint src block_hashes (some request_id))])) ∧
      s'.remote.request_hints.get? request_id =
        some { source := src, block_hashes := block_hashes } := by
  obtain ⟨hfirst, hmixed⟩ := hreturns
  refine ⟨?_, hint_of_returned history (hsteadfast.not_returned request_id) hfirst hend⟩
  rw [hint_sources_append]
  dsimp only [named]
  rw [if_pos rfl]
  exact hmixed.append

theorem returning_hint_revives_three :
    ∃ s', ((hint_from "peer").run peer_only calm hinted_twice).EndsIn s' ∧
      Mixed (hint_sources "req" [hint_from "peer", hint_from "other", hint_from "peer"]) ∧
      s'.remote.request_hints.get? "req" = some { source := some "peer", block_hashes := [1] } := by
  obtain ⟨s', hend⟩ : ∃ s', ((hint_from "peer").run peer_only calm hinted_twice).EndsIn s' :=
    ⟨_, .ok () _ []⟩
  have hreturns : (hint_from "peer").returns [hint_from "peer", hint_from "other"] :=
    ⟨by decide, mixed_hinted_twice⟩
  exact ⟨s', hend, returning_hint_revives history_hinted_twice steadfast_hinted_twice hreturns
    hend⟩

/-- In every history, a request fails closed once its hints name different sources, and a pull for
it reads from the source that every hint names, unless one of them named the first source again
after another. The condition is needed: the hint that breaks it opens the request, for every key it
lists that no tier has. -/
theorem hints_fail_closed_until_return (history : History cfg env table events s)
    {request_id : RequestId} (hnot : ¬ Returned (hint_sources request_id events)) :
    (Mixed (hint_sources request_id events) → FailsClosed cfg env request_id s) ∧
    (∀ event s', (Event.run cfg env event s).EndsIn s' → ∀ op ∈ started s s',
      op.request_id = some request_id → hint_sources request_id events ≠ [] ∧
        ∀ source ∈ hint_sources request_id events, source = some op.remote_ctrl_ep) ∧
    ∀ fuel src block_hashes s', Returned (hint_sources request_id events ++ [some src]) →
      (Event.run cfg env (.call fuel (.submit_hint (some src) block_hashes (some request_id)))
        s).EndsIn s' →
      ∀ encode_to_router key, cfg.key_adapter = some encode_to_router →
        encode_to_router key ∈ block_hashes → query_tiers s' key = none →
          ∃ s₁ t₁, query (knot cfg env fuel) [key] (some request_id) s' =
            .ok [(.FETCHABLE, some .REMOTE_G2)] s₁ t₁ := by
  refine ⟨fails_closed_of_mixed history hnot, fun event s' hend op hop hrequest =>
    endpoint_of_started history hend hop hrequest hnot, ?_⟩
  intro fuel src block_hashes s' hreturned hend encode_to_router key hadapter hlisted htiers
  have hfirst := ((returned_append.mp hreturned).resolve_left hnot).1
  refine query_offered ?_ htiers
  rw [knot_cfg]
  unfold remote_query
  rw [hint_of_returned history hnot hfirst hend, hadapter]
  simp [hlisted]

/-- After hints of two sources the request is closed, and the third, which names the first source
again, opens it. -/
theorem hints_fail_closed_until_return_two :
    FailsClosed peer_only calm "req" hinted_twice ∧
    ∃ s', ((hint_from "peer").run peer_only calm hinted_twice).EndsIn s' ∧
      ∃ s₁ t₁, query (knot peer_only calm 1) [⟨[1]⟩] (some "req") s' =
        .ok [(.FETCHABLE, some .REMOTE_G2)] s₁ t₁ := by
  obtain ⟨hclosed, _, hopens⟩ := hints_fail_closed_until_return history_hinted_twice
    (steadfast_hinted_twice.not_returned "req")
  refine ⟨hclosed mixed_hinted_twice, _, .ok () _ [], ?_⟩
  exact hopens 1 "peer" [1] _ (returned_append.mpr (.inr ⟨by decide, mixed_hinted_twice⟩))
    (.ok () _ []) _ ⟨[1]⟩ rfl (by decide) rfl

/-- Three hints, of a peer, another one and the first again: the request is offered its key, and
pulls it from the first although a hint named the other. -/
theorem returned_hint_is_pulled :
    ∃ s, History peer_only calm .empty [hint_from "peer", hint_from "other", hint_from "peer"] s ∧
      Mixed (hint_sources "req" [hint_from "peer", hint_from "other", hint_from "peer"]) ∧
      (∃ s₁ t₁, query (knot peer_only calm 1) [⟨[1]⟩] (some "req") s =
        .ok [(.FETCHABLE, some .REMOTE_G2)] s₁ t₁) ∧
      ∃ s' op, (delivers.run peer_only calm s).EndsIn s' ∧ op ∈ started s s' ∧
        op.request_id = some "req" ∧ op.remote_ctrl_ep = "peer" := by
  refine ⟨_, history_hinted_twice.step (hint_from "peer") (.ok () _ []),
    ⟨some "peer", by decide, some "other", by decide, by decide⟩, ⟨_, _, rfl⟩, ?_⟩
  exact ⟨_, _, .ok () _ _, List.mem_singleton_self _, rfl, rfl⟩

end Histories

end Kvcr
