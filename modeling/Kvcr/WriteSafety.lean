/-
A finished pull leaves no writer behind.

Each kind of step keeps the invariant; so does every run. In a system whose pull is
finished the invariant closes the pull: no process writes to the destinations, and a
request still under way finds nobody to take it.
-/
import Kvcr.WriteInvariant

set_option autoImplicit false

namespace Kvcr.Protocol

/-! ## The steps -/

section Steps

variable {s : System} {cfg : Config}

/-- While a process has the write, its request is not under way a second time. -/
theorem Inv.claimed (h : Inv s) {p : String} (hp : (s.sources p).stage ≠ .absent) :
    (∀ e, .start_write e ∉ s.control) ∧ (∀ q b, .write_refused q b ∉ s.control) ∧
      (∀ ev, s.refused = some ev → ev.retry_metadata = none) ∧ s.target.state ≠ .START_WRITE := by
  refine ⟨fun e he => hp ((h.started e he).1 p), fun q b hq => hp ((h.refusal q b hq).1 p), ?_,
    fun hf => hp ((h.fresh hf).1 p)⟩
  intro ev hev
  by_contra hretry
  exact hp ((h.retrying ev hev (Option.isSome_iff_ne_none.mpr hretry)).1 p)

/-- Once the only process that has the write is done with it, all are. -/
theorem Inv.all_spent (h : Inv s) {p : String} (hp : (s.sources p).stage ≠ .absent) {x : Source}
    (hx : x.Spent) (q : String) : ((s.put p x).sources q).Spent := by
  by_cases hq : q = p
  · rw [hq, put_self]
    exact hx
  · rw [put_other hq]
    have habsent : (s.sources q).stage = .absent := by
      by_contra hstage
      exact hq ((h.engaged p hp).1 q hstage)
    exact ⟨h.inactive habsent, .inl habsent⟩

/-- The process that has the write is done with it and says so. -/
theorem Inv.done (h : Inv s) {p : String} (hp : (s.sources p).stage ≠ .absent) {x : Source}
    (hx : Tame s p x) (hspent : x.Spent) (ns : List WriteDone) :
    Inv { s.put p x with notifications := s.notifications ++ ns } := by
  obtain ⟨hstart, hrefusal, hretry, hstate⟩ := h.claimed hp
  exact (h.put hx).answer ns (h.all_spent hp hspent) hstart (.inl hrefusal) hretry hstate

theorem inv_prepare (h : Inv s) {p : String} {op : SourceWriteOp}
    (halive : (s.sources p).alive = true) (hwaiting : (s.sources p).stage = .waiting)
    (hunsubmitted : op.transfer_id = none) :
    Inv (s.put p { s.sources p with stage := .running op }) := by
  refine h.put ?_
  have hinactive : (s.sources p).active = false := by
    by_contra hactive
    obtain ⟨op', hrunning, -⟩ := h.active_running p (by simpa using hactive)
    rw [hwaiting] at hrunning
    cases hrunning
  constructor
  · intro hactive
    rw [hinactive] at hactive
    cases hactive
  · intro op' hop' hsome
    obtain rfl : op = op' := by simpa using hop'
    rw [hunsubmitted] at hsome
    cases hsome
  · intro habsent
    rw [hwaiting] at habsent
    cases habsent
  · rintro ⟨-, habsent | ⟨op', hrunning, -⟩⟩
    · rw [hwaiting] at habsent
      cases habsent
    · rw [hwaiting] at hrunning
      cases hrunning
  · exact fun hbarred => .inl hbarred
  · intro hgone
    rw [hgone.1] at halive
    cases halive
  · exact h.dead p
  · exact fun _ habsent => (by cases habsent)

theorem inv_progress (h : Inv s) {p : String} {i : SourceInput} {status : SourceWriteStatus}
    {op : SourceWriteOp} (halive : (s.sources p).alive = true)
    (hrunning : (s.sources p).stage = .running op) (hknown : (s.sources p).status = some status)
    (hended : op.transfer_id.isSome → i.result.isSome → (s.sources p).active = false) :
    Inv (s.progress_source cfg p i status op) := by
  have hclaimed : (s.sources p).stage ≠ .absent := by simp [hrunning]
  have hgone : ∀ x : Source, (s.sources p).Gone → x.Gone := by
    intro x hg
    rw [hg.1] at halive
    cases halive
  -- Without a transfer there is no native access.
  have hidle : op.transfer_id = none → (s.sources p).active = false := by
    intro hnone
    by_contra hactive
    obtain ⟨op', hop', hsome⟩ := h.active_running p (by simpa using hactive)
    obtain rfl : op = op' := by simpa [hrunning] using hop'
    rw [hnone] at hsome
    cases hsome
  unfold System.progress_source
  rcases source_moves cfg i status op with ⟨hdone, hdropped, hnative⟩ |
    ⟨hgoing, hunsubmitted, hstill, hskips, hwilling, hkept, hsilent⟩ |
    ⟨st, hgoing, htransfer, hkept, hcancel, hsubmitted, hnative, hwarned⟩
  · -- It ends: native access has ended with it.
    have hquiet : (if submits i status op = true then i.result.isNone
        else (s.sources p).active) = false := by
      by_cases hsub : submits i status op = true
      · rw [if_pos hsub]
        simpa using hnative (.inr hsub)
      · rw [if_neg hsub]
        cases htransfer : op.transfer_id with
        | none => exact hidle htransfer
        | some transfer_id =>
          have hsome : op.transfer_id.isSome = true := by rw [htransfer]; rfl
          exact hended hsome (hnative (.inl hsome))
    have hspent : ({ s.sources p with
        status := none, stage := .absent, active := false } : Source).Spent := ⟨rfl, .inl rfl⟩
    have htame : Tame s p { s.sources p with status := none, stage := .absent, active := false } :=
      { active_running := by simp
        running_status := by simp
        stage := fun _ => rfl
        spent := fun _ => hspent
        barred := fun _ => .inr ⟨hspent, hclaimed⟩
        gone := hgone _
        dead := h.dead p
        fence := fun _ _ hsome => absurd rfl hsome }
    simp only [hdone, hdropped, hquiet, if_true, List.append_assoc]
    exact h.done hclaimed htame hspent _
  · simp only [hgoing, hskips, hkept, hsilent, Bool.false_eq_true, false_and, if_false,
      List.append_nil]
    refine h.put ?_
    have hinactive := hidle hunsubmitted
    constructor
    · intro hactive
      simp only [hinactive] at hactive
      cases hactive
    · intro op' hop' hsome
      simp only [Stage.running.injEq] at hop'
      rw [← hop', hstill] at hsome
      cases hsome
    · exact fun habsent => absurd habsent hclaimed
    · rintro ⟨-, habsent | ⟨op', hop', hsome⟩⟩
      · exact absurd habsent hclaimed
      · obtain rfl : op = op' := by simpa [hrunning] using hop'
        rw [hunsubmitted] at hsome
        cases hsome
    · rintro ⟨-, st, hst, hcancel, -⟩
      obtain rfl : status = st := by simpa [hknown] using hst
      rw [hwilling] at hcancel
      cases hcancel
    · exact hgone _
    · exact h.dead p
    · exact fun _ habsent => (by cases habsent)
  · have hlanded : ¬ (submits i status op = true ∧ i.result = some true) := by
      rintro ⟨hsub, hresult⟩
      rcases hnative with hsome | ⟨-, -, hnone⟩
      · cases htransfer' : op.transfer_id with
        | none =>
          rw [htransfer'] at hsome
          cases hsome
        | some transfer_id => simp [submits, htransfer'] at hsub
      · rw [hnone] at hresult
        cases hresult
    obtain ⟨hstart, hrefusal, hretry, hstate⟩ := h.claimed hclaimed
    have hearlier : op.transfer_id.isSome = true → status.submitted = true ∧
        submits i status op = false := by
      intro hsome
      obtain ⟨st', hst', hsub⟩ := h.running_status p op hrunning hsome
      obtain rfl : status = st' := by simpa [hknown] using hst'
      refine ⟨hsub, ?_⟩
      cases htransfer' : op.transfer_id with
      | none =>
        rw [htransfer'] at hsome
        cases hsome
      | some transfer_id => simp [submits, htransfer']
    simp only [hgoing, hkept, hlanded, Bool.false_eq_true, if_false, List.append_nil]
    refine Inv.warn (h.put (p := p) ?_) hwarned (.inr hstate)
    constructor
    · exact fun _ => ⟨_, rfl, htransfer⟩
    · intro op' _ _
      refine ⟨st, rfl, ?_⟩
      rcases hsubmitted with hsub | ⟨hsome, hsub⟩
      · exact hsub
      · rw [hsub]
        exact (hearlier hsome).1
    · exact fun habsent => absurd habsent hclaimed
    · rintro ⟨hinactive, habsent | ⟨op', hop', hsome⟩⟩
      · exact absurd habsent hclaimed
      · obtain rfl : op = op' := by simpa [hrunning] using hop'
        refine ⟨?_, .inr ⟨_, rfl, htransfer⟩⟩
        simp only [(hearlier hsome).2, Bool.false_eq_true, if_false]
        exact hinactive
    · rintro ⟨-, st', hst', hcancel', hunsub⟩
      obtain rfl : status = st' := by simpa [hknown] using hst'
      rcases hnative with hsome | ⟨-, hwilling, -⟩
      · rw [(hearlier hsome).1] at hunsub
        cases hunsub
      · rw [hwilling] at hcancel'
        cases hcancel'
    · exact hgone _
    · exact h.dead p
    · exact fun _ habsent => (by cases habsent)

/-- A native transfer ends by itself. -/
theorem Inv.ended_transfer (h : Inv s) {p : String} (hactive : (s.sources p).active = true) :
    Tame s p { s.sources p with active := false } ∧
      ({ s.sources p with active := false } : Source).Spent ∧ (s.sources p).stage ≠ .absent := by
  obtain ⟨op, hrunning, hsome⟩ := h.active_running p hactive
  have hspent : ({ s.sources p with active := false } : Source).Spent :=
    ⟨rfl, .inr ⟨op, hrunning, hsome⟩⟩
  refine ⟨?_, hspent, by simp [hrunning]⟩
  exact
    { active_running := by simp
      running_status := h.running_status p
      stage := fun habsent => habsent
      spent := fun _ => hspent
      barred := fun hbarred => .inl ⟨rfl, hbarred.2⟩
      gone := fun hgone => ⟨hgone.1, rfl⟩
      dead := h.dead p
      fence := h.fences p }

theorem inv_die (h : Inv s) (p : String) : Inv (s.put p { s.sources p with alive := false }) :=
  h.put
    { active_running := h.active_running p
      running_status := h.running_status p
      stage := fun habsent => habsent
      spent := fun hspent => hspent
      barred := fun hbarred => .inl hbarred
      gone := fun hgone => ⟨rfl, hgone.2⟩
      dead := h.dead p
      fence := fun hdead => (by cases hdead) }

theorem inv_stop (h : Inv s) (p : String) : Inv (s.put p { s.sources p with stopping := true }) :=
  h.put
    { active_running := h.active_running p
      running_status := h.running_status p
      stage := fun habsent => habsent
      spent := fun hspent => hspent
      barred := fun hbarred => .inl hbarred
      gone := fun hgone => hgone
      dead := h.dead p
      fence := h.fences p }

theorem inv_close (h : Inv s) {p : String} {op : SourceWriteOp}
    (halive : (s.sources p).alive = true) (hrunning : (s.sources p).stage = .running op)
    (hended : (s.sources p).active = false) (ns : List WriteDone) :
    Inv { s.put p { s.sources p with status := none, stage := .absent } with
      notifications := s.notifications ++ ns } := by
  have hclaimed : (s.sources p).stage ≠ .absent := by simp [hrunning]
  have hspent : ({ s.sources p with status := none, stage := .absent } : Source).Spent :=
    ⟨hended, .inl rfl⟩
  refine h.done hclaimed ?_ hspent ns
  exact
    { active_running := by simp [hended]
      running_status := by simp
      stage := fun _ => rfl
      spent := fun _ => hspent
      barred := fun _ => .inr ⟨hspent, hclaimed⟩
      gone := by
        intro hgone
        rw [hgone.1] at halive
        cases halive
      dead := h.dead p
      fence := fun _ _ hsome => absurd rfl hsome }

/-- A process whose write is not submitted does not write. -/
theorem Inv.inactive_of_unsubmitted (h : Inv s) {p : String}
    (hunsubmitted : (s.sources p).status.any (fun status => !status.submitted) = true) :
    (s.sources p).active = false := by
  by_contra hactive
  obtain ⟨op, hrunning, hsome⟩ := h.active_running p (by simpa using hactive)
  obtain ⟨st, hst, hsubmitted⟩ := h.running_status p op hrunning hsome
  rw [hst, Option.any_some, hsubmitted] at hunsubmitted
  cases hunsubmitted

/-- The end of a progress thread: the write it has accepted is answered for, and so is a fence
alone if the request is neither under way nor taken up. -/
theorem inv_close_progress (h : Inv s) {p : String} {routed : Bool}
    (halive : (s.sources p).alive = true)
    (hclear : AnswersFence s (s.close_progress p routed) → ¬ s.Requested) :
    Inv (s.close_progress p routed) := by
  unfold System.close_progress at hclear ⊢
  dsimp only at hclear ⊢
  cases hunsubmitted : (s.sources p).status.any fun status => !status.submitted with
  | false =>
    simp only [Bool.false_eq_true, and_false, if_false]
    exact inv_die h p
  | true =>
    have hinactive := h.inactive_of_unsubmitted hunsubmitted
    have hspent : ({ s.sources p with alive := false, stage := .absent } : Source).Spent :=
      ⟨hinactive, .inl rfl⟩
    have htame : Tame s p { s.sources p with alive := false, stage := .absent } :=
      { active_running := by simp [hinactive]
        running_status := by simp
        stage := fun _ => rfl
        spent := fun _ => hspent
        barred := fun hbarred => .inl hbarred
        gone := fun hgone => ⟨rfl, hgone.2⟩
        dead := h.dead p
        fence := fun hdead => (by cases hdead) }
    rw [hunsubmitted] at hclear
    simp only [if_true, and_true] at hclear ⊢
    cases routed with
    | false =>
      simp only [Bool.false_eq_true, if_false]
      exact h.put htame
    | true =>
      simp only [if_true] at hclear ⊢
      by_cases habsent : (s.sources p).stage = .absent
      · have hnone : ¬ s.Requested := by
          refine hclear ⟨p, ⟨habsent, hunsubmitted⟩, ?_⟩
          unfold System.close_progress
          dsimp only
          rw [hunsubmitted]
          simp only [if_true, and_true]
        have hclaim : s.Unclaimed := fun q => by
          by_contra hq
          exact hnone (.inr ⟨q, hq⟩)
        have hpast : s.Past := by
          refine h.fences p halive habsent fun hstatus => ?_
          rw [hstatus] at hunsubmitted
          cases hunsubmitted
        refine (h.put htame).answer [_] (fun q => htame.put_spent (h.spent hclaim q))
          (fun e he => hnone (.inl ⟨e, he⟩)) (.inr hpast) (fun ev hev => ?_) hpast.1
        by_contra hretry
        exact hpast.2 (h.retrying ev hev (Option.isSome_iff_ne_none.mpr hretry)).2.2.2.2.1
      · exact h.done habsent htame hspent _

theorem inv_learn_dead (h : Inv s) (p : String) {q : String} (hq : (s.sources q).Gone) :
    Inv (s.put p { s.sources p with
      dead_incarnations := q :: (s.sources p).dead_incarnations }) := by
  refine h.put
    { active_running := h.active_running p
      running_status := h.running_status p
      stage := fun habsent => habsent
      spent := fun hspent => hspent
      barred := fun hbarred => .inl hbarred
      gone := fun hgone => hgone
      dead := ?_
      fence := h.fences p }
  intro x hx
  rcases List.mem_cons.mp hx with rfl | hx
  · exact hq
  · exact h.dead p x hx

/-- A process answers a probe; if the probe is meant for it, it takes no write up after. -/
theorem inv_probe (h : Inv s) (hpast : s.Past) (p : String) (expected : Option String) :
    Inv (s.handle_probe p expected) := by
  unfold System.handle_probe
  dsimp only
  by_cases hours : expected = none ∨ expected = some p
  · have hdec : decide (expected = none ∨ expected = some p) = true := decide_eq_true hours
    simp only [hdec, if_true, Bool.true_and]
    let x : Source :=
      { s.sources p with
        status := some { (s.sources p).status.getD {} with cancel_requested := true } }
    have htame : Tame s p x :=
      { active_running := h.active_running p
        running_status := by
          intro op hop hsome
          obtain ⟨st, hst, hsub⟩ := h.running_status p op hop hsome
          refine ⟨_, rfl, ?_⟩
          rw [hst]
          exact hsub
        stage := fun habsent => habsent
        spent := fun hspent => hspent
        barred := by
          rintro ⟨hinactive, st, hst, -, hunsub⟩
          refine .inl ⟨hinactive, _, rfl, rfl, ?_⟩
          rw [hst]
          exact hunsub
        gone := fun hgone => hgone
        dead := h.dead p
        fence := fun _ _ _ => hpast }
    have hput : Inv (s.put p x) := h.put htame
    refine hput.send_probe_ack hpast ?_ ?_
    · intro hunsub
      -- Not submitted, so not writing: the bar is up in time.
      have hxstatus : ((s.put p x).sources p).status =
          some { (s.sources p).status.getD {} with cancel_requested := true } := by rw [put_self]
      have hnot : ((s.sources p).status.getD {}).submitted = false := by
        change ((s.put p x).sources p).status.all _ = true at hunsub
        rw [hxstatus] at hunsub
        simpa using hunsub
      refine .inl ⟨?_, _, hxstatus, rfl, hnot⟩
      by_contra hactive
      obtain ⟨op, hop, hsome⟩ := hput.active_running p (by simpa using hactive)
      obtain ⟨st, hst, hsub⟩ := hput.running_status p op hop hsome
      rw [hxstatus] at hst
      rw [← Option.some.inj hst, hnot] at hsub
      cases hsub
    · intro y hy
      exact hput.dead p y (of_decide_eq_true (Option.filter_eq_some_iff.mp hy).2)
  · have hdec : decide (expected = none ∨ expected = some p) = false := decide_eq_false hours
    simp only [hdec, Bool.false_eq_true, if_false, Bool.false_and]
    refine h.send_probe_ack hpast (by simp) ?_
    intro y hy
    exact h.dead p y (of_decide_eq_true (Option.filter_eq_some_iff.mp hy).2)

/-- What is true of a system when the request has just been taken out of the network by
process `p`. -/
structure Taken (s : System) (p : String) (e : Option String) : Prop where
  unclaimed : s.Unclaimed
  unanswered : s.Unanswered
  no_start : ∀ e, .start_write e ∉ s.control
  no_refusal : ∀ q b, .write_refused q b ∉ s.control
  no_retry : ∀ ev, s.refused = some ev → ev.retry_metadata = none
  sent : s.target.state ≠ .START_WRITE
  quoted : e = s.target.source_incarnation
  first : e = none → ∀ q, .metadata_ack q ∈ s.control → q = p
  /-- a request that comes too late quotes a process that will not take it -/
  late : s.refused.isSome ∨ s.target.state = .FINISHED →
    ∃ q, e = some q ∧ ((s.sources q).Barred ∨ (s.sources q).Gone)
  fenced : ∀ q d, .write_probe_ack q true d ∈ s.control →
    (s.sources q).Barred ∨ (s.sources q).Gone

theorem Inv.request_taken (h : Inv s) {l l' : List Message} {e : Option String} (p : String)
    (hm : s.control = l ++ .start_write e :: l') : Taken { s with control := l ++ l' } p e := by
  have hmem : .start_write e ∈ s.control := by rw [hm]; simp
  obtain ⟨hclaim, hans, href, heq, hack⟩ := h.started e hmem
  have hsub : ∀ m ∈ l ++ l', m ∈ s.control := by
    intro m hm'
    rw [hm]
    exact mem_of_mem_rest hm'
  have hretry : ∀ ev, s.refused = some ev → ev.retry_metadata = none := by
    intro ev hev
    by_contra hretry
    exact (h.retrying ev hev (Option.isSome_iff_ne_none.mpr hretry)).2.2.1 e hmem
  refine
    { unclaimed := hclaim
      unanswered := hans
      no_start := ?_
      no_refusal := fun q b hq => href q b (hsub _ hq)
      no_retry := hretry
      sent := ?_
      quoted := heq
      first := fun hn q hq => absurd (hsub _ hq) (hack hn q)
      late := ?_
      fenced := ?_ }
  · -- There was one request in all.
    have hone := h.one_start
    rw [hm, List.countP_append, List.countP_cons_of_pos rfl] at hone
    have hzero : (l ++ l').countP Message.is_start = 0 := by
      rw [List.countP_append]
      omega
    intro e' he'
    exact absurd rfl (List.countP_eq_zero.mp hzero _ he')
  · intro hf
    rw [(h.fresh hf).2.2.1] at hmem
    exact List.not_mem_nil hmem
  · rintro (hrefused | hfinished)
    · obtain ⟨ev, hev⟩ := Option.isSome_iff_exists.mp hrefused
      exact (h.refused ev hev (hretry ev hev)).2 e hmem
    · exact (h.finished hfinished).2 e hmem
  · intro q d hq
    rcases (h.probe_acks q true d (hsub _ hq)).2.1 rfl with hf | hf | hf
    · exact .inl hf
    · exact .inr hf
    · exact absurd hmem (hf.2 e)

section Request

variable {p : String} {e : Option String}

theorem Taken.answer (ht : Taken s p e) (h : Inv s) (n : WriteDone) : Inv (s.notify n) :=
  h.answer [n] (h.spent ht.unclaimed) ht.no_start (.inl ht.no_refusal) ht.no_retry ht.sent

/-- The request is refused. -/
theorem Taken.refuse (ht : Taken s p e) (h : Inv s) (retryable : Bool) :
    Inv (s.send (.write_refused p retryable)) :=
  h.send
    { started := ht.sent
      not_start := by simp
      ack := by simp
      refusal := fun _ _ _ =>
        ⟨ht.unclaimed, ht.unanswered, ht.no_start, ht.no_refusal, ht.no_retry⟩
      probe := by simp
      probe_ack := by simp }

/-- Metadata that came with the request is acknowledged. -/
theorem Taken.acknowledge (ht : Taken s p e) (h : Inv s) :
    Inv (s.send (.metadata_ack p)) ∧ Taken (s.send (.metadata_ack p)) p e := by
  refine ⟨h.send ?_, ?_⟩
  · exact
      { started := ht.sent
        not_start := by simp
        ack := fun _ _ => ⟨ht.unclaimed, ht.no_start⟩
        refusal := by simp
        probe := by simp
        probe_ack := by simp }
  · have hold : ∀ {m : Message}, m ∈ (s.send (.metadata_ack p)).control →
        .metadata_ack p ≠ m → m ∈ s.control := fun hm hne => (mem_send hm).resolve_right hne
    exact
      { unclaimed := ht.unclaimed
        unanswered := ht.unanswered
        no_start := fun e he => ht.no_start e (hold he (by simp))
        no_refusal := fun q b hq => ht.no_refusal q b (hold hq (by simp))
        no_retry := ht.no_retry
        sent := ht.sent
        quoted := ht.quoted
        first := by
          intro hn q hq
          rcases mem_send hq with hq | hq
          · exact ht.first hn q hq
          · exact (Message.metadata_ack.inj hq).symm
        late := ht.late
        fenced := fun q d hq => ht.fenced q d (hold hq (by simp)) }

/-- The request is taken up: by a process that is neither barred nor gone, and that is the
one the target quoted, if it quoted one. -/
theorem Taken.accept (ht : Taken s p e) (h : Inv s) (halive : (s.sources p).alive = true)
    (hunknown : (s.sources p).status = none) (hquoted : ∀ q, e = some q → q = p) :
    Inv (s.put p { s.sources p with status := some {}, stage := .waiting }) := by
  have hfree : ¬ ((s.sources p).Barred ∨ (s.sources p).Gone) := by
    rintro (⟨-, st, hst, -⟩ | ⟨hdead, -⟩)
    · rw [hunknown] at hst
      cases hst
    · rw [hdead] at halive
      cases halive
  -- So the request is not late, and no answer to a probe vouches for this process.
  have hintime : ¬ (s.refused.isSome ∨ s.target.state = .FINISHED) := by
    intro hlate
    obtain ⟨q, hq, hbarred⟩ := ht.late hlate
    rw [hquoted q hq] at hbarred
    exact hfree hbarred
  have hinactive : (s.sources p).active = false := h.inactive (ht.unclaimed p)
  have hgone : ∀ q, (s.sources q).Gone →
      ((s.put p { s.sources p with status := some {}, stage := .waiting }).sources q).Gone := by
    intro q hq
    by_cases hqp : q = p
    · exact absurd (.inr (hqp ▸ hq)) hfree
    · rw [put_other hqp]
      exact hq
  have hstage : ∀ q, ((s.put p { s.sources p with
      status := some {}, stage := .waiting }).sources q).stage ≠ .absent → q = p := by
    intro q hq
    by_contra hqp
    rw [put_other hqp] at hq
    exact hq (ht.unclaimed q)
  exact
    { active_running := by
        intro q
        by_cases hqp : q = p
        · rw [hqp, put_self]
          intro hactive
          rw [hinactive] at hactive
          cases hactive
        · rw [put_other hqp]
          exact h.active_running q
      running_status := by
        intro q
        by_cases hqp : q = p
        · rw [hqp, put_self]
          intro op hop
          cases hop
        · rw [put_other hqp]
          exact h.running_status q
      engaged := by
        intro q hq
        obtain rfl := hstage q hq
        refine ⟨hstage, fun r hr => hquoted r (ht.quoted.trans hr), fun r hr hnone => ?_⟩
        exact ht.first (ht.quoted.trans hnone) r hr
      one_start := h.one_start
      one_refusal := h.one_refusal
      started := fun e he => absurd he (ht.no_start e)
      refusal := fun q b hq => absurd hq (ht.no_refusal q b)
      answered := by
        intro n hn hterminal
        rw [ht.unanswered n hn] at hterminal
        cases hterminal
      retrying := by
        intro ev hev hretry
        rw [ht.no_retry ev hev] at hretry
        cases hretry
      refused := by
        intro ev hev
        refine absurd (.inl ?_) hintime
        exact Option.isSome_iff_exists.mpr ⟨ev, hev⟩
      finished := fun hf => absurd (.inr hf) hintime
      fresh := fun hf => absurd hf ht.sent
      probes := h.probes
      probe_acks := by
        intro q b d hq
        obtain ⟨hpast, -, hdead⟩ := h.probe_acks q b d hq
        refine ⟨hpast, fun hb => ?_, fun x hx => hgone x (hdead x hx)⟩
        subst hb
        have hfenced := ht.fenced q d hq
        have hqp : q ≠ p := fun hqp => hfree (hqp ▸ hfenced)
        unfold System.Fenced
        rw [put_other hqp]
        rcases hfenced with hf | hf
        · exact .inl hf
        · exact .inr (.inl hf)
      dead := by
        intro q x hx
        by_cases hqp : q = p
        · rw [hqp, put_self] at hx
          exact hgone x (h.dead p x hx)
        · rw [put_other hqp] at hx
          exact hgone x (h.dead q x hx)
      fences := by
        intro q
        by_cases hqp : q = p
        · rw [hqp, put_self]
          exact fun _ habsent => (by cases habsent)
        · rw [put_other hqp]
          exact h.fences q }

end Request

theorem inv_accept_start_write {p : String} {e : Option String} (ht : Taken s p e) (h : Inv s)
    (halive : (s.sources p).alive = true) (responsive : Bool) :
    Inv (s.accept_start_write p e responsive) := by
  unfold System.accept_start_write
  cases hstatus : (s.sources p).status with
  | some status =>
    dsimp only
    split
    · exact ht.answer h _
    · exact h
  | none =>
    dsimp only
    split
    · exact ht.refuse h _
    · rename_i hours
      split
      · exact ht.answer h _
      · refine ht.accept h halive hstatus ?_
        intro q hq
        by_contra hne
        exact hours (by simp [hq, hne])

theorem inv_start_write (h : Inv s) {l l' : List Message} {p : String} {e : Option String}
    (hm : s.control = l ++ .start_write e :: l') (halive : (s.sources p).alive = true)
    (setup : System.Setup) (responsive : Bool) :
    Inv ({ s with control := l ++ l' }.handle_start_write p e setup responsive) := by
  have htaken := h.request_taken p hm
  have hinv : Inv { s with control := l ++ l' } := h.taken hm
  unfold System.handle_start_write
  cases setup with
  | silent => exact hinv
  | failed => exact htaken.answer hinv _
  | refused retryable => exact htaken.refuse hinv _
  | resolved acknowledged =>
    cases acknowledged with
    | false => exact inv_accept_start_write htaken hinv halive responsive
    | true =>
      obtain ⟨hack, htaken'⟩ := htaken.acknowledge hinv
      exact inv_accept_start_write htaken' hack halive responsive

/-- The target learns that nobody writes. -/
theorem Inv.conclude (h : Inv s) (hclosed : s.Closed) (hstate : s.target.state ≠ .START_WRITE) :
    Inv { s with refused := some {} } :=
  { h with
    retrying := by
      intro ev hev hretry
      obtain rfl := Option.some.inj hev
      cases hretry
    refused := fun _ _ _ => hclosed
    fresh := fun hf => absurd hf hstate }

theorem inv_write_refused (h : Inv s) {l l' : List Message} {sender : String} {retryable : Bool}
    (hm : s.control = l ++ .write_refused sender retryable :: l') (in_time : Bool) :
    Inv ({ s with control := l ++ l' }.handle_write_refused sender retryable in_time) := by
  have hmem : .write_refused sender retryable ∈ s.control := by rw [hm]; simp
  have hinv : Inv { s with control := l ++ l' } := h.taken hm
  obtain ⟨hclaim, hans⟩ := h.refusal sender retryable hmem
  have hsub : ∀ m ∈ l ++ l', m ∈ s.control := by
    intro m hm'
    rw [hm]
    exact mem_of_mem_rest hm'
  have hstart : ∀ e, .start_write e ∉ l ++ l' := by
    intro e he
    exact (h.started e (hsub _ he)).2.2.1 sender retryable hmem
  have hstate : s.target.state ≠ .START_WRITE := by
    intro hf
    rw [(h.fresh hf).2.2.1] at hmem
    exact List.not_mem_nil hmem
  unfold System.handle_write_refused
  split
  · rename_i hretry
    obtain ⟨-, hfirst, hwaiting, -⟩ := hretry
    have hone : (l ++ l').countP Message.is_refusal = 0 := by
      have hone := h.one_refusal
      rw [hm, List.countP_append, List.countP_cons_of_pos rfl] at hone
      rw [List.countP_append]
      omega
    exact
      { hinv with
        retrying := fun _ _ _ =>
          ⟨hclaim, hans.resolve_right fun hpast => hpast.2 hwaiting, hstart,
            fun q b hq => absurd rfl (List.countP_eq_zero.mp hone _ hq),
            hwaiting, by simpa using hfirst⟩
        refused := by
          intro ev hev hnone
          obtain rfl := Option.some.inj hev
          cases hnone
        fresh := fun hf => absurd hf hstate }
  · exact hinv.conclude ⟨fun p => .inl (h.spent hclaim p), fun e he => absurd he (hstart e)⟩ hstate

theorem inv_metadata_ack (h : Inv s) {l l' : List Message} {sender : String}
    (hm : s.control = l ++ .metadata_ack sender :: l') :
    Inv ({ s with control := l ++ l' }.handle_target_metadata_ack sender) := by
  have hmem : .metadata_ack sender ∈ s.control := by rw [hm]; simp
  have hinv : Inv { s with control := l ++ l' } := h.taken hm
  unfold System.handle_target_metadata_ack
  split
  · rename_i hnone
    -- The acknowledgement answers a request that quoted nobody: it is no longer under way.
    have hstart : ∀ e, .start_write e ∉ l ++ l' := by
      intro e he
      have hmem' : .start_write e ∈ s.control := by
        rw [hm]
        exact mem_of_mem_rest he
      obtain ⟨-, -, -, heq, hack⟩ := h.started e hmem'
      exact hack (heq.trans hnone) sender hmem
    exact
      { hinv with
        engaged := by
          intro p hp
          obtain ⟨hone, -, hack⟩ := h.engaged p hp
          refine ⟨hone, fun q hq => ?_, fun q _ hq => ?_⟩
          · rw [← Option.some.inj hq]
            exact hack sender hmem hnone
          · cases hq
        started := fun e he => absurd he (hstart e) }
  · exact hinv

/-- When the process the target knows does not write and will not, nobody does. -/
theorem Inv.closed_of_known (h : Inv s) {q : String} (hknown : s.target.source_incarnation = some q)
    (hq : s.Fenced q) : s.Closed := by
  refine ⟨fun p => ?_, fun e he => ?_⟩
  · by_cases hp : (s.sources p).stage = .absent
    · exact .inl ⟨h.inactive hp, .inl hp⟩
    · obtain rfl := (h.engaged p hp).2.1 q hknown
      rcases hq with hf | hf | hf
      · exact .inr (.inl hf)
      · exact .inr (.inr hf)
      · exact .inl hf.1
  · refine ⟨q, (h.started e he).2.2.2.1.trans hknown, ?_⟩
    rcases hq with hf | hf | hf
    · exact .inl hf
    · exact .inr hf
    · exact absurd he (hf.2 e)

theorem inv_probe_ack (h : Inv s) {l l' : List Message} {sender : String} {terminal : Bool}
    {dead : Option String} (hm : s.control = l ++ .write_probe_ack sender terminal dead :: l') :
    Inv ({ s with control := l ++ l' }.handle_probe_ack sender terminal dead) := by
  have hmem : .write_probe_ack sender terminal dead ∈ s.control := by rw [hm]; simp
  have hinv : Inv { s with control := l ++ l' } := h.taken hm
  obtain ⟨hpast, hfence, hdead⟩ := h.probe_acks sender terminal dead hmem
  have hconclude : s.Closed → Inv { s with control := l ++ l', refused := some {} } := by
    intro hclosed
    refine hinv.conclude ⟨hclosed.1, fun e he => hclosed.2 e ?_⟩ hpast.1
    rw [hm]
    exact mem_of_mem_rest he
  unfold System.handle_probe_ack
  dsimp only
  split
  · rename_i hcond
    obtain ⟨q, hq⟩ := Option.isSome_iff_exists.mp hcond.1
    refine hconclude (h.closed_of_known hq (.inr (.inl ?_)))
    exact hdead q (hcond.2.trans hq)
  · split
    · rename_i hcond
      exact hconclude (h.closed_of_known hcond.1 (hfence hcond.2))
    · exact hinv

/-- A request is sent, or sent again, only when no process has the first one. -/
theorem Inv.requesting (h : Inv s) {batch : List WriteDone}
    (hresend : s.target.state = .START_WRITE ∨ (s.target.state = .WAITING_WRITE_DONE ∧
      s.target.retried = false ∧ ∃ e ∈ s.event batch, e.retry_metadata.isSome)) :
    s.Unclaimed ∧ s.Unanswered ∧ (∀ e, .start_write e ∉ s.control) ∧
      (∀ q b, .write_refused q b ∉ s.control) ∧
      (s.target.state = .START_WRITE → ∀ q, .metadata_ack q ∉ s.control) ∧ ¬ s.Past := by
  rcases hresend with hfresh | ⟨hwaiting, -, ev, hev, hretry⟩
  · obtain ⟨hclaim, hnone, hcontrol, -⟩ := h.fresh hfresh
    refine ⟨hclaim, ?_, ?_, ?_, ?_, fun hpast => hpast.1 hfresh⟩
    · rw [System.Unanswered, hnone]
      exact fun n hn => absurd hn List.not_mem_nil
    all_goals simp [hcontrol]
  · have hrefused : s.refused = some ev := by
      rcases event_cases hev with hrefused | ⟨hnone, -⟩
      · exact hrefused
      · rw [hnone] at hretry
        cases hretry
    obtain ⟨hclaim, hans, hstart, hrefusal, hstate, -⟩ := h.retrying ev hrefused hretry
    refine ⟨hclaim, hans, hstart, hrefusal, fun hf => ?_, fun hpast => hpast.2 hstate⟩
    rw [hf] at hstate
    cases hstate

/-- A pull ends on a terminal event only when nobody writes. -/
theorem Inv.ending (h : Inv s) {batch rest : List WriteDone}
    (harrived : s.notifications.Perm (batch ++ rest))
    (hterminal : ∃ e ∈ s.event batch, e.terminal = true) : s.Closed := by
  obtain ⟨ev, hev, hterminal⟩ := hterminal
  rcases event_cases hev with hrefused | ⟨-, hbatch⟩
  · by_cases hretry : ev.retry_metadata = none
    · exact h.refused ev hrefused hretry
    · obtain ⟨hclaim, -, hstart, -⟩ :=
        h.retrying ev hrefused (Option.isSome_iff_ne_none.mpr hretry)
      exact ⟨fun p => .inl (h.spent hclaim p), fun e he => absurd he (hstart e)⟩
  · obtain ⟨n, hn, hnt⟩ := hbatch hterminal
    have hmem : n ∈ s.notifications := harrived.mem_iff.mpr (List.mem_append_left _ hn)
    refine ⟨fun p => .inl (h.answered n hmem hnt p), fun e he => ?_⟩
    have hopen := (h.started e he).2.1 n hmem
    rw [hnt] at hopen
    cases hopen

theorem inv_poll_target (h : Inv s) {now : Time} {known : Option String} {sent : Bool}
    {batch rest : List WriteDone} (harrived : s.notifications.Perm (batch ++ rest))
    (hflight : s.target.state ≠ .FINISHED) :
    Inv (s.poll_target cfg now known sent batch rest) := by
  have hrest : ∀ n ∈ rest, n ∈ s.notifications :=
    fun n hn => harrived.mem_iff.mpr (List.mem_append_right _ hn)
  have hmoves := progress_moves cfg s.target
    { now := now, known_incarnation := known, sent := sent, event := s.event batch } hflight
  unfold System.poll_target
  dsimp only at hmoves ⊢
  generalize s.target.progress cfg
    { now := now, known_incarnation := known, sent := sent, event := s.event batch } = step
      at hmoves ⊢
  -- What a poll leaves alone.
  have hpolled : Inv { s with notifications := rest } := h.fewer (List.Sublist.refl _) hrest
  rcases hmoves with ⟨hresend, hwaits, hquotes, hsends, hreached⟩ | ⟨hresend, hfinished, hunsent⟩ |
    ⟨hwaiting, hterminal, hfinished, hsame, hsilent⟩ | ⟨hwaiting, hstate, hsame, hsends⟩
  · -- The request goes out.
    obtain ⟨hclaim, hans, hstart, hrefusal, hacks, hpast⟩ := h.requesting hresend
    have hsent : s.control ++ (if sent = true then step.sends.map System.message else []) =
        s.control ++ [.start_write step.op.source_incarnation] := by
      rw [if_pos hreached, hsends]
      rfl
    have hold : ∀ {m : Message}, m ∈ s.control ++ [.start_write step.op.source_incarnation] →
        m ≠ .start_write step.op.source_incarnation → m ∈ s.control := by
      intro m hm hne
      rcases List.mem_append.mp hm with hm | hm
      · exact hm
      · exact absurd (List.mem_singleton.mp hm) hne
    have hcount : s.control.countP Message.is_start = 0 := by
      rw [List.countP_eq_zero]
      intro m hm
      cases m with
      | start_write e => exact absurd hm (hstart e)
      | _ => simp [Message.is_start]
    rw [hsent]
    exact
      { active_running := h.active_running
        running_status := h.running_status
        engaged := fun p hp => absurd (hclaim p) hp
        one_start := by simp [hcount, Message.is_start]
        one_refusal := by simpa [Message.is_refusal] using h.one_refusal
        started := by
          intro e he
          refine ⟨hclaim, fun n hn => hans n (hrest n hn),
            fun q b hq => hrefusal q b (hold hq (by simp)), ?_, ?_⟩
          · rcases List.mem_append.mp he with he | he
            · exact absurd he (hstart e)
            · simpa using List.mem_singleton.mp he
          · intro hnone q hq
            have hquoted : step.op.source_incarnation = none := by
              rcases List.mem_append.mp he with he | he
              · exact absurd he (hstart e)
              · rw [← hnone]
                simpa using (List.mem_singleton.mp he).symm
            rcases hquotes with hfresh | hsome
            · exact hacks hfresh q (hold hq (by simp))
            · rw [hquoted] at hsome
              cases hsome
        refusal := fun q b hq => absurd (hold hq (by simp)) (hrefusal q b)
        answered := hpolled.answered
        retrying := fun _ hev => by cases hev
        refused := fun _ hev => by cases hev
        finished := by simp [hwaits]
        fresh := by simp [hwaits]
        probes := fun e he => absurd (h.probes e (hold he (by simp))) hpast
        probe_acks := fun q b d hq => absurd (h.probe_acks q b d (hold hq (by simp))).1 hpast
        dead := h.dead
        fences := fun q halive habsent hsome => absurd (h.fences q halive habsent hsome) hpast }
  · -- It gives up before the request is out.
    obtain ⟨hclaim, hans, hstart, hrefusal, -, hpast⟩ := h.requesting hresend
    have hsent : s.control ++ (if sent = true then step.sends.map System.message else []) =
        s.control := by
      cases sent with
      | true => simp [hunsent rfl]
      | false => simp
    rw [hsent]
    exact
      { hpolled with
        engaged := fun p hp => absurd (hclaim p) hp
        started := fun e he => absurd he (hstart e)
        refusal := fun q b hq => absurd hq (hrefusal q b)
        retrying := fun _ hev => by cases hev
        refused := fun _ hev => by cases hev
        finished := fun _ => ⟨fun p => .inl (h.spent hclaim p), fun e he => absurd he (hstart e)⟩
        fresh := by simp [hfinished]
        probes := fun e he => absurd (h.probes e he) hpast
        probe_acks := fun q b d hq => absurd (h.probe_acks q b d hq).1 hpast
        fences := fun q halive habsent hsome => absurd (h.fences q halive habsent hsome) hpast }
  · have hclosed := h.ending harrived hterminal
    have hpast : step.op.state ≠ .START_WRITE ∧ step.op.state ≠ .WAITING_WRITE_DONE := by
      simp [hfinished]
    rw [hsilent, List.map_nil, ite_self, List.append_nil]
    exact
      { hpolled with
        engaged := by
          intro p hp
          rw [hsame]
          exact h.engaged p hp
        started := by
          intro e he
          rw [hsame]
          exact hpolled.started e he
        refusal := fun q b hq => ⟨(h.refusal q b hq).1, .inr hpast⟩
        retrying := fun _ hev => by cases hev
        refused := fun _ hev => by cases hev
        finished := fun _ => hclosed
        fresh := fun hf => absurd hf hpast.1
        probes := fun _ _ => hpast
        probe_acks := fun q b d hq => ⟨hpast, (h.probe_acks q b d hq).2⟩
        fences := fun _ _ _ _ => hpast }
  · -- It goes on waiting.
    have hpast : s.Past → step.op.state ≠ .START_WRITE ∧ step.op.state ≠ .WAITING_WRITE_DONE := by
      intro hp
      rcases hstate with hstate | hstate | hstate <;> rw [hstate]
      · exact hp
      · simp
      · simp
    have hstarted : step.op.state ≠ .START_WRITE := by
      rcases hstate with hstate | hstate | hstate <;> rw [hstate]
      · exact hwaiting
      · simp
      · simp
    have hopen : step.op.state ≠ .FINISHED := by
      rcases hstate with hstate | hstate | hstate <;> rw [hstate]
      · exact hflight
      · simp
      · simp
    have hwait : Inv { s with target := step.op, refused := none, notifications := rest } :=
      { hpolled with
        engaged := by
          intro p hp
          rw [hsame]
          exact h.engaged p hp
        started := by
          intro e he
          rw [hsame]
          exact hpolled.started e he
        refusal := fun q b hq =>
          ⟨(hpolled.refusal q b hq).1, (hpolled.refusal q b hq).2.imp_right hpast⟩
        retrying := fun _ hev => by cases hev
        refused := fun _ hev => by cases hev
        finished := fun hf => absurd hf hopen
        fresh := fun hf => absurd hf hstarted
        probes := fun e he => hpast (h.probes e he)
        probe_acks := by
          intro q b d hq
          obtain ⟨hp, hrest⟩ := h.probe_acks q b d hq
          exact ⟨hpast hp, hrest⟩
        fences := fun q halive habsent hsome => hpast (h.fences q halive habsent hsome) }
    rcases hsends with hsilent | ⟨hprobe, hlate⟩
    · rw [hsilent, List.map_nil, ite_self, List.append_nil]
      exact hwait
    · cases sent with
      | false =>
        rw [if_neg (by simp), List.append_nil]
        exact hwait
      | true =>
        rw [if_pos rfl, hprobe]
        exact hwait.send_probe ⟨hstarted, hlate⟩ _

end Steps

/-! ## Runs -/

variable {cfg : Config}

/-- Every step keeps the invariant, unless it answers for a fence alone while there is a
request. -/
theorem inv_step {s s' : System} (hstep : Step cfg s s')
    (hclear : AnswersFence s s' → ¬ s.Requested) (h : Inv s) : Inv s' := by
  cases hstep with
  | lose_message m hm => exact h.taken hm
  | lose_notification n hn =>
    refine h.fewer (List.Sublist.refl _) fun x hx => ?_
    rw [hn]
    rcases List.mem_append.mp hx with hx | hx
    · exact List.mem_append_left _ hx
    · exact List.mem_append_right _ (List.mem_cons_of_mem _ hx)
  | poll_target now known sent batch rest harrived hflight =>
    exact inv_poll_target h harrived hflight
  | write_refused sender retryable in_time hm _ => exact inv_write_refused h hm in_time
  | metadata_ack sender hm _ => exact inv_metadata_ack h hm
  | probe_ack sender terminal dead hm _ => exact inv_probe_ack h hm
  | start_write p expected setup responsive hm halive _ =>
    exact inv_start_write h hm halive setup responsive
  | probe p expected hm _ =>
    have hpast := h.probes expected (by rw [hm]; simp)
    exact inv_probe (h.taken hm) hpast p expected
  | prepare p op halive _ hwaiting hunsubmitted _ =>
    exact inv_prepare h halive hwaiting hunsubmitted
  | progress p i status op halive hrunning hknown _ hended =>
    exact inv_progress h halive hrunning hknown hended
  | land p indices hactive =>
    obtain ⟨htame, hspent, hclaimed⟩ := h.ended_transfer hactive
    exact h.done hclaimed htame hspent _
  | break_off p hactive => exact h.put (h.ended_transfer hactive).1
  | stop p _ => exact inv_stop h p
  | close p op halive _ hrunning hended => exact inv_close h halive hrunning hended _
  | close_progress p routed halive _ => exact inv_close_progress h halive hclear
  | die p => exact inv_die h p
  | learn_dead p q hdead hended => exact inv_learn_dead h p ⟨hdead, hended⟩

theorem inv_run {s s' : System} (hrun : ClearRun cfg s s') (h : Inv s) : Inv s' := by
  induction hrun with
  | refl => exact h
  | step _ hstep hclear ih => exact inv_step hstep hclear ih

/-- A finished pull stays finished: messages for it are dropped. -/
theorem step_finished {s s' : System} (hstep : Step cfg s s') (h : s.target.state = .FINISHED) :
    s'.target.state = .FINISHED := by
  cases hstep with
  | poll_target _ _ _ _ _ _ hflight => exact absurd h hflight
  | write_refused _ _ _ _ hflight => exact absurd h hflight
  | metadata_ack _ _ hflight => exact absurd h hflight
  | probe_ack _ _ _ _ hflight => exact absurd h hflight
  | start_write p expected setup responsive _ _ _ =>
    unfold System.handle_start_write System.accept_start_write
    split
    any_goals exact h
    rename_i acknowledged
    cases acknowledged <;> dsimp only [Bool.false_eq_true, if_false, if_true] <;> split <;>
      (repeat' split) <;> exact h
  | probe p expected _ _ =>
    unfold System.handle_probe
    dsimp only
    split <;> exact h
  | close_progress p routed _ _ =>
    unfold System.close_progress
    dsimp only
    split <;> exact h
  | _ => exact h

theorem run_finished {s s' : System} (hrun : ClearRun cfg s s') (h : s.target.state = .FINISHED) :
    s'.target.state = .FINISHED := by
  induction hrun with
  | refl => exact h
  | step _ hstep _ ih => exact step_finished hstep ih

/-- A process that a closed pull leaves behind does not submit. -/
theorem Source.Harmless.submits_nothing {x : Source} (h : x.Harmless) {i : SourceInput}
    {status : SourceWriteStatus} {op : SourceWriteOp} (halive : x.alive = true)
    (hrunning : x.stage = .running op) (hstatus : x.status = some status) :
    submits i status op = false := by
  rcases h with ⟨-, habsent | ⟨op', hop', hsome⟩⟩ | ⟨-, st, hst, hcancel, -⟩ | ⟨hdead, -⟩
  · rw [habsent] at hrunning
    cases hrunning
  · obtain rfl : op = op' := by simpa [hrunning] using hop'
    obtain ⟨transfer_id, htransfer⟩ := Option.isSome_iff_exists.mp hsome
    simp [submits, htransfer]
  · obtain rfl : status = st := by simpa [hstatus] using hst
    simp [submits, hcancel]
  · rw [hdead] at halive
    cases halive

/-! ## An answer for a fence alone -/

/-- A terminal notification that arrives alone is the event of the poll. -/
theorem event_of_terminal {s : System} {n : WriteDone} (hhandle : n.op_handle = s.target.op_handle)
    (hterminal : n.terminal = true) :
    ∃ event, s.event [n] = some event ∧ event.terminal = true ∧ event.retry_metadata = none := by
  have hmerged : (merge_notification none n).terminal = true := by
    rw [merge_notification, hterminal, Bool.true_or]
  refine ⟨merge_notification none n, ?_, hmerged, rfl⟩
  have hnative : (poll_notifications [n]).get? s.target.op_handle =
      some (merge_notification none n) := by
    rw [← hhandle, poll_notifications, List.foldl_cons, List.foldl_nil, Dict.get?_set_self]
    rfl
  unfold System.event
  cases s.refused with
  | none => exact hnative
  | some refusal =>
    -- nothing outranks a terminal notification
    have houtranked : merge_refusal (poll_notifications [n]) s.target.op_handle refusal =
        poll_notifications [n] := by
      unfold merge_refusal
      dsimp only
      rw [hnative, if_neg (by simp [hmerged])]
    change (merge_refusal (poll_notifications [n]) s.target.op_handle refusal).get? _ = _
    rw [houtranked]
    exact hnative

/-- It ends the pull. -/
theorem progress_ends (cfg : Config) {op : TargetPullOp} {i : TargetInput} {event : TargetEvent}
    (hstarted : op.state ≠ .START_WRITE) (hflight : op.state ≠ .FINISHED)
    (hevent : i.event = some event) (hterminal : event.terminal = true)
    (hretry : event.retry_metadata = none) :
    (op.progress cfg i).op.state = .FINISHED ∧ (op.progress cfg i).sends = [] := by
  have hsame : op.retry i.event = op := by
    rw [TargetPullOp.retry, hevent, Option.bind_some, hretry]
  obtain ⟨hfinished, -, hsilent⟩ := finish_state op i event
  unfold TargetPullOp.progress
  dsimp only
  rw [hsame, hevent]
  cases hstate : op.state with
  | START_WRITE => exact absurd hstate hstarted
  | FINISHED => exact absurd hstate hflight
  | WAITING_WRITE_DONE | WAITING_TERMINAL | QUARANTINED =>
    dsimp only
    rw [if_pos hterminal]
    exact ⟨hfinished, hsilent⟩

/-- A pull in flight whose answer is under way can be over, with all else still under way. -/
theorem answer_ends (cfg : Config) {s : System} {ns : List WriteDone} {n : WriteDone}
    (hns : s.notifications = ns ++ [n]) (hhandle : n.op_handle = s.target.op_handle)
    (hterminal : n.terminal = true) (hstarted : s.target.state ≠ .START_WRITE)
    (hflight : s.target.state ≠ .FINISHED) :
    ∃ s', Step cfg s s' ∧ s'.target.state = .FINISHED ∧ s'.control = s.control ∧
      s'.sources = s.sources := by
  obtain ⟨event, hevent, hends, hretry⟩ := event_of_terminal hhandle hterminal
  have harrived : s.notifications.Perm ([n] ++ ns) := by
    rw [hns]
    exact List.perm_append_comm
  refine ⟨_, .poll_target 0 none true [n] ns harrived hflight, ?_⟩
  obtain ⟨hfinished, hsilent⟩ := progress_ends cfg
    (i := { now := 0, known_incarnation := none, sent := true, event := s.event [n] })
    hstarted hflight hevent hends hretry
  refine ⟨hfinished, ?_, rfl⟩
  unfold System.poll_target
  dsimp only
  rw [hsilent, List.map_nil, ite_self, List.append_nil]

/-- A write of one block. -/
def write_of_one (op_handle : OpHandle) : SourceWriteOp :=
  { op_id := .source 0, keys := OrderedSet.ofList [⟨[1]⟩], deadline := 10
    state := .READY_TO_WRITE, remote_agent := "target", op_handle := op_handle
    source_keys := [⟨[1]⟩], dst_descriptors := [[⟨"target", 0, ⟨"kv", ""⟩, false⟩]]
    src_descriptors := [[⟨"source", 3, ⟨"kv", ""⟩, false⟩]], completed_indices := [0] }

/-- The iteration that submits it. -/
def submission_of_one : SourceInput := ⟨true, 1, false, some (7, true), 1, none, 1, false⟩

/-- A process that has not heard of the pull takes a request that quotes nobody, and writes. -/
theorem request_is_written (cfg : Config) {s : System} {q : String}
    (hrequest : .start_write none ∈ s.control)
    (hq : s.sources q = {}) :
    ∃ s', Run cfg s s' ∧ s'.target = s.target ∧ (s'.sources q).active = true := by
  obtain ⟨l, l', hcontrol⟩ := List.append_of_mem hrequest
  have htaken : ({ s with control := l ++ l' } : System).handle_start_write q none
      (.resolved false) true = ({ s with control := l ++ l' } : System).put q
        { status := some {}, stage := .waiting } := by
    simp only [System.handle_start_write, System.accept_start_write, Bool.false_eq_true, if_false,
      hq, Option.any_none, not_true_eq_false]
    simp only [System.modify_source, System.put, hq]
  have h₁ : Run cfg s (({ s with control := l ++ l' } : System).put q
      { status := some {}, stage := .waiting }) := by
    rw [← htaken]
    exact .step (.refl s) (.start_write q none (.resolved false) true hcontrol (by rw [hq])
      fun hstops => (by rw [hq] at hstops; cases hstops))
  have h₂ := Run.step h₁ (.prepare q (write_of_one s.target.op_handle) (by rw [put_self])
    (by rw [put_self]) (by rw [put_self]) rfl rfl)
  have hself : (((({ s with control := l ++ l' } : System).put q
      { status := some {}, stage := .waiting }).modify_source q fun source =>
        { source with stage := .running (write_of_one s.target.op_handle) }).sources q) =
      { status := some {}, stage := .running (write_of_one s.target.op_handle) } := by
    rw [System.modify_source, put_self]
    exact Function.update_self ..
  refine ⟨_, h₂.step (.progress q submission_of_one {} (write_of_one s.target.op_handle)
    (by rw [hself]) (by rw [hself]) (by rw [hself])
    (fun hstops => (by rw [hself] at hstops; cases hstops))
    fun hsome => (by cases hsome)), rfl, ?_⟩
  unfold System.progress_source
  dsimp only
  rw [Function.update_self]
  rfl

theorem Run.trans {s s' s'' : System} (h : Run cfg s s') (h' : Run cfg s' s'') : Run cfg s s'' := by
  induction h' with
  | refl => exact h
  | step _ hstep ih => exact ih.step hstep

/-! ## The result -/

/-- A process that answers for a fence says that the write has failed. -/
theorem Source.FenceOnly.close_progress_eq {s : System} {p : String} (h : (s.sources p).FenceOnly) :
    s.close_progress p true = (s.modify_source p fun source =>
      { source with alive := false, stage := .absent }).notify
        (write_done_notif s.target.op_handle false) := by
  unfold System.close_progress
  dsimp only
  rw [h.2, if_pos ⟨rfl, rfl⟩]
  rfl

theorem AnswersFence.notifies {s s' : System} (h : AnswersFence s s') :
    s'.notifications = s.notifications ++ [write_done_notif s.target.op_handle false] := by
  obtain ⟨p, hfence, rfl⟩ := h
  rw [hfence.close_progress_eq]
  rfl

/-- On the answer for a fence the pull can be over. -/
theorem Source.FenceOnly.ends (cfg : Config) {s : System} {p : String}
    (hfence : (s.sources p).FenceOnly) (halive : (s.sources p).alive = true)
    (hstopping : (s.sources p).stopping = true) (hstarted : s.target.state ≠ .START_WRITE)
    (hflight : s.target.state ≠ .FINISHED) :
    ∃ s', Run cfg s s' ∧ s'.target.state = .FINISHED ∧ s'.control = s.control ∧
      ∀ q, q ≠ p → s'.sources q = s.sources q := by
  have hclosing : Run cfg s (s.close_progress p true) :=
    .step (.refl s) (.close_progress p true halive hstopping)
  rw [hfence.close_progress_eq] at hclosing
  obtain ⟨s', hends, hfinished, hcontrol, hsources⟩ := answer_ends cfg
    (s := (s.modify_source p fun source => { source with alive := false, stage := .absent }).notify
      (write_done_notif s.target.op_handle false)) rfl rfl rfl hstarted hflight
  refine ⟨s', hclosing.step hends, hfinished, hcontrol, fun q hq => ?_⟩
  rw [hsources]
  exact Function.update_of_ne hq ..

/-- A finished pull leaves no writer behind, in every run in which no process that stops
answers for a fence alone while there is a request: from then on no process accesses its
destinations, and none submits a write. The exception is real. Where a process is about to
answer so, and another one writes, or has not heard of the pull and can take a request that
quotes nobody, there is a way on in which the pull has finished and the other one writes. -/
theorem finished_pull_has_no_writer {s₀ s : System} (hinitial : Initial s₀)
    (hrun : ClearRun cfg s₀ s) :
    (s.target.state = .FINISHED → ∀ s', ClearRun cfg s s' → ∀ p,
      (s'.sources p).active = false ∧
        ∀ (i : SourceInput) (status : SourceWriteStatus) (op : SourceWriteOp),
          (s'.sources p).alive = true → (s'.sources p).stage = .running op →
          (s'.sources p).status = some status → submits i status op = false) ∧
    ∀ p q, (s.sources p).FenceOnly → (s.sources p).alive = true → (s.sources p).stopping = true →
      (s.sources q).active = true ∨ (.start_write none ∈ s.control ∧ s.sources q = {}) →
      ∃ s', Run cfg s s' ∧ s'.target.state = .FINISHED ∧ (s'.sources q).active = true := by
  have hinv : Inv s := inv_run hrun (Inv.initial hinitial)
  refine ⟨fun hfinished s' hlater p => ?_, fun p q hfence halive hstopping hother => ?_⟩
  · have hharmless := ((inv_run hlater hinv).finished (run_finished hlater hfinished)).1 p
    exact ⟨hharmless.inactive, fun i status op => hharmless.submits_nothing⟩
  · rcases hother with hactive | ⟨hrequest, hq⟩
    · have hstarted : s.target.state ≠ .START_WRITE := fun hstart => by
        rw [hinv.inactive ((hinv.fresh hstart).1 q)] at hactive
        cases hactive
      have hflight : s.target.state ≠ .FINISHED := fun hfinished => by
        rw [((hinv.finished hfinished).1 q).inactive] at hactive
        cases hactive
      have hqp : q ≠ p := by
        rintro rfl
        rw [hinv.inactive hfence.1] at hactive
        cases hactive
      obtain ⟨s', hends, hfinished, -, hsources⟩ := hfence.ends cfg halive hstopping
        hstarted hflight
      exact ⟨s', hends, hfinished, (hsources q hqp).symm ▸ hactive⟩
    · have hstarted : s.target.state ≠ .START_WRITE := fun hstart => by
        rw [(hinv.fresh hstart).2.2.1] at hrequest
        cases hrequest
      have hflight : s.target.state ≠ .FINISHED := fun hfinished => by
        obtain ⟨r, hr, -⟩ := (hinv.finished hfinished).2 none hrequest
        cases hr
      have hqp : q ≠ p := by
        rintro rfl
        rw [hq] at hstopping
        cases hstopping
      obtain ⟨s₁, hends, hfinished, hcontrol, hsources⟩ := hfence.ends cfg halive
        hstopping hstarted hflight
      obtain ⟨s₂, hwrites, htarget, hactive⟩ := request_is_written cfg
        (hcontrol ▸ hrequest) ((hsources q hqp).trans hq)
      exact ⟨s₂, hends.trans hwrites, htarget ▸ hfinished, hactive⟩

/-- A pull of one block that has not been started. -/
def pull_of_one : System where
  target :=
    { op_handle := 1, keys := OrderedSet.ofList [⟨[1]⟩], deadline := 10, state := .START_WRITE
      local_fill := true, remote_ctrl_ep := "source", ordered_keys := [⟨[1]⟩]
      dst_descriptors := [[⟨"target", 0, ⟨"kv", ""⟩, false⟩]] }
  sources := fun _ => {}

/-- A run through a request, a write that is under way for a while, and its success. -/
theorem finished_pull_of_one :
    ∃ s s' : System,
      ClearRun { nixl_agent_name := "target", pool_layouts := [("kv", 1)] } pull_of_one s ∧
      (s.sources "a").active = true ∧
      ClearRun { nixl_agent_name := "target", pool_layouts := [("kv", 1)] } pull_of_one s' ∧
      s'.target.state = .FINISHED ∧ s'.target.success = true ∧
      ∀ p, (s'.sources p).active = false := by
  let cfg : Config := { nixl_agent_name := "target", pool_layouts := [("kv", 1)] }
  have hinitial : Initial pull_of_one := ⟨rfl, rfl, rfl, rfl, rfl, fun _ => rfl⟩
  -- no step of the run reports a failure, so none is an answer for a fence
  have h₁ : ClearRun cfg pull_of_one _ :=
    .step (.refl _) (.poll_target 0 none true [] [] (.refl _) (by decide))
      fun h => absurd h.notifies (by decide)
  have h₂ : ClearRun cfg pull_of_one _ :=
    .step h₁ (.start_write "a" none (.resolved true) true (List.nil_append _).symm rfl nofun)
      fun h => absurd h.notifies (by decide)
  have h₃ : ClearRun cfg pull_of_one _ :=
    .step h₂ (.prepare "a" (write_of_one 1) rfl rfl rfl rfl rfl)
      fun h => absurd h.notifies (by decide)
  have h₄ : ClearRun cfg pull_of_one _ :=
    .step h₃ (.progress "a" submission_of_one {} (write_of_one 1) rfl rfl rfl nofun nofun)
      fun h => absurd h.notifies (by decide)
  have h₅ : ClearRun cfg pull_of_one _ :=
    .step h₄ (.land "a" [0] rfl) fun h => absurd h.notifies (by decide)
  have h₆ : ClearRun cfg pull_of_one _ :=
    .step h₅ (.poll_target 2 none true [write_done_notif 1 true [0]] [] (.refl _) (by decide))
      fun h => absurd h.notifies (by decide)
  exact ⟨_, _, h₄, rfl, h₆, rfl, rfl,
    fun p => ((finished_pull_has_no_writer hinitial h₆).1 rfl _ (.refl _) p).1⟩

/-- The request is delayed; at the deadline the probe overtakes it and leaves a fence at "a".
"a" shuts down and answers for the fence, the pull finishes on that answer, and "b", which
the request reaches next, writes. -/
theorem finished_pull_with_writer :
    Initial pull_of_one ∧ ∃ s : System,
      Run { nixl_agent_name := "target", pool_layouts := [("kv", 1)] } pull_of_one s ∧
      s.target.state = .FINISHED ∧
      ∃ s' : System, Run { nixl_agent_name := "target", pool_layouts := [("kv", 1)] } s s' ∧
        s'.target.state = .FINISHED ∧ (s'.sources "b").active = true := by
  let cfg : Config := { nixl_agent_name := "target", pool_layouts := [("kv", 1)] }
  have h₁ : Run cfg pull_of_one _ :=
    .step (.refl _) (.poll_target 0 none true [] [] (.refl _) (by decide))
  have h₂ : Run cfg pull_of_one _ :=
    .step h₁ (.poll_target 11 none true [] [] (.refl _) (by decide))
  have hoverdue : (System.poll_target cfg 11 none true [] []
      (System.poll_target cfg 0 none true [] [] pull_of_one)).control =
        [.start_write none] ++ .write_probe none :: [] := rfl
  have h₃ : Run cfg pull_of_one _ := .step h₂ (.probe "a" none hoverdue rfl)
  have h₄ : Run cfg pull_of_one _ := .step h₃ (.stop "a" rfl)
  have h₅ : Run cfg pull_of_one _ := .step h₄ (.close_progress "a" true rfl rfl)
  have h₆ : Run cfg pull_of_one _ :=
    .step h₅ (.poll_target 12 none true [write_done_notif 1 false] [] (.refl _) (by decide))
  exact ⟨⟨rfl, rfl, rfl, rfl, rfl, fun _ => rfl⟩, _, h₆, rfl, _,
    .step (.step (.step (.refl _)
      (.start_write "b" none (.resolved true) true (List.nil_append _).symm rfl nofun))
      (.prepare "b" (write_of_one 1) rfl rfl rfl rfl rfl))
      (.progress "b" submission_of_one {} (write_of_one 1) rfl rfl rfl nofun nofun), rfl, rfl⟩

end Kvcr.Protocol
