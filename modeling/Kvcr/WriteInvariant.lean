/-
What holds between any two steps of the write protocol.

The invariant says that there is one request: while it is under way no process has the
write, and while a process has the write no request, refusal or invitation to retry is
left that could engage another. Answers that end the pull are under way only once the
native transfer is over, and the answer to a probe vouches for its sender: it has been
barred before it submitted, or it is gone.
-/
import Kvcr.WriteProtocol

set_option autoImplicit false

namespace Kvcr.Protocol

/-! ## The invariant -/

def Message.is_start : Message → Bool
  | .start_write _ => true
  | _ => false

def Message.is_refusal : Message → Bool
  | .write_refused _ _ => true
  | _ => false

namespace Source

/-- No write, or one whose native transfer has ended. -/
def Spent (x : Source) : Prop :=
  x.active = false ∧
    (x.stage = .absent ∨ ∃ op, x.stage = .running op ∧ op.transfer_id.isSome = true)

/-- A probe came before any submission: nothing will be submitted. -/
def Barred (x : Source) : Prop :=
  x.active = false ∧ ∃ st, x.status = some st ∧ st.cancel_requested = true ∧ st.submitted = false

/-- The process has died and its writes have ended. -/
def Gone (x : Source) : Prop := x.alive = false ∧ x.active = false

/-- The process does not write, and will not because of a write it knows of. -/
def Harmless (x : Source) : Prop := x.Spent ∨ x.Barred ∨ x.Gone

theorem Harmless.inactive {x : Source} (h : x.Harmless) : x.active = false := by
  rcases h with h | h | h
  · exact h.1
  · exact h.1
  · exact h.2

end Source

namespace System

/-- No process writes or will write; a request still under way finds nobody to take it. -/
def Closed (s : System) : Prop :=
  (∀ p, (s.sources p).Harmless) ∧
    ∀ e, .start_write e ∈ s.control →
      ∃ q, e = some q ∧ ((s.sources q).Barred ∨ (s.sources q).Gone)

/-- The pull no longer waits for its first answer. -/
def Past (s : System) : Prop :=
  s.target.state ≠ .START_WRITE ∧ s.target.state ≠ .WAITING_WRITE_DONE

/-- Nothing `q` knows of, and nothing it can still receive, makes it write. -/
def Fenced (s : System) (q : String) : Prop :=
  (s.sources q).Barred ∨ (s.sources q).Gone ∨
    ((s.sources q).Spent ∧ ∀ e, .start_write e ∉ s.control)

/-- No process has the write. -/
def Unclaimed (s : System) : Prop := ∀ p, (s.sources p).stage = .absent

/-- No notification under way ends the pull. -/
def Unanswered (s : System) : Prop := ∀ n ∈ s.notifications, n.terminal = false

end System

/-- One request, one process: what holds between any two steps. -/
structure Inv (s : System) : Prop where
  active_running : ∀ p, (s.sources p).active = true →
    ∃ op, (s.sources p).stage = .running op ∧ op.transfer_id.isSome = true
  running_status : ∀ p op, (s.sources p).stage = .running op → op.transfer_id.isSome = true →
    ∃ st, (s.sources p).status = some st ∧ st.submitted = true
  /-- the process that has the write is the one the target knows, if it knows one -/
  engaged : ∀ p, (s.sources p).stage ≠ .absent →
    (∀ q, (s.sources q).stage ≠ .absent → q = p) ∧
    (∀ q, s.target.source_incarnation = some q → q = p) ∧
    (∀ q, .metadata_ack q ∈ s.control → s.target.source_incarnation = none → q = p)
  one_start : s.control.countP Message.is_start ≤ 1
  one_refusal : s.control.countP Message.is_refusal ≤ 1
  started : ∀ e, .start_write e ∈ s.control → s.Unclaimed ∧ s.Unanswered ∧
    (∀ q b, .write_refused q b ∉ s.control) ∧ e = s.target.source_incarnation ∧
    (e = none → ∀ q, .metadata_ack q ∉ s.control)
  refusal : ∀ q b, .write_refused q b ∈ s.control → s.Unclaimed ∧ (s.Unanswered ∨ s.Past)
  answered : ∀ n ∈ s.notifications, n.terminal = true → ∀ p, (s.sources p).Spent
  retrying : ∀ ev, s.refused = some ev → ev.retry_metadata.isSome = true →
    s.Unclaimed ∧ s.Unanswered ∧ (∀ e, .start_write e ∉ s.control) ∧
    (∀ q b, .write_refused q b ∉ s.control) ∧ s.target.state = .WAITING_WRITE_DONE ∧
    s.target.retried = false
  refused : ∀ ev, s.refused = some ev → ev.retry_metadata = none → s.Closed
  finished : s.target.state = .FINISHED → s.Closed
  fresh : s.target.state = .START_WRITE →
    s.Unclaimed ∧ s.notifications = [] ∧ s.control = [] ∧ s.refused = none
  probes : ∀ e, .write_probe e ∈ s.control → s.Past
  probe_acks : ∀ q b d, .write_probe_ack q b d ∈ s.control →
    s.Past ∧ (b = true → s.Fenced q) ∧ ∀ x, d = some x → (s.sources x).Gone
  dead : ∀ p, ∀ q ∈ (s.sources p).dead_incarnations, (s.sources q).Gone
  /-- only a probe leaves a status without a write -/
  fences : ∀ p, (s.sources p).alive = true → (s.sources p).stage = .absent →
    (s.sources p).status ≠ none → s.Past

theorem Inv.initial {s : System} (h : Initial s) : Inv s := by
  have hsource := h.sources
  have hstate := h.state
  constructor <;>
    simp [hsource, h.control, h.notifications, h.refused, h.state, System.Unclaimed]

/-- A process without the write does not write. -/
theorem Inv.inactive {s : System} (h : Inv s) {p : String}
    (hp : (s.sources p).stage = .absent) : (s.sources p).active = false := by
  by_contra hactive
  obtain ⟨op, hrunning, -⟩ := h.active_running p (by simpa using hactive)
  rw [hp] at hrunning
  cases hrunning

theorem Inv.spent {s : System} (h : Inv s) (hclaim : s.Unclaimed) (p : String) :
    (s.sources p).Spent :=
  ⟨h.inactive (hclaim p), .inl (hclaim p)⟩

/-! ### Less under way -/

theorem mem_of_mem_rest {l l' : List Message} {m x : Message} (h : x ∈ l ++ l') :
    x ∈ l ++ m :: l' := by
  rcases List.mem_append.mp h with hl | hl
  · exact List.mem_append_left _ hl
  · exact List.mem_append_right _ (List.mem_cons_of_mem _ hl)

/-- Fewer messages and notifications under way keep the invariant. -/
theorem Inv.fewer {s : System} (h : Inv s) {control : List Message} {notifications : List WriteDone}
    (hcontrol : control.Sublist s.control)
    (hnotifications : ∀ n ∈ notifications, n ∈ s.notifications) :
    Inv { s with control := control, notifications := notifications } := by
  have hsub : ∀ m ∈ control, m ∈ s.control := fun m hm => hcontrol.subset hm
  have hclosed : s.Closed →
      System.Closed { s with control := control, notifications := notifications } :=
    fun hc => ⟨hc.1, fun e he => hc.2 e (hsub _ he)⟩
  have hunanswered : s.Unanswered →
      System.Unanswered { s with control := control, notifications := notifications } :=
    fun hu n hn => hu n (hnotifications n hn)
  exact
    { active_running := h.active_running
      running_status := h.running_status
      engaged := fun p hp =>
        ⟨(h.engaged p hp).1, (h.engaged p hp).2.1, fun q hq => (h.engaged p hp).2.2 q (hsub _ hq)⟩
      one_start := Nat.le_trans hcontrol.countP_le h.one_start
      one_refusal := Nat.le_trans hcontrol.countP_le h.one_refusal
      started := by
        intro e he
        obtain ⟨hclaim, hans, href, heq, hack⟩ := h.started e (hsub _ he)
        exact ⟨hclaim, hunanswered hans, fun q b hq => href q b (hsub _ hq), heq,
          fun hn q hq => hack hn q (hsub _ hq)⟩
      refusal := by
        intro q b hq
        obtain ⟨hclaim, hans⟩ := h.refusal q b (hsub _ hq)
        exact ⟨hclaim, hans.imp_left hunanswered⟩
      answered := fun n hn => h.answered n (hnotifications n hn)
      retrying := by
        intro ev hev hretry
        obtain ⟨hclaim, hans, hstart, href, hstate⟩ := h.retrying ev hev hretry
        exact ⟨hclaim, hunanswered hans, fun e he => hstart e (hsub _ he),
          fun q b hq => href q b (hsub _ hq), hstate⟩
      refused := fun ev hev hretry => hclosed (h.refused ev hev hretry)
      finished := fun hf => hclosed (h.finished hf)
      fresh := by
        intro hf
        obtain ⟨hclaim, hn, hc, hr⟩ := h.fresh hf
        refine ⟨hclaim, ?_, ?_, hr⟩
        · rw [List.eq_nil_iff_forall_not_mem]
          intro n hmem
          have := hnotifications n hmem
          rw [hn] at this
          exact List.not_mem_nil this
        · rw [List.eq_nil_iff_forall_not_mem]
          intro m hmem
          have := hsub m hmem
          rw [hc] at this
          exact List.not_mem_nil this
      probes := fun e he => h.probes e (hsub _ he)
      probe_acks := by
        intro q b d hq
        obtain ⟨hpast, hfence, hdead⟩ := h.probe_acks q b d (hsub _ hq)
        refine ⟨hpast, fun hb => ?_, hdead⟩
        rcases hfence hb with hf | hf | hf
        · exact .inl hf
        · exact .inr (.inl hf)
        · exact .inr (.inr ⟨hf.1, fun e he => hf.2 e (hsub _ he)⟩)
      dead := h.dead
      fences := h.fences }

/-- A message taken out. -/
theorem Inv.taken {s : System} (h : Inv s) {l l' : List Message} {m : Message}
    (hm : s.control = l ++ m :: l') : Inv { s with control := l ++ l' } := by
  refine h.fewer ?_ fun n hn => hn
  rw [hm]
  exact (List.Sublist.refl l).append (List.sublist_cons_self m l')

/-! ### One process changes -/

/-- The system with the state of process `p` replaced. -/
def System.put (s : System) (p : String) (x : Source) : System :=
  { s with sources := Function.update s.sources p x }

/-- A step of one process that does not take the write up. -/
structure Tame (s : System) (p : String) (x : Source) : Prop where
  active_running : x.active = true → ∃ op, x.stage = .running op ∧ op.transfer_id.isSome = true
  running_status : ∀ op, x.stage = .running op → op.transfer_id.isSome = true →
    ∃ st, x.status = some st ∧ st.submitted = true
  stage : (s.sources p).stage = .absent → x.stage = .absent
  spent : (s.sources p).Spent → x.Spent
  barred : (s.sources p).Barred → x.Barred ∨ (x.Spent ∧ (s.sources p).stage ≠ .absent)
  gone : (s.sources p).Gone → x.Gone
  dead : ∀ q ∈ x.dead_incarnations, (s.sources q).Gone
  fence : x.alive = true → x.stage = .absent → x.status ≠ none → s.Past

section Put

variable {s : System} {p : String} {x : Source}

theorem put_self : (s.put p x).sources p = x := Function.update_self ..

theorem put_other {q : String} (hq : q ≠ p) : (s.put p x).sources q = s.sources q :=
  Function.update_of_ne hq ..

theorem Tame.unclaimed (hx : Tame s p x) (h : s.Unclaimed) : (s.put p x).Unclaimed := by
  intro q
  by_cases hq : q = p
  · rw [hq, put_self]
    exact hx.stage (h p)
  · rw [put_other hq]
    exact h q

theorem Tame.put_spent (hx : Tame s p x) {q : String} (h : (s.sources q).Spent) :
    ((s.put p x).sources q).Spent := by
  by_cases hq : q = p
  · rw [hq, put_self]
    exact hx.spent (hq ▸ h)
  · rw [put_other hq]
    exact h

theorem Tame.put_gone (hx : Tame s p x) {q : String} (h : (s.sources q).Gone) :
    ((s.put p x).sources q).Gone := by
  by_cases hq : q = p
  · rw [hq, put_self]
    exact hx.gone (hq ▸ h)
  · rw [put_other hq]
    exact h

/-- A bar is kept, or the write it barred has ended and no request is under way. -/
theorem Tame.put_barred (hinv : Inv s) (hx : Tame s p x) {q : String} (h : (s.sources q).Barred) :
    ((s.put p x).sources q).Barred ∨
      (((s.put p x).sources q).Spent ∧ ∀ e, .start_write e ∉ s.control) := by
  by_cases hq : q = p
  · subst hq
    rw [put_self]
    rcases hx.barred h with hb | ⟨hs, hstage⟩
    · exact .inl hb
    · exact .inr ⟨hs, fun e he => hstage ((hinv.started e he).1 q)⟩
  · rw [put_other hq]
    exact .inl h

theorem Tame.closed (hinv : Inv s) (hx : Tame s p x) (h : s.Closed) : (s.put p x).Closed := by
  refine ⟨fun q => ?_, fun e he => ?_⟩
  · rcases h.1 q with hq | hq | hq
    · exact .inl (hx.put_spent hq)
    · rcases hx.put_barred hinv hq with hb | hb
      · exact .inr (.inl hb)
      · exact .inl hb.1
    · exact .inr (.inr (hx.put_gone hq))
  · obtain ⟨q, heq, hq | hq⟩ := h.2 e he
    · rcases hx.put_barred hinv hq with hb | hb
      · exact ⟨q, heq, .inl hb⟩
      · exact absurd he (hb.2 e)
    · exact ⟨q, heq, .inr (hx.put_gone hq)⟩

theorem Inv.put (h : Inv s) (hx : Tame s p x) : Inv (s.put p x) where
  active_running := by
    intro q
    by_cases hq : q = p
    · rw [hq, put_self]
      exact hx.active_running
    · rw [put_other hq]
      exact h.active_running q
  running_status := by
    intro q
    by_cases hq : q = p
    · rw [hq, put_self]
      exact hx.running_status
    · rw [put_other hq]
      exact h.running_status q
  engaged := by
    -- Only a process that had the write has it now.
    have hold : ∀ q, ((s.put p x).sources q).stage ≠ .absent → (s.sources q).stage ≠ .absent := by
      intro q hq habsent
      by_cases hqp : q = p
      · rw [hqp] at habsent hq
        rw [put_self] at hq
        exact hq (hx.stage habsent)
      · rw [put_other hqp] at hq
        exact hq habsent
    intro q hq
    obtain ⟨hone, hknown, hack⟩ := h.engaged q (hold q hq)
    exact ⟨fun r hr => hone r (hold r hr), hknown, hack⟩
  one_start := h.one_start
  one_refusal := h.one_refusal
  started := by
    intro e he
    obtain ⟨hclaim, hrest⟩ := h.started e he
    exact ⟨hx.unclaimed hclaim, hrest⟩
  refusal := by
    intro q b hq
    obtain ⟨hclaim, hans⟩ := h.refusal q b hq
    exact ⟨hx.unclaimed hclaim, hans⟩
  answered := fun n hn hterminal q => hx.put_spent (h.answered n hn hterminal q)
  retrying := by
    intro ev hev hretry
    obtain ⟨hclaim, hrest⟩ := h.retrying ev hev hretry
    exact ⟨hx.unclaimed hclaim, hrest⟩
  refused := fun ev hev hretry => hx.closed h (h.refused ev hev hretry)
  finished := fun hf => hx.closed h (h.finished hf)
  fresh := by
    intro hf
    obtain ⟨hclaim, hrest⟩ := h.fresh hf
    exact ⟨hx.unclaimed hclaim, hrest⟩
  probes := h.probes
  probe_acks := by
    intro q b d hq
    obtain ⟨hpast, hfence, hdead⟩ := h.probe_acks q b d hq
    refine ⟨hpast, fun hb => ?_, fun y hy => hx.put_gone (hdead y hy)⟩
    rcases hfence hb with hf | hf | ⟨hf, hnone⟩
    · rcases hx.put_barred h hf with hb | hb
      · exact .inl hb
      · exact .inr (.inr hb)
    · exact .inr (.inl (hx.put_gone hf))
    · exact .inr (.inr ⟨hx.put_spent hf, hnone⟩)
  dead := by
    intro q y hy
    by_cases hq : q = p
    · rw [hq, put_self] at hy
      exact hx.put_gone (hx.dead y hy)
    · rw [put_other hq] at hy
      exact hx.put_gone (h.dead q y hy)
  fences := by
    intro q
    by_cases hq : q = p
    · rw [hq, put_self]
      exact hx.fence
    · rw [put_other hq]
      exact h.fences q

end Put

/-! ### More under way -/

section Emit

variable {s : System}

/-- A warning changes nothing. -/
theorem Inv.warn (h : Inv s) {ns : List WriteDone} (hns : ∀ n ∈ ns, n.terminal = false)
    (hfresh : ns = [] ∨ s.target.state ≠ .START_WRITE) :
    Inv { s with notifications := s.notifications ++ ns } := by
  have hunanswered : s.Unanswered →
      System.Unanswered { s with notifications := s.notifications ++ ns } := by
    intro hu n hn
    rcases List.mem_append.mp hn with hn | hn
    · exact hu n hn
    · exact hns n hn
  exact
    { h with
      started := by
        intro e he
        obtain ⟨hclaim, hans, hrest⟩ := h.started e he
        exact ⟨hclaim, hunanswered hans, hrest⟩
      refusal := by
        intro q b hq
        obtain ⟨hclaim, hans⟩ := h.refusal q b hq
        exact ⟨hclaim, hans.imp_left hunanswered⟩
      answered := by
        intro n hn hterminal
        rcases List.mem_append.mp hn with hn | hn
        · exact h.answered n hn hterminal
        · rw [hns n hn] at hterminal
          cases hterminal
      retrying := by
        intro ev hev hretry
        obtain ⟨hclaim, hans, hrest⟩ := h.retrying ev hev hretry
        exact ⟨hclaim, hunanswered hans, hrest⟩
      fresh := by
        intro hf
        obtain ⟨hclaim, hn, hrest⟩ := h.fresh hf
        rcases hfresh with rfl | hstate
        · exact ⟨hclaim, by simpa using hn, hrest⟩
        · exact absurd hf hstate }

/-- Notifications that may end the pull, once every process is done with it. -/
theorem Inv.answer (h : Inv s) (ns : List WriteDone) (hspent : ∀ p, (s.sources p).Spent)
    (hstart : ∀ e, .start_write e ∉ s.control)
    (hrefusal : (∀ q b, .write_refused q b ∉ s.control) ∨ s.Past)
    (hretry : ∀ ev, s.refused = some ev → ev.retry_metadata = none)
    (hstate : s.target.state ≠ .START_WRITE) :
    Inv { s with notifications := s.notifications ++ ns } :=
  { h with
    started := fun e he => absurd he (hstart e)
    refusal := fun q b hq =>
      ⟨(h.refusal q b hq).1, hrefusal.imp (fun hnone => absurd hq (hnone q b)) id⟩
    answered := fun _ _ _ => hspent
    retrying := by
      intro ev hev hr
      rw [hretry ev hev] at hr
      cases hr
    fresh := fun hf => absurd hf hstate }

/-- What allows a message other than the request to go out. -/
structure Sendable (s : System) (m : Message) : Prop where
  started : s.target.state ≠ .START_WRITE
  not_start : ∀ e, m ≠ .start_write e
  ack : ∀ q, m = .metadata_ack q → s.Unclaimed ∧ ∀ e, .start_write e ∉ s.control
  refusal : ∀ q b, m = .write_refused q b → s.Unclaimed ∧ s.Unanswered ∧
    (∀ e, .start_write e ∉ s.control) ∧ (∀ q b, .write_refused q b ∉ s.control) ∧
    ∀ ev, s.refused = some ev → ev.retry_metadata = none
  probe : ∀ e, m = .write_probe e → s.Past
  probe_ack : ∀ q b d, m = .write_probe_ack q b d →
    s.Past ∧ (b = true → s.Fenced q) ∧ ∀ x, d = some x → (s.sources x).Gone

theorem mem_send {m x : Message} (h : x ∈ (s.send m).control) : x ∈ s.control ∨ m = x := by
  rcases List.mem_append.mp h with h | h
  · exact .inl h
  · exact .inr (List.mem_singleton.mp h).symm

theorem Inv.send (h : Inv s) {m : Message} (hm : Sendable s m) : Inv (s.send m) := by
  have hstart : ∀ e, .start_write e ∈ (s.send m).control → .start_write e ∈ s.control := by
    intro e he
    exact (mem_send he).resolve_right (hm.not_start e)
  have hclosed : s.Closed → (s.send m).Closed := fun hc => ⟨hc.1, fun e he => hc.2 e (hstart e he)⟩
  have hfenced : ∀ q, s.Fenced q → (s.send m).Fenced q := by
    rintro q (hf | hf | ⟨hf, hnone⟩)
    · exact .inl hf
    · exact .inr (.inl hf)
    · exact .inr (.inr ⟨hf, fun e he => hnone e (hstart e he)⟩)
  exact
    { active_running := h.active_running
      running_status := h.running_status
      engaged := by
        intro p hp
        obtain ⟨hone, hknown, hack⟩ := h.engaged p hp
        refine ⟨hone, hknown, fun q hq hnone => ?_⟩
        rcases mem_send hq with hq | rfl
        · exact hack q hq hnone
        · exact absurd ((hm.ack q rfl).1 p) hp
      one_start := by
        have hnot : m.is_start = false := by
          cases m with
          | start_write e => exact absurd rfl (hm.not_start e)
          | _ => rfl
        simpa [System.send, hnot] using h.one_start
      one_refusal := by
        cases hrefusal : m.is_refusal with
        | false => simpa [System.send, hrefusal] using h.one_refusal
        | true =>
          cases m with
          | write_refused q b =>
            have hnone : s.control.countP Message.is_refusal = 0 := by
              rw [List.countP_eq_zero]
              intro x hx
              cases x with
              | write_refused q' b' => exact absurd hx ((hm.refusal q b rfl).2.2.2.1 q' b')
              | _ => simp [Message.is_refusal]
            simp [System.send, Message.is_refusal, hnone]
          | _ => cases hrefusal
      started := by
        intro e he
        obtain ⟨hclaim, hans, href, heq, hack⟩ := h.started e (hstart e he)
        refine ⟨hclaim, hans, fun q b hq => ?_, heq, fun hn q hq => ?_⟩
        · rcases mem_send hq with hq | rfl
          · exact href q b hq
          · exact (hm.refusal q b rfl).2.2.1 e (hstart e he)
        · rcases mem_send hq with hq | rfl
          · exact hack hn q hq
          · exact (hm.ack q rfl).2 e (hstart e he)
      refusal := by
        intro q b hq
        rcases mem_send hq with hq | rfl
        · exact h.refusal q b hq
        · exact ⟨(hm.refusal q b rfl).1, .inl (hm.refusal q b rfl).2.1⟩
      answered := h.answered
      retrying := by
        intro ev hev hretry
        obtain ⟨hclaim, hans, hnone, href, hstate⟩ := h.retrying ev hev hretry
        refine ⟨hclaim, hans, fun e he => hnone e (hstart e he), fun q b hq => ?_, hstate⟩
        rcases mem_send hq with hq | rfl
        · exact href q b hq
        · rw [(hm.refusal q b rfl).2.2.2.2 ev hev] at hretry
          cases hretry
      refused := fun ev hev hretry => hclosed (h.refused ev hev hretry)
      finished := fun hf => hclosed (h.finished hf)
      fresh := fun hf => absurd hf hm.started
      probes := by
        intro e he
        rcases mem_send he with he | rfl
        · exact h.probes e he
        · exact hm.probe e rfl
      probe_acks := by
        intro q b d hq
        have hold : s.Past ∧ (b = true → s.Fenced q) ∧ ∀ x, d = some x → (s.sources x).Gone := by
          rcases mem_send hq with hq | rfl
          · exact h.probe_acks q b d hq
          · exact hm.probe_ack q b d rfl
        exact ⟨hold.1, fun hb => hfenced q (hold.2.1 hb), hold.2.2⟩
      dead := h.dead
      fences := h.fences }

/-- The target probes. -/
theorem Inv.send_probe (h : Inv s) (hpast : s.Past) (e : Option String) :
    Inv (s.send (.write_probe e)) :=
  h.send
    { started := hpast.1
      not_start := by simp
      ack := by simp
      refusal := by simp
      probe := fun _ _ => hpast
      probe_ack := by simp }

/-- The answer to a probe goes out. -/
theorem Inv.send_probe_ack (h : Inv s) (hpast : s.Past) {p : String} {terminal : Bool}
    {dead : Option String} (hfence : terminal = true → s.Fenced p)
    (hdead : ∀ x, dead = some x → (s.sources x).Gone) :
    Inv (s.send (.write_probe_ack p terminal dead)) := by
  refine h.send
    { started := hpast.1
      not_start := by simp
      ack := by simp
      refusal := by simp
      probe := by simp
      probe_ack := ?_ }
  intro q b d hq
  obtain ⟨rfl, rfl, rfl⟩ : p = q ∧ terminal = b ∧ dead = d := by simpa using hq
  exact ⟨hpast, hfence, hdead⟩

end Emit

end Kvcr.Protocol
