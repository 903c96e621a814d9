/-
The transition slot of a Guard.

`_reserved` is set on caller threads and cleared on the actor. Two things make it hard to
say whose it is. A release or an abort that arrives during a promotion is queued without
it, and takes it only when it is dispatched; and a command whose lease has gone stale by
then is answered without touching it. So the relation is with everything that is on its way
to the actor: an actor in a transition holds the slot for the phase it is in, and while it is
in none, a slot that is taken belongs either to a claim under way or to a release or an abort
under way whose lease is still current. A lease goes stale only in a transition, and every
transition ends by clearing the slot, so a stale command has none left to give back.

This holds with heartbeat promotion too. Fencing a primary that stopped beating reserves the
promotion and then leaves the lease current, so the commands queued in between are the ones
that are not stale. `Beating` adds it to the transitions of `System`.
-/
import Kvcr.GuardSafety

set_option autoImplicit false

namespace Kvcr.Guard

open Prog

/-! ## Heartbeat promotion -/

section Beating

variable (setting : Setting)

/-- A transition of anybody but the actor. -/
inductive Beside : System → System → Prop where
  | claim {sys sys' : System} (liveness : Lease) (tier_config : TierConfig) (bind : Address)
      (alive : Bool) (hlock : sys.locked = false)
      (h : sys.claim setting liveness tier_config bind alive = .ok sys') : Beside sys sys'
  | release {sys sys' : System} (lease : Lease) (hlock : sys.locked = false)
      (h : sys.release setting lease = .ok sys') : Beside sys sys'
  | abort_grant {sys sys' : System} (lease : Lease) (hlock : sys.locked = false)
      (h : sys.abort_grant setting lease = .ok sys') : Beside sys sys'
  | begin_close {sys : System} (o : Oracle) (hlock : sys.locked = false) :
      Beside sys (sys.begin_close o)
  | put {sys : System} (index : Nat) : Beside sys (sys.put index)
  | refuse_claims {sys : System} : Beside sys { sys with refusing := true }
  | refused {sys : System} (hlock : sys.locked = false) (hset : sys.refusing = true) :
      Beside sys { sys with refused := true }
  | prepared {sys : System} :
      Beside sys { sys with own.core := sys.own.core.map GuardCore.ready }
  | orphan_prepared {sys : System} (index : Nat) :
      Beside sys { sys with own.orphans := sys.own.orphans.modify index GuardCore.ready }
  | memory {sys : System} (journal : JournalReader) (region : List UInt8) :
      Beside sys
        { sys with own.recovery.journal := journal, own.recovery.region := region }

theorem Beside.step {sys sys' : System} (h : Beside setting sys sys') :
    System.Step setting sys sys' := by
  cases h with
  | claim liveness tier_config bind alive hlock h =>
    exact .claim liveness tier_config bind alive hlock h
  | release lease hlock h => exact .release lease hlock h
  | abort_grant lease hlock h => exact .abort_grant lease hlock h
  | begin_close o hlock => exact .begin_close o hlock
  | put index => exact .put index
  | refuse_claims => exact .refuse_claims
  | refused hlock hset => exact .refused hlock hset
  | prepared => exact .prepared
  | orphan_prepared index => exact .orphan_prepared index
  | memory journal region => exact .memory journal region

/-- Either the actor moves or somebody beside it does. -/
theorem System.Step.beside_or_act {sys sys' : System} (h : System.Step setting sys sys') :
    Beside setting sys sys' ∨ ∃ o poll, sys.act setting o poll = some sys' := by
  cases h with
  | claim liveness tier_config bind alive hlock h =>
    exact .inl (.claim liveness tier_config bind alive hlock h)
  | release lease hlock h => exact .inl (.release lease hlock h)
  | abort_grant lease hlock h => exact .inl (.abort_grant lease hlock h)
  | begin_close o hlock => exact .inl (.begin_close o hlock)
  | put index => exact .inl (.put index)
  | refuse_claims => exact .inl .refuse_claims
  | refused hlock hset => exact .inl (.refused hlock hset)
  | prepared => exact .inl .prepared
  | orphan_prepared index => exact .inl (.orphan_prepared index)
  | memory journal region => exact .inl (.memory journal region)
  | act o poll h => exact .inr ⟨o, poll, h⟩

/-- A Guard with a heartbeat timeout: `fencing` is the lease `_observe_holder` has reserved
the promotion of, with nothing from its pidfd. The actor stands where it polled. -/
structure Beating where
  sys : System
  fencing : Option Lease := none

/-- One transition of anybody, with heartbeats. -/
inductive Beating.Step : Beating → Beating → Prop where
  | step {b : Beating} {sys' : System} (hfree : b.fencing = none)
      (h : System.Step setting b.sys sys') : Step b { b with sys := sys' }
  | beside {b : Beating} {sys' : System} (h : Beside setting b.sys sys') :
      Step b { b with sys := sys' }
  /-- The last beat is too long ago. Beats are recorded only while nobody is served. -/
  | missed {b : Beating} (lease : Lease) (hfree : b.fencing = none)
      (hpolled : b.sys.actor = .polled lease none)
      (hcurrent : b.sys.shared.current = some lease) (hreserved : b.sys.shared.reserved = none)
      (hclosing : b.sys.shared.closing = false) (hserving : b.sys.own.serving = false) :
      Step b { sys := { b.sys with shared.reserved := some .PROMOTING }, fencing := some lease }
  /-- `_fence_missing_primary` leaves the primary alone. -/
  | unfenced {b : Beating} (lease : Lease) (hfencing : b.fencing = some lease) :
      Step b { sys := { b.sys with actor := .finish .death none } }
  /-- It kills it: `_promote`, with the lease left current. -/
  | fenced {b : Beating} (lease : Lease) (o : Oracle) (hfencing : b.fencing = some lease) :
      Step b
        { sys := b.sys.segment (Segment.promote setting o b.sys.shared.failure)
            (fun () => .finish .death none) fun e => .fail e (.finish .death none) }

/-- The states of a Guard that has started, with heartbeats. -/
inductive Beating.Reachable : Beating → Prop where
  | started (region : List UInt8) : Reachable { sys := System.started region }
  | step {b b' : Beating} (h : Reachable b) (hstep : Beating.Step setting b b') : Reachable b'

end Beating

/-! ## Whose the slot is -/

/-- The lease a command is to end. -/
def Command.ended : Command → Option Lease
  | .release lease | .abort lease => some lease
  | .claim .. | .close => none

/-- What the slot reads while a command runs. -/
def Command.slot : Command → Option Phase
  | .claim .. => some .CLAIMING
  | .release _ | .abort _ => some .RELEASING
  | .close => none

/-- What it reads during `_promote_for`. -/
def Origin.slot : Origin → Phase
  | .death => .PROMOTING
  | .command _ => .RELEASING

namespace Actor

/-- What the slot reads where the actor stands, as far as that says it. -/
def slot : Actor → Option Phase
  | .promoting .. => some .PROMOTING
  | .dispatched c => if c.is_claim then c.slot else none
  | .running c => c.slot
  | .adopting .. | .adopted .. | .committing .. | .refused .. | .refused_idle ..
    | .claim_failed .. => some .CLAIMING
  | .promote origin _ | .promoted origin .. | .standby origin => some origin.slot
  | .stand_down .. | .stood_down .. | .idle _ => some .RELEASING
  | .fail _ next => next.slot
  | .loop | .observing _ | .polled .. | .polling | .closed _ | .finish .. | .stopping
    | .stopped => none

/-- A command that has been taken off the mailbox and not looked at. -/
def taken : Actor → List Command
  | .dispatched c => [c]
  | _ => []

/-- Only a claim is adopted. -/
def adopts_claim : Actor → Bool
  | .adopting c _ => c.is_claim
  | .fail _ next => next.adopts_claim
  | _ => true

end Actor

/-- The commands on their way to the actor. -/
def System.pending (sys : System) : List Command :=
  sys.actor.taken ++ sys.submitting ++ sys.commands

/-- The slot is free, or somebody on the way to the actor has it. -/
inductive Held (sys : System) : Prop where
  | free (h : sys.shared.reserved = none)
  | claim (h : sys.shared.reserved = some .CLAIMING) (hqueued : sys.queued_claims ≠ 0)
  | ending (h : sys.shared.reserved = some .RELEASING) (c : Command) (lease : Lease)
      (hpending : c ∈ sys.pending) (hended : c.ended = some lease)
      (hcurrent : sys.shared.current = some lease)

/-- Whose the slot is, while the actor has not begun to close. -/
structure Slot (sys : System) : Prop where
  /-- the actor's, in a transition -/
  mine : ∀ phase, sys.actor.slot = some phase → sys.shared.reserved = some phase
  /-- or that of somebody on the way to it -/
  held : sys.actor.owns = false → Held sys
  adopts : sys.actor.adopts_claim = true

section Moves

variable {setting : Setting} {sys sys' : System}

/-- What is under way can only grow. -/
theorem Held.mono (h : Held sys) (hreserved : sys'.shared.reserved = sys.shared.reserved)
    (hcurrent : sys'.shared.current = sys.shared.current)
    (hqueued : sys.queued_claims ≠ 0 → sys'.queued_claims ≠ 0)
    (hpending : ∀ c lease, c ∈ sys.pending → c.ended = some lease →
      sys.shared.current = some lease → c ∈ sys'.pending) : Held sys' := by
  cases h with
  | free h => exact .free (hreserved.trans h)
  | claim h hclaims => exact .claim (hreserved.trans h) (hqueued hclaims)
  | ending h c lease hmem hended hholder =>
    exact .ending (hreserved.trans h) c lease (hpending c lease hmem hended hholder) hended
      (hcurrent.trans hholder)

/-- The actor goes on within a transition. -/
theorem Slot.within (h : Slot sys) (hreserved : sys'.shared.reserved = sys.shared.reserved)
    (hslot : sys'.actor.slot = none ∨ sys'.actor.slot = sys.actor.slot)
    (howns : sys'.actor.owns = true) (hadopts : sys'.actor.adopts_claim = true) : Slot sys' where
  mine := by
    intro phase hphase
    rcases hslot with hslot | hslot
    · rw [hslot] at hphase
      cases hphase
    · exact hreserved.trans (h.mine phase (hslot ▸ hphase))
  held := fun hfree => by
    rw [howns] at hfree
    cases hfree
  adopts := hadopts

/-- The actor begins a transition. -/
theorem Slot.enter {phase : Phase} (hslot : sys'.actor.slot = some phase)
    (hreserved : sys'.shared.reserved = some phase) (howns : sys'.actor.owns = true)
    (hadopts : sys'.actor.adopts_claim = true) : Slot sys' where
  mine := by
    intro other hother
    rw [hslot] at hother
    exact hreserved.trans hother
  held := fun hfree => by
    rw [howns] at hfree
    cases hfree
  adopts := hadopts

/-- The actor ends a transition. -/
theorem Slot.leave (hslot : sys'.actor.slot = none) (hreserved : sys'.shared.reserved = none)
    (hadopts : sys'.actor.adopts_claim = true) : Slot sys' where
  mine := by
    intro phase hphase
    rw [hslot] at hphase
    cases hphase
  held := fun _ => .free hreserved
  adopts := hadopts

/-- The actor goes on outside of transitions. -/
theorem Slot.outside (h : Slot sys) (howns : sys.actor.owns = false)
    (hreserved : sys'.shared.reserved = sys.shared.reserved)
    (hcurrent : sys'.shared.current = sys.shared.current)
    (hqueued : sys'.queued_claims = sys.queued_claims)
    (hpending : ∀ c lease, c ∈ sys.pending → c.ended = some lease →
      sys.shared.current = some lease → c ∈ sys'.pending)
    (hslot : sys'.actor.slot = none) (hadopts : sys'.actor.adopts_claim = true) : Slot sys' where
  mine := by
    intro phase hphase
    rw [hslot] at hphase
    cases hphase
  held := fun _ => (h.held howns).mono hreserved hcurrent (fun hne => hqueued ▸ hne) hpending
  adopts := hadopts

/-- Somebody beside the actor does something. -/
theorem Slot.beside (h : Slot sys) (hactor : sys'.actor = sys.actor)
    (hreserved : sys'.shared.reserved = sys.shared.reserved)
    (hcurrent : sys'.shared.current = sys.shared.current)
    (hqueued : sys.queued_claims ≠ 0 → sys'.queued_claims ≠ 0)
    (hpending : ∀ c, c ∈ sys.pending → c ∈ sys'.pending) : Slot sys' where
  mine := by
    intro phase hphase
    rw [hactor] at hphase
    exact hreserved.trans (h.mine phase hphase)
  held := by
    intro hfree
    rw [hactor] at hfree
    exact (h.held hfree).mono hreserved hcurrent hqueued fun c _ hmem _ _ => hpending c hmem
  adopts := by
    rw [hactor]
    exact h.adopts

/-- A caller takes the free slot. -/
theorem Slot.reserve (h : Slot sys) (hactor : sys'.actor = sys.actor)
    (hfree : sys.shared.reserved = none) (hheld : Held sys') : Slot sys' where
  mine := by
    intro phase hphase
    rw [hactor] at hphase
    have := h.mine phase hphase
    rw [hfree] at this
    cases this
  held := fun _ => hheld
  adopts := by
    rw [hactor]
    exact h.adopts

/-- The actor stands where a segment's outcome says. -/
theorem Slot.segment {α : Type} {p : Segment α} {ok : α → Actor} {error : GuardError → Actor}
    (h : sys.actor.ends = false → Slot sys)
    (hok : ∀ a own, (ok a).ends = false → Slot { sys with own := own, actor := ok a })
    (herror : ∀ e own, (error e).ends = false → Slot { sys with own := own, actor := error e }) :
    (sys.segment p ok error).actor.ends = false → Slot (sys.segment p ok error) := by
  unfold System.segment
  split
  · exact hok _ _
  · exact herror _ _
  · exact h

end Moves

/-! ## Callers -/

section Callers

variable {setting : Setting} {sys sys' : System}

theorem mem_pending_accept {c d : Command} (h : d ∈ sys.pending) : d ∈ (sys.accept c).pending := by
  simp only [System.pending, System.accept, List.mem_append, List.mem_singleton] at h ⊢
  tauto

theorem accept_mem_pending (sys : System) (c : Command) : c ∈ (sys.accept c).pending := by
  simp only [System.pending, System.accept, List.mem_append, List.mem_singleton]
  tauto

theorem queued_accept_ne_zero {c : Command} (h : sys.queued_claims ≠ 0) :
    (sys.accept c).queued_claims ≠ 0 := by
  rw [queued_accept]
  omega

/-- A claim that is let through found the slot free, and has it. -/
theorem reserve_claim_ok {c : Command} {alive : Bool}
    (hok : sys.reserve_claim setting c alive = .ok sys') :
    sys.shared.reserved = none ∧
      sys' = { sys.accept c with shared.reserved := some .CLAIMING } := by
  unfold System.reserve_claim at hok
  split at hok
  · cases hok
  split at hok
  · cases hok
  split at hok
  · cases hok
  rename_i hnone
  split at hok
  · split at hok <;> cases hok
  split at hok
  · cases hok
  cases hok
  exact ⟨Option.not_isSome_iff_eq_none.mp hnone, rfl⟩

theorem slot_claim {liveness : Lease} {tier_config : TierConfig} {bind : Address} {alive : Bool}
    (h : Slot sys) (hok : sys.claim setting liveness tier_config bind alive = .ok sys') :
    Slot sys' := by
  obtain ⟨hfree, rfl⟩ := reserve_claim_ok hok
  refine h.reserve rfl hfree (.claim rfl ?_)
  change (sys.accept (.claim liveness tier_config bind)).queued_claims ≠ 0
  rw [queued_accept]
  exact Nat.succ_ne_zero _

/-- A release or an abort takes the slot if it is free, and is queued without it during a
promotion. -/
theorem slot_end_lease {lease : Lease} {c : Command} (h : Slot sys) (hc : c.ended = some lease)
    (hok : sys.end_lease setting lease c = .ok sys') : Slot sys' := by
  unfold System.end_lease at hok
  split at hok
  · cases hok
    exact h
  rename_i hcurrent
  rw [not_or, not_not] at hcurrent
  split at hok
  · rename_i hfree
    cases hok
    exact h.reserve rfl hfree (.ending rfl c lease (accept_mem_pending sys c) hc hcurrent.2)
  · cases hok
    exact h.beside rfl rfl rfl queued_accept_ne_zero fun _ => mem_pending_accept
  · cases hok

theorem mem_pending_put (index : Nat) {c : Command} (h : c ∈ sys.pending) :
    c ∈ (sys.put index).pending := by
  unfold System.put
  split
  · exact h
  · rename_i d hget
    obtain ⟨hlt, hd⟩ := List.getElem?_eq_some_iff.mp hget
    have hperm := List.getElem_cons_eraseIdx_perm hlt
    rw [hd] at hperm
    have hsplit : c ∈ sys.submitting → c = d ∨ c ∈ sys.submitting.eraseIdx index := fun hmem =>
      List.mem_cons.mp (hperm.symm.subset hmem)
    simp only [System.pending, List.mem_append, List.mem_singleton] at h ⊢
    tauto

theorem queued_put (index : Nat) : (sys.put index).queued_claims = sys.queued_claims := by
  unfold System.put
  split
  · rfl
  · rename_i c hget
    obtain ⟨hlt, hc⟩ := List.getElem?_eq_some_iff.mp hget
    have hperm := (List.getElem_cons_eraseIdx_perm hlt).countP_eq Command.is_claim
    rw [hc] at hperm
    simp only [System.queued_claims, List.countP_append, List.countP_cons, List.countP_nil] at *
    omega

theorem put_frame (sys : System) (index : Nat) :
    (sys.put index).actor = sys.actor ∧ (sys.put index).shared = sys.shared := by
  unfold System.put
  split <;> exact ⟨rfl, rfl⟩

/-- Nobody beside the actor touches a slot that is taken, or moves the actor. -/
theorem Beside.reserved_kept (hstep : Beside setting sys sys')
    (htaken : sys.shared.reserved ≠ none) :
    sys'.shared.reserved = sys.shared.reserved := by
  cases hstep with
  | claim liveness tier_config bind alive hlock hok =>
    exact absurd (reserve_claim_ok hok).1 htaken
  | release lease hlock hok | abort_grant lease hlock hok =>
    dsimp only [System.release, System.abort_grant] at hok
    unfold System.end_lease at hok
    split at hok
    · cases hok
      rfl
    split at hok
    · rename_i hfree
      exact absurd hfree htaken
    · cases hok
      rfl
    · cases hok
  | begin_close o hlock =>
    unfold System.begin_close
    split
    · dsimp only
      split
      · rfl
      · obtain ⟨own, current, -, hframe⟩ :=
          close_resources_frame { sys with shared.closing := true } o
        split <;> rename_i hclose <;> rw [hclose] at hframe <;> subst hframe <;> rfl
    · split <;> rfl
  | put index => rw [(put_frame sys index).2]
  | refuse_claims | refused | prepared | orphan_prepared | memory => rfl

theorem Beside.actor_kept (hstep : Beside setting sys sys') : sys'.actor = sys.actor := by
  cases hstep with
  | claim liveness tier_config bind alive hlock hok =>
    obtain ⟨-, rfl⟩ := reserve_claim_ok hok
    rfl
  | release lease hlock hok | abort_grant lease hlock hok =>
    dsimp only [System.release, System.abort_grant] at hok
    unfold System.end_lease at hok
    split at hok
    · cases hok
      rfl
    split at hok
    · cases hok
      rfl
    · cases hok
      rfl
    · cases hok
  | begin_close o hlock =>
    unfold System.begin_close
    split
    · dsimp only
      split
      · rfl
      · obtain ⟨own, current, -, hframe⟩ :=
          close_resources_frame { sys with shared.closing := true } o
        split <;> rename_i hclose <;> rw [hclose] at hframe <;> subst hframe <;> rfl
    · split <;> rfl
  | put index => exact (put_frame sys index).1
  | refuse_claims | refused | prepared | orphan_prepared | memory => rfl

/-- Callers keep the slot's owner known. -/
theorem slot_beside (h : sys.actor.ends = false → Slot sys) (hstep : Beside setting sys sys')
    (hends : sys'.actor.ends = false) : Slot sys' := by
  rw [hstep.actor_kept] at hends
  have hslot := h hends
  cases hstep with
  | claim liveness tier_config bind alive hlock hok => exact slot_claim hslot hok
  | release lease hlock hok | abort_grant lease hlock hok =>
    exact slot_end_lease hslot rfl hok
  | begin_close o hlock =>
    unfold System.begin_close
    split
    · rename_i hactor
      rw [hactor] at hends
      cases hends
    · split
      · exact hslot
      · exact hslot.beside rfl rfl rfl queued_accept_ne_zero fun _ => mem_pending_accept
  | put index =>
    obtain ⟨hactor, hshared⟩ := put_frame sys index
    refine hslot.beside hactor (by rw [hshared]) (by rw [hshared]) ?_ fun _ => mem_pending_put index
    rw [queued_put]
    exact id
  | refuse_claims | refused | prepared | orphan_prepared | memory =>
    exact hslot.beside rfl rfl rfl id fun _ hmem => hmem

end Callers

/-! ## The actor -/

section Actor

variable {setting : Setting} {sys sys' : System}

/-- A command is taken off the mailbox: a claim enters its transition, and the others are
only looked at. -/
theorem slot_take (hinv : Inv sys) (h : Slot sys) (hactor : sys.actor = .loop) {c : Command}
    {commands : List Command} (hcommands : sys.commands = c :: commands) :
    Slot { sys with commands := commands, actor := .dispatched c } := by
  by_cases hclaim : c.is_claim = true
  · have hqueued : sys.queued_claims ≠ 0 := by
      simp only [System.queued_claims, hcommands, List.countP_cons, hclaim, if_true]
      omega
    have hreserved := hinv.reserved (by rw [hactor]; rfl)
    obtain ⟨-, -, hclaiming, -⟩ := hreserved.claims hqueued
    cases c with
    | claim => exact .enter rfl hclaiming rfl rfl
    | release | abort | close => cases hclaim
  · refine h.outside (by rw [hactor]; rfl) rfl rfl ?_ ?_ (if_neg hclaim) rfl
    · simp [System.queued_claims, hcommands, hclaim]
    · intro d lease hmem _ _
      simp only [System.pending, Actor.taken, hactor, hcommands, List.mem_append, List.mem_cons,
        List.not_mem_nil, or_false, false_or] at hmem ⊢
      tauto

/-- A stale command is not the one the slot is held for. -/
theorem slot_stale (h : Slot sys) {c : Command} {lease : Lease} (hactor : sys.actor = .dispatched c)
    (hc : c.ended = some lease) (hstale : sys.shared.current ≠ some lease) :
    Slot { sys with actor := .loop } := by
  have howns : sys.actor.owns = false := by
    rw [hactor]
    cases c with
    | claim | close => cases hc
    | release | abort => rfl
  refine h.outside howns rfl rfl rfl ?_ rfl rfl
  intro d holder hmem hended hcurrent
  simp only [System.pending, Actor.taken, hactor, List.mem_append, List.mem_singleton] at hmem ⊢
  rcases hmem with (rfl | hmem) | hmem
  · rw [hc] at hended
    cases hended
    exact absurd hcurrent hstale
  · exact .inl (.inr hmem)
  · exact .inr hmem

theorem slot_run_command (h : Slot sys) (o : Oracle) {c : Command}
    (hactor : sys.actor = .running c) (hends : (sys.run_command setting o c).actor.ends = false) :
    Slot (sys.run_command setting o c) := by
  cases c with
  | claim liveness tier_config address =>
    refine Slot.segment (fun _ => h) ?_ (fun e own _ => ?_) hends
    · rintro ⟨outcome, bound_here⟩ own _
      cases outcome with
      | ok bound => exact h.within rfl (.inr (by rw [hactor]; rfl)) rfl rfl
      | error e => exact h.within rfl (.inr (by rw [hactor]; rfl)) rfl rfl
    · exact h.within rfl (.inl rfl) rfl rfl
  | release lease => exact h.within rfl (.inr (by rw [hactor]; rfl)) rfl rfl
  | abort lease =>
    dsimp only [System.run_command]
    split
    · exact h.within rfl (.inr (by rw [hactor]; rfl)) rfl rfl
    · exact h.within rfl (.inr (by rw [hactor]; rfl)) rfl rfl
  | close =>
    unfold System.run_command at hends
    dsimp only at hends
    split at hends <;> cases hends

theorem slot_finish (origin : Origin) (error : Option GuardError)
    (hends : (sys.finish origin error).actor.ends = false) : Slot (sys.finish origin error) := by
  unfold System.finish at hends ⊢
  dsimp only at hends ⊢
  split
  · exact .leave rfl rfl rfl
  · cases hends
  · cases hends
  · exact .leave rfl rfl rfl

theorem clear_if_current_reserved (sys : System) (lease : Lease) :
    (sys.clear_if_current lease).shared.reserved = sys.shared.reserved := by
  unfold System.clear_if_current
  split <;> rfl

/-- One transition of the actor keeps the slot's owner known. -/
theorem slot_act (hinv : Inv sys) (h : sys.actor.ends = false → Slot sys) {o : Oracle}
    {poll : Poll} (hstep : sys.act setting o poll = some sys')
    (hends : sys'.actor.ends = false) : Slot sys' := by
  unfold System.act at hstep
  cases hactor : sys.actor with
  | loop =>
    have hslot := h (by rw [hactor]; rfl)
    have hgo : ∀ a : Actor, a.slot = none → a.adopts_claim = true →
        Slot { sys with actor := a } := fun a ha hadopts =>
      hslot.outside (by rw [hactor]; rfl) rfl rfl rfl (fun c _ hmem _ _ => by
        simp only [System.pending, Actor.taken, hactor, List.nil_append, List.mem_append] at hmem ⊢
        tauto) ha hadopts
    rw [hactor] at hstep
    dsimp only at hstep
    split at hstep
    · rename_i c commands hcommands
      cases hstep
      exact slot_take hinv hslot hactor hcommands
    · split at hstep <;> cases hstep <;> exact hgo _ rfl rfl
  | observing lease =>
    have hslot := h (by rw [hactor]; rfl)
    rw [hactor] at hstep
    cases lease with
    | none =>
      cases hstep
      cases hends
    | some lease =>
      cases poll with
      | raised =>
        cases hstep
        cases hends
      | silent | events =>
        cases hstep
        exact hslot.outside (by rw [hactor]; rfl) rfl rfl rfl
          (fun c _ hmem _ _ => by simpa [System.pending, Actor.taken, hactor] using hmem) rfl rfl
  | polled lease flags =>
    have hslot := h (by rw [hactor]; rfl)
    have hgo : Slot { sys with actor := .polling } :=
      hslot.outside (by rw [hactor]; rfl) rfl rfl rfl
        (fun c _ hmem _ _ => by simpa [System.pending, Actor.taken, hactor] using hmem) rfl rfl
    rw [hactor] at hstep
    dsimp only at hstep
    split at hstep
    · cases hstep
      exact hgo
    split at hstep
    · cases hstep
      exact hgo
    · cases hstep
      exact .enter rfl rfl rfl rfl
  | promoting lease pollin =>
    have hslot := h (by rw [hactor]; rfl)
    rw [hactor] at hstep
    dsimp only at hstep
    split at hstep
    · cases hstep
      exact hslot.within rfl (.inr (by rw [hactor]; rfl)) rfl rfl
    · cases hstep
      exact hslot.within rfl (.inl rfl) rfl rfl
  | polling =>
    have hslot := h (by rw [hactor]; rfl)
    have hgo : ∀ (own : Owned) (a : Actor), a.slot = none → a.adopts_claim = true →
        Slot { sys with own := own, actor := a } := fun own a ha hadopts =>
      hslot.outside (by rw [hactor]; rfl) rfl rfl rfl (fun c _ hmem _ _ => by
        simp only [System.pending, Actor.taken, hactor, List.nil_append, List.mem_append] at hmem ⊢
        tauto) ha hadopts
    rw [hactor] at hstep
    dsimp only at hstep
    split at hstep
    · cases hstep
      exact hgo _ _ rfl rfl
    · cases hstep
      exact Slot.segment h (fun _ _ _ => hgo _ _ rfl rfl) (fun _ _ _ => hgo _ _ rfl rfl) hends
  | dispatched c =>
    rw [hactor] at hstep
    cases c with
    | claim =>
      have hslot := h (by rw [hactor]; rfl)
      cases hstep
      exact hslot.within rfl (.inr (by rw [hactor]; rfl)) rfl rfl
    | close =>
      cases hstep
      cases hends
    | release lease | abort lease =>
      have hslot := h (by rw [hactor]; rfl)
      dsimp only at hstep
      split at hstep
      · cases hstep
        exact .enter rfl rfl rfl rfl
      · rename_i hstale
        cases hstep
        exact slot_stale hslot hactor rfl hstale
  | running c =>
    rw [hactor] at hstep
    cases hstep
    by_cases hc : c = .close
    · subst hc
      unfold System.run_command at hends
      dsimp only at hends
      split at hends <;> cases hends
    · exact slot_run_command (h (by rw [hactor]; exact decide_eq_false hc)) o hactor hends
  | adopting c bound_here =>
    have hslot := h (by rw [hactor]; rfl)
    rw [hactor] at hstep
    cases c with
    | claim liveness tier_config address =>
      cases hstep
      exact Slot.segment h
        (fun _ _ _ => hslot.within rfl (.inr (by rw [hactor]; rfl)) rfl rfl)
        (fun _ _ _ => hslot.within rfl (.inr (by rw [hactor]; rfl)) rfl rfl) hends
    | release | abort | close => cases hstep
  | adopted c liveness bound_here =>
    have hslot := h (by rw [hactor]; rfl)
    rw [hactor] at hstep
    dsimp only at hstep
    split at hstep <;> cases hstep <;>
      exact hslot.within rfl (.inr (by rw [hactor]; rfl)) rfl rfl
  | refused c bound_here =>
    have hslot := h (by rw [hactor]; rfl)
    rw [hactor] at hstep
    cases hstep
    exact Slot.segment h
      (fun _ _ _ => hslot.within rfl (.inr (by rw [hactor]; rfl)) rfl rfl)
      (fun _ _ _ => hslot.within rfl (.inr (by rw [hactor]; rfl)) rfl rfl) hends
  | promote origin lease =>
    have hslot := h (by rw [hactor]; rfl)
    rw [hactor] at hstep
    dsimp only at hstep
    split at hstep
    · cases hstep
      exact hslot.within rfl (.inr (by rw [hactor]; rfl)) rfl rfl
    · cases hstep
      exact Slot.segment h
        (fun _ _ _ => hslot.within rfl (.inr (by rw [hactor]; rfl)) rfl rfl)
        (fun _ _ _ => hslot.within rfl (.inr (by rw [hactor]; rfl)) rfl rfl) hends
  | promoted origin lease error =>
    have hslot := h (by rw [hactor]; rfl)
    rw [hactor] at hstep
    cases error with
    | none =>
      cases hstep
      exact hslot.within (clear_if_current_reserved sys lease) (.inr (by rw [hactor]; rfl)) rfl rfl
    | some e =>
      cases hstep
      exact hslot.within (clear_if_current_reserved sys lease) (.inl rfl) rfl rfl
  | stand_down c lease =>
    have hslot := h (by rw [hactor]; rfl)
    rw [hactor] at hstep
    cases hstep
    exact Slot.segment h
      (fun _ _ _ => hslot.within rfl (.inr (by rw [hactor]; rfl)) rfl rfl)
      (fun _ _ _ => hslot.within rfl (.inr (by rw [hactor]; rfl)) rfl rfl) hends
  | stood_down c lease error =>
    have hslot := h (by rw [hactor]; rfl)
    rw [hactor] at hstep
    cases error with
    | none =>
      cases hstep
      exact hslot.within (clear_if_current_reserved sys lease) (.inr (by rw [hactor]; rfl)) rfl rfl
    | some e =>
      cases hstep
      exact hslot.within (clear_if_current_reserved sys lease) (.inl rfl) rfl rfl
  | refused_idle =>
    have hslot := h (by rw [hactor]; rfl)
    rw [hactor] at hstep
    cases hstep
    exact hslot.within rfl (.inr (by rw [hactor]; rfl)) rfl rfl
  | committing | claim_failed | standby | idle =>
    have hslot := h (by rw [hactor]; rfl)
    rw [hactor] at hstep
    cases hstep
    exact hslot.within rfl (.inl rfl) rfl rfl
  | closed c =>
    rw [hactor] at hstep
    cases hstep
    have hslot := h (by rw [hactor]; exact hends)
    exact hslot.within rfl (.inl rfl) rfl rfl
  | fail e next =>
    rw [hactor] at hstep
    cases hstep
    have hslot := h (by rw [hactor]; exact hends)
    obtain ⟨hmine, hheld, hadopts⟩ := hslot
    rw [hactor] at hmine hheld hadopts
    refine ⟨hmine, fun hfree => (hheld hfree).mono rfl rfl id fun c _ hmem _ _ => ?_, hadopts⟩
    simp only [System.pending, Actor.taken, hactor, List.nil_append, List.mem_append] at hmem ⊢
    tauto
  | finish origin error =>
    rw [hactor] at hstep
    cases hstep
    exact slot_finish origin error hends
  | stopping =>
    rw [hactor] at hstep
    cases hstep
    cases hends
  | stopped =>
    rw [hactor] at hstep
    cases hstep

end Actor

/-! ## A transition comes to its end

No segment loops, so the actor always gets on, and what is left of a transition shrinks. -/

namespace Segment

variable {setting : Setting} {o : Oracle} {α β : Type}

/-- A segment ends, one way or the other. -/
def returns : Watch Owned GuardError Empty := ⟨fun _ _ _ => True, fun _ => False⟩

def Returns (p : Segment α) : Prop := Keeps returns (fun _ _ => True) p

theorem returns_raise (e : GuardError) : Returns (raise e : Segment α) :=
  fun _ _ _ => wp_raise.mpr trivial

theorem returns_change (f : Owned → Owned) : Returns (change f) :=
  fun _ _ _ => wp_change.mpr trivial

theorem Returns.bind {p : Segment α} {f : α → Segment β} (hp : Returns p)
    (hf : ∀ a, Returns (f a)) : Returns (p >>= f) := Keeps.bind hp hf

theorem returns_read {f : Owned → Segment β} (hf : ∀ own, Returns (f own)) :
    Returns (read >>= f) := Keeps.bind Keeps.read hf

theorem returns_call (c : Call) : Returns (call o c) := by
  unfold call
  split
  · exact Keeps.pure
  · exact returns_raise _

theorem returns_recover (f : RecoveryState → Except GuardError Unit × RecoveryState) :
    Returns (recover f) := by
  refine returns_read fun own => (returns_change _).bind fun _ => ?_
  split
  · exact Keeps.pure
  · exact returns_raise _

theorem returns_bind (address : Address) : Returns (Segment.bind setting o address) := by
  refine returns_read fun own => ?_
  split
  · exact Keeps.ite Keeps.pure (returns_raise _)
  · exact (returns_call _).bind fun _ => (returns_change _).bind fun _ => Keeps.pure

theorem returns_check_claim (failure : Option GuardError) (tier_config : TierConfig) :
    Returns (check_claim setting failure tier_config) := by
  unfold check_claim
  split
  · exact returns_raise _
  · exact returns_read fun own => Keeps.ite (returns_raise _)
      ((returns_recover _).bind fun _ => returns_change _)

theorem returns_prepare_claim (failure : Option GuardError) (tier_config : TierConfig)
    (address : Address) : Returns (System.prepare_claim setting o failure tier_config address) := by
  refine (returns_bind address).bind fun bound_here => ?_
  have hchecked : Returns (do
      call o .dup
      call o .from_shared_listener
      check_claim setting failure tier_config) :=
    (returns_call _).bind fun _ => (returns_call _).bind fun _ =>
      returns_check_claim failure tier_config
  exact Keeps.handle (Keeps.bind hchecked fun _ => Keeps.pure) fun _ => Keeps.pure

theorem returns_hand_back : Returns (hand_back setting o) := by
  refine returns_read fun own => ?_
  split
  · exact (returns_call _).bind fun _ => (returns_recover _).bind fun _ => returns_change _
  · exact returns_raise _

theorem returns_adopt : Returns (adopt setting o) := by
  refine returns_read fun own => Returns.bind (Keeps.when ?_) fun _ => ?_
  · exact returns_hand_back.bind fun _ => returns_change _
  · refine (returns_change _).bind fun _ => Returns.bind (Keeps.when (returns_call _)) fun _ => ?_
    exact (returns_change _).bind fun _ => (returns_call _).bind fun _ => returns_change _

theorem returns_release (failure : Option GuardError) : Returns (release setting o failure) := by
  refine (returns_change _).bind fun _ => ?_
  split
  · exact returns_raise _
  · have hmirror : ∀ mirror, Returns (release.release_mirror setting o mirror) := by
      intro mirror
      unfold release.release_mirror
      split
      · exact Keeps.pure
      · exact returns_recover _
    have hcore : ∀ core, Returns (release.drop_core o core) := by
      intro core
      unfold release.drop_core
      split
      · exact Keeps.pure
      · exact Keeps.ite ((returns_call _).bind fun _ => returns_change _) (returns_change _)
    have hwrite : Returns (release.write_out setting o) :=
      returns_read fun _ => (hmirror _).bind fun _ => returns_read fun _ =>
        Keeps.when ((returns_call _).bind fun _ => returns_change _)
    refine returns_read fun own => Keeps.ite ?_ ((hcore _).bind fun _ => hwrite)
    exact returns_hand_back.bind fun _ => (returns_change _).bind fun _ => hwrite

theorem returns_promote (failure : Option GuardError) : Returns (promote setting o failure) := by
  refine (returns_change _).bind fun _ => ?_
  split
  · exact returns_raise _
  · refine returns_read fun own => (returns_change _).bind fun _ => ?_
    split
    · exact returns_raise _
    · exact (returns_call _).bind fun _ => (returns_change _).bind fun _ =>
        (returns_call _).bind fun _ => returns_change _

end Segment

section Ends

variable {setting : Setting} {sys : System}

/-- How many transitions of the actor are left, at most, before it clears the slot. -/
def Actor.left : Actor → Nat
  | .loop | .observing _ | .polled .. | .polling | .stopping | .stopped => 0
  | .finish .. => 1
  | .committing .. | .claim_failed .. | .standby _ | .idle _ | .closed _ => 2
  | .refused_idle .. | .stood_down .. => 3
  | .refused .. | .promoted .. => 4
  | .adopted .. | .promote .. | .stand_down .. => 5
  | .promoting .. => 6
  | .adopting .. => 7
  | .running _ => 8
  | .dispatched _ => 9
  | .fail _ next => next.left + 1

/-- A segment that returns leaves less to do if both its outcomes do. -/
theorem segment_left {α : Type} {p : Segment α} {ok : α → Actor} {error : GuardError → Actor}
    {n : Nat} (hp : Segment.Returns p) (hok : ∀ a, (ok a).left < n)
    (herror : ∀ e, (error e).left < n) : (sys.segment p ok error).actor.left < n := by
  have hwp := hp sys.own [] trivial
  unfold wp at hwp
  unfold System.segment
  split
  · exact hok _
  · exact herror _
  · rename_i hrun
    rw [hrun] at hwp
    exact hwp.elim

/-- The actor never waits within a transition, and each of its own transitions leaves less of
it. -/
theorem act_left (hadopts : sys.actor.adopts_claim = true) (howns : sys.actor.owns = true)
    (hends : sys.actor.ends = false) (o : Oracle) (poll : Poll) :
    ∃ sys', sys.act setting o poll = some sys' ∧ sys'.actor.left < sys.actor.left := by
  unfold System.act
  cases hactor : sys.actor with
  | loop | observing | polled | polling | stopping | stopped =>
    rw [hactor] at howns
    cases howns
  | promoting lease pollin =>
    dsimp only
    split
    · exact ⟨_, rfl, by simp [Actor.left]⟩
    · exact ⟨_, rfl, by simp [Actor.left]⟩
  | dispatched c =>
    cases c with
    | claim => exact ⟨_, rfl, by simp [Actor.left]⟩
    | release | abort | close =>
      rw [hactor] at howns
      cases howns
  | running c =>
    cases c with
    | claim liveness tier_config address =>
      refine ⟨_, rfl, segment_left (Segment.returns_prepare_claim _ _ _) ?_ fun _ => ?_⟩
      · rintro ⟨outcome, bound_here⟩
        cases outcome with
        | ok | error => simp [Actor.left]
      · simp [Actor.left]
    | release lease => exact ⟨_, rfl, by simp [System.run_command, Actor.left]⟩
    | abort lease =>
      refine ⟨_, rfl, ?_⟩
      dsimp only [System.run_command]
      split
      · simp [Actor.left]
      · simp [Actor.left]
    | close =>
      rw [hactor] at hends
      cases hends
  | adopting c bound_here =>
    cases c with
    | claim liveness tier_config address =>
      exact ⟨_, rfl, segment_left Segment.returns_adopt (fun _ => by simp [Actor.left])
        fun _ => by simp [Actor.left]⟩
    | release | abort | close =>
      rw [hactor] at hadopts
      cases hadopts
  | adopted c liveness bound_here =>
    dsimp only
    split
    · exact ⟨_, rfl, by simp [Actor.left]⟩
    · exact ⟨_, rfl, by simp [Actor.left]⟩
  | refused c bound_here =>
    exact ⟨_, rfl, segment_left (Segment.returns_release _) (fun _ => by simp [Actor.left])
      fun _ => by simp [Actor.left]⟩
  | promote origin lease =>
    dsimp only
    split
    · exact ⟨_, rfl, by simp [Actor.left]⟩
    · exact ⟨_, rfl, segment_left (Segment.returns_promote _) (fun _ => by simp [Actor.left])
        fun _ => by simp [Actor.left]⟩
  | stand_down c lease =>
    exact ⟨_, rfl, segment_left (Segment.returns_release _) (fun _ => by simp [Actor.left])
      fun _ => by simp [Actor.left]⟩
  | promoted origin lease error | stood_down origin lease error =>
    cases error with
    | none | some => exact ⟨_, rfl, by simp [Actor.left]⟩
  | committing | refused_idle | claim_failed | standby | idle | closed =>
    exact ⟨_, rfl, by simp [Actor.left]⟩
  | fail e next => exact ⟨_, rfl, Nat.lt_succ_self _⟩
  | finish origin error =>
    refine ⟨_, rfl, ?_⟩
    rw [hactor] at hends
    unfold System.finish
    dsimp only
    split
    · simp [Actor.left]
    · cases hends
    · cases hends
    · simp [Actor.left]

end Ends

/-! ## Runs -/

section Runs

variable {setting : Setting} {b b' : Beating}

/-- What holds between two transitions, with heartbeats. -/
structure Beating.Inv (b : Beating) : Prop where
  sys : Guard.Inv b.sys
  /-- the slot's owner is known, unless a primary is being fenced -/
  slot : b.fencing = none → b.sys.actor.ends = false → Slot b.sys
  /-- then it is the actor's -/
  fences : ∀ lease, b.fencing = some lease → b.sys.actor = .polled lease none ∧
    b.sys.shared.reserved = some .PROMOTING

/-- No claim is queued where the slot is somebody else's. -/
theorem no_claim_queued {sys : System} (h : Inv sys) (hends : sys.actor.ends = false)
    (hreserved : sys.shared.reserved ≠ some .CLAIMING) : sys.queued_claims = 0 := by
  by_contra hne
  exact hreserved ((h.reserved hends).claims hne).2.2.1

/-- Fencing ends, whatever it did: the actor is about to clear the slot. -/
theorem Beating.Inv.fenced (h : b.Inv) {lease : Lease} (hfencing : b.fencing = some lease)
    {own : Owned} {a : Actor}
    (ha : a = .finish .death none ∨ ∃ e, a = .fail e (.finish .death none)) :
    Beating.Inv { sys := { b.sys with own := own, actor := a } } := by
  obtain ⟨hactor, hreserved⟩ := h.fences lease hfencing
  have hends : b.sys.actor.ends = false := by
    rw [hactor]
    rfl
  have hqueued := no_claim_queued h.sys hends (by rw [hreserved]; decide)
  have hlocked : b.sys.locked = false := h.sys.locked.trans (by rw [hactor]; rfl)
  refine ⟨?_, fun _ _ => ?_, fun _ hnone => by cases hnone⟩
  · refine h.sys.move ?_ h.sys.holder (fun _ => Reserved.enter hqueued (by simp [hreserved])) ?_
    · rcases ha with rfl | ⟨e, rfl⟩ <;> trivial
    · rcases ha with rfl | ⟨e, rfl⟩ <;> exact hlocked
  · have hslot : a.slot = none ∧ a.owns = true ∧ a.adopts_claim = true := by
      rcases ha with rfl | ⟨e, rfl⟩ <;> exact ⟨rfl, rfl, rfl⟩
    refine ⟨fun phase hphase => ?_, fun hfree => ?_, hslot.2.2⟩
    · exact absurd (hslot.1.symm.trans hphase) (by simp)
    · exact absurd (hslot.2.1.symm.trans hfree) (by simp)

theorem beating_step (h : b.Inv) (hstep : Beating.Step setting b b') : b'.Inv := by
  cases hstep with
  | step hfree hstep =>
    refine ⟨inv_step h.sys hstep, fun _ hends => ?_, fun lease hlease => ?_⟩
    · have hslot := h.slot hfree
      rcases hstep.beside_or_act with hbeside | ⟨o, poll, hact⟩
      · exact slot_beside hslot hbeside hends
      · exact slot_act h.sys hslot hact hends
    · rw [hfree] at hlease
      cases hlease
  | beside hstep =>
    refine ⟨inv_step h.sys hstep.step, fun hfree => slot_beside (h.slot hfree) hstep, ?_⟩
    intro lease hlease
    obtain ⟨hactor, hreserved⟩ := h.fences lease hlease
    refine ⟨hstep.actor_kept.trans hactor, ?_⟩
    rw [hstep.reserved_kept (by simp [hreserved])]
    exact hreserved
  | missed lease hfree hpolled hcurrent hreserved hclosing hserving =>
    have hends : b.sys.actor.ends = false := by
      rw [hpolled]
      rfl
    have hqueued := no_claim_queued h.sys hends (by simp [hreserved])
    refine ⟨?_, fun hnone => (nomatch hnone), fun other hother => ?_⟩
    · refine h.sys.move h.sys.actor h.sys.holder (fun _ => Reserved.enter hqueued ?_) h.sys.locked
      exact fun hnone => nomatch hnone
    · cases hother
      exact ⟨hpolled, rfl⟩
  | unfenced lease hfencing => exact h.fenced hfencing (.inl rfl)
  | fenced lease o hfencing =>
    have hreturns : wp Segment.returns (Segment.promote setting o b.sys.shared.failure)
        (fun _ _ _ => True) b.sys.own [] := Segment.returns_promote _ _ _ trivial
    unfold wp at hreturns
    unfold System.segment
    split
    · exact h.fenced hfencing (.inl rfl)
    · exact h.fenced hfencing (.inr ⟨_, rfl⟩)
    · rename_i hrun
      rw [hrun] at hreturns
      exact hreturns.elim

theorem beating_reachable (h : Beating.Reachable setting b) : b.Inv := by
  induction h with
  | started region =>
    refine ⟨inv_started region, fun _ _ => .leave rfl rfl rfl, fun _ hnone => nomatch hnone⟩
  | step _ hstep ih => exact beating_step ih hstep

/-- The actor is in a transition. -/
def Beating.in_transition (b : Beating) : Bool := b.fencing.isSome || b.sys.actor.owns

/-- The actor waits for a command or looks after the pool, and is not about to end. -/
def Beating.idle (b : Beating) : Prop :=
  b.in_transition = false ∧ b.sys.actor.taken = [] ∧ b.sys.actor.ends = false

/-- With nobody on the way to an idle actor, the slot is free. -/
theorem Slot.free_of_idle {sys : System} (h : Slot sys) (howns : sys.actor.owns = false)
    (htaken : sys.actor.taken = []) (hsubmitting : sys.submitting = [])
    (hcommands : sys.commands = []) : sys.shared.reserved = none := by
  cases h.held howns with
  | free h => exact h
  | claim _ hqueued =>
    simp [System.queued_claims, hsubmitting, hcommands] at hqueued
  | ending _ c lease hpending =>
    simp [System.pending, htaken, hsubmitting, hcommands] at hpending

/-- In a transition the slot is taken. -/
theorem Beating.Inv.taken (h : b.Inv) (hbusy : b.in_transition = true)
    (hends : b.sys.actor.ends = false) : b.sys.shared.reserved ≠ none := by
  cases hfencing : b.fencing with
  | some lease => simp [(h.fences lease hfencing).2]
  | none =>
    refine (h.sys.reserved hends).owned ?_
    simpa [Beating.in_transition, hfencing] using hbusy

/-- In a transition no claim is on its way. -/
theorem Beating.Inv.alone (h : b.Inv) (hbusy : b.in_transition = true)
    (hends : b.sys.actor.ends = false) : b.sys.queued_claims = 0 := by
  cases hfencing : b.fencing with
  | some lease => exact no_claim_queued h.sys hends (by simp [(h.fences lease hfencing).2])
  | none =>
    refine (h.sys.reserved hends).no_claims ?_
    simpa [Beating.in_transition, hfencing] using hbusy

/-- **The slot is never lost or shared.** In every run, with heartbeats or without, as long as
the actor has not begun to end:
- at most one claim is let through to the actor, and none while the actor is in a transition;
  then the slot is taken, with the phase of that transition, and nobody but the actor changes
  it;
- the actor never waits in a transition and comes to the end of it;
- once it is idle with nobody on the way to it, the slot is free;
- a release or an abort whose lease is stale when it is dispatched changes nothing. -/
theorem transition_slot_kept (h : Beating.Reachable setting b)
    (hends : b.sys.actor.ends = false) :
    b.sys.queued_claims ≤ 1 ∧
    (b.in_transition = true → b.sys.queued_claims = 0 ∧ b.sys.shared.reserved ≠ none ∧
      (∀ phase, b.sys.actor.slot = some phase → b.sys.shared.reserved = some phase) ∧
      ∀ sys', Beside setting b.sys sys' → sys'.shared.reserved = b.sys.shared.reserved) ∧
    (b.in_transition = true → b.fencing = none → ∀ o poll,
      ∃ sys', b.sys.act setting o poll = some sys' ∧ sys'.actor.left < b.sys.actor.left) ∧
    (b.idle → b.sys.submitting = [] → b.sys.commands = [] → b.sys.shared.reserved = none) ∧
    ∀ c lease, b.sys.actor = .dispatched c → c.ended = some lease →
      b.sys.shared.current ≠ some lease → ∀ o poll,
        b.sys.act setting o poll = some { b.sys with actor := .loop } := by
  have hinv := beating_reachable h
  refine ⟨?_, fun hbusy => ⟨hinv.alone hbusy hends, hinv.taken hbusy hends, ?_, ?_⟩, ?_, ?_, ?_⟩
  · by_cases hqueued : b.sys.queued_claims = 0
    · rw [hqueued]
      exact Nat.zero_le 1
    · exact ((hinv.sys.reserved hends).claims hqueued).1.le
  · intro phase hphase
    cases hfencing : b.fencing with
    | none => exact (hinv.slot hfencing hends).mine phase hphase
    | some lease =>
      rw [(hinv.fences lease hfencing).1] at hphase
      cases hphase
  · exact fun sys' hbeside => hbeside.reserved_kept (hinv.taken hbusy hends)
  · intro hbusy hfencing o poll
    have howns : b.sys.actor.owns = true := by
      simpa [Beating.in_transition, hfencing] using hbusy
    exact act_left (hinv.slot hfencing hends).adopts howns hends o poll
  · rintro ⟨hfree, htaken, -⟩ hsubmitting hcommands
    obtain ⟨hfencing, howns⟩ : b.fencing = none ∧ b.sys.actor.owns = false := by
      simpa [Beating.in_transition] using hfree
    exact (hinv.slot hfencing hends).free_of_idle howns htaken hsubmitting hcommands
  · intro c lease hactor hended hstale o poll
    refine (stale_end setting hstale).2.2 o poll ?_
    cases c with
    | claim | close => cases hended
    | release | abort =>
      cases hended
      simp [hactor]

/-- A run without heartbeats is a run. -/
theorem Beating.Reachable.of_reachable {sys : System} (h : System.Reachable setting sys) :
    Beating.Reachable setting { sys := sys } := by
  induction h with
  | started region => exact .started region
  | step _ hstep ih => exact ih.step (.step rfl hstep)

/-- The holder of the first claim misses its beats, and releases while it is being fenced:
its release is queued without the slot, which stays the promotion's. -/
theorem transition_slot_kept_release_while_fencing :
    ∃ (setting : Setting) (b : Beating), Beating.Reachable setting b ∧
      b.fencing = some ⟨0, none⟩ ∧ b.sys.commands = [.release ⟨0, none⟩] ∧
      b.sys.shared.reserved = some .PROMOTING ∧ b.sys.queued_claims = 0 ∧
      ∀ sys', Beside setting b.sys sys' → sys'.shared.reserved = some .PROMOTING := by
  obtain ⟨setting, tier_config, address, own, hidle, hreach⟩ := first_claim_committing
  have h1 := hreach.step (.act {} .silent rfl)
  have h2 := h1.step (.act {} .silent rfl)
  have h3 := h2.step (.act {} .silent rfl)
  have h4 := h3.step (.act {} .silent rfl)
  have h5 := Beating.Reachable.of_reachable h4
  have h6 := h5.step (.missed ⟨0, none⟩ rfl rfl rfl rfl rfl hidle)
  have h7 := h6.step (.beside (.release ⟨0, none⟩ rfl rfl))
  have h8 := h7.step (.beside (.put 0))
  have hkept := (transition_slot_kept h8 rfl).2.1 rfl
  exact ⟨setting, _, h8, rfl, rfl, rfl, hkept.1, hkept.2.2.2⟩

end Runs

end Kvcr.Guard
