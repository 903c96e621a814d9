/-
A refused claim costs nothing.

A claim is refused at the door, by the section that would reserve its transition, or on the
actor, by everything `_claim` does before the pool changes hands: binding the listener,
duplicating descriptors, and the first half of `_adopt`. The first makes no transition at all.
The second reserves, may bind the listener, and reads the handback region; then it unbinds
what it bound and clears the reservation.

Others go on meanwhile, so the state after such a claim is compared with the state they
alone would have led to. The comparison is a simulation: in every state of the refusal,
forgetting the claim (the actor back at its loop, the reservation free, the listener as it
was) gives a state of the run without it. When the claim has been answered, nothing is left
to forget. If nobody else did anything, the run without it has not moved at all.

What a later claim gets is then said outright: the claim is asked, and the actor runs it to its
end. A claim that agrees with what the Guard had before the refusal is granted.
-/
import Kvcr.GuardSlot

set_option autoImplicit false

namespace Kvcr.Guard

open Journal Handback Prog Relation

/-! ## The run of a refused claim -/

section Refusals

variable (setting : Setting)

/-- A transition of somebody beside the actor, while no primary writes the pool's memory. -/
structure Quiet (sys sys' : System) : Prop where
  beside : Beside setting sys sys'
  recovery : sys'.own.recovery = sys.own.recovery

/-- What the actor and the others do from the moment the actor looks at a claim, as long as
the pool does not change hands. The transitions of the others are counted. -/
inductive Refusing (sys : System) : Nat → System → Prop where
  | taken : Refusing sys 0 sys
  | beside {others : Nat} {x x' : System} (h : Refusing sys others x)
      (hstep : Quiet setting x x') : Refusing sys (others + 1) x'
  | act {others : Nat} {x x' : System} (o : Oracle) (poll : Poll) (h : Refusing sys others x)
      (hbusy : x.actor ≠ .loop) (hstep : x.act setting o poll = some x')
      (hrefuses : ∀ c bound_here, x'.actor ≠ .adopting c bound_here) : Refusing sys others x'

/-- The Guard without the claim its actor has taken off the mailbox. -/
def System.withdrawn (sys : System) : System :=
  { sys with actor := .loop, shared.reserved := none }

/-- A claim is refused before the pool changes hands: how many transitions others made
meanwhile, the state it is asked or taken up in, the same state without it, and the state after
the refusal. -/
inductive Refused (liveness : Lease) (tier_config : TierConfig) (address : Address) :
    Nat → System → System → System → Prop where
  | at_door {sys : System} (alive : Bool) (e : GuardError)
      (h : sys.claim setting liveness tier_config address alive = .error e) :
      Refused liveness tier_config address 0 sys sys sys
  | on_actor {others : Nat} {sys sys' : System}
      (hactor : sys.actor = .dispatched (.claim liveness tier_config address))
      (hrun : Refusing setting sys others sys') (hdone : sys'.actor = .loop) :
      Refused liveness tier_config address others sys sys.withdrawn sys'

/-- What a refusal has to leave alone. -/
structure Standing where
  phase : Phase
  current : Option Lease
  serving : Bool
  /-- the core, and its table -/
  records : Option (Dict BlockKey Record)
  configured : Option TierConfig
  /-- the pool descriptors, the mirror and the handback region -/
  recovery : RecoveryState
  listener : Option Address

def System.standing (sys : System) : Standing :=
  { phase := sys.shared.phase
    current := sys.shared.current
    serving := sys.own.serving
    records := sys.own.core.map GuardCore.records
    configured := sys.own.configured
    recovery := sys.own.recovery
    listener := sys.own.listener }

/-- Nobody is with the Guard: no claim, no close and no command is on its way. -/
structure System.Free (sys : System) : Prop where
  actor : sys.actor = .loop
  unlocked : sys.locked = false
  reserved : sys.shared.reserved = none
  failure : sys.shared.failure = none
  closing : sys.shared.closing = false
  refusing : sys.refusing = false
  commands : sys.commands = []
  submitting : sys.submitting = []

/-- A claim is correct for a Guard that stands so: no primary holds the pool, the address and
the tiers are those it has, if it has any, the layout fits and the handback region replays. A
serving Guard can also hand back the table `o` says it serves. -/
structure Standing.Accepts (st : Standing) (o : Oracle) (tier_config : TierConfig)
    (address : Address) : Prop where
  phase : st.phase = .UNCONFIGURED ∨ st.phase = .IDLE ∨ st.phase = .STANDBY
  listener : ∀ bound, st.listener = some bound → bound = address
  configured : ∀ tiers, st.configured = some tiers → tiers = tier_config
  configures : (st.recovery.configure setting tier_config.pool_layouts).1 = .ok ()
  serves : st.serving = true → st.records.isSome ∧
    ((st.recovery.configure setting tier_config.pool_layouts).2.hand_back setting o.records
      o.fault).1 = .ok ()

/-- So many transitions of the actor, and nobody else's. -/
def System.acts (o : Oracle) : Nat → System → Option System
  | 0, sys => some sys
  | n + 1, sys => (sys.act setting o .silent).bind (System.acts o n)

/-- A claim is asked, and the actor runs it to its end: it takes the command, checks it, lets
the pool change hands, commits, and answers. -/
def System.ask (o : Oracle) (liveness : Lease) (tier_config : TierConfig) (address : Address)
    (sys : System) : Option System :=
  match sys.claim setting liveness tier_config address true with
  | .error _ => none
  | .ok asked => (asked.put sys.submitting.length).acts setting o 7

/-- The pool is the claimant's, under the tiers and the address it asked for. -/
structure System.HeldBy (sys : System) (liveness : Lease) (tier_config : TierConfig)
    (address : Address) : Prop where
  phase : sys.shared.phase = .PRIMARY
  current : sys.shared.current = some liveness
  configured : sys.own.configured = some tier_config
  listener : sys.own.listener = some address
  serving : sys.own.serving = false
  free : sys.Free

end Refusals

/-! ## What refuses a claim changes nothing -/

section Checks

variable {setting : Setting} {o : Oracle}

theorem read_handback_error {msgpack : Msgpack} {sha : Sha256} {terms : List UInt8}
    {pool_names : List String} {region left : List UInt8} {e : RecoveryError}
    (h : read_handback msgpack sha terms pool_names region = (.error e, left)) : left = region := by
  unfold read_handback at h
  dsimp only at h
  split at h
  · cases h
    rfl
  · split at h <;> cases h
    rfl

/-- A layout that is refused is not taken up, and the region is kept. -/
theorem configure_error {r r' : RecoveryState} {pool_layouts : List (String × Nat)}
    {e : GuardError} (h : r.configure setting pool_layouts = (.error e, r')) : r' = r := by
  unfold RecoveryState.configure at h
  split at h
  · cases h
    rfl
  · dsimp only at h
    split at h
    · cases h
      rfl
    · cases h
    · split at h
      · rename_i hread
        cases h
        rw [read_handback_error hread]
      · cases h

/-- A function of the recovery state, by its outcome. -/
theorem wp_recover {W : Watch Owned GuardError Empty} {Q : Unit → Owned → List Empty → Prop}
    {f : RecoveryState → Except GuardError Unit × RecoveryState} {own : Owned} {t : List Empty}
    (hok : ∀ recovery, f own.recovery = (.ok (), recovery) →
      Q () { own with recovery := recovery } t)
    (herror : ∀ e recovery, f own.recovery = (.error e, recovery) →
      W.exc e { own with recovery := recovery } t) : wp W (Segment.recover f) Q own t := by
  unfold Segment.recover
  rw [wp_bind, wp_read]
  cases hf : f own.recovery with
  | mk outcome recovery =>
    cases outcome with
    | ok =>
      simp only [wp_bind, wp_change, wp_pure]
      exact hok recovery hf
    | error e =>
      simp only [wp_bind, wp_change, wp_raise]
      exact herror e recovery hf

/-- The first half of `_adopt` raises in the state it started from. -/
theorem check_claim_raises (failure : Option GuardError) (tier_config : TierConfig) (own : Owned) :
    wp ⟨fun _ own' _ => own' = own, fun _ => True⟩
      (Segment.check_claim setting failure tier_config) (fun _ _ _ => True) own [] := by
  unfold Segment.check_claim
  split
  · exact wp_raise.mpr rfl
  · rw [wp_bind, wp_read, wp_ite]
    refine ⟨fun _ => wp_raise.mpr rfl, fun _ => ?_⟩
    refine wp_bind.mpr (wp_recover (fun _ _ => wp_change.mpr trivial)
      fun e recovery hconfigure => ?_)
    rw [configure_error hconfigure]

/-- What `_claim` did to the listener when it raises before the pool changes hands: with
`bound_here` it bound it. -/
def BoundHere (own own' : Owned) (bound_here : Bool) : Prop :=
  if bound_here then own.listener = none ∧ own = { own' with listener := none } else own' = own

/-- The calls and checks between the listener and the hand-over. -/
theorem checked_raises (failure : Option GuardError) (tier_config : TierConfig) (own : Owned) :
    wp ⟨fun _ own' _ => own' = own, fun _ => True⟩
      (do
        Segment.call o .dup
        Segment.call o .from_shared_listener
        Segment.check_claim setting failure tier_config)
      (fun _ _ _ => True) own [] := by
  unfold Segment.call
  rw [wp_bind]
  cases o.raises .dup with
  | some e => exact wp_raise.mpr rfl
  | none =>
    refine wp_pure.mpr (wp_bind.mpr ?_)
    cases o.raises .from_shared_listener with
    | some e => exact wp_raise.mpr rfl
    | none => exact wp_pure.mpr (check_claim_raises failure tier_config own)

theorem prepare_claim_raises (failure : Option GuardError) (tier_config : TierConfig)
    (address : Address) (own : Owned) :
    wp ⟨fun _ own' _ => own' = own, fun _ => True⟩
      (System.prepare_claim setting o failure tier_config address)
      (fun outcome own' _ => ∀ e, outcome.1 = .error e → BoundHere own own' outcome.2) own [] := by
  -- once the listener is there, only the checks can raise, and they raise where they started
  have hrest : ∀ (bound_here : Bool) (bound : Owned), BoundHere own bound bound_here →
      wp ⟨fun _ own' _ => own' = own, fun _ => True⟩
        (handle
          (do
            (do
              Segment.call o .dup
              Segment.call o .from_shared_listener
              Segment.check_claim setting failure tier_config)
            pure (.ok bound_here, bound_here) : Segment (Except GuardError Bool × Bool))
          fun e => pure (.error e, bound_here))
        (fun outcome own' _ => ∀ e, outcome.1 = .error e → BoundHere own own' outcome.2)
        bound [] := by
    intro bound_here bound hbound
    rw [wp_handle, wp_bind]
    refine wp_conseq (checked_raises failure tier_config bound) ?_ (fun _ _ => trivial) ?_
    · rintro e own' t rfl
      dsimp only
      exact wp_pure.mpr fun _ _ => hbound
    · exact fun _ own' t _ => wp_pure.mpr fun e herror => by cases herror
  unfold System.prepare_claim
  rw [wp_bind]
  unfold Segment.bind
  rw [wp_bind, wp_read]
  split
  · rw [wp_ite]
    exact ⟨fun _ => wp_pure.mpr (hrest false own rfl), fun _ => wp_raise.mpr rfl⟩
  · rename_i hlistener
    rw [wp_bind]
    unfold Segment.call
    split
    · refine wp_pure.mpr (wp_bind.mpr (wp_change.mpr (wp_pure.mpr (hrest true _ ?_))))
      refine ⟨hlistener, ?_⟩
      rw [← hlistener]
    · exact wp_raise.mpr rfl

end Checks

/-! ## The simulation -/

section Simulation

variable {setting : Setting} {sys x x' : System}

/-- The Guard without the claim that is being refused. -/
def System.without (listener : Option Address) (sys : System) : System :=
  { sys with actor := .loop, shared.reserved := none, own.listener := listener }

/-- Where the actor stands while it refuses `c`, and what has become of the listener. -/
def Stage (c : Command) (listener : Option Address) (sys : System) : Prop :=
  match sys.actor with
  | .dispatched d | .running d => d = c ∧ sys.own.listener = listener
  | .claim_failed d bound_here _ =>
    d = c ∧ if bound_here then listener = none else sys.own.listener = listener
  | .finish (.command d) (some _) => d = c ∧ sys.own.listener = listener
  | _ => False

theorem Stage.not_stopped {c : Command} {listener : Option Address} (h : Stage c listener x) :
    x.actor ≠ .stopped := by
  intro hactor
  unfold Stage at h
  rw [hactor] at h
  exact h

/-- A close that is only queued, or already begun. -/
theorem begin_close_running (o : Oracle) (h : x.actor ≠ .stopped) :
    x.begin_close o =
      if x.shared.closing then x else { x.accept .close with shared.closing := true } := by
  unfold System.begin_close
  split
  · rename_i hactor
    exact absurd hactor h
  · rfl

theorem without_put (listener : Option Address) (index : Nat) :
    (x.put index).without listener = (x.without listener).put index := by
  unfold System.put
  cases hget : x.submitting[index]? with
  | none => simp [System.without, hget]
  | some c => simp [System.without, hget]

/-- While a claim is being refused, the others do what they would do without it: claims are
told that the Guard is busy, and there is no lease to end. -/
theorem Beside.without (listener : Option Address) (hstep : Beside setting x x')
    (hreserved : x.shared.reserved = some .CLAIMING) (hrun : x.actor ≠ .stopped) :
    Beside setting (x.without listener) (x'.without listener) := by
  have hend : ∀ {lease : Lease} {c : Command}, x.end_lease setting lease c = .ok x' →
      x' = x ∧ (x.without listener).end_lease setting lease c = .ok (x.without listener) := by
    intro lease c hok
    unfold System.end_lease at hok
    split at hok
    · rename_i hstale
      cases hok
      exact ⟨rfl, if_pos hstale⟩
    · rw [hreserved] at hok
      cases hok
  cases hstep with
  | claim liveness tier_config bind alive hlock hok =>
    have := (reserve_claim_ok hok).1
    rw [hreserved] at this
    cases this
  | release lease hlock hok =>
    obtain ⟨rfl, hsame⟩ := hend hok
    exact .release lease hlock hsame
  | abort_grant lease hlock hok =>
    obtain ⟨rfl, hsame⟩ := hend hok
    exact .abort_grant lease hlock hsame
  | begin_close o hlock =>
    have hsame : (x.begin_close o).without listener = (x.without listener).begin_close o := by
      rw [begin_close_running o hrun, begin_close_running o (by simp [System.without])]
      cases hclosing : x.shared.closing with
      | true => simp [System.without, hclosing]
      | false => simp [System.without, hclosing, System.accept]
    rw [hsame]
    exact .begin_close o hlock
  | put index =>
    rw [without_put]
    exact .put index
  | refuse_claims => exact .refuse_claims
  | refused hlock hset => exact .refused hlock hset
  | prepared => exact .prepared
  | orphan_prepared index => exact .orphan_prepared index
  | memory journal region => exact .memory journal region

/-- The others leave the listener alone. -/
theorem Beside.listener_kept (hstep : Beside setting x x') (hrun : x.actor ≠ .stopped) :
    x'.own.listener = x.own.listener := by
  cases hstep with
  | claim liveness tier_config bind alive hlock hok =>
    obtain ⟨-, rfl⟩ := reserve_claim_ok hok
    rfl
  | release lease hlock hok | abort_grant lease hlock hok =>
    dsimp only [System.release, System.abort_grant] at hok
    unfold System.end_lease at hok
    split at hok
    · cases hok
      rfl
    split at hok <;> cases hok <;> rfl
  | begin_close o hlock =>
    rw [begin_close_running o hrun]
    split <;> rfl
  | put index =>
    unfold System.put
    split <;> rfl
  | refuse_claims | refused | prepared | orphan_prepared | memory => rfl

/-- A state of the refusal of `c`, and the state of the run without it. -/
inductive Forgets (c : Command) (listener : Option Address) : System → System → Prop where
  | refusing {x : System} (hreserved : x.shared.reserved = some .CLAIMING)
      (hstage : Stage c listener x) : Forgets c listener x (x.without listener)
  | answered {x : System} (hactor : x.actor = .loop) : Forgets c listener x x

theorem Forgets.beside {c : Command} {listener : Option Address} {y : System}
    (h : Forgets c listener x y) (hstep : Quiet setting x x') :
    ∃ y', Forgets c listener x' y' ∧ Quiet setting y y' := by
  cases h with
  | answered hactor =>
    exact ⟨x', .answered (hstep.beside.actor_kept.trans hactor), hstep⟩
  | refusing hreserved hstage =>
    have hrun := hstage.not_stopped
    refine ⟨x'.without listener, .refusing ?_ ?_, ?_, hstep.recovery⟩
    · rw [hstep.beside.reserved_kept (by simp [hreserved])]
      exact hreserved
    · unfold Stage at hstage ⊢
      rw [hstep.beside.actor_kept, hstep.beside.listener_kept hrun]
      exact hstage
    · exact hstep.beside.without listener hreserved hrun

/-- `_claim` runs up to where it raises, and has bound the listener or not. -/
theorem forgets_run {liveness : Lease} {tier_config : TierConfig} {address : Address}
    {listener : Option Address} {o : Oracle} (hreserved : x.shared.reserved = some .CLAIMING)
    (hlistener : x.own.listener = listener)
    (hrefuses : ∀ c bound_here,
      (x.run_command setting o (.claim liveness tier_config address)).actor ≠
        .adopting c bound_here) :
    Forgets (.claim liveness tier_config address) listener
      (x.run_command setting o (.claim liveness tier_config address)) (x.without listener) := by
  have hraises : wp _ (System.prepare_claim setting o x.shared.failure tier_config address) _
    x.own [] := prepare_claim_raises x.shared.failure tier_config address x.own
  have hreturns : wp _ (System.prepare_claim setting o x.shared.failure tier_config address) _
    x.own [] := Segment.returns_prepare_claim x.shared.failure tier_config address x.own [] trivial
  unfold wp at hraises hreturns
  dsimp only [System.run_command] at hrefuses ⊢
  unfold System.segment at hrefuses ⊢
  cases hrun : System.prepare_claim setting o x.shared.failure tier_config address x.own with
  | ok outcome own t =>
    rw [hrun] at hraises hrefuses
    obtain ⟨outcome, bound_here⟩ := outcome
    cases outcome with
    | ok bound => exact absurd rfl (hrefuses _ bound)
    | error e =>
      have hbound := hraises e rfl
      cases bound_here with
      | false =>
        cases hbound
        exact .refusing hreserved ⟨rfl, hlistener⟩
      | true =>
        obtain ⟨hnone, hown⟩ := hbound
        have hlistener : listener = none := hlistener.symm.trans hnone
        have hsame : x.without listener = ({ x with
            own := own
            actor := .claim_failed (.claim liveness tier_config address) true e }
            : System).without listener := by
          rw [hlistener]
          unfold System.without
          rw [hown]
        rw [hsame]
        exact .refusing hreserved ⟨rfl, hlistener⟩
  | err e own t =>
    rw [hrun] at hraises
    cases hraises
    exact .refusing hreserved ⟨rfl, hlistener⟩
  | diverged t =>
    rw [hrun] at hreturns
    exact hreturns.elim

/-- The actor goes on refusing: nothing happens in the run without the claim. -/
theorem Forgets.act {liveness : Lease} {tier_config : TierConfig} {address : Address}
    {listener : Option Address} {y : System} {o : Oracle} {poll : Poll}
    (h : Forgets (.claim liveness tier_config address) listener x y) (hbusy : x.actor ≠ .loop)
    (hstep : x.act setting o poll = some x')
    (hrefuses : ∀ c bound_here, x'.actor ≠ .adopting c bound_here) :
    Forgets (.claim liveness tier_config address) listener x' y := by
  cases h with
  | answered hactor => exact absurd hactor hbusy
  | refusing hreserved hstage =>
    unfold Stage at hstage
    unfold System.act at hstep
    cases hactor : x.actor with
    | dispatched d =>
      rw [hactor] at hstage hstep
      obtain ⟨rfl, hlistener⟩ := hstage
      cases hstep
      exact .refusing hreserved ⟨rfl, hlistener⟩
    | running d =>
      rw [hactor] at hstage hstep
      obtain ⟨rfl, hlistener⟩ := hstage
      cases hstep
      exact forgets_run hreserved hlistener hrefuses
    | claim_failed d bound_here e =>
      rw [hactor] at hstage hstep
      obtain ⟨rfl, hlistener⟩ := hstage
      cases hstep
      cases bound_here with
      | true => exact .refusing hreserved ⟨rfl, hlistener.symm⟩
      | false => exact .refusing hreserved ⟨rfl, hlistener⟩
    | finish origin error =>
      rw [hactor] at hstage hstep
      cases origin with
      | death => exact hstage.elim
      | command d =>
        cases error with
        | none => exact hstage.elim
        | some e =>
          obtain ⟨rfl, rfl⟩ := hstage
          cases hstep
          exact .answered rfl
    | loop | observing | polled | promoting | polling | adopting | adopted | committing | refused
      | refused_idle | promote | promoted | standby | stand_down | stood_down | idle | closed
      | fail | stopping | stopped =>
      rw [hactor] at hstage
      exact hstage.elim

/-- Every state of a refusal, with the claim forgotten, is a state of the others' run. -/
theorem Refusing.forgets {liveness : Lease} {tier_config : TierConfig} {address : Address}
    {others : Nat} (hactor : sys.actor = .dispatched (.claim liveness tier_config address))
    (hreserved : sys.shared.reserved = some .CLAIMING) (h : Refusing setting sys others x) :
    ∃ y, Forgets (.claim liveness tier_config address) sys.own.listener x y ∧
      ReflTransGen (Quiet setting) sys.withdrawn y ∧ (others = 0 → y = sys.withdrawn) := by
  induction h with
  | taken =>
    refine ⟨_, .refusing hreserved ?_, .refl, fun _ => rfl⟩
    unfold Stage
    rw [hactor]
    exact ⟨rfl, rfl⟩
  | beside _ hstep ih =>
    obtain ⟨y, hforgets, hrun, -⟩ := ih
    obtain ⟨y', hforgets', hquiet⟩ := hforgets.beside hstep
    exact ⟨y', hforgets', hrun.tail hquiet, fun hnone => absurd hnone (Nat.succ_ne_zero _)⟩
  | act o poll _ hbusy hstep hrefuses ih =>
    obtain ⟨y, hforgets, hrun, hsame⟩ := ih
    exact ⟨y, hforgets.act hbusy hstep hrefuses, hrun, hsame⟩

/-- Once the claim is answered there is nothing left to forget. -/
theorem Forgets.eq {c : Command} {listener : Option Address} {y : System}
    (h : Forgets c listener x y) (hdone : x.actor = .loop) : y = x := by
  cases h with
  | answered => rfl
  | refusing _ hstage =>
    unfold Stage at hstage
    rw [hdone] at hstage
    exact hstage.elim

/-- Nobody beside an actor at its loop touches what a refusal has to leave alone. -/
theorem Quiet.standing (hstep : Quiet setting x x') (hrun : x.actor ≠ .stopped) :
    x'.standing = x.standing := by
  obtain ⟨hbeside, hrecovery⟩ := hstep
  cases hbeside with
  | claim liveness tier_config bind alive hlock hok =>
    obtain ⟨-, rfl⟩ := reserve_claim_ok hok
    rfl
  | release lease hlock hok | abort_grant lease hlock hok =>
    dsimp only [System.release, System.abort_grant] at hok
    unfold System.end_lease at hok
    split at hok
    · cases hok
      rfl
    split at hok <;> cases hok <;> rfl
  | begin_close o hlock =>
    rw [begin_close_running o hrun]
    split <;> rfl
  | put index =>
    unfold System.put
    split <;> rfl
  | refuse_claims | refused | orphan_prepared => rfl
  | prepared =>
    unfold System.standing
    rw [Option.map_map]
    rfl
  | memory journal region =>
    have hsame : ({ x.own.recovery with journal := journal, region := region } : RecoveryState) =
      x.own.recovery := hrecovery
    unfold System.standing
    dsimp only
    rw [hsame]

theorem quiet_run_standing (h : ReflTransGen (Quiet setting) sys x) (hactor : sys.actor = .loop) :
    x.standing = sys.standing ∧ x.actor = .loop := by
  induction h with
  | refl => exact ⟨rfl, hactor⟩
  | tail _ hstep ih =>
    obtain ⟨hstanding, hloop⟩ := ih
    exact ⟨(hstep.standing (by simp [hloop])).trans hstanding, hstep.beside.actor_kept.trans hloop⟩

end Simulation

/-! ## A claim that is granted -/

section Granted

variable {setting : Setting} {o : Oracle} {sys : System}

theorem wp_call_silent (hsilent : ∀ c, o.raises c = none) {c : Call}
    {W : Watch Owned GuardError Empty} {Q : Unit → Owned → List Empty → Prop} {own : Owned}
    {t : List Empty} (h : Q () own t) : wp W (Segment.call o c) Q own t := by
  unfold Segment.call
  rw [hsilent c]
  exact wp_pure.mpr h

/-- A configured Guard has a mirror. -/
theorem configure_mirror {r r' : RecoveryState} {pool_layouts : List (String × Nat)}
    (h : r.configure setting pool_layouts = (.ok (), r')) : r'.mirror.isSome := by
  unfold RecoveryState.configure at h
  split at h
  · cases h
  · dsimp only at h
    split at h
    · cases h
    · rename_i hmirror
      cases h
      rw [hmirror]
      rfl
    · split at h
      · cases h
      · cases h
        rfl

/-- The checks pass, and the claim's listener and tiers are taken up. -/
theorem wp_prepare_claim_accepted (hsilent : ∀ c, o.raises c = none) {tier_config : TierConfig}
    {address : Address} {own : Owned}
    (hlistener : ∀ bound, own.listener = some bound → bound = address)
    (hconfigured : ∀ tiers, own.configured = some tiers → tiers = tier_config)
    (hconfigures : (own.recovery.configure setting tier_config.pool_layouts).1 = .ok ()) :
    wp ⟨fun _ _ _ => False, fun _ => False⟩
      (System.prepare_claim setting o none tier_config address)
      (fun outcome own' _ => outcome.1 = .ok outcome.2 ∧
        own' =
          { own with
            listener := some address
            configured := some tier_config
            recovery := (own.recovery.configure setting tier_config.pool_layouts).2 }) own [] := by
  have hrest (bound_here : Bool) (bound : Owned)
      (hbound : bound = { own with listener := some address }) :
      wp ⟨fun _ _ _ => False, fun _ => False⟩
        (handle
          (do
            (do
              Segment.call o .dup
              Segment.call o .from_shared_listener
              Segment.check_claim setting none tier_config)
            pure (.ok bound_here, bound_here) : Segment (Except GuardError Bool × Bool))
          fun e => pure (.error e, bound_here))
        (fun outcome own' _ => outcome.1 = .ok outcome.2 ∧
          own' =
            { own with
              listener := some address
              configured := some tier_config
              recovery := (own.recovery.configure setting tier_config.pool_layouts).2 })
        bound [] := by
    rw [wp_handle, wp_bind, wp_bind]
    refine wp_call_silent hsilent (wp_bind.mpr (wp_call_silent hsilent ?_))
    unfold Segment.check_claim
    rw [wp_bind, wp_read]
    have hsame : ¬ (bound.configured.isSome ∧ bound.configured ≠ some tier_config) := by
      rw [hbound]
      rintro ⟨hsome, hother⟩
      obtain ⟨tiers, htiers⟩ := Option.isSome_iff_exists.mp hsome
      exact hother (htiers.trans (congrArg some (hconfigured tiers htiers)))
    rw [if_neg hsame]
    refine wp_bind.mpr (wp_recover (fun recovery hok => wp_change.mpr (wp_pure.mpr ?_))
      fun e recovery herror => ?_)
    · rw [hbound] at hok ⊢
      refine ⟨rfl, ?_⟩
      rw [hok]
    · rw [hbound] at herror
      rw [herror] at hconfigures
      cases hconfigures
  unfold System.prepare_claim
  rw [wp_bind]
  unfold Segment.bind
  rw [wp_bind, wp_read]
  split
  · rename_i bound hbound
    rw [if_pos (hlistener bound hbound)]
    refine wp_pure.mpr (hrest false own ?_)
    rw [← hlistener bound hbound, ← hbound]
  · refine wp_bind.mpr (wp_call_silent hsilent (wp_bind.mpr (wp_change.mpr (wp_pure.mpr ?_))))
    exact hrest true _ rfl

theorem wp_hand_back_accepted (hsilent : ∀ c, o.raises c = none) {own : Owned}
    (hcore : own.core.isSome) (hmirror : own.recovery.mirror.isSome)
    (hhanded : (own.recovery.hand_back setting o.records o.fault).1 = .ok ()) :
    wp ⟨fun _ _ _ => False, fun _ => False⟩ (Segment.hand_back setting o)
      (fun _ own' _ => own'.serving = false ∧ own'.configured = own.configured ∧
        own'.listener = own.listener) own [] := by
  obtain ⟨core, hcore⟩ := Option.isSome_iff_exists.mp hcore
  obtain ⟨mirror, hmirror⟩ := Option.isSome_iff_exists.mp hmirror
  unfold Segment.hand_back
  rw [wp_bind, wp_read, hcore, hmirror]
  refine wp_bind.mpr (wp_call_silent hsilent (wp_bind.mpr (wp_recover (fun recovery _ =>
    wp_change.mpr ⟨rfl, rfl, rfl⟩) fun e recovery herror => ?_)))
  rw [herror] at hhanded
  cases hhanded

/-- The pool changes hands. -/
theorem wp_adopt_accepted (hsilent : ∀ c, o.raises c = none) {own : Owned}
    (hmirror : own.recovery.mirror.isSome)
    (hserves : own.serving = true → own.core.isSome ∧
      (own.recovery.hand_back setting o.records o.fault).1 = .ok ()) :
    wp ⟨fun _ _ _ => False, fun _ => False⟩ (Segment.adopt setting o)
      (fun _ own' _ => own'.serving = false ∧ own'.configured = own.configured ∧
        own'.listener = own.listener) own [] := by
  have hrest (own' : Owned) (t : List Empty) (h : own'.serving = false ∧
      own'.configured = own.configured ∧ own'.listener = own.listener) :
      wp ⟨fun _ _ _ => False, fun _ => False⟩
        (do
          change fun own => { own with recovery := own.recovery.start_primary }
          when own.control (Segment.call o .close_control)
          change fun own => { own with control := true }
          Segment.prepare_core o : Segment Unit)
        (fun _ own' _ => own'.serving = false ∧ own'.configured = own.configured ∧
          own'.listener = own.listener) own' t := by
    refine wp_bind.mpr (wp_change.mpr (wp_bind.mpr (wp_when.mpr ⟨fun _ => wp_call_silent hsilent ?_,
      fun _ => ?_⟩))) <;>
    exact wp_bind.mpr (wp_change.mpr (wp_bind.mpr (wp_call_silent hsilent (wp_change.mpr h))))
  unfold Segment.adopt
  refine wp_bind.mpr (wp_read.mpr (wp_bind.mpr (wp_when.mpr ⟨fun hserving => ?_,
    fun hserving => hrest own [] ⟨Bool.eq_false_iff.mpr hserving, rfl, rfl⟩⟩)))
  obtain ⟨hcore, hhanded⟩ := hserves hserving
  refine wp_bind.mpr (wp_mono (wp_hand_back_accepted hsilent hcore hmirror hhanded) ?_)
  exact fun _ own' t h => wp_change.mpr (hrest _ t h)

theorem System.Free.put (hfree : sys.Free) {c : Command} (hclaim : c.is_claim = true)
    {reserved : Option Phase} :
    ({ sys.accept c with shared.reserved := reserved } : System).put sys.submitting.length =
      { sys with shared.reserved := reserved, commands := [c] } := by
  cases c with
  | claim =>
    obtain ⟨-, -, -, -, -, -, hcommands, hsubmitting⟩ := hfree
    unfold System.put System.accept
    simp [hcommands, hsubmitting]
  | release | abort | close => cases hclaim

theorem acts_succ {sys' : System} {n : Nat} (h : sys.act setting o .silent = some sys') :
    sys.acts setting o (n + 1) = sys'.acts setting o n := by
  rw [System.acts, h, Option.bind_some]

/-- The actor takes a correct claim off its mailbox and commits it. -/
theorem System.Free.commits (hfree : sys.Free) (hsilent : ∀ c, o.raises c = none)
    (liveness : Lease) {tier_config : TierConfig} {address : Address}
    (haccepts : sys.standing.Accepts setting o tier_config address) :
    ∃ own : Owned, own.serving = false ∧ own.configured = some tier_config ∧
      own.listener = some address ∧
      System.acts setting o 7
        { sys with
          shared.reserved := some .CLAIMING
          commands := [.claim liveness tier_config address] } =
        some { sys with
          own := own
          shared.current := some liveness
          shared.phase := .PRIMARY
          shared.reserved := none } := by
  let c : Command := .claim liveness tier_config address
  let running : System := { sys with shared.reserved := some .CLAIMING, actor := .running c }
  have hserves := haccepts.serves
  dsimp only [System.standing] at hserves
  -- the checks
  obtain ⟨⟨outcome, bound_here⟩, own₁, t₁, hrun₁, hok, hown₁⟩ := exists_of_wp
    (wp_prepare_claim_accepted hsilent haccepts.listener haccepts.configured haccepts.configures)
  obtain rfl : outcome = .ok bound_here := hok
  rw [← hfree.failure] at hrun₁
  let adopting : System := { running with own := own₁, actor := .adopting c bound_here }
  have hchecked : running.act setting o .silent = some adopting := by
    refine congrArg some ?_
    dsimp only [running, c, System.run_command, System.segment]
    rw [hrun₁]
  -- the hand-over
  have hmirror : own₁.recovery.mirror.isSome := by
    rw [hown₁]
    exact configure_mirror (Prod.ext haccepts.configures rfl)
  have hserves₁ : own₁.serving = true → own₁.core.isSome ∧
      (own₁.recovery.hand_back setting o.records o.fault).1 = .ok () := by
    rw [hown₁]
    intro hserving
    exact ⟨by simpa using (hserves hserving).1, (hserves hserving).2⟩
  obtain ⟨⟨⟩, own₂, t₂, hrun₂, hserving, hconfigured, hlistener⟩ :=
    exists_of_wp (wp_adopt_accepted hsilent hmirror hserves₁)
  let adopted : System := { running with own := own₂, actor := .adopted c liveness bound_here }
  have hadopting : adopting.act setting o .silent = some adopted := by
    refine congrArg some ?_
    dsimp only [adopting, System.segment]
    rw [hrun₂]
  have hadopted : adopted.act setting o .silent =
      some { adopted with locked := true, actor := .committing c liveness } := by
    refine if_neg ?_
    dsimp only [adopted, running]
    rw [hfree.closing, hfree.refusing]
    simp
  have htaken : System.act setting
      { sys with shared.reserved := some .CLAIMING, commands := [c] } o .silent =
      some { running with commands := [], actor := .dispatched c } := by
    unfold System.act
    dsimp only
    rw [hfree.actor]
  refine ⟨own₂, hserving, by rw [hconfigured, hown₁], by rw [hlistener, hown₁], ?_⟩
  rw [acts_succ htaken, ← hfree.commands]
  refine Eq.trans (show _ = System.acts setting o _ running from acts_succ rfl)
    ((acts_succ hchecked).trans ((acts_succ
    hadopting).trans ((acts_succ hadopted).trans ((acts_succ rfl).trans
      ((acts_succ rfl).trans (congrArg some ?_))))))
  dsimp only [System.finish, adopted, running, c]
  rw [← hfree.unlocked, ← hfree.actor]

/-- A correct claim is granted by a Guard nobody is with. -/
theorem System.Free.grants (hfree : sys.Free) (hsilent : ∀ c, o.raises c = none)
    (liveness : Lease) {tier_config : TierConfig} {address : Address}
    (haccepts : sys.standing.Accepts setting o tier_config address) :
    ∃ later, sys.ask setting o liveness tier_config address = some later ∧
      later.HeldBy liveness tier_config address := by
  have hphase := haccepts.phase
  dsimp only [System.standing] at hphase
  have hclaim : sys.claim setting liveness tier_config address true =
      .ok { sys.accept (.claim liveness tier_config address) with
        shared.reserved := some .CLAIMING } := by
    unfold System.claim System.reserve_claim
    rw [hfree.closing, hfree.failure, hfree.reserved]
    rcases hphase with hphase | hphase | hphase <;> simp [hphase]
  obtain ⟨own, hserving, hconfigured, hlistener, hacts⟩ := hfree.commits hsilent liveness haccepts
  refine ⟨_, Eq.trans ?_ hacts, ⟨rfl, rfl, hconfigured, hlistener, hserving, ?_⟩⟩
  · unfold System.ask
    rw [hclaim]
    dsimp only
    rw [hfree.put rfl]
  · exact ⟨hfree.actor, hfree.unlocked, rfl, hfree.failure, hfree.closing, hfree.refusing,
      hfree.commands, hfree.submitting⟩

end Granted

/-! ## What a refused claim costs -/

section Cost

variable {setting : Setting} {liveness : Lease} {tier_config : TierConfig} {address : Address}

/-- **A refused claim costs nothing.** Whatever the Guard was doing, a claim that is refused
before the pool changes hands leaves a state the others alone would have led to without it, and
exactly the state before it if nobody else did anything. The phase, the lease, the core, the
configuration, the recovery state and the listener are as they were. So whatever can happen
after it could have happened in the same way without it. And a later claim that agrees with what
the Guard had before the refusal is granted, as soon as nobody else is with the Guard. -/
theorem refused_claim_costs_nothing {others : Nat} {sys before after : System}
    (hreach : Beating.Reachable setting { sys := sys })
    (h : Refused setting liveness tier_config address others sys before after) :
    ReflTransGen (Quiet setting) before after ∧ (others = 0 → after = before) ∧
    after.standing = sys.standing ∧ before.standing = sys.standing ∧
    (∀ later, ReflTransGen (System.Step setting) after later →
      ReflTransGen (System.Step setting) before later) ∧
    ∀ (o : Oracle) (next : Lease) (tiers : TierConfig) (bind : Address),
      (∀ c, o.raises c = none) → sys.standing.Accepts setting o tiers bind → after.Free →
      ∃ later, after.ask setting o next tiers bind = some later ∧ later.HeldBy next tiers bind := by
  have hrun : ReflTransGen (Quiet setting) before after ∧ (others = 0 → after = before) ∧
      after.standing = sys.standing ∧ before.standing = sys.standing := by
    cases h with
    | at_door alive e h => exact ⟨.refl, fun _ => rfl, rfl, rfl⟩
    | on_actor hactor hrun hdone =>
      have hslot := (beating_reachable hreach).slot rfl (by rw [hactor]; rfl)
      have hreserved : sys.shared.reserved = some .CLAIMING := by
        refine hslot.mine _ ?_
        rw [hactor]
        rfl
      obtain ⟨y, hforgets, hquiet, hsame⟩ := hrun.forgets hactor hreserved
      rw [hforgets.eq hdone] at hquiet hsame
      exact ⟨hquiet, hsame, (quiet_run_standing hquiet rfl).1, rfl⟩
  refine ⟨hrun.1, hrun.2.1, hrun.2.2.1, hrun.2.2.2, fun later hlater => ?_,
    fun o next tiers bind hsilent haccepts hfree => ?_⟩
  · have hsteps : ReflTransGen (System.Step setting) before after :=
      hrun.1.lift id fun _ _ hstep => hstep.beside.step
    exact hsteps.trans hlater
  · rw [← hrun.2.2.1] at haccepts
    exact hfree.grants hsilent next haccepts

/-- The first claim of a pool group asks for no pools where there is one: it binds the
listener, is refused, and leaves the Guard as it was. The next claim, for the pool there is and
at another address, is granted. -/
theorem refused_claim_costs_nothing_first_claim :
    ∃ (setting : Setting) (sys before after : System),
      Beating.Reachable setting { sys := sys } ∧
        Refused setting ⟨0, none⟩ ⟨[], none, ""⟩ ("", 0) 0 sys before after ∧
        after = before ∧ after.standing = sys.standing ∧
        ∃ later, after.ask setting {} ⟨1, none⟩ ⟨[("full", 16)], none, ""⟩ ("", 1) = some later ∧
          later.HeldBy ⟨1, none⟩ ⟨[("full", 16)], none, ""⟩ ("", 1) := by
  obtain ⟨msgpack, -⟩ := exists_msgpack {} []
  let setting : Setting := ⟨msgpack, .zero, .plain, fun _ => [], 0, 0, [16]⟩
  let tier_config : TierConfig := ⟨[], none, ""⟩
  let claim : Command := .claim ⟨0, none⟩ tier_config ("", 0)
  let mismatch : GuardError :=
    .value_error "pool layout must match the number of pools in the Guard"
  have hconfigure : RecoveryState.configure setting {} tier_config.pool_layouts =
      (.error mismatch, {}) := if_pos (by simp [setting, tier_config])
  have hfits : (RecoveryState.configure setting {} [("full", 16)]).1 = .ok () := by
    have hfind : (RecoveryState.descriptors [16] [("full", 16)] 0).findSome?
        PoolDescriptor.refusal = none := rfl
    unfold RecoveryState.configure
    rw [if_neg (by simp [setting])]
    dsimp only [setting]
    rw [hfind]
    rfl
  have h0 : System.Reachable setting (System.started []) := .started []
  have h1 := h0.step (.claim ⟨0, none⟩ tier_config ("", 0) true rfl rfl)
  have h2 := h1.step (.put 0)
  have h3 := h2.step (.act {} .silent rfl)
  have hreach := Beating.Reachable.of_reachable h3
  let asked : System := { shared.reserved := some .CLAIMING, actor := .dispatched claim }
  have r1 : Refusing setting asked 0
      { shared.reserved := some .CLAIMING, actor := .running claim } :=
    .act {} .silent .taken (by simp [asked]) rfl (by simp)
  have r2 : Refusing setting asked 0
      { shared.reserved := some .CLAIMING
        own.listener := some ("", 0)
        actor := .claim_failed claim true mismatch } := by
    refine .act {} .silent r1 (by simp) (congrArg some ?_) (by simp)
    dsimp only [claim, System.run_command]
    refine segment_eq ?_
    simp only [System.prepare_claim, Segment.bind, Segment.call, Segment.check_claim,
      Segment.recover, wp_bind, wp_read, wp_change, wp_pure, wp_handle]
    rw [wp_ite]
    refine ⟨fun hother => absurd hother.1 (by simp), fun _ => ?_⟩
    simp only [wp_bind, wp_read, hconfigure, wp_change, wp_raise]
  have r3 := Refusing.act {} .silent r2 (by simp) rfl (by simp)
  have r4 := Refusing.act {} .silent r3 (by simp) rfl (by simp [System.finish, claim])
  have hrefused : Refused setting ⟨0, none⟩ tier_config ("", 0) 0 asked _ _ :=
    .on_actor rfl r4 rfl
  obtain ⟨-, hsame, hstanding, -, -, hgranted⟩ := refused_claim_costs_nothing hreach hrefused
  refine ⟨setting, asked, _, _, hreach, hrefused, hsame rfl, hstanding,
    hgranted {} ⟨1, none⟩ ⟨[("full", 16)], none, ""⟩ ("", 1) (fun _ => rfl) ?_ ?_⟩
  · exact ⟨.inl rfl, fun _ h => (by cases h), fun _ h => (by cases h), hfits, fun h => (by cases h)⟩
  · exact ⟨rfl, rfl, rfl, rfl, rfl, rfl, rfl, rfl⟩

end Cost

end Kvcr.Guard
