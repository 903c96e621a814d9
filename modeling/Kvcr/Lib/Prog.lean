/-
Programs that read and write a state, may raise, may run out of fuel, and leave
a log behind.

A component that calls back into itself cannot be written as one structural
recursion, so it is run on fuel; a component whose callers catch exceptions has
to hand back the state it raised in; and a property about "the point where the
process may die" is a property of every prefix of what it has done. The three
are one type here: a program is a function of the state, its outcome is a value
or an exception (each with the state reached) or exhaustion of the fuel, and
every outcome carries the events the program appended to the log. The log is a
writer: nothing in this file lets a program read it or take an event back, so
"what was done before this point" is a prefix by construction.

`wp` is the program logic. Its context `Watch` says what is owed when a program
raises or runs out of fuel. The rules of the straight-line constructs are
equivalences, so that rewriting with them runs a program symbolically; the rules
of the loops take an invariant. `Keeps` is the case that most functions are in, an
invariant that holds before and after; `Moves` relates the first to the last state.
-/
import Mathlib.Order.Defs.Unbundled

set_option autoImplicit false

/-! ## Outcomes and programs -/

/-- How a program ends: with a value, with an exception, or out of fuel. The log
of what it did up to there is in all three. -/
inductive Outcome (σ ε ω α : Type) where
  | ok (a : α) (s : σ) (t : List ω)
  | err (e : ε) (s : σ) (t : List ω)
  | diverged (t : List ω)

/-- The state a program returned or raised in. -/
inductive Outcome.EndsIn {σ ε ω α : Type} : Outcome σ ε ω α → σ → Prop where
  | ok (a : α) (s : σ) (t : List ω) : EndsIn (.ok a s t) s
  | err (e : ε) (s : σ) (t : List ω) : EndsIn (.err e s t) s

/-- A program over state `σ` that may raise `ε` and logs `ω`. -/
def Prog (σ ε ω α : Type) : Type := σ → Outcome σ ε ω α

namespace Prog

variable {σ ε ω α β γ : Type}

/-- The outcome of a program that ran after the events `t` had been logged. -/
def after (t : List ω) : Outcome σ ε ω α → Outcome σ ε ω α
  | .ok a s t' => .ok a s (t ++ t')
  | .err e s t' => .err e s (t ++ t')
  | .diverged t' => .diverged (t ++ t')

instance : Monad (Prog σ ε ω) where
  pure a := fun s => .ok a s []
  bind m f := fun s =>
    match m s with
    | .ok a s' t => after t (f a s')
    | .err e s' t => .err e s' t
    | .diverged t => .diverged t

/-- Read the state. -/
def read : Prog σ ε ω σ := fun s => .ok s s []

/-- Change the state. -/
def change (f : σ → σ) : Prog σ ε ω Unit := fun s => .ok () (f s) []

/-- Log an event that may depend on the state. -/
def emit (e : σ → ω) : Prog σ ε ω Unit := fun s => .ok () s [e s]

/-- Read something off the state and change it. -/
def step (f : σ → α) (g : σ → σ) : Prog σ ε ω α := fun s => .ok (f s) (g s) []

/-- Raise. -/
def raise (e : ε) : Prog σ ε ω α := fun s => .err e s []

/-- The fuel is gone. -/
def exhausted : Prog σ ε ω α := fun _ => .diverged []

/-- `except`: run `h` from the state `m` raised in. -/
def handle (m : Prog σ ε ω α) (h : ε → Prog σ ε ω α) : Prog σ ε ω α := fun s =>
  match m s with
  | .ok a s' t => .ok a s' t
  | .err e s' t => after t (h e s')
  | .diverged t => .diverged t

/-- `finally`: run `fin` after `m` however `m` ended. An exception of `fin`
replaces the one of `m`. -/
def ensure (m : Prog σ ε ω α) (fin : Prog σ ε ω Unit) : Prog σ ε ω α := do
  let a ← handle m (fun e => do fin; raise e)
  fin
  pure a

/-- `if c: m`, without an `else`. -/
def when (c : Prop) [Decidable c] (m : Prog σ ε ω Unit) : Prog σ ε ω Unit :=
  if c then m else pure ()

/-- Run a program on a part of the state, and log under `tag` what it logs. -/
def zoom {τ ω' : Type} (get : σ → τ) (set : τ → σ → σ) (tag : ω' → ω) (m : Prog τ ε ω' α) :
    Prog σ ε ω α := fun s =>
  match m (get s) with
  | .ok a p t => .ok a (set p s) (t.map tag)
  | .err e p t => .err e (set p s) (t.map tag)
  | .diverged t => .diverged (t.map tag)

/-! ## Loops

A `for` over a list is a recursion over the list, with `continue` an early
return of the body; `whileFuel` is a loop that ends when its body answers
`.inr`. -/

/-- `for x in xs: f(x)`. -/
def forEach (xs : List α) (f : α → Prog σ ε ω Unit) : Prog σ ε ω Unit :=
  match xs with
  | [] => pure ()
  | x :: xs => do
    f x
    forEach xs f

/-- A `for` that carries what it accumulates. -/
def foldEach (xs : List α) (b : β) (f : β → α → Prog σ ε ω β) : Prog σ ε ω β :=
  match xs with
  | [] => pure b
  | x :: xs => do
    let b' ← f b x
    foldEach xs b' f

/-- A loop on fuel: the body answers with the next loop state or with the
result. -/
def whileFuel (n : Nat) (b : β) (f : β → Prog σ ε ω (β ⊕ γ)) : Prog σ ε ω γ :=
  match n with
  | 0 => exhausted
  | n + 1 => do
    match ← f b with
    | .inl b' => whileFuel n b' f
    | .inr c => pure c

/-! ## Weakest preconditions -/

/-- What is owed when a program raises and when its fuel runs out. -/
structure Watch (σ ε ω : Type) where
  exc : ε → σ → List ω → Prop
  out : List ω → Prop

/-- `m`, started in `s` after the events `t`, ends in `Q`: a value satisfies `Q`, the
other two outcomes satisfy what the context asks. -/
def wp (W : Watch σ ε ω) (m : Prog σ ε ω α) (Q : α → σ → List ω → Prop)
    (s : σ) (t : List ω) : Prop :=
  match m s with
  | .ok a s' t' => Q a s' (t ++ t')
  | .err e s' t' => W.exc e s' (t ++ t')
  | .diverged t' => W.out (t ++ t')

variable {W : Watch σ ε ω} {s : σ} {t : List ω} {Q Q' : α → σ → List ω → Prop}

theorem wp_pure {a : α} : wp W (pure a) Q s t ↔ Q a s t := by
  change Q a s (t ++ []) ↔ _
  rw [List.append_nil]

theorem wp_read {Q : σ → σ → List ω → Prop} : wp W read Q s t ↔ Q s s t := by
  change Q s s (t ++ []) ↔ _
  rw [List.append_nil]

theorem wp_change {f : σ → σ} {Q : Unit → σ → List ω → Prop} :
    wp W (change f) Q s t ↔ Q () (f s) t := by
  change Q () (f s) (t ++ []) ↔ _
  rw [List.append_nil]

theorem wp_emit {e : σ → ω} {Q : Unit → σ → List ω → Prop} :
    wp W (emit e) Q s t ↔ Q () s (t ++ [e s]) := Iff.rfl

theorem wp_step {f : σ → α} {g : σ → σ} : wp W (step f g) Q s t ↔ Q (f s) (g s) t := by
  change Q (f s) (g s) (t ++ []) ↔ _
  rw [List.append_nil]

theorem wp_raise {e : ε} : wp W (raise e) Q s t ↔ W.exc e s t := by
  change W.exc e s (t ++ []) ↔ _
  rw [List.append_nil]

theorem wp_exhausted : wp W exhausted Q s t ↔ W.out t := by
  change W.out (t ++ []) ↔ _
  rw [List.append_nil]

/-- What `m` owes after the events `u` more. -/
theorem wp_after {m : Prog σ ε ω α} {s' : σ} {u : List ω} :
    wp W (fun _ => after u (m s')) Q s t ↔ wp W m Q s' (t ++ u) := by
  unfold wp
  cases m s' <;> simp only [after, List.append_assoc]

/-- The sequencing rule. -/
theorem wp_bind {m : Prog σ ε ω β} {f : β → Prog σ ε ω α} :
    wp W (m >>= f) Q s t ↔ wp W m (fun b s' t' => wp W (f b) Q s' t') s t := by
  have hrun : (m >>= f) s = match m s with
      | .ok b s' t => after t (f b s')
      | .err e s' t => .err e s' t
      | .diverged t => .diverged t := rfl
  rw [wp, wp, hrun]
  cases m s with
  | ok b s' u => exact wp_after (s := s)
  | err e s' u => rfl
  | diverged u => rfl

/-- The handler's precondition is what the guarded program owes when it raises. -/
theorem wp_handle {m : Prog σ ε ω α} {h : ε → Prog σ ε ω α} :
    wp W (handle m h) Q s t ↔
      wp { W with exc := fun e s' t' => wp W (h e) Q s' t' } m Q s t := by
  have hrun : handle m h s = match m s with
      | .ok a s' t => .ok a s' t
      | .err e s' t => after t (h e s')
      | .diverged t => .diverged t := rfl
  rw [wp, wp, hrun]
  cases m s with
  | ok a s' u => rfl
  | err e s' u => exact wp_after (s := s)
  | diverged u => rfl

theorem wp_zoom {τ ω' : Type} {get : σ → τ} {set : τ → σ → σ} {tag : ω' → ω}
    {m : Prog τ ε ω' α} :
    wp W (zoom get set tag m) Q s t ↔
      wp ⟨fun e p u => W.exc e (set p s) (t ++ u.map tag), fun u => W.out (t ++ u.map tag)⟩ m
        (fun a p u => Q a (set p s) (t ++ u.map tag)) (get s) [] := by
  have hrun : zoom get set tag m s = match m (get s) with
      | .ok a p t => .ok a (set p s) (t.map tag)
      | .err e p t => .err e (set p s) (t.map tag)
      | .diverged t => .diverged (t.map tag) := rfl
  rw [wp, wp, hrun]
  cases m (get s) <;> exact Iff.rfl

theorem wp_ite {c : Prop} [Decidable c] {m n : Prog σ ε ω α} :
    wp W (if c then m else n) Q s t ↔ (c → wp W m Q s t) ∧ (¬ c → wp W n Q s t) := by
  by_cases hc : c <;> simp [hc]

theorem wp_when {c : Prop} [Decidable c] {m : Prog σ ε ω Unit} {Q : Unit → σ → List ω → Prop} :
    wp W (when c m) Q s t ↔ (c → wp W m Q s t) ∧ (¬ c → Q () s t) := by
  by_cases hc : c <;> simp [when, hc, wp_pure]

/-- The rule of consequence, for values. -/
theorem wp_mono {m : Prog σ ε ω α} (h : wp W m Q s t)
    (hQ : ∀ a s' t', Q a s' t' → Q' a s' t') : wp W m Q' s t := by
  unfold wp at h ⊢
  cases hm : m s with
  | ok a s' t' => rw [hm] at h; exact hQ a s' _ h
  | err e s' t' => rw [hm] at h; exact h
  | diverged t' => rw [hm] at h; exact h

/-- Sequencing, from what is known of the first program. -/
theorem wp_seq {m : Prog σ ε ω β} {f : β → Prog σ ε ω α} {P : β → σ → List ω → Prop}
    (hm : wp W m P s t) (hf : ∀ b s' t', P b s' t' → wp W (f b) Q s' t') :
    wp W (m >>= f) Q s t :=
  wp_bind.mpr (wp_mono hm hf)

/-- An `if` without an `else`, and what follows it. -/
theorem wp_if_then {c : Prop} [Decidable c] {m : Prog σ ε ω Unit} {f : Unit → Prog σ ε ω α}
    {P : σ → List ω → Prop} (hm : c → wp W m (fun _ => P) s t) (hn : ¬ c → P s t)
    (hf : ∀ s' t', P s' t' → wp W (f ()) Q s' t') :
    wp W (if c then m >>= f else f ()) Q s t :=
  wp_ite.mpr ⟨fun hc => wp_seq (hm hc) fun _ s' t' hP => hf s' t' hP,
    fun hc => hf s t (hn hc)⟩

/-- An `if` whose first branch does nothing, and what follows it. -/
theorem wp_unless_then {c : Prop} [Decidable c] {m : Prog σ ε ω Unit} {f : Unit → Prog σ ε ω α}
    {P : σ → List ω → Prop} (hm : ¬ c → wp W m (fun _ => P) s t) (hn : c → P s t)
    (hf : ∀ s' t', P s' t' → wp W (f ()) Q s' t') :
    wp W (if c then f () else m >>= f) Q s t :=
  wp_ite.mpr ⟨fun hc => hf s t (hn hc),
    fun hc => wp_seq (hm hc) fun _ s' t' hP => hf s' t' hP⟩

/-- An `if` that yields a value, and what follows it. -/
theorem wp_ite_then {c : Prop} [Decidable c] {m n : Prog σ ε ω β} {f : β → Prog σ ε ω α}
    {P : β → σ → List ω → Prop} (hm : c → wp W m P s t) (hn : ¬ c → wp W n P s t)
    (hf : ∀ b s' t', P b s' t' → wp W (f b) Q s' t') :
    wp W (if c then m >>= f else n >>= f) Q s t :=
  wp_ite.mpr ⟨fun hc => wp_seq (hm hc) hf, fun hc => wp_seq (hn hc) hf⟩

/-- The rule of consequence, for everything. -/
theorem wp_conseq {W' : Watch σ ε ω} {m : Prog σ ε ω α} (h : wp W m Q s t)
    (hexc : ∀ e s' t', W.exc e s' t' → W'.exc e s' t') (hout : ∀ t', W.out t' → W'.out t')
    (hQ : ∀ a s' t', Q a s' t' → Q' a s' t') : wp W' m Q' s t := by
  unfold wp at h ⊢
  cases hm : m s with
  | ok a s' t' => rw [hm] at h; exact hQ a s' _ h
  | err e s' t' => rw [hm] at h; exact hexc e s' _ h
  | diverged t' => rw [hm] at h; exact hout _ h

/-- The rule for `finally`: what ends the block however it ended. -/
theorem wp_ensure {m : Prog σ ε ω α} {fin : Prog σ ε ω Unit} {E : ε → σ → List ω → Prop}
    {P : α → σ → List ω → Prop} (hm : wp ⟨E, W.out⟩ m P s t)
    (herr : ∀ e s' t', E e s' t' → wp W fin (fun _ => W.exc e) s' t')
    (hok : ∀ a s' t', P a s' t' → wp W fin (fun _ => Q a) s' t') : wp W (ensure m fin) Q s t := by
  refine wp_bind.mpr (wp_handle.mpr (wp_conseq hm ?_ (fun _ hout => hout) ?_))
  · intro e s' t' hE
    exact wp_seq (herr e s' t' hE) fun _ _ _ hexc => wp_raise.mpr hexc
  · intro a s' t' hP
    exact wp_seq (hok a s' t' hP) fun _ _ _ hQ => wp_pure.mpr hQ

@[simp] theorem wp_forEach_nil {f : β → Prog σ ε ω Unit} {Q : Unit → σ → List ω → Prop} :
    wp W (forEach [] f) Q s t ↔ Q () s t := wp_pure

/-- The rule for `for`: an invariant indexed by the elements still to come. -/
theorem wp_forEach {f : β → Prog σ ε ω Unit} (I : List β → σ → List ω → Prop)
    (hstep : ∀ x xs s' t', I (x :: xs) s' t' → wp W (f x) (fun _ => I xs) s' t')
    {Q : Unit → σ → List ω → Prop} (hQ : ∀ s' t', I [] s' t' → Q () s' t') :
    ∀ (xs : List β) (s : σ) (t : List ω), I xs s t → wp W (forEach xs f) Q s t := by
  intro xs
  induction xs with
  | nil => intro s t hI; exact wp_pure.mpr (hQ s t hI)
  | cons x xs ih =>
    intro s t hI
    refine wp_bind.mpr (wp_mono (hstep x xs s t hI) ?_)
    intro _ s' t' hI'
    exact ih s' t' hI'

/-- The rule for an accumulating `for`. -/
theorem wp_foldEach {f : β → γ → Prog σ ε ω β} (I : List γ → β → σ → List ω → Prop)
    (hstep : ∀ x xs b s' t', I (x :: xs) b s' t' → wp W (f b x) (fun b' => I xs b') s' t')
    {Q : β → σ → List ω → Prop} (hQ : ∀ b s' t', I [] b s' t' → Q b s' t') :
    ∀ (xs : List γ) (b : β) (s : σ) (t : List ω), I xs b s t →
      wp W (foldEach xs b f) Q s t := by
  intro xs
  induction xs with
  | nil => intro b s t hI; exact wp_pure.mpr (hQ b s t hI)
  | cons x xs ih =>
    intro b s t hI
    refine wp_bind.mpr (wp_mono (hstep x xs b s t hI) ?_)
    intro b' s' t' hI'
    exact ih b' s' t' hI'

/-- The rule for a loop on fuel. -/
theorem wp_whileFuel {f : β → Prog σ ε ω (β ⊕ γ)} (I : β → σ → List ω → Prop)
    {Q : γ → σ → List ω → Prop}
    (hstep : ∀ b s' t', I b s' t' → wp W (f b)
      (fun r s'' t'' => match r with
        | .inl b' => I b' s'' t''
        | .inr c => Q c s'' t'') s' t')
    (hout : ∀ b s' t', I b s' t' → W.out t') :
    ∀ (n : Nat) (b : β) (s : σ) (t : List ω), I b s t → wp W (whileFuel n b f) Q s t := by
  intro n
  induction n with
  | zero => intro b s t hI; exact wp_exhausted.mpr (hout b s t hI)
  | succ n ih =>
    intro b s t hI
    refine wp_bind.mpr (wp_mono (hstep b s t hI) ?_)
    intro r s' t' hr
    cases r with
    | inl b' => exact ih b' s' t' hr
    | inr c => exact wp_pure.mpr hr

/-- Only what is returned counts. -/
def Watch.any : Watch σ ε ω := ⟨fun _ _ _ => True, fun _ => True⟩

theorem wp_any {m : Prog σ ε ω α} : wp Watch.any m (fun _ _ _ => True) s t := by
  unfold wp
  cases m s <;> trivial

/-- An action that fails in the end returns nothing. -/
theorem wp_any_raise {m : Prog σ ε ω β} {e : ε} :
    wp Watch.any (m >>= fun _ => raise e) Q s t :=
  wp_seq wp_any fun _ _ _ _ => wp_raise.mpr trivial

/-- Any end will do. -/
theorem wp_of_forall {m : Prog σ ε ω α} (hexc : ∀ e s' t', W.exc e s' t') (hout : ∀ t', W.out t')
    (hQ : ∀ a s' t', Q a s' t') : wp W m Q s t := by
  unfold wp
  cases m s with
  | ok a s' t' => exact hQ a s' _
  | err e s' t' => exact hexc e s' _
  | diverged t' => exact hout _

/-- Both of two postconditions. -/
theorem wp_and {m : Prog σ ε ω α} (h : wp W m Q s t) (h' : wp W m Q' s t) :
    wp W m (fun a s' t' => Q a s' t' ∧ Q' a s' t') s t := by
  unfold wp at h h' ⊢
  cases hm : m s with
  | ok a s' t' => rw [hm] at h h'; exact ⟨h, h'⟩
  | err e s' t' => rw [hm] at h; exact h
  | diverged t' => rw [hm] at h; exact h

/-- Both of two specifications. -/
theorem wp_both {W' : Watch σ ε ω} {m : Prog σ ε ω α} (h : wp W m Q s t) (h' : wp W' m Q' s t) :
    wp ⟨fun e s' t' => W.exc e s' t' ∧ W'.exc e s' t', fun t' => W.out t' ∧ W'.out t'⟩ m
      (fun a s' t' => Q a s' t' ∧ Q' a s' t') s t := by
  unfold wp at h h' ⊢
  cases hm : m s with
  | ok a s' t' => rw [hm] at h h'; exact ⟨h, h'⟩
  | err e s' t' => rw [hm] at h h'; exact ⟨h, h'⟩
  | diverged t' => rw [hm] at h h'; exact ⟨h, h'⟩

/-- All of a family of specifications. -/
theorem wp_all {ι : Type} {W : ι → Watch σ ε ω} {m : Prog σ ε ω α} {Q : ι → α → σ → List ω → Prop}
    (h : ∀ i, wp (W i) m (Q i) s t) :
    wp ⟨fun e s' t' => ∀ i, (W i).exc e s' t', fun t' => ∀ i, (W i).out t'⟩ m
      (fun a s' t' => ∀ i, Q i a s' t') s t := by
  unfold wp at h ⊢
  cases hm : m s with
  | ok a s' t' => exact fun i => by simpa only [hm] using h i
  | err e s' t' => exact fun i => by simpa only [hm] using h i
  | diverged t' => exact fun i => by simpa only [hm] using h i

/-- A value that satisfies the postcondition is the one the program ends with. -/
theorem wp_run {m : Prog σ ε ω α} (h : wp W m Q s t) :
    wp W m (fun a s' t' => Q a s' t' ∧ ∃ u, m s = .ok a s' u ∧ t' = t ++ u) s t := by
  unfold wp at h ⊢
  cases hm : m s with
  | ok a s' u => rw [hm] at h; exact ⟨h, u, rfl, rfl⟩
  | err e s' u => rw [hm] at h; exact h
  | diverged u => rw [hm] at h; exact h

/-- A postcondition, and the fact that the program ended in its state. -/
theorem wp_ends {m : Prog σ ε ω α} (h : wp W m Q s t) :
    wp ⟨fun e s' t' => W.exc e s' t' ∧ (m s).EndsIn s', W.out⟩ m
      (fun a s' t' => Q a s' t' ∧ (m s).EndsIn s') s t := by
  unfold wp at h ⊢
  cases hm : m s with
  | ok a s' u => rw [hm] at h; exact ⟨h, .ok a s' u⟩
  | err e s' u => rw [hm] at h; exact ⟨h, .err e s' u⟩
  | diverged u => rw [hm] at h; exact h

/-- A program that may not run out returns or raises. -/
theorem ok_or_err_of_wp {m : Prog σ ε ω α} {E : ε → σ → List ω → Prop}
    (h : wp ⟨E, fun _ => False⟩ m Q s []) :
    (∃ a s' t', m s = .ok a s' t' ∧ Q a s' t') ∨ ∃ e s' t', m s = .err e s' t' ∧ E e s' t' := by
  unfold wp at h
  cases hm : m s with
  | ok a s' t' => rw [hm] at h; exact .inl ⟨a, s', t', rfl, h⟩
  | err e s' t' => rw [hm] at h; exact .inr ⟨e, s', t', rfl, h⟩
  | diverged t' => rw [hm] at h; exact h.elim

/-- A program that may neither raise nor run out ends with a value. -/
theorem exists_of_wp {m : Prog σ ε ω α} (h : wp ⟨fun _ _ _ => False, fun _ => False⟩ m Q s []) :
    ∃ a s' t', m s = .ok a s' t' ∧ Q a s' t' :=
  (ok_or_err_of_wp h).resolve_right fun ⟨_, _, _, _, hfalse⟩ => hfalse

/-- What a program that returned has established. -/
theorem ok_of_wp {m : Prog σ ε ω α} (h : wp W m Q s []) {a : α} {s' : σ} {t : List ω}
    (hrun : m s = .ok a s' t) : Q a s' t := by
  unfold wp at h
  rw [hrun] at h
  exact h

/-- What holds at the end, however the program ends. -/
theorem ends_of_wp {m : Prog σ ε ω α} {P : σ → Prop}
    (h : wp ⟨fun _ s' _ => P s', fun _ => True⟩ m (fun _ s' _ => P s') s []) {s' : σ}
    (hend : (m s).EndsIn s') : P s' := by
  unfold wp at h
  generalize m s = o at h hend
  cases hend with
  | ok a t => exact h
  | err e t => exact h

/-- A program that may neither return nor run out raises. -/
theorem exists_err_of_wp {m : Prog σ ε ω α} {E : ε → σ → List ω → Prop}
    (h : wp ⟨E, fun _ => False⟩ m (fun _ _ _ => False) s []) :
    ∃ e s' t', m s = .err e s' t' ∧ E e s' t' :=
  (ok_or_err_of_wp h).resolve_left fun ⟨_, _, _, _, hfalse⟩ => hfalse

/-- What iterating the body of a loop passes through. -/
inductive Passes (f : β → Prog σ ε ω (β ⊕ γ)) (b : β) (s : σ) : β → σ → Prop where
  | start : Passes f b s b s
  | next {b' b'' : β} {s' s'' : σ} {u : List ω} (passed : Passes f b s b' s')
      (run : f b' s' = .ok (.inl b'') s'' u) : Passes f b s b'' s''

/-- The rule for a loop whose fuel suffices: what bounds the iterations that are left
gets smaller. The body may use that the loop has come to it. -/
theorem wp_whileFuel_lt {f : β → Prog σ ε ω (β ⊕ γ)} {b : β} (I : Nat → β → σ → List ω → Prop)
    {Q : γ → σ → List ω → Prop}
    (hstep : ∀ m b' s' t', Passes f b s b' s' → I m b' s' t' → wp W (f b')
      (fun r s'' t'' => match r with
        | .inl b'' => ∃ m' < m, I m' b'' s'' t''
        | .inr c => Q c s'' t'') s' t')
    {n m : Nat} (hm : m < n) (hI : I m b s t) : wp W (whileFuel n b f) Q s t := by
  have aux : ∀ n m b' s' t', Passes f b s b' s' → m < n → I m b' s' t' →
      wp W (whileFuel n b' f) Q s' t' := by
    intro n
    induction n with
    | zero => exact fun m b' s' t' _ hlt _ => absurd hlt (Nat.not_lt_zero m)
    | succ n ih =>
      intro m b' s' t' hp hlt hI'
      refine wp_bind.mpr (wp_mono (wp_run (hstep m b' s' t' hp hI')) ?_)
      rintro r s'' t'' ⟨hr, u, hrun, -⟩
      cases r with
      | inl b'' =>
        obtain ⟨m', hm', hI''⟩ := hr
        exact ih m' b'' s'' t'' (hp.next hrun) (by omega) hI''
      | inr c => exact wp_pure.mpr hr
  exact aux n m b s t .start hm hI

/-! ## Invariance -/

/-- `m` keeps `I`. -/
def Keeps (W : Watch σ ε ω) (I : σ → List ω → Prop) (m : Prog σ ε ω α) : Prop :=
  ∀ s t, I s t → wp W m (fun _ => I) s t

/-- The context asks nothing of an invariant run that raises or runs out. -/
structure Covers (W : Watch σ ε ω) (I : σ → List ω → Prop) : Prop where
  exc : ∀ e s t, I s t → W.exc e s t
  out : ∀ s t, I s t → W.out t

section Keeps

variable {I : σ → List ω → Prop}

theorem Keeps.pure {a : α} : Keeps W I (pure a : Prog σ ε ω α) :=
  fun _ _ hI => wp_pure.mpr hI

theorem Keeps.read : Keeps W I (read : Prog σ ε ω σ) := fun _ _ hI => wp_read.mpr hI

theorem Keeps.raise {e : ε} (hW : Covers W I) : Keeps W I (raise e : Prog σ ε ω α) :=
  fun s t hI => wp_raise.mpr (hW.exc e s t hI)

theorem Keeps.bind {m : Prog σ ε ω α} {f : α → Prog σ ε ω β} (hm : Keeps W I m)
    (hf : ∀ a, Keeps W I (f a)) : Keeps W I (m >>= f) :=
  fun s t hI => wp_bind.mpr (wp_mono (hm s t hI) fun a s' t' hI' => hf a s' t' hI')

theorem Keeps.forEach {xs : List α} {f : α → Prog σ ε ω Unit} (hf : ∀ a, Keeps W I (f a)) :
    Keeps W I (forEach xs f) :=
  fun s t hI => wp_forEach (fun _ => I) (fun x _ s' t' h => hf x s' t' h) (fun _ _ h => h) xs s t hI

theorem Keeps.foldEach {xs : List α} {b : β} {f : β → α → Prog σ ε ω β}
    (hf : ∀ b a, Keeps W I (f b a)) : Keeps W I (foldEach xs b f) :=
  fun s t hI => wp_foldEach (fun _ _ => I) (fun x _ b s' t' h => hf b x s' t' h)
    (fun _ _ _ h => h) xs b s t hI

theorem Keeps.ite {c : Prop} [Decidable c] {m n : Prog σ ε ω α} (hm : Keeps W I m)
    (hn : Keeps W I n) : Keeps W I (if c then m else n) :=
  fun s t hI => wp_ite.mpr ⟨fun _ => hm s t hI, fun _ => hn s t hI⟩

/-- What raised kept the invariant too, so the handler starts from it. -/
theorem Keeps.handle {m : Prog σ ε ω α} {h : ε → Prog σ ε ω α}
    (hm : Keeps ⟨fun _ => I, W.out⟩ I m) (hh : ∀ e, Keeps W I (h e)) :
    Keeps W I (handle m h) :=
  fun s t hI => wp_handle.mpr (wp_conseq (hm s t hI) (fun e s' t' hI' => hh e s' t' hI')
    (fun _ hout => hout) fun _ _ _ hQ => hQ)

theorem Keeps.when {c : Prop} [Decidable c] {m : Prog σ ε ω Unit} (hm : Keeps W I m) :
    Keeps W I (when c m) :=
  fun s t hI => wp_when.mpr ⟨fun _ => hm s t hI, fun _ => hI⟩

end Keeps

/-! ## Programs that always return -/

/-- `m` neither raises nor runs out. -/
def Returns (m : Prog σ ε ω α) : Prop := ∀ s, ∃ a s' t, m s = .ok a s' t

theorem Returns.pure {a : α} : Returns (pure a : Prog σ ε ω α) := fun s => ⟨a, s, [], rfl⟩

theorem Returns.read : Returns (read : Prog σ ε ω σ) := fun s => ⟨s, s, [], rfl⟩

theorem Returns.change {f : σ → σ} : Returns (change f : Prog σ ε ω Unit) :=
  fun s => ⟨(), f s, [], rfl⟩

theorem Returns.step {f : σ → α} {g : σ → σ} : Returns (step f g : Prog σ ε ω α) :=
  fun s => ⟨f s, g s, [], rfl⟩

theorem Returns.bind {m : Prog σ ε ω α} {f : α → Prog σ ε ω β} (hm : Returns m)
    (hf : ∀ a, Returns (f a)) : Returns (m >>= f) := by
  intro s
  obtain ⟨a, s', t, hrun⟩ := hm s
  obtain ⟨b, s'', t', hrun'⟩ := hf a s'
  refine ⟨b, s'', t ++ t', ?_⟩
  change (match m s with
    | .ok a s' t => after t (f a s')
    | .err e s' t => .err e s' t
    | .diverged t => .diverged t) = _
  rw [hrun]
  dsimp only
  rw [hrun']
  rfl

theorem Returns.forEach {xs : List α} {f : α → Prog σ ε ω Unit} (hf : ∀ a, Returns (f a)) :
    Returns (forEach xs f) := by
  induction xs with
  | nil => exact .pure
  | cons x xs ih => exact .bind (hf x) fun _ => ih

/-- Whether `m` returns or raises, its last state is `R`-related to every state its
first one was related to. -/
def Moves (R : σ → σ → Prop) (m : Prog σ ε ω α) : Prop :=
  ∀ s₀, Keeps ⟨fun _ s _ => R s₀ s, fun _ => True⟩ (fun s _ => R s₀ s) m

section Moves

variable {R : σ → σ → Prop}

theorem Moves.pure {a : α} : Moves R (pure a : Prog σ ε ω α) := fun _ => Keeps.pure

theorem Moves.read : Moves R (read : Prog σ ε ω σ) := fun _ => Keeps.read

theorem Moves.raise {e : ε} : Moves R (raise e : Prog σ ε ω α) :=
  fun _ => Keeps.raise ⟨fun _ _ _ h => h, fun _ _ _ => trivial⟩

theorem Moves.exhausted : Moves R (exhausted : Prog σ ε ω α) :=
  fun _ _ _ _ => wp_exhausted.mpr trivial

theorem Moves.emit {e : σ → ω} : Moves R (emit e : Prog σ ε ω Unit) :=
  fun _ _ _ h => wp_emit.mpr h

theorem Moves.bind {m : Prog σ ε ω α} {f : α → Prog σ ε ω β} (hm : Moves R m)
    (hf : ∀ a, Moves R (f a)) : Moves R (m >>= f) :=
  fun s₀ => Keeps.bind (hm s₀) fun a => hf a s₀

theorem Moves.pure_bind {a : α} {f : α → Prog σ ε ω β} (hf : Moves R (f a)) :
    Moves R (Pure.pure a >>= f) :=
  fun s₀ s t h => wp_bind.mpr (wp_pure.mpr (hf s₀ s t h))

theorem Moves.ite {c : Prop} [Decidable c] {m n : Prog σ ε ω α} (hm : Moves R m)
    (hn : Moves R n) : Moves R (if c then m else n) :=
  fun s₀ => Keeps.ite (hm s₀) (hn s₀)

/-- The branches may use the condition. -/
theorem Moves.cases {c : Prop} [Decidable c] {m n : Prog σ ε ω α} (hm : c → Moves R m)
    (hn : ¬ c → Moves R n) : Moves R (if c then m else n) := by
  by_cases hc : c
  · rw [if_pos hc]; exact hm hc
  · rw [if_neg hc]; exact hn hc

/-- An `if` without an `else`, and what follows it. -/
theorem Moves.if_then {c : Prop} [Decidable c] {m : Prog σ ε ω Unit}
    {f : Unit → Prog σ ε ω α} (hm : Moves R m) (hf : Moves R (f ())) :
    Moves R (if c then m >>= f else f ()) :=
  .ite (.bind hm fun _ => hf) hf

/-- An `if` whose first branch does nothing, and what follows it. -/
theorem Moves.unless_then {c : Prop} [Decidable c] {m : Prog σ ε ω Unit}
    {f : Unit → Prog σ ε ω α} (hm : Moves R m) (hf : Moves R (f ())) :
    Moves R (if c then f () else m >>= f) :=
  .ite hf (.bind hm fun _ => hf)

/-- An `if` that yields a value, and what follows it. -/
theorem Moves.ite_then {c : Prop} [Decidable c] {m n : Prog σ ε ω β} {f : β → Prog σ ε ω α}
    (hm : c → Moves R m) (hn : Moves R n) (hf : ∀ b, Moves R (f b)) :
    Moves R (if c then m >>= f else n >>= f) :=
  .cases (fun hc => .bind (hm hc) hf) fun _ => .bind hn hf

theorem Moves.handle {m : Prog σ ε ω α} {h : ε → Prog σ ε ω α} (hm : Moves R m)
    (hh : ∀ e, Moves R (h e)) : Moves R (handle m h) :=
  fun s₀ => Keeps.handle (hm s₀) fun e => hh e s₀

theorem Moves.ensure {m : Prog σ ε ω α} {fin : Prog σ ε ω Unit} (hm : Moves R m)
    (hfin : Moves R fin) : Moves R (ensure m fin) :=
  .bind (.handle hm fun _ => .bind hfin fun _ => .raise) fun _ => .bind hfin fun _ => .pure

theorem Moves.forEach {xs : List α} {f : α → Prog σ ε ω Unit} (hf : ∀ a, Moves R (f a)) :
    Moves R (forEach xs f) :=
  fun s₀ => Keeps.forEach fun a => hf a s₀

/-- The body may use that it runs on an element of the list. -/
theorem Moves.forEach_mem {xs : List α} {f : α → Prog σ ε ω Unit}
    (hf : ∀ a ∈ xs, Moves R (f a)) : Moves R (Prog.forEach xs f) := by
  induction xs with
  | nil => exact .pure
  | cons x xs ih =>
    refine .bind (hf x List.mem_cons_self) fun _ => ih fun a ha => ?_
    exact hf a (List.mem_cons_of_mem x ha)

theorem Moves.foldEach {xs : List α} {b : β} {f : β → α → Prog σ ε ω β}
    (hf : ∀ b a, Moves R (f b a)) : Moves R (foldEach xs b f) :=
  fun s₀ => Keeps.foldEach fun b a => hf b a s₀

/-- The body may use that it runs on an element of the list. -/
theorem Moves.foldEach_mem {xs : List α} {b : β} {f : β → α → Prog σ ε ω β}
    (hf : ∀ b, ∀ a ∈ xs, Moves R (f b a)) : Moves R (Prog.foldEach xs b f) := by
  induction xs generalizing b with
  | nil => exact .pure
  | cons x xs ih =>
    refine .bind (hf b x List.mem_cons_self) fun b' => ih fun b a ha => ?_
    exact hf b a (List.mem_cons_of_mem x ha)

theorem Moves.whileFuel {f : β → Prog σ ε ω (β ⊕ γ)} (hf : ∀ b, Moves R (f b)) {n : Nat}
    {b : β} : Moves R (whileFuel n b f) := by
  induction n generalizing b with
  | zero => exact .exhausted
  | succ n ih =>
    refine .bind (hf b) fun r => ?_
    cases r with
    | inl b' => exact ih
    | inr c => exact .pure

variable [IsTrans σ R]

theorem Moves.change {f : σ → σ} (hf : ∀ s, R s (f s)) :
    Moves R (change f : Prog σ ε ω Unit) :=
  fun _ s _ h => wp_change.mpr (trans_of R h (hf s))

theorem Moves.step {f : σ → α} {g : σ → σ} (hg : ∀ s, R s (g s)) :
    Moves R (step f g : Prog σ ε ω α) :=
  fun _ s _ h => wp_step.mpr (trans_of R h (hg s))

/-- A program may use what it knows of the state it starts in. -/
theorem Moves.of_start {m : Prog σ ε ω α}
    (hm : ∀ s t, wp ⟨fun _ s' _ => R s s', fun _ => True⟩ m (fun _ s' _ => R s s') s t) :
    Moves R m :=
  fun _ s t h => wp_conseq (hm s t) (fun _ _ _ hR => trans_of R h hR) (fun _ _ => trivial)
    fun _ _ _ hR => trans_of R h hR

variable [Std.Refl R]

omit [IsTrans σ R] in
theorem Moves.start {m : Prog σ ε ω α} (hm : Moves R m) :
    wp ⟨fun _ s' _ => R s s', fun _ => True⟩ m (fun _ s' _ => R s s') s t :=
  hm s s t (refl_of R s)

omit [IsTrans σ R] in
/-- What a program that returns has done. -/
theorem Moves.returned {m : Prog σ ε ω α} (hm : Moves R m) :
    wp Watch.any m (fun _ s' _ => R s s') s t :=
  wp_conseq hm.start (fun _ _ _ _ => trivial) (fun _ _ => trivial) fun _ _ _ h => h

omit [IsTrans σ R] in
theorem Moves.mono {R' : σ → σ → Prop} [IsTrans σ R'] {m : Prog σ ε ω α} (hm : Moves R m)
    (h : ∀ s s', R s s' → R' s s') : Moves R' m :=
  .of_start fun s _ => wp_conseq hm.start (fun _ s' _ => h s s') (fun _ hout => hout)
    fun _ s' _ => h s s'

omit [IsTrans σ R] in
theorem Moves.ends {m : Prog σ ε ω α} (hm : Moves R m) {s' : σ} (h : (m s).EndsIn s') :
    R s s' :=
  ends_of_wp hm.start h

end Moves

/-! Where a relation is only claimed from good states, and good states stay good, a function
may use that a state it reads is good, and promise something of the value it returns. -/

/-- From a good state to a good state, related by `Q`. -/
def Under (G : σ → Prop) (Q : σ → σ → Prop) (s s' : σ) : Prop := G s → G s' ∧ Q s s'

/-- `m` moves within `Under G Q`, and from a good state it returns a value with `P`. -/
def Gives (G : σ → Prop) (Q : σ → σ → Prop) (P : α → Prop) (m : Prog σ ε ω α) : Prop :=
  ∀ s t, G s → wp ⟨fun _ s' _ => G s' ∧ Q s s', fun _ => True⟩ m
    (fun a s' _ => P a ∧ G s' ∧ Q s s') s t

section Under

variable {G : σ → Prop} {Q : σ → σ → Prop} {P : α → Prop} {T : β → Prop}

instance refl_under [Std.Refl Q] : Std.Refl (Under G Q) := ⟨fun s hs => ⟨hs, refl_of Q s⟩⟩

instance trans_under [IsTrans σ Q] : IsTrans σ (Under G Q) where
  trans _ _ _ h h' hs := ⟨(h' (h hs).1).1, trans_of Q (h hs).2 (h' (h hs).1).2⟩

theorem Moves.of_good [IsTrans σ Q] {m : Prog σ ε ω α}
    (hm : ∀ s t, G s → wp ⟨fun _ s' _ => G s' ∧ Q s s', fun _ => True⟩ m
      (fun _ s' _ => G s' ∧ Q s s') s t) : Moves (Under G Q) m := by
  refine .of_start fun s t => ?_
  by_cases hs : G s
  · exact wp_conseq (hm s t hs) (fun _ _ _ h _ => h) (fun _ _ => trivial) fun _ _ _ h _ => h
  · exact wp_of_forall (fun _ _ _ h => absurd h hs) (fun _ => trivial) fun _ _ _ h => absurd h hs

theorem Gives.moves [IsTrans σ Q] {m : Prog σ ε ω α} (hm : Gives G Q P m) :
    Moves (Under G Q) m :=
  .of_good fun s t hs => wp_mono (hm s t hs) fun _ _ _ hpost => hpost.2

/-- A function seen from an earlier state. -/
theorem Gives.later [IsTrans σ Q] {m : Prog σ ε ω α} (hm : Gives G Q P m) {s₀ : σ}
    (hs : G s ∧ Q s₀ s) : wp ⟨fun _ s' _ => G s' ∧ Q s₀ s', fun _ => True⟩ m
      (fun a s' _ => P a ∧ G s' ∧ Q s₀ s') s t :=
  wp_conseq (hm s t hs.1) (fun _ _ _ h => ⟨h.1, trans_of Q hs.2 h.2⟩) (fun _ _ => trivial)
    fun _ _ _ h => ⟨h.1, h.2.1, trans_of Q hs.2 h.2.2⟩

theorem Gives.imp {R : α → Prop} {m : Prog σ ε ω α} (hm : Gives G Q P m) (h : ∀ a, P a → R a) :
    Gives G Q R m :=
  fun s t hs => wp_mono (hm s t hs) fun a _ _ hpost => ⟨h a hpost.1, hpost.2⟩

variable [Std.Refl Q]

theorem Moves.gives {m : Prog σ ε ω α} (hm : Moves (Under G Q) m) (hP : ∀ a, P a) :
    Gives G Q P m :=
  fun s t hs => wp_conseq (hm.start (s := s) (t := t)) (fun _ _ _ h => h hs) (fun _ h => h)
    fun a _ _ h => ⟨hP a, h hs⟩

theorem Gives.pure {a : α} (ha : P a) : Gives G Q P (pure a : Prog σ ε ω α) :=
  fun s _ hs => wp_pure.mpr ⟨ha, hs, refl_of Q s⟩

theorem Gives.raise {e : ε} : Gives G Q P (raise e : Prog σ ε ω α) :=
  fun s _ hs => wp_raise.mpr ⟨hs, refl_of Q s⟩

omit [Std.Refl Q] in
/-- A state that is read is good. -/
theorem Gives.read {f : σ → Prog σ ε ω β} (hf : ∀ s, G s → Gives G Q T (f s)) :
    Gives G Q T (Prog.read >>= f) :=
  fun s t hs => wp_bind.mpr (wp_read.mpr (hf s hs s t hs))

omit [Std.Refl Q] in
theorem Gives.ite {c : Prop} [Decidable c] {m n : Prog σ ε ω α} (hm : c → Gives G Q P m)
    (hn : ¬ c → Gives G Q P n) : Gives G Q P (if c then m else n) := by
  by_cases hc : c
  · rw [if_pos hc]; exact hm hc
  · rw [if_neg hc]; exact hn hc

variable [IsTrans σ Q]

omit [Std.Refl Q] in
theorem Gives.bind {m : Prog σ ε ω α} {f : α → Prog σ ε ω β} (hm : Gives G Q P m)
    (hf : ∀ a, P a → Gives G Q T (f a)) : Gives G Q T (m >>= f) :=
  fun s t hs => wp_bind.mpr (wp_mono (hm s t hs) fun a _ _ hpost =>
    (hf a hpost.1).later hpost.2)

/-- What follows a function of whose value nothing is promised. -/
theorem Gives.after {m : Prog σ ε ω α} {f : α → Prog σ ε ω β} (hm : Moves (Under G Q) m)
    (hf : ∀ a, Gives G Q T (f a)) : Gives G Q T (m >>= f) :=
  .bind (hm.gives (P := fun _ => True) fun _ => trivial) fun a _ => hf a

/-- What follows may use the value, without promising one. -/
theorem Moves.using {m : Prog σ ε ω α} {f : α → Prog σ ε ω β} (hm : Gives G Q P m)
    (hf : ∀ a, P a → Moves (Under G Q) (f a)) : Moves (Under G Q) (m >>= f) :=
  (Gives.bind (T := fun _ => True) hm fun a ha => (hf a ha).gives fun _ => trivial).moves

theorem Moves.read_good {f : σ → Prog σ ε ω β} (hf : ∀ s, G s → Moves (Under G Q) (f s)) :
    Moves (Under G Q) (Prog.read >>= f) :=
  (Gives.read (T := fun _ => True) fun s hs => (hf s hs).gives fun _ => trivial).moves

/-- A program that moves, seen from an earlier state. -/
theorem Moves.later {m : Prog σ ε ω α} (hm : Moves (Under G Q) m) {s₀ : σ} (hs : G s ∧ Q s₀ s) :
    wp ⟨fun _ s' _ => G s' ∧ Q s₀ s', fun _ => True⟩ m (fun _ s' _ => G s' ∧ Q s₀ s') s t :=
  wp_mono ((hm.gives (P := fun _ => True) fun _ => trivial).later hs) fun _ _ _ hpost => hpost.2

theorem Gives.foldEach {xs : List β} {a : α} {f : α → β → Prog σ ε ω α} (ha : P a)
    (hf : ∀ a b, P a → Gives G Q P (f a b)) : Gives G Q P (Prog.foldEach xs a f) :=
  fun s t hs => wp_foldEach (fun _ a s' _ => P a ∧ G s' ∧ Q s s')
    (fun b _ a _ _ hI => (hf a b hI.1).later hI.2) (fun _ _ _ hI => hI) xs a s t
    ⟨ha, hs, refl_of Q s⟩

/-- The body may use that it runs on an element of the list. -/
theorem Gives.foldEach_mem {xs : List β} {a : α} {f : α → β → Prog σ ε ω α} (ha : P a)
    (hf : ∀ a, ∀ b ∈ xs, P a → Gives G Q P (f a b)) : Gives G Q P (Prog.foldEach xs a f) := by
  induction xs generalizing a with
  | nil => exact .pure ha
  | cons x xs ih =>
    refine .bind (hf a x List.mem_cons_self ha) fun a' ha' => ih ha' fun b c hc => ?_
    exact hf b c (List.mem_cons_of_mem x hc)

end Under

end Prog
