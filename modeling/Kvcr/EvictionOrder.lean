/-
What the eviction queue is for, and that the heap with lazy deletion does it.

Seen from outside, the queue is a `Ranking`: every evictable key has a score and a
place in the order in which the keys were entered, and a candidate iteration visits
the keys by score and then by place. The queue keeps this in a heap from which
removed and rescored keys are not taken out, and every running iteration holds the
live entries it has popped until it is closed. So the current entries are spread
over the heap and all running iterations, and the statement that carries every
other one is that each of them is in exactly one of these places, once
(`Browsing.Ok.once`).

A `Browsing` is a queue together with every iteration that was ever opened on it.
Iterations are named by the order they were opened in and may be advanced and
closed in any order, so iterations nested in one another are a special case.
-/
import Kvcr.Policy
import Mathlib.Data.Prod.Lex
import Mathlib.Data.List.Perm.Subperm
import Mathlib.Data.List.Induction

set_option autoImplicit false

namespace Kvcr

variable {σ : Type} [LinearOrder σ]

/-! ## The abstract queue -/

/-- The evictable keys, each with its score and its place in the order of entry. -/
structure Ranking (σ : Type) where
  of : BlockKey → Option (σ × Nat) := fun _ => none
  entered : Nat := 0

namespace Ranking

/-- A new key, or a key with another score, goes to the end of the order. -/
def insert (r : Ranking σ) (key : BlockKey) (score : σ) : Ranking σ :=
  if (r.of key).map Prod.fst = some score then r
  else
    { of := Function.update r.of key (some (score, r.entered))
      entered := r.entered + 1 }

def remove (r : Ranking σ) (key : BlockKey) : Ranking σ :=
  { r with of := Function.update r.of key none }

/-- No two keys have the same place. -/
structure Ok (r : Ranking σ) : Prop where
  below : ∀ key p, r.of key = some p → p.2 < r.entered
  apart : ∀ key key' p p', r.of key = some p → r.of key' = some p' → p.2 = p'.2 → key = key'

omit [LinearOrder σ] in
theorem Ok.empty : ({} : Ranking σ).Ok :=
  ⟨fun _ _ h => (nomatch h), fun _ _ _ _ h => (nomatch h)⟩

theorem Ok.insert {r : Ranking σ} (hr : r.Ok) (key : BlockKey) (score : σ) :
    (r.insert key score).Ok := by
  unfold Ranking.insert
  split
  · exact hr
  · refine ⟨fun k p hp => ?_, fun k k' p p' hp hp' heq => ?_⟩
    · dsimp only at hp ⊢
      rw [Function.update_apply] at hp
      split at hp
      · cases hp
        exact Nat.lt_succ_self _
      · exact Nat.lt_succ_of_lt (hr.below k p hp)
    · -- the key just entered is the only one with the newest place
      dsimp only at hp hp'
      rw [Function.update_apply] at hp hp'
      split at hp <;> split at hp'
      · rename_i hk hk'
        rw [hk, hk']
      · cases hp
        exact absurd heq (Nat.ne_of_gt (hr.below k' p' hp'))
      · cases hp'
        exact absurd heq (Nat.ne_of_lt (hr.below k p hp))
      · exact hr.apart k k' p p' hp hp' heq

omit [LinearOrder σ] in
theorem Ok.remove {r : Ranking σ} (hr : r.Ok) (key : BlockKey) : (r.remove key).Ok := by
  have hof : ∀ k p, (r.remove key).of k = some p → r.of k = some p := by
    intro k p hp
    change Function.update r.of key none k = some p at hp
    rw [Function.update_apply] at hp
    split at hp
    · cases hp
    · exact hp
  exact ⟨fun k p hp => hr.below k p (hof k p hp),
    fun k k' p p' hp hp' => hr.apart k k' p p' (hof k p hp) (hof k' p' hp')⟩

end Ranking

/-! ## The order of entries -/

/-- What two entries are compared by. -/
def EvictionEntry.rank (e : EvictionEntry σ) : σ ×ₗ Nat := toLex (e.score, e.sequence)

theorem EvictionEntry.before_iff {a b : EvictionEntry σ} :
    a.before b = true ↔ a.rank ≤ b.rank := by
  unfold before rank
  rw [Prod.Lex.toLex_le_toLex, Bool.or_eq_true, Bool.and_eq_true]
  simp only [decide_eq_true_eq]

/-- The fold of `heappop` finds a least element. -/
theorem foldl_least (items : List (EvictionEntry σ)) (item : EvictionEntry σ) :
    items.foldl (fun m x => if m.before x then m else x) item ∈ item :: items ∧
    ∀ x ∈ item :: items,
      (items.foldl (fun m x => if m.before x then m else x) item).rank ≤ x.rank := by
  induction items generalizing item with
  | nil =>
    refine ⟨List.mem_singleton_self _, fun x hx => ?_⟩
    rw [List.mem_singleton.mp hx]
    exact le_rfl
  | cons y items ih =>
    rw [List.foldl_cons]
    by_cases hy : item.before y
    · rw [if_pos hy]
      obtain ⟨hmem, hle⟩ := ih item
      refine ⟨?_, fun x hx => ?_⟩
      · rcases List.mem_cons.mp hmem with h | h
        · rw [h]; exact List.mem_cons_self
        · exact List.mem_cons_of_mem _ (List.mem_cons_of_mem _ h)
      · rcases List.mem_cons.mp hx with rfl | hx
        · exact hle _ List.mem_cons_self
        · rcases List.mem_cons.mp hx with rfl | hx
          · exact (hle item List.mem_cons_self).trans (EvictionEntry.before_iff.mp hy)
          · exact hle x (List.mem_cons_of_mem _ hx)
    · rw [if_neg hy]
      obtain ⟨hmem, hle⟩ := ih y
      have hlt : y.rank ≤ item.rank := by
        rw [EvictionEntry.before_iff, not_le] at hy
        exact hy.le
      refine ⟨List.mem_cons_of_mem _ hmem, fun x hx => ?_⟩
      rcases List.mem_cons.mp hx with rfl | hx
      · exact (hle y List.mem_cons_self).trans hlt
      · exact hle x hx

/-- Popping takes a least item out of the heap. -/
theorem heappop_eq_some {heap rest : List (EvictionEntry σ)} {item : EvictionEntry σ}
    (h : heappop heap = some (item, rest)) :
    heap.Perm (item :: rest) ∧ ∀ x ∈ heap, item.rank ≤ x.rank := by
  cases heap with
  | nil => cases h
  | cons first items =>
    obtain ⟨hmem, hle⟩ := foldl_least items first
    cases h
    exact ⟨List.perm_cons_erase hmem, hle⟩

theorem heappop_eq_none {heap : List (EvictionEntry σ)} (h : heappop heap = none) : heap = [] := by
  cases heap with
  | nil => rfl
  | cons first items => cases h

/-! ## One answer of an iteration -/

namespace Candidates

/-- What happens between two answers of an iteration. The popped entries leave the
heap, the live ones among them are held; an answer is a least entry that may be
visited. -/
structure Advance (q : EvictionQueue σ) (c : Candidates σ) (found : Option BlockKey)
    (q' : EvictionQueue σ) (c' : Candidates σ) : Prop where
  live : q'.live = q.live
  next_sequence : q'.next_sequence = q.next_sequence
  excluded : c'.excluded = c.excluded
  moved : ∃ popped, q.heap.Perm (popped ++ q'.heap) ∧
    c'.skipped = c.skipped ++ popped.filter q.is_live
  none : found = none → c'.seen = c.seen ∧ q'.heap = [] ∧
    ∀ e ∈ q.heap, q.is_live e = true → e.key ∈ c.excluded ∨ e.key ∈ c.seen
  some : ∀ key, found = some key → c'.seen = c.seen.insert key ∧
    ∃ item ∈ q.heap, item.key = key ∧ q.is_live item = true ∧
      key ∉ c.excluded ∧ key ∉ c.seen ∧ c'.skipped.getLast? = some item ∧
      (∀ e ∈ q'.heap, item.rank ≤ e.rank) ∧
      ∀ e ∈ q.heap, q.is_live e = true →
        e.key ∈ c.excluded ∨ e.key ∈ c.seen ∨ e = item ∨ e ∈ q'.heap

/-- An entry that may not be visited is popped and the loop goes on. -/
theorem Advance.pass {q q' : EvictionQueue σ} {c c' : Candidates σ} {found : Option BlockKey}
    {item : EvictionEntry σ} {rest : List (EvictionEntry σ)} {kept : List (EvictionEntry σ)}
    (hheap : q.heap.Perm (item :: rest))
    (hkept : kept = [item].filter q.is_live)
    (hpass : q.is_live item = true → item.key ∈ c.excluded ∨ item.key ∈ c.seen)
    (ha : Advance { q with heap := rest } { c with skipped := c.skipped ++ kept } found q' c') :
    Advance q c found q' c' := by
  obtain ⟨popped, hperm, hskipped⟩ := ha.moved
  have hlive : EvictionQueue.is_live { q with heap := rest } = q.is_live := rfl
  have hmem : ∀ e ∈ q.heap, q.is_live e = true →
      e.key ∈ c.excluded ∨ e.key ∈ c.seen ∨ e ∈ rest := by
    intro e he hl
    rcases List.mem_cons.mp (hheap.mem_iff.mp he) with rfl | he
    · exact (hpass hl).imp_right Or.inl
    · exact Or.inr (Or.inr he)
  refine ⟨ha.live, ha.next_sequence, ha.excluded, ⟨item :: popped, ?_, ?_⟩, ?_, ?_⟩
  · exact hheap.trans (hperm.cons item)
  · rw [hskipped, hkept, hlive, List.append_assoc, ← List.filter_append, List.singleton_append]
  · intro hnone
    obtain ⟨hseen, hnil, hall⟩ := ha.none hnone
    refine ⟨hseen, hnil, fun e he hl => ?_⟩
    rcases hmem e he hl with h | h | h
    · exact Or.inl h
    · exact Or.inr h
    · exact hall e h hl
  · intro key hkey
    obtain ⟨hseen, found', hfound, heq, hl, hexcl, hnew, hlast, hleast, hall⟩ := ha.some key hkey
    refine ⟨hseen, found', hheap.mem_iff.mpr (List.mem_cons_of_mem _ hfound), heq, hl, hexcl, hnew,
      hlast, hleast, fun e he hle => ?_⟩
    rcases hmem e he hle with h | h | h
    · exact Or.inl h
    · exact Or.inr (Or.inl h)
    · exact hall e h hle

theorem next_loop_advance (n : Nat) (q : EvictionQueue σ) (c : Candidates σ)
    (hn : q.heap.length ≤ n) :
    Advance q c (next_loop n q c).1 (next_loop n q c).2.1 (next_loop n q c).2.2 := by
  induction n generalizing q c with
  | zero =>
    have hnil : q.heap = [] := List.length_eq_zero_iff.mp (Nat.le_zero.mp hn)
    refine ⟨rfl, rfl, rfl, ⟨[], List.Perm.refl _, (List.append_nil _).symm⟩, fun _ => ?_,
      fun key hkey => nomatch hkey⟩
    exact ⟨rfl, hnil, fun e he => by rw [hnil] at he; cases he⟩
  | succ n ih =>
    unfold next_loop
    cases hpop : heappop q.heap with
    | none =>
      have hnil := heappop_eq_none hpop
      refine ⟨rfl, rfl, rfl, ⟨[], List.Perm.refl _, (List.append_nil _).symm⟩, fun _ => ?_,
        fun key hkey => nomatch hkey⟩
      exact ⟨rfl, hnil, fun e he => by rw [hnil] at he; cases he⟩
    | some p =>
      obtain ⟨item, rest⟩ := p
      obtain ⟨hperm, hleast⟩ := heappop_eq_some hpop
      have hlen : rest.length ≤ n := by
        have := hperm.length_eq
        rw [List.length_cons] at this
        omega
      have hlive : EvictionQueue.is_live { q with heap := rest } item = q.is_live item := rfl
      dsimp only
      rw [hlive]
      split
      · rename_i hl
        have hone : [item] = [item].filter q.is_live := by rw [List.filter_cons, if_pos hl]; rfl
        split
        · rename_i hvisit
          -- the least live entry that may be visited is the answer
          refine ⟨rfl, rfl, rfl, ⟨[item], hperm, by rw [← hone]⟩, fun h => (nomatch h), ?_⟩
          intro key hkey
          cases hkey
          refine ⟨rfl, item, hperm.mem_iff.mpr List.mem_cons_self, rfl, hl, hvisit.1, hvisit.2,
            List.getLast?_append_of_ne_nil _ (List.cons_ne_nil _ _), fun e he => ?_,
            fun e he _ => ?_⟩
          · exact hleast e (hperm.mem_iff.mpr (List.mem_cons_of_mem _ he))
          · exact Or.inr (Or.inr (List.mem_cons.mp (hperm.mem_iff.mp he)))
        · rename_i hvisit
          refine Advance.pass hperm hone (fun _ => ?_) (ih _ _ hlen)
          by_contra hnot
          rw [not_or] at hnot
          exact hvisit hnot
      · rename_i hl
        have hnil : [] = [item].filter q.is_live := by rw [List.filter_cons, if_neg hl]; rfl
        refine Advance.pass hperm hnil (fun h => absurd h hl) ?_
        rw [List.append_nil]
        exact ih _ _ hlen

/-- One answer of an iteration. -/
theorem next_advance (q : EvictionQueue σ) (c : Candidates σ) :
    Advance q c (next q c).1 (next q c).2.1 (next q c).2.2 :=
  next_loop_advance _ q c (Nat.le_refl _)

/-- Closing an iteration touches nothing but the heap. -/
theorem close_eq (q : EvictionQueue σ) (c : Candidates σ) :
    ∃ heap, close q c = { q with heap := heap } ∧
      heap.Perm (q.heap ++ c.skipped.filter q.is_live) := by
  unfold close
  generalize c.skipped = skipped
  induction skipped generalizing q with
  | nil => exact ⟨q.heap, rfl, by rw [List.filter_nil, List.append_nil]⟩
  | cons item skipped ih =>
    rw [List.foldl_cons, List.filter_cons]
    split
    · obtain ⟨heap, heq, hperm⟩ := ih { q with heap := item :: q.heap }
      exact ⟨heap, heq, hperm.trans List.perm_middle.symm⟩
    · exact ih q

theorem close_live {q : EvictionQueue σ} {c : Candidates σ} : (close q c).live = q.live := by
  obtain ⟨heap, heq, -⟩ := close_eq q c
  rw [heq]

end Candidates

namespace EvictionQueue

variable {q : EvictionQueue σ} {key : BlockKey} {score : σ}

/-- An unchanged score returns early, also from compacting the heap. -/
theorem insert_same (h : q.score key = some score) : (q.insert key score).1 = q := by
  unfold insert
  dsimp only
  rw [if_pos (show (q.live.get? key).map (·.score) = some score from h)]

/-- A new key or score enters one entry. The heap may be compacted, which loses no
current entry and leaves nothing else. -/
theorem insert_changed (h : q.score key ≠ some score) :
    ∃ heap, (q.insert key score).1 =
        { heap, live := q.live.set key ⟨score, q.next_sequence, key⟩,
          next_sequence := q.next_sequence + 1 } ∧
      heap.Sublist (⟨score, q.next_sequence, key⟩ :: q.heap) ∧
      (∀ e, (q.live.set key ⟨score, q.next_sequence, key⟩).get? e.key = some e →
        heap.count e = (⟨score, q.next_sequence, key⟩ :: q.heap).count e) ∧
      (heap.length ≤ 2 * (q.insert key score).1.size ∨
        ∀ e ∈ heap, (q.insert key score).1.is_live e = true) := by
  unfold insert
  dsimp only
  rw [if_neg (show (q.live.get? key).map (·.score) ≠ some score from h)]
  dsimp only
  split
  · refine ⟨_, rfl, List.filter_sublist,
      fun e he => List.count_filter (decide_eq_true he), Or.inr ?_⟩
    exact fun e he => (List.mem_filter.mp he).2
  · rename_i hlen
    exact ⟨_, rfl, List.Sublist.refl _, fun _ _ => rfl, Or.inl (Nat.not_lt.mp hlen)⟩

theorem insert_get?_ne {key' : BlockKey} (hne : key' ≠ key) :
    (q.insert key score).1.live.get? key' = q.live.get? key' := by
  by_cases h : q.score key = some score
  · rw [insert_same h]
  · obtain ⟨heap, heq, -⟩ := insert_changed h
    rw [heq]
    exact Dict.get?_set_ne _ _ hne

theorem insert_size : (q.insert key score).1.size ≤ q.size + 1 := by
  by_cases h : q.score key = some score
  · rw [insert_same h]
    exact Nat.le_succ _
  · obtain ⟨heap, heq, -⟩ := insert_changed h
    rw [heq]
    exact Dict.length_set_le _ _ _

end EvictionQueue

/-! ## A queue and its iterations -/

/-- One iteration: the generator, whether it still runs, and what it has answered. -/
structure Iteration (σ : Type) where
  candidates : Candidates σ
  running : Bool := true
  yielded : List BlockKey := []

/-- The entries a running iteration holds; a closed one has given them back. -/
def Iteration.held (it : Iteration σ) : List (EvictionEntry σ) :=
  if it.running then it.candidates.skipped else []

/-- A queue and every iteration that was opened on it. -/
structure Browsing (σ : Type) where
  queue : EvictionQueue σ := {}
  iterations : List (Iteration σ) := []

namespace Browsing

/-- `generator.close()`; closing a closed generator does nothing. -/
def close (b : Browsing σ) (i : Nat) : Browsing σ :=
  match b.iterations[i]? with
  | some it =>
    if it.running then
      { queue := it.candidates.close b.queue
        iterations := b.iterations.set i { it with running := false } }
    else b
  | none => b

/-- `next(generator, None)`. A generator that runs out executes its `finally` block,
and answers nothing from then on. -/
def next (b : Browsing σ) (i : Nat) : Option BlockKey × Browsing σ :=
  match b.iterations[i]? with
  | some it =>
    if it.running then
      match it.candidates.next b.queue with
      | (some key, queue, candidates) =>
        (some key,
          { queue
            iterations := b.iterations.set i
              { it with candidates, yielded := it.yielded ++ [key] } })
      | (none, queue, candidates) =>
        (none, close { queue, iterations := b.iterations.set i { it with candidates } } i)
    else (none, b)
  | none => (none, b)

/-- No iteration is open. -/
def Idle (b : Browsing σ) : Prop := ∀ it ∈ b.iterations, it.running = false

end Browsing

/-- What can be done with a queue. -/
inductive QueueCall (σ : Type) where
  | insert (key : BlockKey) (score : σ)
  | remove (key : BlockKey)
  | score (key : BlockKey)
  | candidates (excluded : List BlockKey)
  | next (i : Nat)
  | close (i : Nat)
deriving DecidableEq

def Browsing.call (b : Browsing σ) : QueueCall σ → Browsing σ
  | .insert key score => { b with queue := (b.queue.insert key score).1 }
  | .remove key => { b with queue := (b.queue.remove key).1 }
  | .score _ => b
  | .candidates excluded =>
    { b with iterations := b.iterations ++ [{ candidates := { excluded } }] }
  | .next i => (b.next i).2
  | .close i => b.close i

/-- The queue and the iterations after a sequence of calls. -/
def browse (calls : List (QueueCall σ)) : Browsing σ := calls.foldl Browsing.call {}

theorem browse_append (calls more : List (QueueCall σ)) :
    browse (calls ++ more) = more.foldl Browsing.call (browse calls) :=
  List.foldl_append

def Ranking.call (r : Ranking σ) : QueueCall σ → Ranking σ
  | .insert key score => r.insert key score
  | .remove key => r.remove key
  | _ => r

/-- The ranking a sequence of calls leaves. -/
def ranking (calls : List (QueueCall σ)) : Ranking σ := calls.foldl Ranking.call {}

namespace Browsing

/-- Every entry the heap or a running iteration has. -/
def held (b : Browsing σ) : List (EvictionEntry σ) :=
  b.queue.heap ++ b.iterations.flatMap Iteration.held

/-- The queue keeps the ranking, and every current entry is in one place. -/
structure Ok (b : Browsing σ) (r : Ranking σ) : Prop where
  live : ∀ key, b.queue.live.get? key = (r.of key).map fun p => ⟨p.1, p.2, key⟩
  entered : b.queue.next_sequence = r.entered
  older : ∀ e ∈ b.held, e.sequence < r.entered
  once : ∀ e, b.queue.is_live e = true → b.held.count e = 1
  yielded : ∀ it ∈ b.iterations, it.yielded = it.candidates.seen.elems

variable {b : Browsing σ} {r : Ranking σ}

theorem Ok.is_live_iff (hb : b.Ok r) {e : EvictionEntry σ} :
    b.queue.is_live e = true ↔ r.of e.key = some (e.score, e.sequence) := by
  unfold EvictionQueue.is_live
  rw [decide_eq_true_iff, hb.live]
  cases r.of e.key with
  | none => exact ⟨fun h => (nomatch h), fun h => (nomatch h)⟩
  | some p =>
    obtain ⟨score, place⟩ := p
    obtain ⟨_, _, _⟩ := e
    simp

theorem Ok.score (hb : b.Ok r) (key : BlockKey) :
    b.queue.score key = (r.of key).map Prod.fst := by
  unfold EvictionQueue.score
  rw [hb.live, Option.map_map]
  rfl

omit [LinearOrder σ] in
/-- One iteration can be taken out, whatever becomes of it and of the heap. -/
theorem held_set {i : Nat} {it : Iteration σ} (hit : b.iterations[i]? = some it) :
    ∃ others, b.held.Perm (b.queue.heap ++ (it.held ++ others)) ∧
      ∀ (queue : EvictionQueue σ) (it' : Iteration σ),
        (held { queue, iterations := b.iterations.set i it' }).Perm
          (queue.heap ++ (it'.held ++ others)) := by
  obtain ⟨hi, rfl⟩ := List.getElem?_eq_some_iff.mp hit
  refine ⟨(b.iterations.eraseIdx i).flatMap Iteration.held, ?_, fun queue it' => ?_⟩
  · exact ((List.getElem_cons_eraseIdx_perm hi).symm.flatMap_right _).append_left _
  · exact ((List.set_perm_cons_eraseIdx hi it').flatMap_right _).append_left _

/-! ### Every call keeps the invariant -/

theorem Ok.empty : ({} : Browsing σ).Ok {} where
  live := fun _ => rfl
  entered := rfl
  older := fun _ he => (nomatch he)
  once := fun _ he => (nomatch he)
  yielded := fun _ hit => (nomatch hit)

theorem Ok.insert (hb : b.Ok r) (key : BlockKey) (score : σ) :
    Ok { b with queue := (b.queue.insert key score).1 } (r.insert key score) := by
  unfold Ranking.insert
  rw [← hb.score key]
  split
  · rename_i hsame
    rw [EvictionQueue.insert_same hsame]
    exact hb
  · rename_i hchanged
    obtain ⟨heap, heq, hsub, hcount, _⟩ := EvictionQueue.insert_changed hchanged
    rw [heq, hb.entered]
    rw [hb.entered] at hsub hcount
    have hnew : (⟨score, r.entered, key⟩ : EvictionEntry σ) ∉ b.held :=
      fun hmem => Nat.lt_irrefl _ (hb.older _ hmem)
    refine ⟨fun k => ?_, rfl, fun e he => ?_, fun e he => ?_, hb.yielded⟩
    · dsimp only
      rw [Dict.get?_set, Function.update_apply, hb.live]
      split
      · rename_i hk
        rw [hk]
        rfl
      · rfl
    · rcases List.mem_append.mp he with he | he
      · rcases List.mem_cons.mp (hsub.subset he) with rfl | he
        · exact Nat.lt_succ_self _
        · exact Nat.lt_succ_of_lt (hb.older e (List.mem_append_left _ he))
      · exact Nat.lt_succ_of_lt (hb.older e (List.mem_append_right _ he))
    · -- the new entry was nowhere before; any other current entry was current before
      have hget := of_decide_eq_true he
      unfold held
      dsimp only
      rw [List.count_append, hcount e hget, ← List.count_append, List.cons_append, ← held,
        List.count_cons]
      rw [Dict.get?_set] at hget
      split at hget
      · cases hget
        rw [List.count_eq_zero_of_not_mem hnew, if_pos (beq_self_eq_true _)]
      · rename_i hk
        rw [if_neg, hb.once e (decide_eq_true hget)]
        intro hbeq
        exact hk (by rw [← eq_of_beq hbeq])

theorem Ok.remove (hb : b.Ok r) (key : BlockKey) :
    Ok { b with queue := (b.queue.remove key).1 } (r.remove key) := by
  have hget : ∀ k, (b.queue.remove key).1.live.get? k =
      if k = key then none else b.queue.live.get? k := Dict.get?_erase _ _
  refine ⟨fun k => ?_, hb.entered, hb.older, fun e he => hb.once e ?_, hb.yielded⟩
  · dsimp only [Ranking.remove]
    rw [hget, Function.update_apply, hb.live]
    split <;> rfl
  · have he := of_decide_eq_true he
    rw [hget] at he
    split at he
    · cases he
    · exact decide_eq_true he

theorem Ok.candidates (hb : b.Ok r) (excluded : List BlockKey) :
    Ok { b with iterations := b.iterations ++ [{ candidates := { excluded } }] } r := by
  have hheld : held { b with iterations := b.iterations ++ [{ candidates := { excluded } }] } =
      b.held := by
    unfold held
    rw [List.flatMap_append]
    exact congrArg _ (List.append_nil _)
  refine ⟨hb.live, hb.entered, ?_, ?_, fun it hit => ?_⟩
  · rw [hheld]
    exact hb.older
  · rw [hheld]
    exact hb.once
  · rcases List.mem_append.mp hit with hit | hit
    · exact hb.yielded it hit
    · rw [List.mem_singleton.mp hit]
      rfl

/-- Moving entries between the heap and one iteration, dropping stale ones. -/
theorem Ok.shift (hb : b.Ok r) {i : Nat} {it it' : Iteration σ} {queue : EvictionQueue σ}
    (hit : b.iterations[i]? = some it) (hlive : queue.live = b.queue.live)
    (hnext : queue.next_sequence = b.queue.next_sequence)
    (hsub : queue.heap ++ it'.held ⊆ b.queue.heap ++ it.held)
    (hcount : ∀ e, b.queue.is_live e = true →
      (queue.heap ++ it'.held).count e = (b.queue.heap ++ it.held).count e)
    (hyield : it'.yielded = it'.candidates.seen.elems) :
    Ok { queue, iterations := b.iterations.set i it' } r := by
  obtain ⟨others, hbefore, hafter⟩ := held_set hit
  refine ⟨fun k => ?_, hnext.trans hb.entered, fun e he => ?_, fun e he => ?_, fun x hx => ?_⟩
  · rw [hlive]
    exact hb.live k
  · have he := (hafter queue it').mem_iff.mp he
    rw [← List.append_assoc, List.mem_append] at he
    refine hb.older e (hbefore.mem_iff.mpr ?_)
    rw [← List.append_assoc, List.mem_append]
    exact he.imp_left fun h => hsub h
  · have he : b.queue.is_live e = true := by
      unfold EvictionQueue.is_live at he ⊢
      rwa [hlive] at he
    rw [(hafter queue it').count_eq, ← List.append_assoc, List.count_append, hcount e he,
      ← List.count_append, List.append_assoc, ← hbefore.count_eq]
    exact hb.once e he
  · rcases List.mem_or_eq_of_mem_set hx with hx | rfl
    · exact hb.yielded x hx
    · exact hyield

theorem Ok.close (hb : b.Ok r) (i : Nat) : (b.close i).Ok r := by
  unfold Browsing.close
  cases hit : b.iterations[i]? with
  | none => exact hb
  | some it =>
    dsimp only
    split
    · rename_i hrun
      obtain ⟨heap, heq, hperm⟩ := Candidates.close_eq b.queue it.candidates
      rw [heq]
      refine hb.shift hit rfl rfl ?_ (fun e he => ?_) ?_
      · dsimp only [Iteration.held]
        rw [if_neg (by simp), List.append_nil]
        intro e he
        rw [if_pos hrun]
        exact ((List.filter_sublist).append_left b.queue.heap).subset (hperm.mem_iff.mp he)
      · dsimp only [Iteration.held]
        rw [if_neg (by simp), List.append_nil, hperm.count_eq, List.count_append,
          List.count_filter he, ← List.count_append, if_pos hrun]
      · exact hb.yielded it (List.mem_of_getElem? hit)
    · exact hb

/-- An answer, before the generator that ran out is closed. -/
theorem Ok.advance (hb : b.Ok r) {i : Nat} {it : Iteration σ} {found : Option BlockKey}
    {queue : EvictionQueue σ} {candidates : Candidates σ} (hit : b.iterations[i]? = some it)
    (hrun : it.running = true)
    (ha : Candidates.Advance b.queue it.candidates found queue candidates) :
    Ok { queue
         iterations := b.iterations.set i
           { it with candidates, yielded := it.yielded ++ found.toList } } r := by
  obtain ⟨popped, hperm, hskipped⟩ := ha.moved
  have hheld : it.held = it.candidates.skipped := if_pos hrun
  have hheld' : Iteration.held { it with candidates, yielded := it.yielded ++ found.toList } =
      it.candidates.skipped ++ popped.filter b.queue.is_live := (if_pos hrun).trans hskipped
  refine hb.shift hit ha.live ha.next_sequence ?_ (fun e he => ?_) ?_
  · rw [hheld', hheld]
    intro e he
    rw [List.mem_append, List.mem_append, List.mem_filter] at he
    rw [List.mem_append, hperm.mem_iff, List.mem_append]
    tauto
  · rw [hheld', hheld, List.count_append, List.count_append, List.count_append, hperm.count_eq,
      List.count_append, List.count_filter he]
    omega
  · have hyield := hb.yielded it (List.mem_of_getElem? hit)
    dsimp only
    cases found with
    | none => rw [(ha.none rfl).1, hyield, Option.toList_none, List.append_nil]
    | some key =>
      obtain ⟨hseen, _, _, _, _, _, hnew, _⟩ := ha.some key rfl
      rw [hseen, hyield]
      exact (OrderedSet.insert_elems hnew).symm

omit r in
/-- The two things an answer can be, and what asking a closed generator does. -/
theorem next_cases (b : Browsing σ) (i : Nat) :
    (b.next i = (none, b) ∧ ∀ it, b.iterations[i]? = some it → it.running = false) ∨
    ∃ it queue candidates, b.iterations[i]? = some it ∧ it.running = true ∧
      ((Candidates.Advance b.queue it.candidates none queue candidates ∧
          b.next i = (none,
            close { queue, iterations := b.iterations.set i { it with candidates } } i)) ∨
        ∃ key, Candidates.Advance b.queue it.candidates (some key) queue candidates ∧
          b.next i = (some key,
            { queue
              iterations := b.iterations.set i
                { it with candidates, yielded := it.yielded ++ [key] } })) := by
  unfold Browsing.next
  cases hit : b.iterations[i]? with
  | none => exact Or.inl ⟨rfl, fun it h => (nomatch h)⟩
  | some it =>
    cases hrun : it.running with
    | false =>
      refine Or.inl ⟨if_neg (by rw [hrun]; exact Bool.false_ne_true), fun it' h => ?_⟩
      cases h
      exact hrun
    | true =>
      dsimp only
      rw [if_pos hrun]
      have ha := Candidates.next_advance b.queue it.candidates
      revert ha
      generalize Candidates.next b.queue it.candidates = answer
      obtain ⟨found, queue, candidates⟩ := answer
      intro ha
      refine Or.inr ⟨it, queue, candidates, rfl, hrun, ?_⟩
      cases found with
      | none => exact Or.inl ⟨ha, rfl⟩
      | some key => exact Or.inr ⟨key, ha, rfl⟩

theorem Ok.next (hb : b.Ok r) (i : Nat) : (b.next i).2.Ok r := by
  obtain ⟨heq, -⟩ | ⟨it, queue, candidates, hit, hrun, ⟨ha, heq⟩ | ⟨key, ha, heq⟩⟩ := b.next_cases i
  · rw [heq]
    exact hb
  · rw [heq]
    have hok := hb.advance hit hrun ha
    rw [Option.toList_none, List.append_nil] at hok
    exact hok.close i
  · rw [heq]
    exact hb.advance hit hrun ha

theorem Ok.call (hb : b.Ok r) (c : QueueCall σ) : (b.call c).Ok (r.call c) := by
  cases c with
  | insert key score => exact hb.insert key score
  | remove key => exact hb.remove key
  | score key => exact hb
  | candidates excluded => exact hb.candidates excluded
  | next i => exact hb.next i
  | close i => exact hb.close i

end Browsing

theorem Ranking.Ok.call {r : Ranking σ} (hr : r.Ok) (c : QueueCall σ) : (r.call c).Ok := by
  cases c with
  | insert key score => exact hr.insert key score
  | remove key => exact hr.remove key
  | score | candidates | next | close => exact hr

/-- Whatever is done with it, the queue keeps the ranking. -/
theorem browse_ok (calls : List (QueueCall σ)) :
    (browse calls).Ok (ranking calls) ∧ (ranking calls).Ok := by
  unfold browse ranking
  induction calls using List.reverseRecOn with
  | nil => exact ⟨Browsing.Ok.empty, Ranking.Ok.empty⟩
  | append_singleton calls c ih =>
    rw [List.foldl_concat, List.foldl_concat]
    exact ⟨ih.1.call c, ih.2.call c⟩

/-! ## The order of an undisturbed iteration -/

/-- What an iteration is still going to visit, in order. -/
structure Candidates.Pending (q : EvictionQueue σ) (c : Candidates σ)
    (items : List (EvictionEntry σ)) : Prop where
  sorted : items.Pairwise fun a b => a.rank < b.rank
  mem : ∀ e, e ∈ items ↔
    e ∈ q.heap ∧ q.is_live e = true ∧ e.key ∉ c.excluded ∧ e.key ∉ c.seen

namespace Candidates.Pending

variable {q q' : EvictionQueue σ} {c c' : Candidates σ} {items : List (EvictionEntry σ)}

theorem nil_of_none (hp : Pending q c items) (ha : Advance q c none q' c') : items = [] := by
  refine List.eq_nil_iff_forall_not_mem.mpr fun e he => ?_
  obtain ⟨hheap, hlive, hexcluded, hseen⟩ := (hp.mem e).mp he
  exact ((ha.none rfl).2.2 e hheap hlive).elim hexcluded hseen

/-- The answer is the first pending entry, and the rest stays pending. -/
theorem cons_of_some (hp : Pending q c items) {key : BlockKey} (ha : Advance q c (some key) q' c') :
    ∃ item rest, items = item :: rest ∧ item.key = key ∧ Pending q' c' rest := by
  obtain ⟨hseen, item, hitem, rfl, hlive, hexcl, hnew, -, hleast, hall⟩ := ha.some key rfl
  have hmem : item ∈ items := (hp.mem item).mpr ⟨hitem, hlive, hexcl, hnew⟩
  have hlive' : ∀ e, q'.is_live e = q.is_live e := by
    intro e
    unfold EvictionQueue.is_live
    rw [ha.live]
  -- a pending entry other than the answer is still in the heap
  have hother : ∀ e ∈ items, e ≠ item → e ∈ q'.heap := by
    intro e he hne
    obtain ⟨hheap, hl, hx, hs⟩ := (hp.mem e).mp he
    rcases hall e hheap hl with h | h | h | h
    · exact absurd h hx
    · exact absurd h hs
    · exact absurd h hne
    · exact h
  cases items with
  | nil => cases hmem
  | cons first rest =>
    obtain ⟨hfirst, hsorted⟩ := List.pairwise_cons.mp hp.sorted
    have heq : first = item := by
      by_contra hne
      have hlt := hfirst item ((List.mem_cons.mp hmem).resolve_left (Ne.symm hne))
      exact absurd (hleast first (hother first List.mem_cons_self hne)) (not_le.mpr hlt)
    subst heq
    refine ⟨first, rest, rfl, rfl, hsorted, fun e => ?_⟩
    rw [ha.excluded, hseen, OrderedSet.mem_insert, not_or, hlive']
    constructor
    · intro he
      have hne : e ≠ first := fun h => lt_irrefl _ (h ▸ hfirst e he)
      obtain ⟨_, hl, hx, hs⟩ := (hp.mem e).mp (List.mem_cons_of_mem _ he)
      refine ⟨hother e (List.mem_cons_of_mem _ he) hne, hl, hx, fun hkey => hne ?_, hs⟩
      have hget := of_decide_eq_true hl
      rw [hkey, of_decide_eq_true hlive] at hget
      exact (Option.some.inj hget).symm
    · rintro ⟨hheap, hl, hx, hkey, hs⟩
      obtain ⟨popped, hperm, -⟩ := ha.moved
      have he := (hp.mem e).mpr
        ⟨hperm.mem_iff.mpr (List.mem_append_right _ hheap), hl, hx, hs⟩
      exact (List.mem_cons.mp he).resolve_left fun h => hkey (by rw [h])

end Candidates.Pending

namespace Browsing

variable {b : Browsing σ} {r : Ranking σ}

/-- The iteration has answered `done` and is going to visit `items`. -/
def Visits (b : Browsing σ) (i : Nat) (done : List BlockKey) (items : List (EvictionEntry σ)) :
    Prop :=
  ∃ it, b.iterations[i]? = some it ∧ it.yielded = done ∧
    if it.running then it.candidates.Pending b.queue items else items = []

omit r in
theorem Visits.next {i : Nat} {done : List BlockKey} {items : List (EvictionEntry σ)}
    (hv : b.Visits i done items) :
    (b.next i).2.Visits i (done ++ (items.take 1).map (·.key)) (items.drop 1) := by
  obtain ⟨it, hit, hdone, hitems⟩ := hv
  have hlen : i < b.iterations.length := (List.getElem?_eq_some_iff.mp hit).1
  obtain ⟨heq, hclosed⟩ | ⟨it', queue, candidates, hit', hrun, hanswer⟩ := b.next_cases i
  · rw [if_neg (by rw [hclosed it hit]; exact Bool.false_ne_true)] at hitems
    rw [heq, hitems]
    refine ⟨it, hit, by rw [hdone]; exact (List.append_nil _).symm, ?_⟩
    rw [if_neg (by rw [hclosed it hit]; exact Bool.false_ne_true)]
    rfl
  · cases hit.symm.trans hit'
    rw [if_pos hrun] at hitems
    rcases hanswer with ⟨ha, heq⟩ | ⟨key, ha, heq⟩
    · rw [hitems.nil_of_none ha, heq]
      refine ⟨{ it with candidates, running := false }, ?_, ?_, rfl⟩
      swap
      · exact hdone.trans (List.append_nil _).symm
      dsimp only [close]
      rw [List.getElem?_set_self hlen]
      dsimp only
      rw [if_pos hrun, List.getElem?_set_self]
      rw [List.length_set]
      exact hlen
    · obtain ⟨item, rest, rfl, rfl, hrest⟩ := hitems.cons_of_some ha
      rw [heq]
      refine ⟨_, List.getElem?_set_self hlen, by rw [hdone]; rfl, ?_⟩
      rw [if_pos hrun]
      exact hrest

omit r in
/-- The run of an iteration that nothing disturbs. -/
theorem Visits.browse {i : Nat} (more : List (QueueCall σ))
    (hmore : ∀ c ∈ more, c = .next i ∨ ∃ key, c = .score key)
    {done : List BlockKey} {items : List (EvictionEntry σ)} (hv : b.Visits i done items) :
    (more.foldl Browsing.call b).Visits i
      (done ++ (items.take (more.count (.next i))).map (·.key))
      (items.drop (more.count (.next i))) := by
  induction more generalizing b done items with
  | nil => simpa using hv
  | cons c more ih =>
    rw [List.foldl_cons]
    have hrest := fun c' hc' => hmore c' (List.mem_cons_of_mem c hc')
    rcases hmore c List.mem_cons_self with rfl | ⟨key, rfl⟩
    · have hstep := ih hrest hv.next
      rw [List.append_assoc, ← List.map_append, ← List.take_add, List.drop_drop] at hstep
      rw [List.count_cons_self, Nat.add_comm]
      exact hstep
    · rw [List.count_cons_of_ne (by simp)]
      exact ih hrest hv

/-- With no iteration open, every current entry is in the heap, once. -/
theorem Ok.count_heap (hb : b.Ok r) (hidle : b.Idle) {e : EvictionEntry σ}
    (he : b.queue.is_live e = true) : b.queue.heap.count e = 1 := by
  have hnone : b.iterations.flatMap Iteration.held = [] := by
    refine List.flatMap_eq_nil_iff.mpr fun it hit => ?_
    unfold Iteration.held
    rw [if_neg (by rw [hidle it hit]; exact Bool.false_ne_true)]
  have honce := hb.once e he
  unfold held at honce
  rwa [hnone, List.append_nil] at honce

/-- Two current entries are never tied. -/
theorem Ok.rank_inj (hb : b.Ok r) (hr : r.Ok) {e e' : EvictionEntry σ}
    (he : b.queue.is_live e = true) (he' : b.queue.is_live e' = true) (h : e.rank = e'.rank) :
    e = e' := by
  have hpair := toLex_inj.mp h
  rw [Prod.mk.injEq] at hpair
  rw [hb.is_live_iff] at he he'
  have hkey := hr.apart _ _ _ _ he he' hpair.2
  obtain ⟨_, _, _⟩ := e
  obtain ⟨_, _, _⟩ := e'
  simp_all

theorem Ok.mem_heap (hb : b.Ok r) (hidle : b.Idle) {e : EvictionEntry σ}
    (he : b.queue.is_live e = true) : e ∈ b.queue.heap :=
  List.count_pos_iff.mp (by rw [hb.count_heap hidle he]; exact Nat.one_pos)

/-- The ranked keys that are not excluded, in order. -/
theorem Ok.exists_sorted (hb : b.Ok r) (hr : r.Ok) (hidle : b.Idle) (excluded : List BlockKey) :
    ∃ items : List (EvictionEntry σ),
      items.Pairwise (fun a b => a.rank < b.rank) ∧
      ∀ e, e ∈ items ↔ r.of e.key = some (e.score, e.sequence) ∧ e.key ∉ excluded := by
  let current := b.queue.heap.filter fun e => b.queue.is_live e && decide (e.key ∉ excluded)
  have hmem : ∀ e, e ∈ current ↔
      e ∈ b.queue.heap ∧ b.queue.is_live e = true ∧ e.key ∉ excluded := by
    intro e
    simp only [current, List.mem_filter, Bool.and_eq_true, decide_eq_true_eq]
  have hnodup : current.Nodup := by
    refine List.nodup_iff_count_le_one.mpr fun e => ?_
    by_cases he : e ∈ current
    · have hlive := ((hmem e).mp he).2.1
      have hle := (List.filter_sublist : current.Sublist b.queue.heap).count_le e
      rwa [hb.count_heap hidle hlive] at hle
    · rw [List.count_eq_zero_of_not_mem he]
      exact Nat.zero_le 1
  have hperm : (current.mergeSort EvictionEntry.before).Perm current := List.mergeSort_perm _ _
  refine ⟨current.mergeSort EvictionEntry.before, ?_, fun e => ?_⟩
  · have hsorted : (current.mergeSort EvictionEntry.before).Pairwise fun a b =>
        a.before b = true := by
      refine List.pairwise_mergeSort (fun a b c hab hbc => ?_) (fun a b => ?_) current
      · rw [EvictionEntry.before_iff] at hab hbc ⊢
        exact hab.trans hbc
      · rw [Bool.or_eq_true, EvictionEntry.before_iff, EvictionEntry.before_iff]
        exact le_total _ _
    refine (hsorted.and (hperm.nodup_iff.mpr hnodup)).imp_of_mem ?_
    rintro e e' he he' ⟨hle, hne⟩
    refine lt_of_le_of_ne (EvictionEntry.before_iff.mp hle) fun heq => hne ?_
    exact hb.rank_inj hr ((hmem e).mp (hperm.mem_iff.mp he)).2.1
      ((hmem e').mp (hperm.mem_iff.mp he')).2.1 heq
  · rw [hperm.mem_iff, hmem, ← hb.is_live_iff]
    refine ⟨And.right, fun h => ⟨?_, h⟩⟩
    exact hb.mem_heap hidle h.1

/-- What a new iteration is going to visit. -/
theorem Ok.pending (hb : b.Ok r) (hidle : b.Idle) {excluded : List BlockKey}
    {items : List (EvictionEntry σ)} (hsorted : items.Pairwise fun a b => a.rank < b.rank)
    (hitems : ∀ e, e ∈ items ↔ r.of e.key = some (e.score, e.sequence) ∧ e.key ∉ excluded) :
    Candidates.Pending b.queue { excluded } items := by
  refine ⟨hsorted, fun e => ?_⟩
  rw [hitems, ← hb.is_live_iff]
  constructor
  · exact fun h => ⟨hb.mem_heap hidle h.1, h.1, h.2, OrderedSet.notMem_empty _⟩
  · exact fun h => ⟨h.2.1, h.2.2.1⟩

theorem Ok.visits (hb : b.Ok r) (hidle : b.Idle) {excluded : List BlockKey}
    {items : List (EvictionEntry σ)} (hsorted : items.Pairwise fun a b => a.rank < b.rank)
    (hitems : ∀ e, e ∈ items ↔ r.of e.key = some (e.score, e.sequence) ∧ e.key ∉ excluded) :
    (b.call (.candidates excluded)).Visits b.iterations.length [] items := by
  refine ⟨{ candidates := { excluded } }, List.getElem?_concat_length, rfl, ?_⟩
  rw [if_pos rfl]
  exact hb.pending hidle hsorted hitems

/-- With no iteration open, a ranked key has one current entry in the heap. -/
theorem Ok.current (hb : b.Ok r) (hidle : b.Idle) (key : BlockKey) :
    (b.queue.heap.filter fun e => decide (e.key = key) && b.queue.is_live e) =
      (r.of key).toList.map fun p => ⟨p.1, p.2, key⟩ := by
  have hiff : ∀ e, (decide (e.key = key) && b.queue.is_live e) = true ↔
      e.key = key ∧ r.of key = some (e.score, e.sequence) := by
    intro e
    rw [Bool.and_eq_true, decide_eq_true_iff, hb.is_live_iff]
    refine and_congr_right fun hkey => ?_
    rw [hkey]
  cases hof : r.of key with
  | none =>
    refine List.filter_eq_nil_iff.mpr fun e _ h => ?_
    rw [hiff, hof] at h
    cases h.2
  | some p =>
    have hlive : b.queue.is_live ⟨p.1, p.2, key⟩ = true := hb.is_live_iff.mpr hof
    have hcongr : ∀ e ∈ b.queue.heap, (decide (e.key = key) && b.queue.is_live e) =
        decide (e = ⟨p.1, p.2, key⟩) := by
      intro e _
      rw [Bool.eq_iff_iff, hiff, hof, decide_eq_true_iff]
      obtain ⟨score, place⟩ := p
      obtain ⟨_, _, _⟩ := e
      simp only [Option.some.injEq, Prod.mk.injEq, EvictionEntry.mk.injEq]
      tauto
    rw [List.filter_congr hcongr, List.filter_eq, hb.count_heap hidle hlive]
    rfl

/-- Entering an entry leaves at most one stale entry for every current one. -/
theorem Ok.heap_bound (hb : b.Ok r) {key : BlockKey} {score : σ}
    (h : b.queue.score key ≠ some score) :
    (b.queue.insert key score).1.heap.length ≤ 2 * (b.queue.insert key score).1.size := by
  have hok := hb.insert key score
  obtain ⟨heap, heq, -, -, hcases⟩ := EvictionQueue.insert_changed h
  have hheap : (b.queue.insert key score).1.heap = heap := by rw [heq]
  rw [hheap]
  rcases hcases with hlen | hall
  · exact hlen
  · -- after a compaction the heap has nothing but current entries, each once
    have hnodup : heap.Nodup := by
      refine List.nodup_iff_count_le_one.mpr fun e => ?_
      by_cases he : e ∈ heap
      · have honce := hok.once e (hall e he)
        unfold held at honce
        dsimp only at honce
        rw [hheap, List.count_append] at honce
        omega
      · rw [List.count_eq_zero_of_not_mem he]
        exact Nat.zero_le 1
    have hsub : heap ⊆ (b.queue.insert key score).1.live.values := by
      intro e he
      have hget := Dict.get?_eq_some.mp (of_decide_eq_true (hall e he))
      exact List.mem_map.mpr ⟨_, hget, rfl⟩
    have hle := (hnodup.subperm hsub).length_le
    unfold Dict.values at hle
    rw [List.length_map] at hle
    unfold EvictionQueue.size
    omega

end Browsing

/-! ## One iteration at a time -/

namespace EvictionQueue

/-- The queue is one that its own calls leave, with no iteration open. -/
def Settled (q : EvictionQueue σ) : Prop := ∃ calls, (browse calls).Idle ∧ (browse calls).queue = q

/-- The queue and the iteration are as their own calls leave them, and no other iteration is
open. -/
def Scanned (q : EvictionQueue σ) (c : Candidates σ) : Prop :=
  ∃ calls closed yielded, (∀ it ∈ closed, Iteration.running it = false) ∧
    browse calls = { queue := q, iterations := closed ++ [{ candidates := c, yielded := yielded }] }

variable {q q' : EvictionQueue σ} {c c' : Candidates σ}

theorem Settled.insert (h : q.Settled) (key : BlockKey) (score : σ) :
    (q.insert key score).1.Settled := by
  obtain ⟨calls, hidle, rfl⟩ := h
  exact ⟨calls ++ [.insert key score], by rw [browse_append]; exact hidle,
    by rw [browse_append]; rfl⟩

theorem Settled.remove (h : q.Settled) (key : BlockKey) : (q.remove key).1.Settled := by
  obtain ⟨calls, hidle, rfl⟩ := h
  exact ⟨calls ++ [.remove key], by rw [browse_append]; exact hidle, by rw [browse_append]; rfl⟩

/-- An iteration is opened. -/
theorem Settled.scan (h : q.Settled) (excluded : List BlockKey) :
    q.Scanned { excluded := excluded } := by
  obtain ⟨calls, hidle, rfl⟩ := h
  exact ⟨calls ++ [.candidates excluded], (browse calls).iterations, [], hidle,
    by rw [browse_append]; rfl⟩

/-- Closing the iteration that was opened last. -/
theorem close_last {closed : List (Iteration σ)} {yielded : List BlockKey} :
    Browsing.close
        { queue := q, iterations := closed ++ [{ candidates := c, yielded := yielded }] }
        closed.length =
      { queue := c.close q
        iterations :=
          closed ++ [{ candidates := c, running := false, yielded := yielded }] } := by
  rw [Browsing.close, List.getElem?_concat_length]
  dsimp only
  rw [if_pos rfl, List.set_append_right _ _ (Nat.le_refl _), Nat.sub_self]
  rfl

/-- With all iterations closed the queue is settled. -/
theorem settled_of_closed {calls : List (QueueCall σ)} {closed : List (Iteration σ)}
    {it : Iteration σ} (hbrowse : browse calls = { queue := q, iterations := closed ++ [it] })
    (hclosed : ∀ it' ∈ closed, it'.running = false) (hit : it.running = false) : q.Settled := by
  refine ⟨calls, fun it' hit' => ?_, by rw [hbrowse]⟩
  rw [hbrowse] at hit'
  rcases List.mem_append.mp hit' with hit' | hit'
  · exact hclosed it' hit'
  · rw [List.mem_singleton.mp hit', hit]

/-- The iteration answers. -/
theorem Scanned.next {key : BlockKey} (h : q.Scanned c) (hnext : c.next q = (some key, q', c')) :
    q'.Scanned c' := by
  obtain ⟨calls, closed, yielded, hclosed, hbrowse⟩ := h
  refine ⟨calls ++ [.next closed.length], closed, yielded ++ [key], hclosed, ?_⟩
  rw [browse_append, hbrowse, List.foldl_cons, List.foldl_nil, Browsing.call, Browsing.next,
    List.getElem?_concat_length]
  dsimp only
  rw [if_pos rfl, hnext]
  dsimp only
  rw [List.set_append_right _ _ (Nat.le_refl _), Nat.sub_self]
  rfl

/-- The iteration is closed. -/
theorem Scanned.close (h : q.Scanned c) : (c.close q).Settled := by
  obtain ⟨calls, closed, yielded, hclosed, hbrowse⟩ := h
  have hcall := browse_append calls [.close closed.length]
  rw [hbrowse] at hcall
  exact settled_of_closed (hcall.trans close_last) hclosed rfl

/-- The iteration has nothing left and closes itself. -/
theorem Scanned.exhausted (h : q.Scanned c) (hnext : c.next q = (none, q', c')) :
    (c'.close q').Settled := by
  obtain ⟨calls, closed, yielded, hclosed, hbrowse⟩ := h
  have hcall := browse_append calls [.next closed.length]
  rw [hbrowse, List.foldl_cons, List.foldl_nil, Browsing.call, Browsing.next,
    List.getElem?_concat_length] at hcall
  dsimp only at hcall
  rw [if_pos rfl, hnext] at hcall
  dsimp only at hcall
  rw [List.set_append_right _ _ (Nat.le_refl _), Nat.sub_self] at hcall
  exact settled_of_closed (hcall.trans close_last) hclosed rfl

end EvictionQueue

/-! ## The queue visits every evictable key once, in order -/

/-- Whatever was done with a queue before: an iteration never answers twice with one
key, and answers only with a key that is evictable and not excluded, by its current
entry. Undisturbed and alone, it visits exactly the evictable keys that are not
excluded, by score and then by order of entry. With no iteration open, every
evictable key has one current entry in the heap, which has its score. Every insert
that enters an entry leaves at most one stale entry in the heap for every evictable
key, and one that repeats a score changes nothing. -/
theorem candidates_visit_in_order (calls : List (QueueCall σ)) :
    (∀ it ∈ (browse calls).iterations, it.yielded.Nodup) ∧
    (∀ i it key, (browse calls).iterations[i]? = some it →
      ((browse calls).next i).1 = some key →
      key ∉ it.candidates.excluded ∧ ∃ item it',
        item ∈ (browse calls).queue.heap ∧ item.key = key ∧
        (ranking calls).of key = some (item.score, item.sequence) ∧
        ((browse calls).next i).2.iterations[i]? = some it' ∧
        it'.candidates.skipped.getLast? = some item ∧ it'.yielded = it.yielded ++ [key]) ∧
    ((browse calls).Idle → ∀ excluded, ∃ items : List (EvictionEntry σ),
      items.Pairwise (fun a b => a.rank < b.rank) ∧
      (∀ e, e ∈ items ↔
        (ranking calls).of e.key = some (e.score, e.sequence) ∧ e.key ∉ excluded) ∧
      ∀ more : List (QueueCall σ),
        (∀ c ∈ more, c = .next (browse calls).iterations.length ∨ ∃ key, c = .score key) →
        ((browse (calls ++ .candidates excluded :: more)).iterations[
            (browse calls).iterations.length]?).map Iteration.yielded =
          some ((items.take (more.count (.next (browse calls).iterations.length))).map
            (·.key))) ∧
    ((browse calls).Idle → ∀ key,
      ((browse calls).queue.heap.filter fun e =>
          decide (e.key = key) && (browse calls).queue.is_live e) =
        ((ranking calls).of key).toList.map fun p => ⟨p.1, p.2, key⟩) ∧
    (∀ key score, ((ranking calls).of key).map Prod.fst ≠ some score →
      ((browse calls).queue.insert key score).1.heap.length ≤
        2 * ((browse calls).queue.insert key score).1.size) ∧
    (∀ key score, ((ranking calls).of key).map Prod.fst = some score →
      ((browse calls).queue.insert key score).1 = (browse calls).queue) := by
  obtain ⟨hb, hr⟩ := browse_ok calls
  refine ⟨fun it hit => ?_, fun i it key hit hkey => ?_, fun hidle excluded => ?_,
    fun hidle key => hb.current hidle key, fun key score h => ?_, fun key score h => ?_⟩
  · rw [hb.yielded it hit]
    exact it.candidates.seen.nodup
  · obtain ⟨heq, -⟩ | ⟨it', queue, candidates, hit', hrun, ⟨ha, heq⟩ | ⟨key', ha, heq⟩⟩ :=
      (browse calls).next_cases i
    · rw [heq] at hkey
      cases hkey
    · rw [heq] at hkey
      cases hkey
    · cases hit.symm.trans hit'
      rw [heq] at hkey ⊢
      cases hkey
      obtain ⟨-, item, hitem, rfl, hlive, hexcluded, -, hlast, -⟩ := ha.some _ rfl
      exact ⟨hexcluded, item, _, hitem, rfl, hb.is_live_iff.mp hlive,
        List.getElem?_set_self (List.getElem?_eq_some_iff.mp hit).1, hlast, rfl⟩
  · obtain ⟨items, hsorted, hitems⟩ := hb.exists_sorted hr hidle excluded
    refine ⟨items, hsorted, hitems, fun more hmore => ?_⟩
    obtain ⟨it, hit, hyield, -⟩ := (hb.visits hidle hsorted hitems).browse more hmore
    rw [browse_append, List.foldl_cons, hit, Option.map_some, hyield, List.nil_append]
  · rw [← hb.score] at h
    exact hb.heap_bound h
  · rw [← hb.score] at h
    exact EvictionQueue.insert_same h

/-- The bound does not hold after every insert: repeating the score of the only
evictable key returns before the heap is compacted. -/
theorem heap_outgrows_live_keys :
    let b := browse (σ := Int) [.insert ⟨[1]⟩ 0, .insert ⟨[2]⟩ 0, .insert ⟨[3]⟩ 0,
      .remove ⟨[2]⟩, .remove ⟨[3]⟩]
    b.iterations = [] ∧ (b.call (.insert ⟨[1]⟩ 0)).queue.size = 1 ∧
      (b.call (.insert ⟨[1]⟩ 0)).queue.heap.length = 3 := by
  decide

end Kvcr
