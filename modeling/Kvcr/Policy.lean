/-
Invoking a policy, and ordering eviction candidates (`policy_runtime.py`).

A policy is foreign code. It may raise, and it may answer with anything: the
invoker turns whatever comes back into one of the decisions the tiers understand.
An answer that raised or that is not even a decision is `none` here.

The eviction queue is a heap with lazy deletion. `live` holds the current entry of
every evictable key; the heap may also hold stale entries, which are recognised
because they are not the live entry of their key. Scores come from any total order.
Entries are compared by score and then by a sequence number that is never reused, so
the order is total and "is the same object" is equality of entries. The heap is a list
and popping takes the least entry out of it: the shape of a binary heap is not observable.
-/
import Kvcr.Types
import Mathlib.Data.Int.Order.Basic

set_option autoImplicit false

namespace Kvcr

/-! ## `_PolicyInvoker` -/

/-- A raised or invalid score keeps the previous one. The test whether it is finite stands
outside of the `try`, and raises for an integer that is too large for a float. -/
def eviction_score (answer : ScoreAnswer) (previous_score : Option Score) :
    Except Err (Option Score) :=
  match answer with
  | .number score => .ok (some score)
  | .invalid => .ok previous_score
  | .too_large => .error .overflow_error

/-- Only a score that is too large raises. -/
theorem eviction_score_error {answer : ScoreAnswer} {previous_score : Option Score} {e : Err}
    (h : eviction_score answer previous_score = .error e) :
    answer = .too_large ∧ e = .overflow_error := by
  cases answer with
  | number score => cases h
  | invalid => cases h
  | too_large =>
    cases h
    exact ⟨rfl, rfl⟩

/-- Only `KEEP` and `DROP` are wired at ingest, and required-local work cannot be
dropped. -/
def decide_ingest (answer : Option PlacementDecision) (required_local : Bool) :
    PlacementDecision :=
  match answer with
  | some (.DROP, none) => if required_local then (.KEEP, none) else (.DROP, none)
  | _ => (.KEEP, none)

/-- `KEEP`, `DROP`, or a move the configured tiers allow. -/
def decide_eviction (allowed_eviction_moves : List (CacheTier × CacheTier))
    (answer : Option PlacementDecision) (source : CacheTier) : PlacementDecision :=
  match answer with
  | some (.DROP, none) => (.DROP, none)
  | some (.MOVE_TO, some tier) =>
    if (source, tier) ∈ allowed_eviction_moves then (.MOVE_TO, some tier) else (.KEEP, none)
  | _ => (.KEEP, none)

/-- Every answer to a failed move is a drop. -/
def decide_recovery (_answer : Option PlacementDecision) : PlacementDecision := (.DROP, none)

/-! ## `_EvictionQueue` -/

/-- A heap item `(score, sequence, key)`. -/
structure EvictionEntry (σ : Type) where
  score : σ
  sequence : Nat
  key : BlockKey
deriving DecidableEq

section Queue

variable {σ : Type} [LinearOrder σ]

/-- Tuple order; the sequence number decides every tie. -/
def EvictionEntry.before (a b : EvictionEntry σ) : Bool :=
  a.score < b.score || (a.score = b.score && a.sequence ≤ b.sequence)

structure EvictionQueue (σ : Type) where
  heap : List (EvictionEntry σ) := []
  live : Dict BlockKey (EvictionEntry σ) := Dict.empty
  next_sequence : Nat := 0

instance : Inhabited (EvictionQueue σ) := ⟨{}⟩

/-- `heapq.heappop`: the least item and the rest. -/
def heappop : List (EvictionEntry σ) → Option (EvictionEntry σ × List (EvictionEntry σ))
  | [] => none
  | item :: items =>
    let least := items.foldl (fun m x => if m.before x then m else x) item
    some (least, (item :: items).erase least)

namespace EvictionQueue

/-- `len(queue)`. -/
def size (q : EvictionQueue σ) : Nat := q.live.entries.length

def score (q : EvictionQueue σ) (key : BlockKey) : Option σ :=
  (q.live.get? key).map (·.score)

/-- The item is the live entry of its key. -/
def is_live (q : EvictionQueue σ) (item : EvictionEntry σ) : Bool :=
  q.live.get? item.key = some item

/-- Refresh a score, answering whether the key newly became evictable. -/
def insert (q : EvictionQueue σ) (key : BlockKey) (score : σ) : EvictionQueue σ × Bool :=
  let previous := q.live.get? key
  if previous.map (·.score) = some score then
    (q, false)
  else
    let entry : EvictionEntry σ := ⟨score, q.next_sequence, key⟩
    let q' : EvictionQueue σ :=
      { heap := entry :: q.heap
        live := q.live.set key entry
        next_sequence := q.next_sequence + 1 }
    -- stale entries are compacted away once they outnumber the live ones
    let q'' := if q'.heap.length > 2 * q'.size then
        { q' with heap := q'.heap.filter q'.is_live } else q'
    (q'', previous.isNone)

/-- `remove`, and whether the key was live. -/
def remove (q : EvictionQueue σ) (key : BlockKey) : EvictionQueue σ × Bool :=
  ({ q with live := q.live.erase key }, q.live.contains key)

end EvictionQueue

/-- The state of one `candidates` generator between two of its answers. -/
structure Candidates (σ : Type) where
  excluded : List BlockKey
  seen : OrderedSet BlockKey := OrderedSet.empty
  skipped : List (EvictionEntry σ) := []

namespace Candidates

/-- Pop until a live key that is neither excluded nor seen comes up. The heap
shrinks at every step, so its length is enough fuel. -/
def next_loop : Nat → EvictionQueue σ → Candidates σ →
    Option BlockKey × EvictionQueue σ × Candidates σ
  | 0, q, c => (none, q, c)
  | n + 1, q, c =>
    match heappop q.heap with
    | none => (none, q, c)
    | some (item, heap) =>
      let q := { q with heap := heap }
      if q.is_live item then
        let c := { c with skipped := c.skipped ++ [item] }
        if item.key ∉ c.excluded ∧ item.key ∉ c.seen then
          (some item.key, q, { c with seen := c.seen.insert item.key })
        else
          next_loop n q c
      else
        next_loop n q c

/-- `next(candidates, None)`. -/
def next (q : EvictionQueue σ) (c : Candidates σ) :
    Option BlockKey × EvictionQueue σ × Candidates σ :=
  next_loop q.heap.length q c

/-- Closing the generator restores the entries that are still live. -/
def close (q : EvictionQueue σ) (c : Candidates σ) : EvictionQueue σ :=
  c.skipped.foldl (fun q item => if q.is_live item then { q with heap := item :: q.heap } else q) q

end Candidates

end Queue

end Kvcr
