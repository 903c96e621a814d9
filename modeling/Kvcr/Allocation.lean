/-
`_allocate_slots`: slots for one block, evicting other blocks if there are not
enough.

The scan asks the policy about one candidate after the other, and each answer can
re-enter the tier: a victim that moves to disk and whose store fails to start is
released on the spot, which wakes capacity waiters, which allocate. So between two
candidates anything may have changed. The scan reads the free queues again after
each answer; the victims it has already picked, and the record its caller picked
before calling, are not looked at again, except that a victim some remote reader has
claimed meanwhile makes the allocation fail.
-/
import Kvcr.RemoteFWDram

set_option autoImplicit false

namespace Kvcr

open Prog

variable (K : Knot)

/-- `Counter(label.partition(":")[0] for label in layout)`. -/
def required_slots (layout : List Label) : List (String × Nat) :=
  let pools := layout.map (·.pool)
  (OrderedSet.ofList pools).elems.map fun pool => (pool, pools.count pool)

/-- The free queue of a pool. -/
def Core.free_of (s : Core) (pool : String) : List Nat := (s.pools.free_slots.get? pool).getD []

/-- `short`: the pools that still lack slots, counting what the victims will free. -/
def short (s : Core) (required : List (String × Nat)) (freed : Dict String Nat) : List String :=
  (required.filter fun p => (s.free_of p.1).length + (freed.get? p.1).getD 0 < p.2).map Prod.fst

/-- Pop one slot for each label, in order. -/
def take_slots : List Label → Dict String (List Nat) →
    Option (List (Label × Nat) × Dict String (List Nat))
  | [], d => some ([], d)
  | label :: layout, d =>
    match (d.get? label.pool).getD [] with
    | [] => none
    | slot :: slots =>
      (take_slots layout (d.set label.pool slots)).map fun p => ((label, slot) :: p.1, p.2)

/-- The slots of an allocation that found enough room. -/
def pop_slots (layout : List Label) : KM (List (Label × Nat)) := do
  let s ← read
  match take_slots layout s.pools.free_slots with
  | none => raise (.runtime_error "pop from an empty deque")
  | some (locations, free_slots) =>
    act (.allocate locations)
    change fun s => { s with pools.free_slots := free_slots }
    pure locations

/-- A selected victim. -/
structure Victim where
  key : BlockKey
  record : RecId
  residency : ResId

/-- The loop state of the candidate scan. -/
structure Scan where
  candidates : Candidates Score
  victims : List Victim := []
  freed : Dict String Nat := Dict.empty
  deficient : List String

/-- How the scan goes on after one candidate: with the next, with enough victims, or
with the allocation given up, perhaps because a move to disk is under way. -/
inductive ScanStep where
  | next (scan : Scan)
  | done (victims : List Victim)
  | abort (eviction_pending : Bool)

/-- Advance a `candidates` generator of the local queue. -/
def next_candidate (c : Candidates Score) : KM (Option BlockKey × Candidates Score) := do
  let s ← read
  let (key, evictable, c) := c.next s.pools.evictable
  change fun s => { s with pools.evictable := evictable }
  pure (key, c)

/-- Close a generator of the local queue. -/
def close_candidates (c : Candidates Score) : KM Unit :=
  change fun s => { s with pools.evictable := c.close s.pools.evictable }

/-- The body of the scan for the candidate `key`. -/
def consider_candidate (required : List (String × Nat)) (deadline : Time) (scan : Scan)
    (key : BlockKey) : KM ScanStep := do
  let s ← read
  match s.record key with
  | none => raise (.runtime_error "invalid evictable local DRAM entry")
  | some record =>
    match (s.recs record).local_dram with
    | none => raise (.runtime_error "invalid evictable local DRAM entry")
    | some r =>
      let residency := s.residencies r
      if residency.state ≠ .READY ∨ residency.claim_count ≠ 0 then
        raise (.runtime_error "invalid evictable local DRAM entry")
      else if residency.pool_counts.all fun p => p.1 ∉ scan.deficient then pure (.next scan)
      else
        lock K
        let s ← read
        if (s.residencies r).source_readers ≠ 0 then pure (.next scan)
        else
          let (decision, eviction_pending) ← core_decide_eviction K
            (block_meta s key record (size_bytes K.cfg residency)) .LOCAL_G2 deadline
          let s ← read
          let deficient := short s required scan.freed
          if deficient = [] then pure (.done scan.victims)
          else if eviction_pending then
            change fun s => { s with pools.capacity_eviction_key := some key }
            pure (.abort true)
          else if decision.1 = .KEEP then pure (.next { scan with deficient := deficient })
          else
            let freed := residency.pool_counts.foldl
              (fun d p => d.set p.1 ((d.get? p.1).getD 0 + p.2)) scan.freed
            pure (.next
              { scan with
                victims := scan.victims ++ [⟨key, record, r⟩]
                freed := freed
                deficient := short s required freed })

/-- One iteration of the candidate scan. -/
def scan_body (required : List (String × Nat)) (deadline : Time) (scan : Scan) :
    KM (Scan ⊕ (List Victim ⊕ Bool)) := do
  if scan.deficient = [] then
    close_candidates scan.candidates
    pure (.inr (.inl scan.victims))
  else
    let (key, c) ← next_candidate scan.candidates
    match key with
    | none =>
      close_candidates c
      pure (.inr (.inr false))
    | some key =>
      let step ← handle
        (consider_candidate K required deadline { scan with candidates := c } key)
        fun e => do
          close_candidates c
          raise e
      match step with
      | .next scan => pure (.inl scan)
      | .done victims =>
        close_candidates c
        pure (.inr (.inl victims))
      | .abort eviction_pending =>
        close_candidates c
        pure (.inr (.inr eviction_pending))

/-- The candidate scan: the victims, or whether capacity is pending. -/
def scan_candidates (required : List (String × Nat)) (deadline : Time) (scan : Scan) :
    KM (List Victim ⊕ Bool) :=
  whileFuel K.fuel scan (scan_body K required deadline)

/-- Evict one victim: publish the removal before the slots come back. -/
def evict_victim (v : Victim) : KM Unit := do
  remove_evictable v.key v.residency
  act (.evict v.key v.record v.residency)
  modify_rec v.record fun rec => { rec with local_dram := none }
  residency_observer K v.key v.record
  let s ← read
  on_remove (block_meta s v.key v.record (size_bytes K.cfg (s.residencies v.residency)))
  prune_block_record v.key
  free (s.residencies v.residency).slots

/-- `_allocate_slots`: the locations if there are any, the evicted keys, and whether
an eviction is pending. -/
def allocate_slots (layout : List Label) (protected_keys : List BlockKey) (deadline : Time) :
    KM (Option (List (Label × Nat)) × List BlockKey × Bool) := do
  let s ← read
  let required := required_slots layout
  if short s required Dict.empty = [] then
    let locations ← pop_slots layout
    pure (some locations, [], false)
  else if s.pools.capacity_eviction_key.isSome then pure (none, [], true)
  else
    retry_unscored K
    let s ← read
    let outcome ← scan_candidates K required deadline
      { candidates := { excluded := protected_keys }, deficient := short s required Dict.empty }
    match outcome with
    | .inr eviction_pending => pure (none, [], eviction_pending)
    | .inl victims =>
      lock K
      let s ← read
      -- Policy runs unlocked; a source can claim a selected victim meanwhile.
      if victims.any fun v => (s.residencies v.residency).source_readers ≠ 0 then
        pure (none, [], false)
      else
        change fun s =>
          { s with pools.index := victims.foldl (fun d v => d.erase v.key) s.pools.index }
        forEach victims (evict_victim K)
        let locations ← pop_slots layout
        pure (some locations, victims.map (·.key), false)

end Kvcr
