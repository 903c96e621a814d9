/-
`local_dram_pools.py` without its allocator: slots, residencies, claims, the source
state shared with the progress thread, and the three places a residency can leave
its record from.

The progress thread touches the pools only under the source lock, and only through
`acquire_readers` and `release_readers`. So the interleavings are exactly what it
may have done whenever the caller takes that lock: `lock` runs the reader acts the
environment chooses, and between two locks the caller runs alone.
-/
import Kvcr.Base

set_option autoImplicit false

namespace Kvcr

open Prog

namespace LocalDramResidency

/-- `layout`. -/
def layout (r : LocalDramResidency) : List Label := r.slots.map Prod.fst

/-- `pool_counts`: each pool once, in the order of its first slot. -/
def pool_counts (r : LocalDramResidency) : List (String × Nat) :=
  let pools := r.slots.map fun p => p.1.pool
  (OrderedSet.ofList pools).elems.map fun pool => (pool, pools.count pool)

/-- `prepare_label_index`. -/
def with_label_index (r : LocalDramResidency) : LocalDramResidency :=
  match r.indices_by_label with
  | some _ => r
  | none => { r with indices_by_label := some (prepare_label_index r.layout) }

/-- `ready_indices`. -/
def ready_indices (r : LocalDramResidency) (requested : List Label) : Option (List Nat) :=
  if r.pending_labels.elems.any fun label => label ∈ requested then none
  else layout_indices r.layout requested r.indices_by_label

/-- `can_wait_for_pieces`. -/
def can_wait_for_pieces (r : LocalDramResidency) (requested : List Label) : Bool :=
  (layout_indices r.layout requested r.indices_by_label).isSome

/-- `settle`: drop the fill bookkeeping once nothing is pending or in flight. -/
def settle (r : LocalDramResidency) : LocalDramResidency :=
  if r.pending_labels.elems = [] ∧ r.pending_deposits = 0 ∧ r.remote_indices = none then
    { r with writers := none }
  else r

/-- A new reservation: every piece pending, no writer yet unless given. -/
def filling (slots : List (Label × Nat)) (key_layout : List Label) (writers : List Int) :
    LocalDramResidency :=
  { slots := slots
    state := .FILLING
    key_layout := key_layout
    pending_labels := OrderedSet.ofList (slots.map Prod.fst)
    writers := some writers }

end LocalDramResidency

/-- `_size_bytes`. -/
def size_bytes (cfg : Config) (r : LocalDramResidency) : Nat :=
  (r.slots.map fun p => cfg.slot_size p.1.pool).sum

/-- `_descriptor`. -/
def descriptor (cfg : Config) (p : Label × Nat) : TransferRef :=
  { end_point_name := cfg.nixl_agent_name, element_index := p.2, label := p.1,
    framework := false }

/-- `source_refs`: from the published tuple, or made from the slots. -/
def source_refs (cfg : Config) (r : LocalDramResidency) (indices : List Nat) :
    List TransferRef :=
  match r.refs with
  | some cached => indices.map fun i => cached.getD i default
  | none => indices.map fun i => descriptor cfg (r.slots.getD i default)

/-! ## The progress side -/

/-- The loop of `acquire_readers`: the claims of a request, or `none` for `False`. -/
def reader_claims (s : Core) (key_layout : List Label) (allow_missing : Bool) :
    List ((BlockKey × List TransferRef) × Nat) →
      Option (List (Nat × BlockKey × ResId × List TransferRef))
  | [] => some []
  | ((key, destination), index) :: rest =>
    let skip := if allow_missing then reader_claims s key_layout allow_missing rest else none
    match s.pools.index.get? key with
    | none => skip
    | some none => none
    | some (some r) =>
      let residency := s.residencies r
      let available := residency.refs.getD []
      let requested := destination.map (·.label)
      if key_layout ≠ [] ∧ key_layout ≠ residency.key_layout then skip
      else
        let refs :=
          if residency.layout = requested then some available
          else (layout_indices residency.layout requested residency.indices_by_label).map
            fun indices => indices.map fun i => available.getD i default
        match refs with
        | none => skip
        | some refs =>
          (reader_claims s key_layout allow_missing rest).map ((index, key, r, refs) :: ·)

/-- `acquire_readers` for a request that passed `_handle_start_write`. -/
def acquire_readers (cfg : Config) (keys : List BlockKey)
    (destinations : List (List TransferRef)) (key_layout : List Label) : KM Unit := do
  let s ← read
  if cfg.framework_control ∧ cfg.local_dram.isSome ∧ keys.Nodup ∧
      keys.length = destinations.length then
    match reader_claims s key_layout (!cfg.framework_pinning) (keys.zip destinations).zipIdx with
    | none => pure ()
    | some [] => pure ()
    | some claims =>
      forEach claims fun (_, key, r, refs) => do
        act (.read_from key r refs)
        modify_residency r fun residency =>
          { residency with source_readers := residency.source_readers + 1 }
        change fun s => { s with pools.active := s.pools.active.set key r }
      change fun s =>
        { s with
          pools.operations := s.pools.operations + 1
          pools.readers := s.pools.readers ++
            [(claims.map fun c => c.2.1, claims.map fun c => c.2.2.1)] }
  else pure ()

/-- `release_readers`: queue the release of one acquired group. -/
def release_readers (index : Nat) (success : Bool) : KM Unit := do
  let s ← read
  match s.pools.readers[index]? with
  | none => pure ()
  | some (keys, sources) =>
    change fun s =>
      { s with
        pools.operations := s.pools.operations - 1
        pools.readers := s.pools.readers.eraseIdx index
        pools.completions := s.pools.completions ++ [(keys, sources, success)] }

/-- One thing the progress thread does to the source state. -/
def reader_act (cfg : Config) : ReaderAct → KM Unit
  | .acquire keys destinations key_layout => acquire_readers cfg keys destinations key_layout
  | .release index success => release_readers index success

variable (K : Knot)

/-- `with self._source_state.lock`: progress may have run until it is taken. -/
def lock : KM Unit := do
  let acts ← ask K.env.readers
  forEach acts (reader_act K.cfg)

/-- `_mark_source_pending`. -/
def mark_source_pending (key : BlockKey) : KM Unit :=
  if K.cfg.framework_control then do
    lock K
    change fun s => { s with pools.index := s.pools.index.set key none }
  else pure ()

/-- `_publish_source`. -/
def publish_source (key : BlockKey) (r : ResId) (refs : Option (List TransferRef) := none) :
    KM Unit := do
  let s ← read
  let residency := s.residencies r
  if K.cfg.framework_control ∧ residency.pending_labels.elems = [] then
    let refs := refs.getD (source_refs K.cfg residency (List.range residency.slots.length))
    lock K
    if residency.state = .READY ∧ ¬ residency.retire_on_release then
      modify_residency r fun residency => { residency with refs := some refs }
      change fun s => { s with pools.index := s.pools.index.set key (some r) }
    else pure ()
  else pure ()

/-! ## Evictability -/

/-- Add to, or take from, the per-pool count of evictable slots. -/
def count_evictable (sign : Int) (counts : List (String × Nat)) (d : Dict String Int) :
    Dict String Int :=
  counts.foldl (fun d p => d.set p.1 ((d.get? p.1).getD 0 + sign * p.2)) d

/-- `_make_evictable`. -/
def make_evictable (key : BlockKey) : KM Unit := do
  let s ← read
  match s.record key with
  | none => raise (.runtime_error "missing block record")
  | some record =>
    match (s.recs record).local_dram with
    | none => pure ()
    | some r =>
      let residency := s.residencies r
      if residency.state ≠ .READY ∨ residency.claim_count ≠ 0 ∨ residency.retire_on_release ∨
          residency.pending_labels.elems ≠ [] then pure ()
      else
        let answer ← ask fun tick => K.env.eviction_score tick
          (block_meta s key record (size_bytes K.cfg residency)) .LOCAL_G2
        match eviction_score answer (s.pools.evictable.score key) with
        | .error e => raise e
        | .ok none => change fun s => { s with pools.unscored := s.pools.unscored.insert key }
        | .ok (some score) =>
          change fun s => { s with pools.unscored := s.pools.unscored.erase key }
          let s ← read
          let (evictable, newly) := s.pools.evictable.insert key score
          change fun s => { s with pools.evictable := evictable }
          if newly then
            change fun s =>
              { s with pools.evictable_slots :=
                  count_evictable 1 residency.pool_counts s.pools.evictable_slots }
          else pure ()

/-- `_remove_evictable`. -/
def remove_evictable (key : BlockKey) (r : ResId) : KM Unit := do
  change fun s => { s with pools.unscored := s.pools.unscored.erase key }
  let s ← read
  let (evictable, removed) := s.pools.evictable.remove key
  change fun s => { s with pools.evictable := evictable }
  if removed then
    change fun s =>
      { s with pools.evictable_slots :=
          count_evictable (-1) (s.residencies r).pool_counts s.pools.evictable_slots }
  else pure ()

/-- `_retry_unscored`. -/
def retry_unscored : KM Unit := do
  let s ← read
  let keys ← visit K s.pools.unscored.elems
  forEach keys (make_evictable K)

/-! ## Capacity pressure -/

/-- `_reclaimable_slots`, once the lock is held. -/
def reclaimable_slots (s : Core) : Dict String Int :=
  let slots : Dict String Int := s.pools.free_slots.entries.foldl
    (fun d p => d.set p.1 ((p.2.length : Int) + (s.pools.evictable_slots.get? p.1).getD 0))
    Dict.empty
  s.pools.active.entries.foldl
    (fun d p => if (s.pools.evictable.score p.1).isSome then
        count_evictable (-1) (s.residencies p.2).pool_counts d else d) slots

/-- `_update_capacity_pressure` of the pools and of the core. -/
def update_capacity_pressure : KM Unit :=
  if K.cfg.capacity_callback then do
    lock K
    let s ← read
    let reclaimable := reclaimable_slots s
    let pressured := K.cfg.capacity_low_watermarks.filter fun p =>
      p.2 ≠ 0 ∧ (reclaimable.get? p.1).getD 0 < p.2
    let newly := pressured.filter fun p => p.1 ∉ s.capacity_pressure_pools
    change fun s =>
      { s with capacity_pressure_pools := OrderedSet.ofList (pressured.map Prod.fst) }
    if newly = [] then pure () else act (.capacity_needed newly)
  else pure ()

/-! ## Slots and claims -/

/-- Return slots to the free queues, one location at a time. -/
def free_locations (locations : List (Label × Nat)) (d : Dict String (List Nat)) :
    Dict String (List Nat) :=
  locations.foldl (fun d p => d.set p.1.pool ((d.get? p.1.pool).getD [] ++ [p.2])) d

/-- `_free`. -/
def free (locations : List (Label × Nat)) : KM Unit := do
  act (.free locations)
  change fun s => { s with pools.free_slots := free_locations locations s.pools.free_slots }

/-- `abandon_capacity_eviction`. -/
def abandon_capacity_eviction (key : BlockKey) : KM Unit := do
  let s ← read
  if s.pools.capacity_eviction_key = some key then
    change fun s => { s with pools.capacity_eviction_key := none }
  else pure ()

/-- What `_after_last_claim` does once the residency left its record. -/
def retire_slots (key : BlockKey) (record : RecId) (r : ResId) : KM Unit := do
  let s ← read
  let residency := s.residencies r
  if residency.state = .READY then
    residency_observer K key record
    free residency.slots
    abandon_capacity_eviction key
    let s ← read
    on_remove (block_meta s key record (size_bytes K.cfg residency))
    if residency.pending_labels.elems = [] then publish_inventory K [key] .LOCAL_G2 true
    else pure ()
  else free residency.slots
  prune_block_record key

/-- `_after_last_claim`: whether the residency was retired. -/
def after_last_claim (key : BlockKey) (r : ResId) : KM Bool := do
  let s ← read
  match s.record key with
  | none => raise .key_error
  | some record =>
    let retiring := (s.residencies r).state ≠ .READY ∨ (s.residencies r).retire_on_release
    lock K
    let s ← read
    if (s.residencies r).source_readers ≠ 0 then pure false
    else if retiring then
      -- Withdraw the source before its slots can be reused.
      act (.retire key record r)
      change fun s => { s with pools.index := s.pools.index.erase key }
      modify_rec record fun rec => { rec with local_dram := none }
      retire_slots K key record r
      let s ← read
      if ¬ s.closed ∧ ¬ s.pools.draining_source_completions then
        K.resume_capacity_waiters
      else pure ()
      pure true
    else
      make_evictable K key
      pure false

/-- `_acquire_claim`. -/
def acquire_claim (key : BlockKey) (r : ResId) : KM Unit := do
  let s ← read
  if (s.residencies r).state = .DISCARDING then
    raise (.runtime_error "cannot claim discarded local DRAM entry")
  else
    remove_evictable key r
    modify_residency r fun residency =>
      { residency with claim_count := residency.claim_count + 1 }

/-- `_release_claim`. -/
def release_claim (key : BlockKey) (r : ResId) : KM Unit := do
  let s ← read
  if s.local_dram key ≠ some r ∨ (s.residencies r).claim_count = 0 then
    raise (.runtime_error "invalid local DRAM claim")
  else
    modify_residency r fun residency =>
      { residency with claim_count := residency.claim_count - 1 }
    let s ← read
    if (s.residencies r).claim_count = 0 then
      let _ ← after_last_claim K key r
      pure ()
    else pure ()

/-- `_new_public_claim`; `indices` are the pieces to describe, if any. -/
def new_public_claim (key : BlockKey) (r : ResId) (indices : Option (List Nat) := none) :
    KM OpEntryResult := do
  acquire_claim key r
  let s ← read
  let handle := s.pools.next_release_handle
  act (.claim_handle handle key)
  change fun s =>
    { s with
      pools.next_release_handle := handle + 1
      pools.public_claims := s.pools.public_claims.set handle (key, r) }
  pure
    { status := .SUCCESS
      descriptors := indices.map fun indices => indices.map fun i =>
        let p := (s.residencies r).slots.getD i default
        { end_point_name := K.cfg.nixl_agent_name, label := p.1, element_index := p.2 }
      release_handle := some handle }

/-- `release`. -/
def release_handles (handles : List ReleaseHandle) : KM (List (ReleaseHandle × Bool)) := do
  let results ← foldEach handles [] fun results handle => do
    let s ← read
    match s.pools.public_claims.get? handle with
    | none => pure (results ++ [(handle, false)])
    | some (key, r) =>
      act (.release_handle handle)
      change fun s => { s with pools.public_claims := s.pools.public_claims.erase handle }
      release_claim K key r
      pure (results ++ [(handle, true)])
  update_capacity_pressure K
  pure results

/-- `acquire_sources`. -/
def acquire_sources (keys : List BlockKey) (allow_filling : Bool) : KM (Dict BlockKey ResId) := do
  let sources ← foldEach keys Dict.empty fun (sources : Dict BlockKey ResId) key => do
    let s ← read
    if sources.contains key then pure sources
    else
      match s.local_dram key with
      | none => pure sources
      | some r =>
        let state := (s.residencies r).state
        if state ≠ .READY ∧ ¬ (allow_filling ∧ state = .FILLING) then pure sources
        else
          acquire_claim key r
          pure (sources.set key r)
  update_capacity_pressure K
  pure sources

/-- `release_sources` of a set of keys. -/
def release_sources (keys : List BlockKey) : KM Unit := do
  let keys ← visit K keys
  forEach keys fun key => do
    let s ← read
    match s.local_dram key with
    | none => raise (.runtime_error "local DRAM source state lost")
    | some r => release_claim K key r
  update_capacity_pressure K

/-- `retire_sources`: retire when the final internal claim is released. -/
def retire_sources (keys : List BlockKey) : KM Unit :=
  forEach keys fun key => do
    let s ← read
    match s.local_dram key with
    | none => raise (.runtime_error "local DRAM source cannot retire")
    | some r =>
      if (s.residencies r).state ≠ .READY ∨ (s.residencies r).claim_count = 0 then
        raise (.runtime_error "local DRAM source cannot retire")
      else
        lock K
        modify_residency r fun residency => { residency with retire_on_release := true }
        if K.cfg.framework_control then
          change fun s => { s with pools.index := s.pools.index.set key none }
        else pure ()

/-! ## Readers that finished -/

/-- Give one reader of `key` back, under the lock. -/
def release_reader (key : BlockKey) (r : ResId) : KM Unit := do
  let s ← read
  if (s.residencies r).source_readers = 0 then
    raise (.runtime_error "local DRAM source reader ownership lost")
  else
    modify_residency r fun residency =>
      { residency with source_readers := residency.source_readers - 1 }
    let s ← read
    if (s.residencies r).source_readers = 0 then
      if s.pools.active.contains key then
        change fun s => { s with pools.active := s.pools.active.erase key }
      else raise .key_error
    else pure ()

/-- Account for one finished write: whether some residency was retired. -/
def drain_completion (keys : List BlockKey) (sources : List ResId) (success : Bool)
    (freed : Bool) : KM Bool := do
  if success then record_access K keys else pure ()
  lock K
  forEach (keys.zip sources) fun (key, r) => release_reader key r
  foldEach (keys.zip sources) freed fun freed (key, r) => do
    let s ← read
    if s.local_dram key = some r ∧ (s.residencies r).claim_count = 0 then
      let retired ← after_last_claim K key r
      pure (freed || retired)
    else pure freed

/-- `_drain_source_completions`. -/
def drain_source_completions : KM Unit := do
  let s ← read
  if s.pools.draining_source_completions then pure ()
  else
    change fun s => { s with pools.draining_source_completions := true }
    let freed ← ensure
      (whileFuel K.fuel false fun freed => do
        let s ← read
        match s.pools.completions with
        | [] => pure (.inr freed)
        | (keys, sources, success) :: completions =>
          change fun s => { s with pools.completions := completions }
          let freed ← drain_completion K keys sources success freed
          pure (.inl freed))
      (change fun s => { s with pools.draining_source_completions := false })
    let s ← read
    if freed ∧ ¬ s.closed then K.resume_capacity_waiters else pure ()

/-! ## Recovered rows -/

/-- The slot check of `adopt_recovery_slots`, with the labels of this block and the
slots of all blocks seen so far. -/
def adopt_slots_loop (cfg : Config) : List (Label × Nat) → List Label → List Slot →
    Except Err (List Slot)
  | [], _, occupied => .ok occupied
  | (label, slot) :: rest, labels, occupied =>
    if (cfg.regions.find? fun p => p.1 = label.pool).isNone ∨
        (label.part.isSome ∧ (label.bad_part ∨ label ∈ labels)) ∨
        ¬ slot < cfg.slot_count label.pool ∨ (label.pool, slot) ∈ occupied then
      .error (.value_error "invalid local DRAM recovery slots")
    else adopt_slots_loop cfg rest (label :: labels) ((label.pool, slot) :: occupied)

/-- The checks of `adopt_recovery_slots` on one residency. -/
def adopt_residency (cfg : Config) (r : LocalDramResidency) (occupied : List Slot) :
    Except Err (List Slot) := do
  if r.state ≠ .READY ∨ r.slots = [] ∨ r.pending_labels.elems ≠ [] then
    .error (.value_error "invalid local DRAM recovery slots")
  else
    let occupied ← adopt_slots_loop cfg r.slots [] occupied
    validate_expected_layout cfg r.key_layout
    if r.key_layout ≠ r.layout then
      .error (.value_error "invalid local DRAM recovery layout")
    else pure occupied

/-- The free queues of a core whose `occupied` slots are taken. -/
def free_slots_without (cfg : Config) (occupied : List Slot) : Dict String (List Nat) :=
  cfg.regions.foldl (fun d p => d.set p.1 ((List.range (p.2.2.1 / p.2.2.2)).filter
    fun slot => (p.1, slot) ∉ occupied)) Dict.empty

/-- `adopt_recovery_slots`. -/
def adopt_recovery_slots (records : List (BlockKey × RecId)) : KM Unit := do
  let occupied ← foldEach records ([] : List Slot) fun occupied (key, record) => do
    let s ← read
    match (s.recs record).local_dram with
    | none => pure occupied
    | some r =>
      let occupied ← lift_except (adopt_residency K.cfg (s.residencies r) occupied)
      modify_residency r fun residency => ({ residency with refs := none }).with_label_index
      act (.adopt key (s.residencies r).slots)
      publish_source K key r
      pure occupied
  change fun s => { s with pools.free_slots := free_slots_without K.cfg occupied }

/-- `rank_recovered`. -/
def rank_recovered (records : List (BlockKey × RecId)) : KM Unit :=
  forEach records fun (key, record) => do
    let s ← read
    if (s.recs record).local_dram.isSome then make_evictable K key else pure ()

end Kvcr
