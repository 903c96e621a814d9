/-
`local_disk.py`: the file-backed tier, up to the completion of its transfers, and
the bookkeeping of local sources claimed by an operation (`core.py`) that a store
goes through.

A store is how a local victim moves to disk. It may fail to start at once, because
no disk slot can be freed, because the frame of the new residency would not fit the
journal, or because the submission raised. Then the victim is dropped on the spot:
its claim is released, its slots come back, and whoever waits for slots is woken,
all inside the allocation that asked for the victim.
-/
import Kvcr.LocalDramPools

set_option autoImplicit false

namespace Kvcr

open Prog

variable (K : Knot)

/-! ## Local sources claimed by an operation -/

/-- `_claim_local_dram_sources`. -/
def claim_local_dram_sources (op_id : OpId) (keys : List BlockKey) (allow_filling : Bool := false) :
    KM (Dict BlockKey ResId) := do
  let s ← read
  let sources := (s.local_dram_sources_by_op.get? op_id).getD Dict.empty
  if K.cfg.local_dram.isSome then
    let claimed ← acquire_sources K (keys.filter fun key => ¬ sources.contains key) allow_filling
    if claimed.entries = [] then pure sources
    else
      let sources := claimed.entries.foldl (fun d p => d.set p.1 p.2) sources
      change fun s =>
        { s with local_dram_sources_by_op := s.local_dram_sources_by_op.set op_id sources }
      pure sources
  else pure sources

/-- Remove one released key from the sources of an operation. -/
def pop_source (op_id : OpId) (key : BlockKey) : KM Unit := do
  let s ← read
  let sources := (s.local_dram_sources_by_op.get? op_id).getD Dict.empty
  if sources.contains key then
    change fun s =>
      { s with
        local_dram_sources_by_op := s.local_dram_sources_by_op.set op_id (sources.erase key) }
  else raise .key_error

/-- `_release_local_dram_sources`; `keys` are all the sources when not given. -/
def release_local_dram_sources (op_id : OpId) (keys : Option (List BlockKey) := none) :
    KM Unit := do
  let s ← read
  let sources := (s.local_dram_sources_by_op.get? op_id).getD Dict.empty
  if sources.entries = [] then pure ()
  else
    let released := match keys with
      | none => sources.keys
      | some keys => sources.keys.filter fun key => key ∈ keys
    release_sources K released
    forEach released (pop_source op_id)
    let s ← read
    if ((s.local_dram_sources_by_op.get? op_id).getD Dict.empty).entries = [] then
      change fun s =>
        { s with local_dram_sources_by_op := s.local_dram_sources_by_op.erase op_id }
    else pure ()

/-! ## Disk slots -/

/-- `is_ready`. -/
def g3_is_ready (s : Core) (key : BlockKey) (layout : Option (List Label) := none) : Bool :=
  match s.g3_residency key with
  | none => false
  | some g => layout.all fun layout => (s.g3_residencies g).layout = layout

/-- `_size_bytes`. -/
def g3_size_bytes (cfg : Config) (g : G3Residency) : Nat := g.slots.length * cfg.g3_slot_size

/-- `_piece_slots`: the disk slots of each piece, in layout order. -/
def piece_slots_loop (cfg : Config) : List Label → List Nat → List (List Nat)
  | [], _ => []
  | label :: layout, slots =>
    let per_piece := (cfg.block_size label.pool).getD 0 / cfg.g3_slot_size
    slots.take per_piece :: piece_slots_loop cfg layout (slots.drop per_piece)

def piece_slots (cfg : Config) (g : G3Residency) : List (List Nat) :=
  piece_slots_loop cfg g.layout g.slots

/-- `_memory_chunks`: a reference in pieces of one disk slot. -/
def memory_chunks (cfg : Config) (ref : TransferRef) : Except Err (List MemDescriptor) := do
  let descriptor ← address_descriptor cfg ref
  let count := (descriptor.size + cfg.g3_slot_size - 1) / cfg.g3_slot_size
  pure ((List.range count).map fun i =>
    { mem_type := descriptor.mem_type
      addr := descriptor.addr + i * cfg.g3_slot_size
      size := cfg.g3_slot_size
      device_Id := descriptor.device_Id })

/-- The chunks of several references. -/
def memory_chunks_all (cfg : Config) (refs : List TransferRef) :
    Except Err (List MemDescriptor) := do
  let chunks ← refs.mapM (memory_chunks cfg)
  pure chunks.flatten

/-- `_descriptor`: slots are striped over the files. -/
def file_descriptor (cfg : Config) (slot : Nat) : MemDescriptor :=
  let files := (cfg.g3.map (·.paths)).getD 0
  { mem_type := "FILE"
    addr := slot / files * cfg.g3_slot_size
    size := cfg.g3_slot_size
    device_Id := slot % files }

/-- The references given for a key. -/
def block_refs (blocks : Dict BlockKey (List TransferRef)) (key : BlockKey) : List TransferRef :=
  (blocks.get? key).getD []

/-- The files of a store: all slots of its reservations. -/
def store_files (cfg : Config) (residencies : G3Id → G3Residency)
    (reservations : List (BlockKey × G3Id)) : List MemDescriptor :=
  reservations.flatMap fun p => (residencies p.2).slots.map (file_descriptor cfg)

/-- The files of a read: the slots of the requested pieces, in the order of the request. -/
def read_files (cfg : Config) (g : G3Residency) (indices : List Nat) : List MemDescriptor :=
  indices.flatMap fun i => ((piece_slots cfg g).getD i []).map (file_descriptor cfg)

/-- `_make_evictable` of the disk tier. -/
def g3_make_evictable (key : BlockKey) : KM Unit := do
  let s ← read
  match s.record key with
  | none => pure ()
  | some record =>
    match (s.recs record).g3 with
    | none => pure ()
    | some g =>
      let residency := s.g3_residencies g
      if residency.claim_count ≠ 0 then pure ()
      else
        let answer ← ask fun tick => K.env.eviction_score tick
          (block_meta s key record (g3_size_bytes K.cfg residency)) .G3
        match eviction_score answer (s.g3.evictable.score key) with
        | .error e => raise e
        | .ok none => change fun s => { s with g3.unscored := s.g3.unscored.insert key }
        | .ok (some score) =>
          change fun s => { s with g3.unscored := s.g3.unscored.erase key }
          let s ← read
          let (evictable, newly) := s.g3.evictable.insert key score
          change fun s => { s with g3.evictable := evictable }
          if newly then
            change fun s =>
              { s with g3.evictable_slots := s.g3.evictable_slots + residency.slots.length }
          else pure ()

/-- `_remove_evictable` of the disk tier. -/
def g3_remove_evictable (key : BlockKey) : KM Unit := do
  change fun s => { s with g3.unscored := s.g3.unscored.erase key }
  let s ← read
  let (evictable, removed) := s.g3.evictable.remove key
  change fun s => { s with g3.evictable := evictable }
  if removed then
    match s.g3_residency key with
    | none => raise .key_error
    | some g => change fun s =>
        { s with g3.evictable_slots :=
            s.g3.evictable_slots - (s.g3_residencies g).slots.length }
  else pure ()

/-- `_retry_unscored` of the disk tier. -/
def g3_retry_unscored : KM Unit := do
  let s ← read
  let keys ← visit K s.g3.unscored.elems
  forEach keys (g3_make_evictable K)

/-- The moves a local victim may make. -/
def allowed_eviction_moves (cfg : Config) : List (CacheTier × CacheTier) :=
  if cfg.g3.isSome then [(.LOCAL_G2, .G3)] else []

/-- `self._policy.decide_eviction`. -/
def policy_decide_eviction (m : BlockMeta) (source : CacheTier) : KM PlacementDecision := do
  let answer ← ask fun tick => K.env.decide_eviction tick m source
  pure (decide_eviction (allowed_eviction_moves K.cfg) answer source)

/-- Take the first free disk slot. -/
def g3_pop_free : KM (Option Nat) := do
  let s ← read
  match s.g3.free_slots with
  | [] => pure none
  | slot :: free_slots =>
    act (.g3_allocate slot)
    change fun s => { s with g3.free_slots := free_slots }
    pure (some slot)

/-- Return disk slots. -/
def g3_free (slots : List Nat) : KM Unit := do
  act (.g3_free slots)
  change fun s => { s with g3.free_slots := s.g3.free_slots ++ slots }

/-- Evict the disk residency `g` of `key`: publish first, free last. -/
def g3_evict (key : BlockKey) (record : RecId) (g : G3Id) : KM Unit := do
  g3_remove_evictable key
  act (.g3_evict key record)
  modify_rec record fun rec => { rec with g3 := none }
  residency_observer K key record
  let s ← read
  on_remove (block_meta s key record (g3_size_bytes K.cfg (s.g3_residencies g)))
  publish_inventory K [key] .G3 true
  prune_block_record key
  g3_free (s.g3_residencies g).slots

/-- Look at one candidate of `_allocate_slot`: evict it, or go on. -/
def g3_try_candidate (key : BlockKey) : KM Bool := do
  let s ← read
  match s.record key with
  | none => raise (.runtime_error "invalid G3 eviction candidate")
  | some record =>
    match (s.recs record).g3 with
    | none => raise (.runtime_error "invalid G3 eviction candidate")
    | some g =>
      if (s.g3_residencies g).claim_count ≠ 0 then
        raise (.runtime_error "invalid G3 eviction candidate")
      else if (s.recs record).in_flight_ops.elems.any OpId.is_fetch then pure false
      else
        let decision ← policy_decide_eviction K
          (block_meta s key record (g3_size_bytes K.cfg (s.g3_residencies g))) .G3
        if decision.1 = .KEEP then pure false
        else
          g3_evict K key record g
          pure true

/-- Advance a `candidates` generator of the disk queue. -/
def g3_next_candidate (c : Candidates Score) : KM (Option BlockKey × Candidates Score) := do
  let s ← read
  let (key, evictable, c) := c.next s.g3.evictable
  change fun s => { s with g3.evictable := evictable }
  pure (key, c)

/-- Close a generator of the disk queue. -/
def g3_close_candidates (c : Candidates Score) : KM Unit :=
  change fun s => { s with g3.evictable := c.close s.g3.evictable }

/-- `_allocate_slot`. -/
def g3_allocate_slot (protected_keys : List BlockKey) : KM (Option Nat) := do
  let s ← read
  if s.g3.free_slots ≠ [] then g3_pop_free
  else
    g3_retry_unscored K
    whileFuel K.fuel { excluded := protected_keys : Candidates Score } fun c => do
      let (key, c) ← g3_next_candidate c
      match key with
      | none =>
        g3_close_candidates c
        pure (.inr none)
      | some key =>
        let evicted ← handle (g3_try_candidate K key) fun e => do
          g3_close_candidates c
          raise e
        if evicted then
          let slot ← g3_pop_free
          g3_close_candidates c
          pure (.inr slot)
        else pure (.inl c)

/-! ## Reservations and reads -/

/-- Allocate `required` slots, stopping at the first that cannot be had. -/
def g3_allocate_slots (protected_keys : List BlockKey) : Nat → List Nat → KM (List Nat)
  | 0, slots => pure slots
  | n + 1, slots => do
    match ← g3_allocate_slot K protected_keys with
    | none => pure slots
    | some slot => g3_allocate_slots protected_keys n (slots ++ [slot])

/-- `_reserve`. -/
def g3_reserve (blocks : Dict BlockKey (List TransferRef)) (protected_keys : List BlockKey) :
    KM (List (BlockKey × G3Id)) :=
  foldEach blocks.entries [] fun reservations (key, refs) => do
    let s ← read
    if s.record key = none ∨ (s.g3_residency key).isSome ∨ key ∈ s.g3.pending_keys then
      pure reservations
    else
      let required := descriptor_bytes K.cfg refs / K.cfg.g3_slot_size
      if required > s.g3.free_slots.length then g3_retry_unscored K else pure ()
      let s ← read
      if (required : Int) > s.g3.free_slots.length + s.g3.evictable_slots then
        pure reservations
      else
        let slots ← g3_allocate_slots K protected_keys required []
        if slots.length ≠ required then
          g3_free slots
          pure reservations
        else
          let s ← read
          change fun s =>
            { s with
              g3.pending_keys := s.g3.pending_keys.insert key
              g3_residencies := Function.update s.g3_residencies s.next_g3
                { layout := refs.map (·.label), slots := slots }
              next_g3 := s.next_g3 + 1 }
          pure (reservations ++ [(key, s.next_g3)])

/-- `_rollback`. -/
def g3_rollback (reservations : List (BlockKey × G3Id)) : KM Unit :=
  forEach reservations fun (key, g) => do
    let s ← read
    if key ∈ s.g3.pending_keys then
      change fun s => { s with g3.pending_keys := s.g3.pending_keys.erase key }
      g3_free (s.g3_residencies g).slots
    else pure ()

/-- `_claim`. -/
def g3_claim (keys : List BlockKey) : KM (List (BlockKey × G3Id) × List BlockKey) :=
  foldEach keys ([], []) fun (claims, rejected) key => do
    let s ← read
    match s.g3_residency key with
    | none => pure (claims, rejected ++ [key])
    | some g =>
      g3_remove_evictable key
      modify_g3_residency g fun residency =>
        { residency with claim_count := residency.claim_count + 1 }
      pure (claims ++ [(key, g)], rejected)

/-- `_release_claims`. -/
def g3_release_claims (claims : List (BlockKey × G3Id)) : KM Unit :=
  forEach claims fun (key, g) => do
    let s ← read
    if s.g3_residency key ≠ some g then
      raise (.runtime_error "G3 claim lost residency")
    else if (s.g3_residencies g).claim_count = 0 then
      raise (.runtime_error "invalid G3 claim count")
    else
      modify_g3_residency g fun residency =>
        { residency with claim_count := residency.claim_count - 1 }
      let s ← read
      if (s.g3_residencies g).claim_count = 0 then g3_make_evictable K key else pure ()

/-- `_submit`. -/
def g3_submit (op : G3TransferOp) : KM Unit := do
  let s ← read
  if op.op_id ∈ s.g3.active then raise (.runtime_error "duplicate G3 operation")
  else
    change fun s => { s with g3.active := s.g3.active.insert op.op_id }
    add_block_dependencies K op.op_id op.keys.elems
    handle (submit K (.g3_transfer op)) fun e => do
      change fun s => { s with g3.active := s.g3.active.erase op.op_id }
      remove_block_dependencies K op.op_id op.keys.elems
      if op.kind = .store then g3_rollback op.reservations
      else g3_release_claims K op.claims
      raise e

/-- The recovery preflight of each reservation, stopping at the first refusal. -/
def g3_preflight : List (BlockKey × G3Id) → KM Bool
  | [] => pure true
  | (key, _) :: reservations => do
    let s ← read
    if s.record key = none then raise .key_error
    else
      let fits ← ask K.env.recovery_preflight
      if fits then g3_preflight reservations else pure false

/-- `_start_store`. -/
def g3_start_store (op_id : OpId) (blocks : Dict BlockKey (List TransferRef)) (deadline : Time) :
    KM Bool := do
  let reservations ← g3_reserve K blocks blocks.keys
  if reservations.length ≠ blocks.entries.length then
    g3_rollback reservations
    pure false
  else
    let fits ← if K.cfg.journal then g3_preflight K reservations else pure true
    if ¬ fits then
      g3_rollback reservations
      pure false
    else
      let s ← read
      let memory_descriptors ← lift_except (memory_chunks_all K.cfg
        (reservations.flatMap fun p => block_refs blocks p.1))
      forEach reservations fun (key, g) => act (.g3_write_into key (s.g3_residencies g).slots)
      g3_submit K
        { op_id := op_id
          keys := OrderedSet.ofList blocks.keys
          kind := .store
          ordered_keys := reservations.map Prod.fst
          memory_descriptors := memory_descriptors
          file_descriptors := store_files K.cfg s.g3_residencies reservations
          deadline := deadline
          reservations := reservations
          blocks := blocks }
      pure true

/-- The claims of a read whose layout matches, with the descriptors they move. -/
def g3_match_claims (blocks : Dict BlockKey (List TransferRef))
    (claims : List (BlockKey × G3Id)) (rejected : List BlockKey) :
    KM (List (BlockKey × G3Id) × List BlockKey × List MemDescriptor × List MemDescriptor) :=
  foldEach claims ([], rejected, [], []) fun (accepted, rejected, memory, files) (key, g) => do
    let s ← read
    let refs := block_refs blocks key
    let residency := s.g3_residencies g
    match layout_indices residency.layout (refs.map (·.label)) with
    | none =>
      g3_release_claims K [(key, g)]
      pure (accepted, rejected ++ [key], memory, files)
    | some indices =>
      let chunks ← lift_except (memory_chunks_all K.cfg refs)
      pure (accepted ++ [(key, g)], rejected, memory ++ chunks,
        files ++ read_files K.cfg residency indices)

/-- `_start_read`, for `start_fill` and `start_deliver`. -/
def g3_start_read (kind : G3Kind) (op_handle : OpHandle) (blocks : Dict BlockKey (List TransferRef))
    (deadline : Time) : KM Bool := do
  let (claims, rejected) ← g3_claim blocks.keys
  let (claims, rejected, memory_descriptors, file_descriptors) ←
    g3_match_claims K blocks claims rejected
  if rejected ≠ [] ∧ kind = .fill then
    g3_release_claims K claims
    pure false
  else
    if rejected ≠ [] then
      let s ← read
      if s.joined_completions.contains op_handle then pure ()
      else
        change fun s =>
          { s with joined_completions :=
              s.joined_completions.set op_handle (OrderedSet.ofList blocks.keys, Dict.empty) }
      complete op_handle (.literal (fromkeys rejected FAILED_RESULT))
    else pure ()
    if claims = [] then pure true
    else if (memory_descriptors.map (·.mem_type)).dedup.length ≠ 1 then
      -- A native transfer requires a single destination memory type.
      g3_release_claims K claims
      pure false
    else
      let s ← read
      let deliver : Bool := kind = .deliver
      if deliver then
        change fun s => { s with next_fill_handle := s.next_fill_handle - 1 }
      else pure ()
      g3_submit K
        { op_id := if deliver then .g3_deliver op_handle else .g3_fill op_handle
          keys := OrderedSet.ofList (claims.map Prod.fst)
          kind := kind
          ordered_keys := claims.map Prod.fst
          memory_descriptors := memory_descriptors
          file_descriptors := file_descriptors
          deadline := deadline
          claims := claims
          memory_refs := if deliver then claims.flatMap fun p => block_refs blocks p.1 else []
          lifecycle_handle := if deliver then some s.next_fill_handle else none
          abandon_deadline := if deliver then some (deadline + K.cfg.abandon_grace) else none
          blocks := blocks }
      pure true

/-! ## Stores that fail -/

/-- `_retire_local_sources`. -/
def retire_local_sources (op_id : OpId) : KM Unit := do
  let s ← read
  let sources := (s.local_dram_sources_by_op.get? op_id).getD Dict.empty
  if sources.entries = [] then pure ()
  else
    retire_sources K sources.keys
    release_local_dram_sources K op_id

/-- `_recover_store_failure`: whatever the policy answers, the victim is dropped. -/
def recover_store_failure (key : BlockKey) : KM Unit := do
  let s ← read
  match s.record key with
  | none => raise .key_error
  | some record =>
    match (s.recs record).local_dram with
    | none => raise .key_error
    | some r =>
      let answer ← ask fun tick => K.env.decide_recovery tick
        (block_meta s key record (size_bytes K.cfg (s.residencies r)))
      let _ := decide_recovery answer
      retire_local_sources K (.g3_store key)

/-- The guarded part of `resolve_eviction`: whether the store was started. -/
def try_store (key : BlockKey) (r : ResId) (deadline : Time) : KM Bool := do
  let s ← read
  let residency := s.residencies r
  let source := source_refs K.cfg residency (List.range residency.slots.length)
  let started ← g3_start_store K (.g3_store key) (Dict.empty.set key source) deadline
  if started then pure true
  else
    handle (recover_store_failure K key) fun e => do
      act (.recovery_raised key)
      raise e
    pure false

/-- `resolve_eviction`: the decision, and whether capacity is pending. -/
def resolve_eviction (m : BlockMeta) (source : CacheTier) (decision : PlacementDecision)
    (deadline : Time) : KM (PlacementDecision × Bool) := do
  if source ≠ .LOCAL_G2 ∨ decision ≠ (.MOVE_TO, some .G3) then pure (decision, false)
  else
    let key := m.block_key
    let s ← read
    match s.local_dram key with
    | none => pure ((.KEEP, none), false)
    | some _ =>
      if (s.g3_residency key).isSome then pure ((.DROP, none), false)
      else if key ∈ s.g3.pending_keys then pure ((.KEEP, none), false)
      else
        let sources ← claim_local_dram_sources K (.g3_store key) [key]
        match sources.get? key with
        | none => pure ((.KEEP, none), false)
        | some r =>
          let started ← handle (try_store K key r deadline) fun _ => do
            recover_store_failure K key
            pure false
          pure ((.KEEP, none), started)

/-- `_decide_eviction`. -/
def core_decide_eviction (m : BlockMeta) (source : CacheTier) (deadline : Time) :
    KM (PlacementDecision × Bool) := do
  let decision ← policy_decide_eviction K m source
  if K.cfg.g3.isSome then resolve_eviction K m source decision deadline
  else pure (decision, false)

/-! ## Recovered rows -/

/-- The checks of `adopt_recovery_slots` on one disk residency. -/
def g3_adopt_residency (cfg : Config) (g : G3Residency) (local_layout : Option (List Label))
    (occupied : List Nat) : Except Err (List Nat) := do
  validate_expected_layout cfg g.layout
  if g3_size_bytes cfg g ≠
      (g.layout.map fun label => (cfg.block_size label.pool).getD 0).sum then
    .error (.value_error "invalid G3 recovery slots")
  else if ¬ g.slots.all (fun slot => slot < cfg.g3_total_slots) ∨ ¬ g.slots.Nodup ∨
      g.slots.any (fun slot => slot ∈ occupied) then
    .error (.value_error "invalid G3 recovery slots")
  else if local_layout.any fun layout => g.layout ≠ layout then
    .error (.value_error "G3 recovery layout does not match local DRAM")
  else .ok (g.slots ++ occupied)

/-- `adopt_recovery_slots` of the disk tier. -/
def g3_adopt_recovery_slots (records : List (BlockKey × RecId)) : KM Unit := do
  let occupied ← foldEach records ([] : List Nat) fun occupied (_, record) => do
    let s ← read
    match (s.recs record).g3 with
    | none => pure occupied
    | some g =>
      lift_except (g3_adopt_residency K.cfg (s.g3_residencies g)
        ((s.recs record).local_dram.map fun r => (s.residencies r).key_layout) occupied)
  change fun s =>
    { s with g3.free_slots :=
        (List.range K.cfg.g3_total_slots).filter fun slot => slot ∉ occupied }

/-- `rank_recovered` of the disk tier. -/
def g3_rank_recovered (records : List (BlockKey × RecId)) : KM Unit :=
  forEach records fun (key, record) => do
    let s ← read
    if (s.recs record).g3.isSome then g3_make_evictable K key else pure ()

end Kvcr
