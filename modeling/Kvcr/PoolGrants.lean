/-
How pools tile a mapping, in the Guard and in the client.

The Guard computes each pool's offset from the sizes it was started with, the client
recomputes it from the sizes it is granted, and a core divides each pool into slots. The
three meet at tilings: the Guard's descriptors tile the mapping behind the journal, the
client accepts nothing else, and slots are chunks of a tile.

A grant is what the decoder lets through, from any peer: every descriptor of it holds a
block, nothing else is known. The mapping is at any address but zero.
-/
import Mathlib.Data.List.Pairwise
import Kvcr.Lib.Ranges
import Kvcr.Base
import Kvcr.PoolTerms

set_option autoImplicit false

namespace Kvcr.Guard

/-! ## Checks of the source -/

/-- `_Granted` as it is decoded: `_PoolDescriptor` checks its geometry. -/
structure Granted where
  guard_index : Int
  spec : KVCRPoolSpec
  tier_config : TierConfig
  pools : List PoolDescriptor
  geometry : ∀ pool ∈ pools,
    (compute_pool_geometry pool.size_bytes pool.block_size_bytes).isOk

/-- The loop of `_grant_layout`: the offset behind the last pool. -/
def check_pools (page : Nat) :
    Nat → Nat → List PoolDescriptor → List (String × Nat) → Except String Nat
  | index, expected_offset, pool :: pools, layout :: layouts =>
    if (pool.name, pool.block_size_bytes) ≠ layout ∨ pool.offset_bytes ≠ expected_offset ∨
        pool.size_bytes % page ≠ 0 then
      .error ("claim pool " ++ toString index ++ " layout mismatch")
    else check_pools page (index + 1) (expected_offset + pool.size_bytes) pools layouts
  | _, expected_offset, _, _ => .ok expected_offset

/-- `_grant_layout`; each error is a `KVCRGuardProtocolError`. -/
def grant_layout (page : Nat) (response : Granted) (requested_guard_index : Int)
    (requested_tier_config : TierConfig) : Except String (KVCRPoolSpec × List PoolDescriptor) :=
  if response.guard_index ≠ requested_guard_index then
    .error ("claim Guard mismatch: requested " ++ toString requested_guard_index ++ ", got " ++
      toString response.guard_index)
  else if response.tier_config ≠ requested_tier_config then
    .error "claim tier configuration mismatch"
  else if response.pools.length ≠ requested_tier_config.pool_layouts.length then
    .error "claim pool count mismatch"
  else
    match check_pools page 0 response.spec.journal_bytes response.pools
        requested_tier_config.pool_layouts with
    | .error e => .error e
    | .ok expected_offset =>
      if expected_offset ≠ response.spec.mapping_bytes then
        .error "claim pool sizes do not fill the allocation"
      else .ok (response.spec, response.pools)

/-- The pools of `KVCRPoolHold.local_dram`, for a mapping at `address`. -/
def hold_pools (address : Nat) (pools : List PoolDescriptor) : List (String × Nat × Nat) :=
  pools.map fun pool => (pool.name, address + pool.offset_bytes, pool.size_bytes)

/-- The loop of `_LocalDramPools`. -/
def check_regions : List ((String × Nat × Nat) × (String × Nat)) → Except String Unit
  | [] => .ok ()
  | ((_, address, length), (_, slot_size)) :: rest =>
    if address = 0 then .error "local DRAM address must be positive"
    else if length = 0 then .error "local DRAM pool size must be a positive integer"
    else if length / slot_size = 0 then .error "local DRAM pool must hold at least one block"
    else check_regions rest

/-- How Python orders pairs. -/
def pair_le (p q : Nat × Nat) : Bool := p.1 < q.1 || (p.1 = q.1 && p.2 ≤ q.2)

/-- What `_LocalDramPools` refuses of its pools. Their names are those of `pool_layouts`, which
are unique in every `_TierConfig`. -/
def check_local_dram (region : LocalDramOptions) (pool_layouts : List (String × Nat)) :
    Except String Unit :=
  if region.pools.map (·.1) ≠ pool_layouts.map (·.1) then
    .error "local DRAM pools must match pool_layouts"
  else
    match check_regions (region.pools.zip pool_layouts) with
    | .error e => .error e
    | .ok () =>
      let ranges := (region.pools.map fun pool => (pool.2.1, pool.2.1 + pool.2.2)).mergeSort pair_le
      if (ranges.zip ranges.tail).any fun p => p.2.1 < p.1.2 then
        .error "local DRAM pools must not overlap"
      else .ok ()

/-! ## Descriptors as ranges -/

/-- What a descriptor takes of the mapping. -/
def PoolDescriptor.range (pool : PoolDescriptor) : Range Unit :=
  ⟨(), pool.offset_bytes, pool.size_bytes⟩

/-- What a descriptor asked for. -/
def PoolDescriptor.layout (pool : PoolDescriptor) : String × Nat :=
  (pool.name, pool.block_size_bytes)

theorem compute_pool_geometry_isOk {requested_bytes block_size_bytes : Nat} :
    (compute_pool_geometry requested_bytes block_size_bytes).isOk ↔
      requested_bytes / block_size_bytes ≠ 0 := by
  unfold compute_pool_geometry
  by_cases hrequested : requested_bytes = 0
  · rw [if_pos hrequested, hrequested, Nat.zero_div]
    exact ⟨fun h => (by cases h), fun h => absurd rfl h⟩
  by_cases hblock : block_size_bytes = 0
  · rw [if_neg hrequested, if_pos hblock, hblock, Nat.div_zero]
    exact ⟨fun h => (by cases h), fun h => absurd rfl h⟩
  rw [if_neg hrequested, if_neg hblock]
  dsimp only
  by_cases hcount : requested_bytes / block_size_bytes = 0
  · rw [if_pos hcount]
    exact ⟨fun h => (by cases h), fun h => absurd hcount h⟩
  · rw [if_neg hcount]
    exact ⟨fun _ => hcount, fun _ => rfl⟩

theorem refusal_eq_none {pool : PoolDescriptor} : pool.refusal = none ↔
    (compute_pool_geometry pool.size_bytes pool.block_size_bytes).isOk := by
  unfold PoolDescriptor.refusal
  cases compute_pool_geometry pool.size_bytes pool.block_size_bytes with
  | error message => exact ⟨fun h => (by cases h), fun h => (by cases h)⟩
  | ok geometry => exact ⟨fun _ => rfl, fun _ => rfl⟩

/-! ## The Guard's side -/

section Granting

variable {setting : Setting} {sizes : List Nat} {layouts : List (String × Nat)} {offset : Nat}

/-- The Guard's descriptors ask for the layouts in order and lie one behind the other. -/
theorem tiles_descriptors (offset : Nat) (hlength : sizes.length = layouts.length) :
    (RecoveryState.descriptors sizes layouts offset).map PoolDescriptor.layout = layouts ∧
      Range.Tiles () (offset + sizes.sum) offset
        ((RecoveryState.descriptors sizes layouts offset).map PoolDescriptor.range) := by
  induction sizes generalizing layouts offset with
  | nil =>
    have hnone : layouts = [] := List.length_eq_zero_iff.mp hlength.symm
    subst hnone
    exact ⟨rfl, rfl⟩
  | cons size sizes ih =>
    cases layouts with
    | nil => cases hlength
    | cons layout layouts =>
      obtain ⟨hlayouts, htiles⟩ :
          _ ∧ Range.Tiles () (offset + size + sizes.sum) (offset + size) _ :=
        ih (offset + size) (Nat.succ.inj hlength)
      rw [List.sum_cons, ← Nat.add_assoc]
      unfold RecoveryState.descriptors
      refine ⟨?_, rfl, rfl, htiles⟩
      rw [List.map_cons, hlayouts]
      rfl

/-- Sizes are granted as they were configured. -/
theorem size_of_mem_descriptors {pool : PoolDescriptor}
    (hpool : pool ∈ RecoveryState.descriptors sizes layouts offset) :
    pool.size_bytes ∈ sizes := by
  induction sizes generalizing layouts offset with
  | nil =>
    unfold RecoveryState.descriptors at hpool
    exact absurd hpool List.not_mem_nil
  | cons size sizes ih =>
    cases layouts with
    | nil =>
      unfold RecoveryState.descriptors at hpool
      exact absurd hpool List.not_mem_nil
    | cons layout layouts =>
      unfold RecoveryState.descriptors at hpool
      rcases List.mem_cons.mp hpool with rfl | hpool
      · exact List.mem_cons_self
      · exact List.mem_cons_of_mem size (ih hpool)

/-- What a configuration that was accepted says about the descriptors. -/
theorem configure_ok {r r' : RecoveryState}
    (h : r.configure setting layouts = (.ok (), r')) :
    setting.pool_sizes_bytes.length = layouts.length ∧
      r'.pools = RecoveryState.descriptors setting.pool_sizes_bytes layouts setting.journal_bytes ∧
      ∀ pool ∈ r'.pools, pool.size_bytes / pool.block_size_bytes ≠ 0 := by
  unfold RecoveryState.configure at h
  by_cases hlength : layouts.length ≠ setting.pool_sizes_bytes.length
  · rw [if_pos hlength] at h
    cases h
  rw [if_neg hlength] at h
  rw [ne_eq, not_not] at hlength
  refine ⟨hlength.symm, ?_⟩
  generalize hpools : RecoveryState.descriptors setting.pool_sizes_bytes layouts
    setting.journal_bytes = pools at h
  dsimp only at h
  cases hfind : pools.findSome? PoolDescriptor.refusal with
  | some message =>
    rw [hfind] at h
    cases h
  | none =>
    have hblocks : ∀ pool ∈ pools, pool.size_bytes / pool.block_size_bytes ≠ 0 := fun pool hpool =>
      compute_pool_geometry_isOk.mp (refusal_eq_none.mp
        (List.findSome?_eq_none_iff.mp hfind pool hpool))
    rw [hfind] at h
    -- With or without a mirror, the descriptors taken up are the ones computed.
    cases hmirror : r.mirror with
    | some mirror =>
      rw [hmirror] at h
      cases h
      exact ⟨rfl, hblocks⟩
    | none =>
      rw [hmirror] at h
      dsimp only at h
      split at h
      · cases h
      · cases h
        exact ⟨rfl, hblocks⟩

end Granting

/-! ## The client's side -/

section Accepting

variable {page : Nat} {pools : List PoolDescriptor} {layouts : List (String × Nat)}
  {index start stop : Nat}

/-- The client's loop accepts exactly the tilings that answer the request. -/
theorem check_pools_ok (hlength : pools.length = layouts.length) :
    check_pools page index start pools layouts = .ok stop ↔
      pools.map PoolDescriptor.layout = layouts ∧ (∀ pool ∈ pools, pool.size_bytes % page = 0) ∧
        Range.Tiles () stop start (pools.map PoolDescriptor.range) := by
  induction pools generalizing layouts index start with
  | nil =>
    have hnone : layouts = [] := List.length_eq_zero_iff.mp hlength.symm
    subst hnone
    unfold check_pools
    constructor
    · intro h
      exact ⟨rfl, fun pool hpool => absurd hpool List.not_mem_nil, Except.ok.inj h⟩
    · rintro ⟨-, -, htiles⟩
      exact congrArg Except.ok htiles
  | cons pool pools ih =>
    cases layouts with
    | nil => cases hlength
    | cons layout layouts =>
      have hrest : check_pools page (index + 1) (start + pool.size_bytes) pools layouts =
          .ok stop ↔ _ := ih (Nat.succ.inj hlength)
      unfold check_pools
      by_cases hbad : (pool.name, pool.block_size_bytes) ≠ layout ∨
          pool.offset_bytes ≠ start ∨ pool.size_bytes % page ≠ 0
      · rw [if_pos hbad]
        constructor
        · intro h
          cases h
        · rintro ⟨hlayout, hpages, -, haddr, -⟩
          rw [List.map_cons] at hlayout
          rcases hbad with hbad | hbad | hbad
          · exact absurd (List.cons.inj hlayout).1 hbad
          · exact absurd haddr hbad
          · exact absurd (hpages pool List.mem_cons_self) hbad
      · rw [if_neg hbad]
        rw [not_or, not_or, ne_eq, not_not, ne_eq, not_not, ne_eq, not_not] at hbad
        obtain ⟨hlayout, hoffset, hpage⟩ := hbad
        rw [hrest, List.map_cons, List.map_cons]
        constructor
        · rintro ⟨hlayouts, hpages, htiles⟩
          refine ⟨?_, ?_, rfl, hoffset, htiles⟩
          · rw [hlayouts, PoolDescriptor.layout, hlayout]
          · intro p hp
            rcases List.mem_cons.mp hp with rfl | hp
            · exact hpage
            · exact hpages p hp
        · rintro ⟨hlayouts, hpages, -, -, htiles⟩
          exact ⟨(List.cons.inj hlayouts).2,
            fun p hp => hpages p (List.mem_cons_of_mem pool hp), htiles⟩

/-- A grant is accepted exactly if it answers the request with a tiling of the mapping behind
the journal. -/
theorem grant_layout_ok {response : Granted} {guard_index : Int} {tier_config : TierConfig}
    {spec : KVCRPoolSpec} :
    grant_layout page response guard_index tier_config = .ok (spec, pools) ↔
      response.guard_index = guard_index ∧ response.tier_config = tier_config ∧
        response.spec = spec ∧ response.pools = pools ∧
        pools.map PoolDescriptor.layout = tier_config.pool_layouts ∧
        (∀ pool ∈ pools, pool.size_bytes % page = 0) ∧
        Range.Tiles () spec.mapping_bytes spec.journal_bytes
          (pools.map PoolDescriptor.range) := by
  unfold grant_layout
  by_cases hindex : response.guard_index = guard_index
  swap
  · rw [if_pos hindex]
    exact ⟨fun h => (by cases h), fun h => absurd h.1 hindex⟩
  by_cases htier : response.tier_config = tier_config
  swap
  · rw [if_neg (not_not_intro hindex), if_pos htier]
    exact ⟨fun h => (by cases h), fun h => absurd h.2.1 htier⟩
  rw [if_neg (not_not_intro hindex), if_neg (not_not_intro htier)]
  by_cases hcount : response.pools.length = tier_config.pool_layouts.length
  swap
  · rw [if_pos hcount]
    refine ⟨fun h => (by cases h), ?_⟩
    rintro ⟨-, -, -, rfl, hlayouts, -⟩
    exact absurd (by rw [← hlayouts, List.length_map]) hcount
  rw [if_neg (not_not_intro hcount)]
  have hloop : check_pools page 0 response.spec.journal_bytes response.pools
      tier_config.pool_layouts = .ok response.spec.mapping_bytes ↔ _ := check_pools_ok hcount
  cases hcheck : check_pools page 0 response.spec.journal_bytes response.pools
      tier_config.pool_layouts with
  | error e =>
    refine ⟨fun h => (by cases h), ?_⟩
    rintro ⟨-, -, rfl, rfl, haccepted⟩
    rw [hcheck] at hloop
    cases hloop.mpr haccepted
  | ok expected_offset =>
    dsimp only
    rw [hcheck] at hloop
    by_cases hfills : expected_offset = response.spec.mapping_bytes
    · rw [if_neg (not_not_intro hfills)]
      have haccepted := hloop.mp (congrArg Except.ok hfills)
      constructor
      · intro h
        cases h
        exact ⟨hindex, htier, rfl, rfl, haccepted⟩
      · rintro ⟨-, -, rfl, rfl, -⟩
        rfl
    · rw [if_pos hfills]
      refine ⟨fun h => (by cases h), ?_⟩
      rintro ⟨-, -, rfl, rfl, haccepted⟩
      exact absurd (Except.ok.inj (hloop.mpr haccepted)) hfills

end Accepting

/-! ## The core's side -/

section Slots

variable {cfg : Config} {address : Nat} {pools : List PoolDescriptor}

/-- A core over the mapping at `address`, with the pools of a grant. -/
structure CoreOver (cfg : Config) (address : Nat) (pools : List PoolDescriptor) : Prop where
  pool_layouts : cfg.pool_layouts = pools.map PoolDescriptor.layout
  local_dram : cfg.local_dram = some ⟨hold_pools address pools⟩

/-- What the core registers for a pool. -/
def PoolDescriptor.registered (address : Nat) (pool : PoolDescriptor) : RegionDescriptor :=
  { addr := address + pool.offset_bytes
    count := pool.size_bytes / pool.block_size_bytes
    size := pool.block_size_bytes
    label := ⟨pool.name, none⟩ }

theorem memory_regions_over (hcore : CoreOver cfg address pools) :
    cfg.memory_regions = pools.map (PoolDescriptor.registered address) := by
  rw [Config.memory_regions, Config.regions, hcore.local_dram, hcore.pool_layouts]
  dsimp only
  rw [hold_pools, List.zip_map', List.map_map, List.map_map]
  rfl

/-- A slot that a reference of the core's own memory resolves to. -/
theorem slot_of_ref (hcore : CoreOver cfg address pools) {ref : TransferRef} {d : MemDescriptor}
    (hown : ref.framework = false) (hresolve : address_descriptor cfg ref = .ok d) :
    ∃ pool ∈ pools, pool.name = ref.label.pool ∧
      ref.element_index < pool.size_bytes / pool.block_size_bytes ∧
      d.addr = address + pool.offset_bytes + ref.element_index * pool.block_size_bytes ∧
      d.size = pool.block_size_bytes := by
  obtain ⟨region, hregion, rfl⟩ := (address_descriptor_eq_ok cfg).mp hresolve
  obtain ⟨-, hfound, hindex⟩ := resolve_region_eq_ok.mp hregion
  unfold find_region at hfound
  rw [hown, if_neg Bool.false_ne_true] at hfound
  obtain ⟨hmem, hlabel⟩ := mem_of_region_map hfound
  rw [memory_regions_over hcore] at hmem
  obtain ⟨pool, hpool, rfl⟩ := List.mem_map.mp hmem
  exact ⟨pool, hpool, congrArg Label.pool hlabel, hindex, rfl, rfl⟩

/-- The slots of a pool lie inside it. -/
theorem slot_inside {pool : PoolDescriptor} {i : Nat}
    (hi : i < pool.size_bytes / pool.block_size_bytes) :
    i * pool.block_size_bytes + pool.block_size_bytes ≤ pool.size_bytes := by
  calc i * pool.block_size_bytes + pool.block_size_bytes
      = (i + 1) * pool.block_size_bytes := (Nat.succ_mul ..).symm
    _ ≤ pool.size_bytes / pool.block_size_bytes * pool.block_size_bytes :=
        Nat.mul_le_mul_right _ hi
    _ ≤ pool.size_bytes := Nat.div_mul_le_self ..

/-- Slots of one pool are apart. -/
theorem slots_apart (block : Nat) {i j : Nat} (hne : i ≠ j) :
    i * block + block ≤ j * block ∨ j * block + block ≤ i * block := by
  rw [← Nat.succ_mul, ← Nat.succ_mul]
  rcases Nat.lt_or_gt_of_ne hne with hlt | hgt
  · exact .inl (Nat.mul_le_mul_right block hlt)
  · exact .inr (Nat.mul_le_mul_right block hgt)

/-- Every slot address of the core lies behind the journal and inside the mapping. -/
theorem slot_in_mapping {start stop : Nat} (hcore : CoreOver cfg address pools)
    (htiles : Range.Tiles () stop start (pools.map PoolDescriptor.range)) {ref : TransferRef}
    {d : MemDescriptor} (hown : ref.framework = false)
    (hresolve : address_descriptor cfg ref = .ok d) :
    address + start ≤ d.addr ∧ d.addr + d.size ≤ address + stop := by
  obtain ⟨pool, hpool, -, hindex, haddr, hsize⟩ := slot_of_ref hcore hown hresolve
  obtain ⟨-, hlow, hhigh⟩ := htiles.bounds.2 _ (List.mem_map_of_mem hpool)
  have hinside := slot_inside hindex
  simp only [PoolDescriptor.range] at hlow hhigh
  omega

/-- Slots of different pools or indices share no address. -/
theorem slots_of_core_apart {start stop : Nat} (hcore : CoreOver cfg address pools)
    (htiles : Range.Tiles () stop start (pools.map PoolDescriptor.range)) {ref ref' : TransferRef}
    {d d' : MemDescriptor} (hown : ref.framework = false) (hown' : ref'.framework = false)
    (hresolve : address_descriptor cfg ref = .ok d)
    (hresolve' : address_descriptor cfg ref' = .ok d')
    (hne : (ref.label.pool, ref.element_index) ≠ (ref'.label.pool, ref'.element_index)) :
    d.addr + d.size ≤ d'.addr ∨ d'.addr + d'.size ≤ d.addr := by
  obtain ⟨pool, hpool, hname, hindex, haddr, hsize⟩ := slot_of_ref hcore hown hresolve
  obtain ⟨pool', hpool', hname', hindex', haddr', hsize'⟩ := slot_of_ref hcore hown' hresolve'
  by_cases hsame : pool = pool'
  · subst hsame
    have hindices : ref.element_index ≠ ref'.element_index := by
      intro h
      exact hne (by rw [← hname, ← hname', h])
    have hapart := slots_apart pool.block_size_bytes hindices
    rw [haddr, haddr', hsize, hsize']
    omega
  · -- Pools of a tiling are apart, and a slot stays inside its pool.
    have hpairs := List.pairwise_map.mp htiles.pairwise
    have hsymm : Std.Symm fun p q : PoolDescriptor => p.range.Apart q.range :=
      ⟨fun _ _ h => h.symm⟩
    have hapart := hpairs.forall hpool hpool' hsame rfl
    have hinside := slot_inside hindex
    have hinside' := slot_inside hindex'
    simp only [PoolDescriptor.range] at hapart
    omega

/-- The core accepts the pools. -/
theorem check_local_dram_ok {start stop : Nat} (haddress : 0 < address)
    (hgeometry : ∀ pool ∈ pools, pool.size_bytes / pool.block_size_bytes ≠ 0)
    (htiles : Range.Tiles () stop start (pools.map PoolDescriptor.range)) :
    check_local_dram ⟨hold_pools address pools⟩ (pools.map PoolDescriptor.layout) = .ok () := by
  have hnames : (hold_pools address pools).map (·.1) =
      (pools.map PoolDescriptor.layout).map (·.1) := by
    rw [hold_pools, List.map_map, List.map_map]
    rfl
  have hregions : check_regions ((hold_pools address pools).zip
      (pools.map PoolDescriptor.layout)) = .ok () := by
    rw [hold_pools, List.zip_map']
    clear htiles hnames
    induction pools with
    | nil => rfl
    | cons pool pools ih =>
      have hblocks := hgeometry pool List.mem_cons_self
      have hsize : pool.size_bytes ≠ 0 := by
        intro hzero
        rw [hzero, Nat.zero_div] at hblocks
        exact hblocks rfl
      rw [List.map_cons, check_regions, if_neg (by omega), if_neg hsize, PoolDescriptor.layout,
        if_neg hblocks]
      exact ih fun p hp => hgeometry p (List.mem_cons_of_mem pool hp)
  have hranges : ((hold_pools address pools).map fun pool => (pool.2.1, pool.2.1 + pool.2.2)) =
      pools.map fun pool => (address + pool.offset_bytes,
        address + pool.offset_bytes + pool.size_bytes) := by
    rw [hold_pools, List.map_map]
    rfl
  -- The ranges come in order of their addresses, so sorting leaves them.
  have hordered : (pools.map fun pool => (address + pool.offset_bytes,
      address + pool.offset_bytes + pool.size_bytes)).Pairwise
        fun p q => p.2 ≤ q.1 ∧ p.1 < q.1 := by
    refine List.pairwise_map.mpr ?_
    have hpositive : ∀ pool ∈ pools, 0 < pool.size_bytes := by
      intro pool hpool
      refine Nat.pos_of_ne_zero fun hzero => hgeometry pool hpool ?_
      rw [hzero, Nat.zero_div]
    refine (List.pairwise_map.mp htiles.ordered).imp_of_mem ?_
    intro p q hp _ hle
    have hpos := hpositive p hp
    simp only [PoolDescriptor.range] at hle
    dsimp only
    omega
  unfold check_local_dram
  rw [if_neg (not_not_intro hnames), hregions]
  dsimp only
  rw [hranges]
  generalize (pools.map fun pool => (address + pool.offset_bytes,
    address + pool.offset_bytes + pool.size_bytes)) = ranges at hordered
  have hsorted : ranges.mergeSort pair_le = ranges := by
    refine List.mergeSort_of_pairwise (hordered.imp ?_)
    intro p q h
    rw [pair_le, decide_eq_true h.2, Bool.true_or]
  rw [hsorted, if_neg]
  rw [Bool.not_eq_true, List.any_eq_false]
  rintro ⟨p, q⟩ hpq
  have hle : p.2 ≤ q.1 := by
    clear hsorted
    induction ranges with
    | nil => exact absurd hpq List.not_mem_nil
    | cons first ranges ih =>
      obtain ⟨hfirst, hlater⟩ := List.pairwise_cons.mp hordered
      cases ranges with
      | nil => exact absurd hpq List.not_mem_nil
      | cons second ranges =>
        rw [List.tail_cons, List.zip_cons_cons] at hpq
        rcases List.mem_cons.mp hpq with hhead | htail
        · cases hhead
          exact (hfirst q List.mem_cons_self).1
        · exact ih hlater htail
  simpa using hle

end Slots

/-! ## Agreement -/

/-- Guard and client agree on how pools tile the mapping. What a Guard grants for layouts it
accepted answers them in order, covers the mapping behind the journal exactly and without
overlap, holds a block in every pool, and passes the client's check. And whatever the client
accepts, from any peer, tiles the mapping so, whence the core built over it accepts its
pools, every slot address lies in the mapping behind the journal, and slots of different
pools or indices share no address. -/
theorem grants_tile_mapping (page : Nat) :
    (∀ (setting : Setting) (spec : KVCRPoolSpec) (tier_config : TierConfig)
      (r r' : RecoveryState), (∀ size ∈ setting.pool_sizes_bytes, size % page = 0) →
      spec.journal_bytes = setting.journal_bytes →
      spec.mapping_bytes = setting.journal_bytes + setting.pool_sizes_bytes.sum →
      r.configure setting tier_config.pool_layouts = (.ok (), r') →
      r'.pools.map PoolDescriptor.layout = tier_config.pool_layouts ∧
      (r'.pools.map PoolDescriptor.range).Pairwise Range.Apart ∧
      (∀ addr, (∃ pool ∈ r'.pools, pool.offset_bytes ≤ addr ∧
          addr < pool.offset_bytes + pool.size_bytes) ↔
        spec.journal_bytes ≤ addr ∧ addr < spec.mapping_bytes) ∧
      (∀ pool ∈ r'.pools, 1 ≤ pool.size_bytes / pool.block_size_bytes) ∧
      ∃ granted : Granted, granted.guard_index = setting.guard_index ∧ granted.spec = spec ∧
        granted.tier_config = tier_config ∧ granted.pools = r'.pools ∧
        grant_layout page granted setting.guard_index tier_config = .ok (spec, r'.pools)) ∧
    ∀ (response : Granted) (guard_index : Int) (tier_config : TierConfig) (spec : KVCRPoolSpec)
      (pools : List PoolDescriptor),
      grant_layout page response guard_index tier_config = .ok (spec, pools) →
      pools.map PoolDescriptor.layout = tier_config.pool_layouts ∧
      (pools.map PoolDescriptor.range).Pairwise Range.Apart ∧
      (∀ addr, (∃ pool ∈ pools, pool.offset_bytes ≤ addr ∧
          addr < pool.offset_bytes + pool.size_bytes) ↔
        spec.journal_bytes ≤ addr ∧ addr < spec.mapping_bytes) ∧
      ∀ (cfg : Config) (address : Nat), 0 < address →
        cfg.pool_layouts = tier_config.pool_layouts →
        cfg.local_dram = some ⟨hold_pools address pools⟩ →
        check_local_dram ⟨hold_pools address pools⟩ cfg.pool_layouts = .ok () ∧
        ∀ (ref : TransferRef) (d : MemDescriptor), ref.framework = false →
          address_descriptor cfg ref = .ok d →
          (address + spec.journal_bytes ≤ d.addr ∧
            d.addr + d.size ≤ address + spec.mapping_bytes) ∧
          ∀ (ref' : TransferRef) (d' : MemDescriptor), ref'.framework = false →
            address_descriptor cfg ref' = .ok d' →
            (ref.label.pool, ref.element_index) ≠ (ref'.label.pool, ref'.element_index) →
            d.addr + d.size ≤ d'.addr ∨ d'.addr + d'.size ≤ d.addr := by
  have hcovers : ∀ (pools : List PoolDescriptor) (start stop : Nat),
      Range.Tiles () stop start (pools.map PoolDescriptor.range) → ∀ addr,
      (∃ pool ∈ pools, pool.offset_bytes ≤ addr ∧ addr < pool.offset_bytes + pool.size_bytes) ↔
        start ≤ addr ∧ addr < stop := by
    intro pools start stop htiles addr
    constructor
    · rintro ⟨pool, hpool, hlow, hhigh⟩
      obtain ⟨-, hstart, hstop⟩ := htiles.bounds.2 _ (List.mem_map_of_mem hpool)
      simp only [PoolDescriptor.range] at hstart hstop
      omega
    · rintro ⟨hlow, hhigh⟩
      obtain ⟨_, hr, hrange⟩ := htiles.covers hlow hhigh
      obtain ⟨pool, hpool, rfl⟩ := List.mem_map.mp hr
      exact ⟨pool, hpool, hrange⟩
  constructor
  · intro setting spec tier_config r r' hpages hjournal hmapping hconfigure
    obtain ⟨hlength, hpools, hblocks⟩ := configure_ok hconfigure
    obtain ⟨hlayouts, htiles⟩ := tiles_descriptors setting.journal_bytes hlength
    rw [← hpools] at hlayouts htiles
    rw [← hmapping, ← hjournal] at htiles
    refine ⟨hlayouts, htiles.pairwise, hcovers _ _ _ htiles,
      fun pool hpool => Nat.pos_of_ne_zero (hblocks pool hpool), ?_⟩
    refine ⟨⟨setting.guard_index, spec, tier_config, r'.pools, fun pool hpool =>
      compute_pool_geometry_isOk.mpr (hblocks pool hpool)⟩, rfl, rfl, rfl, rfl, ?_⟩
    refine grant_layout_ok.mpr ⟨rfl, rfl, rfl, rfl, hlayouts, fun pool hpool => ?_, htiles⟩
    rw [hpools] at hpool
    exact hpages _ (size_of_mem_descriptors hpool)
  · intro response guard_index tier_config spec pools hgrant
    obtain ⟨-, -, -, hresponse, hlayouts, -, htiles⟩ := grant_layout_ok.mp hgrant
    have hblocks : ∀ pool ∈ pools, pool.size_bytes / pool.block_size_bytes ≠ 0 := by
      intro pool hpool
      rw [← hresponse] at hpool
      exact compute_pool_geometry_isOk.mp (response.geometry pool hpool)
    refine ⟨hlayouts, htiles.pairwise, hcovers _ _ _ htiles, ?_⟩
    intro cfg address haddress hcfg hdram
    have hcore : CoreOver cfg address pools := ⟨by rw [hcfg, hlayouts], hdram⟩
    refine ⟨?_, fun ref d hown hresolve => ⟨slot_in_mapping hcore htiles hown hresolve, ?_⟩⟩
    · rw [hcore.pool_layouts]
      exact check_local_dram_ok haddress hblocks htiles
    · intro ref' d' hown' hresolve' hne
      exact slots_of_core_apart hcore htiles hown hown' hresolve hresolve' hne

theorem grant_of_two_pools :
    let tier_config : TierConfig :=
      { pool_layouts := [("full", 16), ("window", 8)], g3 := none,
        remote_fw_dram_backend := "UCX" }
    let spec : KVCRPoolSpec :=
      { generation := "", device := 0, inode := 0, mapping_bytes := 80, journal_bytes := 32 }
    let pools : List PoolDescriptor := [⟨"full", 16, 16, 32⟩, ⟨"window", 32, 8, 48⟩]
    (∃ granted : Granted, granted.pools = pools ∧
      grant_layout 16 granted 0 tier_config = .ok (spec, pools)) ∧
    check_local_dram ⟨hold_pools 64 pools⟩ tier_config.pool_layouts = .ok () := by
  intro tier_config spec pools
  obtain ⟨msgpack, -⟩ := exists_msgpack {} []
  let setting : Setting :=
    { msgpack := msgpack, sha := .zero, backing := .plain, canonical_pool_terms := fun _ => [],
      guard_index := 0, journal_bytes := 32, pool_sizes_bytes := [16, 32] }
  have hconfigure : RecoveryState.configure setting {} tier_config.pool_layouts =
      (.ok (), { pools := pools, mirror := some { pool_names := ["full", "window"] } }) := by
    have hlength : ¬ tier_config.pool_layouts.length ≠ setting.pool_sizes_bytes.length :=
      not_not_intro rfl
    have hfind : (RecoveryState.descriptors [16, 32] [("full", 16), ("window", 8)]
        32).findSome? PoolDescriptor.refusal = none := by decide
    unfold RecoveryState.configure
    rw [if_neg hlength]
    simp only [setting, tier_config, hfind]
    rfl
  have hpages : ∀ size ∈ [16, 32], size % 16 = 0 := by decide
  obtain ⟨-, -, -, -, granted, -, -, -, hpools, hgrant⟩ := (grants_tile_mapping 16).1 setting spec
    tier_config _ _ hpages rfl rfl hconfigure
  let cfg : Config :=
    { nixl_agent_name := "agent", pool_layouts := tier_config.pool_layouts,
      local_dram := some ⟨hold_pools 64 pools⟩ }
  have hcore := (grants_tile_mapping 16).2 granted 0 tier_config spec pools hgrant
  exact ⟨⟨granted, hpools, hgrant⟩, (hcore.2.2.2 cfg 64 (by decide) rfl rfl).1⟩

end Kvcr.Guard
