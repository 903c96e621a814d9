/-
The memory the core names.

The pools are regions of memory the core was given, cut into slots of one size each. What the
core hands out are pairs of a pool and a slot: to its free queues, to the residencies of blocks,
to peers that read a published block, and to the copies that write a deposited one. A pair that
no region has would be read or written all the same, at an address outside of the region.

This does not happen in any run. A start hands out the slots of the regions, and those of a
recovered table, which adoption has checked; every later step only hands on what it was given.
The second part is the frame `ground`, gone through with all functions. What is left for this
module is the first: a table that was adopted names slots the pools have.
-/
import Kvcr.Adoption

set_option autoImplicit false

namespace Kvcr

open Prog

/-! ## Adopted slots -/

theorem adopt_slots_loop_range {cfg : Config} {slots : List (Label × Nat)} {labels : List Label}
    {occupied occupied' : List Slot}
    (h : adopt_slots_loop cfg slots labels occupied = .ok occupied') :
    ∀ p ∈ slots, p.2 < cfg.slot_count p.1.pool := by
  induction slots generalizing labels occupied with
  | nil => exact fun _ hp => absurd hp List.not_mem_nil
  | cons q rest ih =>
    unfold adopt_slots_loop at h
    split at h
    · cases h
    · next haccepted =>
      intro p hp
      rcases List.mem_cons.mp hp with rfl | hp
      · by_contra hout
        exact haccepted (.inr (.inr (.inl hout)))
      · exact ih h p hp

theorem adopt_residency_range {cfg : Config} {x : LocalDramResidency}
    {occupied occupied' : List Slot} (h : adopt_residency cfg x occupied = .ok occupied') :
    ∀ p ∈ x.slots, p.2 < cfg.slot_count p.1.pool := by
  unfold adopt_residency at h
  split at h
  · cases h
  · cases hloop : adopt_slots_loop cfg x.slots [] occupied with
    | error e =>
      rw [hloop] at h
      cases h
    | ok seen => exact adopt_slots_loop_range hloop

/-- From `s` to `s'` the records stayed, and the slots of the residencies. -/
structure SlotsStay (s s' : Core) : Prop where
  recs : s'.recs = s.recs
  slots : ∀ r, (s'.residencies r).slots = (s.residencies r).slots

theorem SlotsStay.refl {s : Core} : SlotsStay s s := ⟨rfl, fun _ => rfl⟩

instance trans_slots_stay : IsTrans Core SlotsStay :=
  ⟨fun _ _ _ h h' => ⟨h'.recs.trans h.recs, fun r => (h'.slots r).trans (h.slots r)⟩⟩

section Adoption

variable {K : Knot} {s : Core} {t : List Ev}

theorem modify_residency_slots_stay {r : ResId} {f : LocalDramResidency → LocalDramResidency}
    (hf : ∀ x, (f x).slots = x.slots) : Moves SlotsStay (modify_residency r f) := by
  refine .change fun s => ⟨rfl, fun other => ?_⟩
  dsimp only
  by_cases heq : other = r
  · rw [heq, Function.update_self]
    exact hf _
  · rw [Function.update_of_ne heq]

/-- The readers of a source may act meanwhile, but they only count. -/
theorem publish_source_slots_stay {key : BlockKey} {r : ResId} :
    Moves SlotsStay (publish_source K key r) := by
  have hlock : Moves SlotsStay (lock K) :=
    .of_start fun _ _ => wp_mono wp_lock fun _ _ _ h => ⟨h.recs, fun r => by
      obtain ⟨n, hn⟩ := h.residency r
      rw [hn]⟩
  refine .bind .read fun _ => .ite (.bind hlock fun _ => .ite ?_ .pure) .pure
  exact .bind (modify_residency_slots_stay fun _ => rfl) fun _ =>
    .change fun _ => ⟨rfl, fun _ => rfl⟩

/-- What adoption does with a residency once it is accepted. -/
theorem install_source_slots_stay {key : BlockKey} {r : ResId} {slots : List (Label × Nat)}
    {occupied : List Slot} : Moves SlotsStay (do
      modify_residency r fun residency => ({ residency with refs := none }).with_label_index
      act (.adopt key slots)
      publish_source K key r
      pure occupied : KM (List Slot)) :=
  .bind (modify_residency_slots_stay fun _ => LocalDramResidency.with_label_index_slots) fun _ =>
    .bind .emit fun _ => .bind publish_source_slots_stay fun _ => .pure

/-- What the record holds in local DRAM, the pools have. -/
def Checked (cfg : Config) (s : Core) (record : RecId) : Prop :=
  ∀ r, (s.recs record).local_dram = some r →
    ∀ p ∈ (s.residencies r).slots, p.2 < cfg.slot_count p.1.pool

/-- Adoption has checked every record. -/
theorem adopt_recovery_slots_range {records : List (BlockKey × RecId)} :
    wp Watch.any (adopt_recovery_slots K records)
      (fun _ _ _ => ∀ entry ∈ records, Checked K.cfg s entry.2) s t := by
  unfold adopt_recovery_slots
  -- each record is either still to come, or was checked
  refine wp_seq (wp_foldEach (fun rest _ s' _ => SlotsStay s s' ∧ ∀ entry ∈ records,
    entry ∈ rest ∨ Checked K.cfg s entry.2) ?_
    (Q := fun _ _ _ => ∀ entry ∈ records, Checked K.cfg s entry.2) ?_ _ _ _ _
    ⟨.refl, fun _ hentry => .inl hentry⟩) fun _ _ _ h => wp_change.mpr h
  · rintro ⟨key, record⟩ rest occupied s₁ t₁ ⟨hstay, hseen⟩
    have hnext (h : Checked K.cfg s record) :
        ∀ entry ∈ records, entry ∈ rest ∨ Checked K.cfg s entry.2 := by
      intro entry hentry
      rcases hseen entry hentry with hmem | hchecked
      · rcases List.mem_cons.mp hmem with rfl | hmem
        · exact .inr h
        · exact .inl hmem
      · exact .inr hchecked
    refine wp_bind.mpr (wp_read.mpr ?_)
    cases hr : (s₁.recs record).local_dram with
    | none =>
      rw [hstay.recs] at hr
      refine wp_pure.mpr ⟨hstay, hnext fun r h => ?_⟩
      rw [hr] at h
      cases h
    | some r =>
      dsimp only
      cases hadopt : adopt_residency K.cfg (s₁.residencies r) occupied with
      | error e => exact wp_bind.mpr (wp_raise.mpr trivial)
      | ok occupied' =>
        refine wp_bind.mpr (wp_pure.mpr (wp_conseq (install_source_slots_stay s s₁ t₁ hstay)
          (fun _ _ _ _ => trivial) (fun _ _ => trivial) fun _ s₂ _ hstay₂ => ?_))
        refine ⟨hstay₂, hnext fun r' hr' => ?_⟩
        rw [hstay.recs, hr'] at hr
        cases hr
        rw [← hstay.slots r]
        exact adopt_residency_range hadopt
  · intro _ _ _ h entry hentry
    exact (h.2 entry hentry).resolve_left List.not_mem_nil

end Adoption

/-- The record of a block of the table. -/
theorem Stores.record_of {s : Core} {records : List (BlockKey × RecId)}
    {entries : List (BlockKey × RecoveryBlock)} (h : Stores s records entries)
    {q : BlockKey × RecoveryBlock} (hq : q ∈ entries) : ∃ p ∈ records, Stored s p.2 q.2 := by
  induction h with
  | nil => cases hq
  | cons hp _ ih =>
    rcases List.mem_cons.mp hq with rfl | hq
    · exact ⟨_, List.mem_cons_self, hp.2⟩
    · obtain ⟨p, hmem, hstored⟩ := ih hq
      exact ⟨p, List.mem_cons_of_mem _ hmem, hstored⟩

section Start

variable {cfg : Config} {env : Env} {table : Dict BlockKey RecoveryBlock}

/-- A table that was adopted names slots the pools have. -/
theorem start_range {seed fuel : Nat} {s : Core} {t : List Ev}
    (adopted : start cfg env seed fuel table = .ok () s t) :
    ∀ block ∈ table.values, ∀ slots, block.g2 = some slots →
      ∀ p ∈ slots, p.2 < cfg.slot_count p.1.pool := by
  have hcfg : (knot cfg env fuel).cfg = cfg := knot_cfg
  unfold start at adopted
  refine ok_of_wp (W := Watch.any) (Q := fun _ _ _ => ∀ block ∈ table.values, ∀ slots,
    block.g2 = some slots → ∀ p ∈ slots, p.2 < cfg.slot_count p.1.pool) ?_ adopted
  unfold adopt_recovery_records
  refine wp_bind.mpr (wp_read.mpr (wp_ite.mpr ⟨fun hempty => wp_pure.mpr ?_, fun _ => ?_⟩))
  · rw [Dict.values, hempty]
    exact fun _ hblock => absurd hblock List.not_mem_nil
  refine wp_ite.mpr ⟨fun _ => wp_raise.mpr trivial, fun _ => ?_⟩
  refine wp_ite.mpr ⟨fun _ => wp_raise.mpr trivial, fun _ => ?_⟩
  refine wp_ite.mpr ⟨fun _ => wp_raise.mpr trivial, fun _ => ?_⟩
  refine wp_seq (wp_install_records rfl) fun _ s₁ t₁ h₁ => ?_
  refine wp_bind.mpr (wp_read.mpr (wp_seq adopt_recovery_slots_range fun _ s₂ t₂ hrange =>
    wp_of_forall (fun _ _ _ => trivial) (fun _ => trivial)
      fun _ _ _ block hblock slots hslots => ?_))
  obtain ⟨entry, hentry, rfl⟩ := List.mem_map.mp hblock
  obtain ⟨p, hp, hstored⟩ := h₁.1.record_of hentry
  rcases hstored.cases_local with ⟨_, hnone⟩ | ⟨r, slots', hr, hsome, hrow⟩
  · rw [hnone] at hslots
    cases hslots
  · rw [hsome] at hslots
    cases hslots
    rw [← hcfg, ← hrow.rows]
    exact hrange p hp r hr

theorem get?_foldl_set_of_notMem {α β : Type} {f : α → String} {g : α → β} {xs : List α}
    {key : String} (hkey : key ∉ xs.map f) (d : Dict String β) :
    (xs.foldl (fun d x => d.set (f x) (g x)) d).get? key = d.get? key := by
  induction xs generalizing d with
  | nil => rfl
  | cons x xs ih =>
    rw [List.map_cons, List.mem_cons, not_or] at hkey
    rw [List.foldl_cons, ih hkey.2, Dict.get?_set_ne _ _ hkey.1]

/-- The free queues hold slots of their pools. -/
theorem free_slots_without_range (hvalid : cfg.Valid) (occupied : List Slot) (pool : String) :
    ∀ slot ∈ ((free_slots_without cfg occupied).get? pool).getD [], slot < cfg.slot_count pool := by
  intro slot hslot
  by_cases hpool : pool ∈ cfg.regions.map Prod.fst
  · rw [free_slots_without_get? hvalid hpool, Option.getD_some] at hslot
    exact List.mem_range.mp (List.mem_filter.mp hslot).1
  · have hnone : (free_slots_without cfg occupied).get? pool = none :=
      get?_foldl_set_of_notMem hpool Dict.empty
    rw [hnone] at hslot
    cases hslot

/-! ## Every run -/

/-- In every state of a run, all memory that is named is memory of the pools. -/
theorem History.good_range (hvalid : cfg.Valid) {events : List Event} {s : Core}
    (history : History cfg env table events s) :
    Good cfg (fun pool slot => slot < cfg.slot_count pool) s := by
  induction history with
  | start seed fuel adopted =>
    exact (start_follows (F := ground cfg fun pool slot => slot < cfg.slot_count pool)
      (fun _ _ => trivial) (start_range adopted) (free_slots_without_range hvalid) adopted).1
  | step event _ ended ih => exact event_good ih ended
  | check fuel _ ended ih => exact ((check_moves
      (F := ground cfg fun pool slot => slot < cfg.slot_count pool)).ends ended ih).1

end Start

/-- The reference names a slot of a region of the core's own, and the slot's bytes, counted from
the start of the region, end within its length. -/
structure InRegion (cfg : Config) (ref : TransferRef) : Prop where
  agent : ref.end_point_name = cfg.nixl_agent_name
  local_memory : ref.framework = false
  bytes : ∃ address length slot_size, (ref.label.pool, address, length, slot_size) ∈ cfg.regions ∧
    (ref.element_index + 1) * slot_size ≤ length

/-- A slot below the count lies in the region. -/
theorem bytes_of_slot {cfg : Config} {pool : String} {slot : Nat} (h : slot < cfg.slot_count pool) :
    ∃ address length slot_size, (pool, address, length, slot_size) ∈ cfg.regions ∧
      (slot + 1) * slot_size ≤ length := by
  unfold Config.slot_count at h
  cases hfind : cfg.regions.find? fun p => p.1 = pool with
  | none =>
    rw [hfind] at h
    exact absurd h (Nat.not_lt_zero _)
  | some region =>
    obtain ⟨name, address, length, slot_size⟩ := region
    rw [hfind] at h
    have hname : name = pool := by simpa using List.find?_some hfind
    refine ⟨address, length, slot_size, hname ▸ List.mem_of_find?_eq_some hfind, ?_⟩
    exact Nat.mul_le_of_le_div _ _ _ h

theorem Own.in_region {cfg : Config} {ref : TransferRef}
    (h : Own cfg (fun pool slot => slot < cfg.slot_count pool) ref) : InRegion cfg ref :=
  ⟨h.agent, h.local_memory, bytes_of_slot h.slot⟩

/-- In every state a core can come to, whatever the calls, the peers, the transfers and the
recovered table it began with: a slot in a free queue is a slot its pool has, so is every slot of
a residency, what is published of a residency names one slot for each of its blocks, and a copy
that deposits has one destination for each piece it writes. All these references are to the
core's own memory and end within the region of their pool. -/
theorem named_memory_is_own {cfg : Config} {env : Env} {table : Dict BlockKey RecoveryBlock}
    {events : List Event} {s : Core} (hvalid : cfg.Valid)
    (history : History cfg env table events s) :
    (∀ pool, ∀ slot ∈ s.free_of pool, slot < cfg.slot_count pool) ∧
    (∀ r, ∀ p ∈ (s.residencies r).slots, InRegion cfg (descriptor cfg p)) ∧
    (∀ r refs, (s.residencies r).refs = some refs →
      refs.length = (s.residencies r).slots.length ∧ ∀ ref ∈ refs, InRegion cfg ref) ∧
    ∀ copy, s.progress.Carries copy → copy.deliver_op_id = none →
      copy.dst_descriptors.length = (copy.local_indices.map List.length).sum ∧
        ∀ ref ∈ copy.dst_descriptors, InRegion cfg ref := by
  have hgood := history.good_range hvalid
  refine ⟨hgood.free, fun r p hp => ?_, fun r refs hrefs => ?_, fun copy hcopy hdeposit => ?_⟩
  · exact (own_descriptor ((hgood.residencies r).slots p hp)).in_region
  · obtain ⟨hlength, hown⟩ := (hgood.residencies r).refs refs hrefs
    exact ⟨hlength, fun ref href => (hown ref href).in_region⟩
  · obtain ⟨hlength, hown⟩ := hgood.copies copy hcopy hdeposit
    exact ⟨hlength, fun ref href => (hown ref href).in_region⟩

/-- A core that is shared with peers, with framework memory of four elements. -/
def shared_tiers : Config :=
  { two_tiers with
    framework_control := true
    framework_regions :=
      [{ addr := 0, stride := 16, count := 4, size := 16, label := ⟨"p", none⟩ }] }

/-- A third block is deposited. -/
def third_block : Event :=
  .call 1 (.deposit (Dict.empty.set ⟨[3]⟩ [⟨"n", ⟨"p", none⟩, 1⟩]) false none)

/-- The state an outcome returned in. -/
def returned_in : Outcome Core Err Ev Unit → Option Core
  | .ok () s _ => some s
  | _ => none

theorem ok_of_returned_in {o : Outcome Core Err Ev Unit} {s : Core} (h : returned_in o = some s) :
    ∃ t, o = .ok () s t := by
  cases o with
  | ok a s' t =>
    cases h
    exact ⟨t, rfl⟩
  | err e s' t => cases h
  | diverged t => cases h

/-- The core that recovered two blocks and took the third. -/
def third_deposited : Option Core :=
  (returned_in (start shared_tiers calm 1 0 (two_blocks 3))).bind fun s =>
    returned_in (third_block.run shared_tiers calm s)

/-- The operation writes the third block, to slot 0. -/
def writes_third : ProgressOp → Bool
  | .local_copy copy => copy.deliver_op_id = none ∧
      copy.dst_descriptors = [⟨"n", 0, ⟨"p", none⟩, false⟩]
  | _ => false

/-- A core recovers a block in slot 2, which it publishes, and then takes a deposit, which goes
to slot 0: what is published, what the copy writes and what is left free is memory of the pool. -/
theorem named_memory_is_own_recovered :
    ∃ s, History shared_tiers calm (two_blocks 3) [third_block] s ∧ s.free_of "p" = [1, 3] ∧
      (∃ ref, (s.residencies 0).refs = some [ref] ∧ ref.element_index = 2 ∧
        InRegion shared_tiers ref) ∧
      ∃ copy, s.progress.Carries copy ∧ writes_third (.local_copy copy) = true ∧
        ∀ ref ∈ copy.dst_descriptors, InRegion shared_tiers ref := by
  have hvalid : shared_tiers.Valid :=
    { two_tiers_valid with }
  have hrun : third_deposited.any (fun s => s.free_of "p" = [1, 3] ∧
      (s.residencies 0).refs = some [⟨"n", 2, ⟨"p", none⟩, false⟩] ∧
      s.progress.in_flight.any writes_third) = true := by decide +kernel
  obtain ⟨s, hs⟩ := Option.isSome_iff_exists.mp (Option.isSome_of_any hrun)
  rw [hs] at hrun
  obtain ⟨hfree, hrefs, hcopies⟩ := of_decide_eq_true hrun
  obtain ⟨s₀, hs₀, hs⟩ := Option.bind_eq_some_iff.mp hs
  obtain ⟨t₀, hstart⟩ := ok_of_returned_in hs₀
  obtain ⟨t, hdeposit⟩ := ok_of_returned_in hs
  have history : History shared_tiers calm (two_blocks 3) [third_block] s :=
    History.step third_block (.start 1 0 hstart) (by rw [hdeposit]; exact .ok () s t)
  obtain ⟨-, -, hpublished, hwritten⟩ := named_memory_is_own hvalid history
  obtain ⟨op, hop, hwrites⟩ := List.any_eq_true.mp hcopies
  refine ⟨s, history, hfree, ⟨_, hrefs, rfl, (hpublished 0 _ hrefs).2 _ List.mem_cons_self⟩, ?_⟩
  cases op with
  | local_copy copy =>
    have hdeposits := of_decide_eq_true hwrites
    exact ⟨copy, .inl hop, hwrites, (hwritten copy (.inl hop) hdeposits.1).2⟩
  | _ => cases hwrites

end Kvcr
