/-
The core a Guard serves with.

`adopt_recovery_records` installs the local half of a recovered table. From then on the Guard
only polls, and the progress thread reads for peers from the index of published sources. What
the core's table is at any time is `Served`: this connects the core's heap of records and
residencies to the tables `GuardService` speaks of.

No call of a Guard evicts, since none allocates. Evictions are among the steps all the same:
what a serving core leaves is not to depend on that.
-/
import Kvcr.GuardService
import Kvcr.GroupAllocation
import Kvcr.Frame.Core
import Kvcr.Run

set_option autoImplicit false

namespace Kvcr.Guard

open Prog

/-- The two describe the same memory. -/
structure SameShape (d d' : LocalDramResidency) : Prop where
  slots : d'.slots = d.slots
  state : d'.state = d.state
  key_layout : d'.key_layout = d.key_layout
  pending_labels : d'.pending_labels = d.pending_labels
  retire_on_release : d'.retire_on_release = d.retire_on_release

namespace SameShape

variable {d d' d'' : LocalDramResidency}

theorem refl : SameShape d d := ⟨rfl, rfl, rfl, rfl, rfl⟩

theorem trans (h : SameShape d d') (h' : SameShape d' d'') : SameShape d d'' :=
  ⟨h'.slots.trans h.slots, h'.state.trans h.state, h'.key_layout.trans h.key_layout,
    h'.pending_labels.trans h.pending_labels, h'.retire_on_release.trans h.retire_on_release⟩

theorem complete (h : SameShape d d') : d'.complete = d.complete := by
  unfold LocalDramResidency.complete
  rw [h.state, h.pending_labels]

end SameShape

/-- What a core has under way, and the sources it has published. -/
structure Work where
  index : Dict BlockKey (Option ResId)
  in_flight : List ProgressOp
  completed : List Item
  residency_ops : OrderedSet OpId
  deliver_ops : OrderedSet OpId
  source_pins : OrderedSet OpId
  releasing : OrderedSet PinHandle

/-- The work of a core. -/
def work (s : Core) : Work where
  index := s.pools.index
  in_flight := s.progress.in_flight
  completed := s.progress.completed
  residency_ops := s.dram.pending_residency_ops
  deliver_ops := s.dram.pending_deliver_ops
  source_pins := s.remote.source_pin_ops
  releasing := s.remote.releasing_framework_pins

/-- Nothing is under way that could touch the table, and no source is held back. -/
structure Work.Quiet (w : Work) : Prop where
  index : ∀ key, w.index.get? key ≠ some none
  in_flight : w.in_flight = []
  completed : w.completed = []
  residency_ops : w.residency_ops.elems = []
  deliver_ops : w.deliver_ops.elems = []
  source_pins : w.source_pins.elems = []
  releasing : w.releasing.elems = []

/-- Records and residencies may be dropped; what stays, stays as it is. -/
structure Dropped (s s' : Core) : Prop where
  map : ∀ key id, s'.block_record_map.get? key = some id → s.block_record_map.get? key = some id
  recs : ∀ id, (s'.recs id).g3 = (s.recs id).g3 ∧ (s'.recs id).position = (s.recs id).position ∧
    ((s'.recs id).local_dram = none ∨ (s'.recs id).local_dram = (s.recs id).local_dram)
  shapes : ∀ r, SameShape (s.residencies r) (s'.residencies r)
  quiet : (work s).Quiet → (work s').Quiet

namespace Dropped

variable {s s' s'' : Core}

theorem refl : Dropped s s :=
  ⟨fun _ _ h => h, fun _ => ⟨rfl, rfl, .inr rfl⟩, fun _ => .refl, fun h => h⟩

theorem trans (h : Dropped s s') (h' : Dropped s' s'') : Dropped s s'' where
  map key id hid := h.map key id (h'.map key id hid)
  recs id := by
    obtain ⟨hg, hpos, hlocal⟩ := h.recs id
    obtain ⟨hg', hpos', hlocal'⟩ := h'.recs id
    refine ⟨hg'.trans hg, hpos'.trans hpos, ?_⟩
    rcases hlocal' with hnone | hsame
    · exact .inl hnone
    · rw [hsame]
      exact hlocal
  shapes r := (h.shapes r).trans (h'.shapes r)
  quiet hs := h'.quiet (h.quiet hs)

end Dropped

/-- Nothing is dropped either. -/
structure SameTable (s s' : Core) : Prop where
  map : s'.block_record_map = s.block_record_map
  recs : ∀ id, (s'.recs id).g3 = (s.recs id).g3 ∧ (s'.recs id).position = (s.recs id).position ∧
    (s'.recs id).local_dram = (s.recs id).local_dram
  shapes : ∀ r, SameShape (s.residencies r) (s'.residencies r)
  quiet : (work s).Quiet → (work s').Quiet

namespace SameTable

variable {s s' s'' : Core}

theorem refl : SameTable s s := ⟨rfl, fun _ => ⟨rfl, rfl, rfl⟩, fun _ => .refl, fun h => h⟩

theorem trans (h : SameTable s s') (h' : SameTable s' s'') : SameTable s s'' where
  map := h'.map.trans h.map
  recs id := by
    obtain ⟨hg, hpos, hlocal⟩ := h.recs id
    obtain ⟨hg', hpos', hlocal'⟩ := h'.recs id
    exact ⟨hg'.trans hg, hpos'.trans hpos, hlocal'.trans hlocal⟩
  shapes r := (h.shapes r).trans (h'.shapes r)
  quiet hs := h'.quiet (h.quiet hs)

theorem dropped (h : SameTable s s') : Dropped s s' where
  map _ _ hid := h.map ▸ hid
  recs id := ⟨(h.recs id).1, (h.recs id).2.1, .inr (h.recs id).2.2⟩
  shapes := h.shapes
  quiet := h.quiet

/-- A further step that touches neither records nor residencies. -/
theorem same (h : SameTable s s') (hmap : s''.block_record_map = s'.block_record_map)
    (hrecs : s''.recs = s'.recs) (hres : s''.residencies = s'.residencies)
    (hwork : work s'' = work s') : SameTable s s'' :=
  h.trans
    { map := hmap
      recs := by rw [hrecs]; exact fun _ => ⟨rfl, rfl, rfl⟩
      shapes := by rw [hres]; exact fun _ => .refl
      quiet := by rw [hwork]; exact fun h => h }

end SameTable

/-- A further step that touches neither records nor residencies. -/
theorem Dropped.same {s s' s'' : Core} (h : Dropped s s')
    (hmap : s''.block_record_map = s'.block_record_map) (hrecs : s''.recs = s'.recs)
    (hres : s''.residencies = s'.residencies) (hwork : work s'' = work s') : Dropped s s'' :=
  h.trans (SameTable.refl.same hmap hrecs hres hwork).dropped

/-! ## The core's table -/

/-- The core's records are those of the seed, with the residencies they had. -/
structure Holds (seed : Dict BlockKey Record) (s : Core) : Prop where
  record : ∀ key id, s.block_record_map.get? key = some id → ∃ r0, seed.get? key = some r0 ∧
    (s.recs id).g3 = none ∧ (s.recs id).position = r0.position ∧
    ∀ d, (s.recs id).local_dram = some d → ∃ d0, r0.local_dram = some d0 ∧
      SameShape d0 (s.residencies d)

theorem Holds.dropped {seed : Dict BlockKey Record} {s s' : Core} (h : Holds seed s)
    (hf : Dropped s s') : Holds seed s' := by
  refine ⟨fun key id hid => ?_⟩
  obtain ⟨r0, hr0, hg, hpos, hlocal⟩ := h.record key id (hf.map key id hid)
  obtain ⟨hg', hpos', hlocal'⟩ := hf.recs id
  refine ⟨r0, hr0, hg'.trans hg, hpos'.trans hpos, fun d hd => ?_⟩
  rcases hlocal' with hnone | hsame
  · exact nomatch hnone.symm.trans hd
  · obtain ⟨d0, hd0, hshape⟩ := hlocal d (hsame.symm.trans hd)
    exact ⟨d0, hd0, hshape.trans (hf.shapes d)⟩

theorem get?_records (s : Core) (key : BlockKey) :
    s.records.get? key = (s.block_record_map.get? key).map fun id => (s.recs id).value s := by
  rw [Core.records, Dict.get?_filterMap]
  cases s.block_record_map.get? key <;> rfl

/-- A residency of the shape of a canonical one scrubs to it. -/
theorem SameShape.scrub {pool_names : List String} {r r0 : Record} {d d0 : LocalDramResidency}
    (h : SameShape d0 d) (hr0 : Recovered pool_names r0) (hd0 : r0.local_dram = some d0)
    (hd : r.local_dram = some d) : r.scrub.uncached.local_dram = r0.uncached.local_dram := by
  have hcomplete0 := hr0.complete hd0
  have hcomplete : d.complete = true := h.complete.trans hcomplete0
  rw [← hr0.canonical]
  simp only [Record.scrub, Record.uncached, hd, hd0, Option.bind_some, hcomplete, hcomplete0,
    if_true,
    Option.map_some, h.slots, h.state, h.key_layout, h.pending_labels]

/-- What a core that holds what it was seeded with leaves is `Served`. -/
theorem Holds.served {pool_names : List String} {seed : Dict BlockKey Record} {s : Core}
    (h : Holds seed s)
    (hseed : ∀ key r, seed.get? key = some r → Recovered pool_names r) :
    Served seed s.records := by
  constructor
  · intro key r hr
    rw [get?_records] at hr
    obtain ⟨id, hid, rfl⟩ := Option.map_eq_some_iff.mp hr
    obtain ⟨-, -, hg, -⟩ := h.record key id hid
    change (s.recs id).g3.map _ = none
    rw [hg, Option.map_none]
  · intro key r hr
    rw [get?_records] at hr
    obtain ⟨id, hid, rfl⟩ := Option.map_eq_some_iff.mp hr
    obtain ⟨r0, hr0, -, hpos, hlocal⟩ := h.record key id hid
    refine ⟨r0, hr0, hpos, fun d hd _ => ?_⟩
    obtain ⟨d', hd', rfl⟩ := Option.map_eq_some_iff.mp hd
    obtain ⟨d0, hd0, hshape⟩ := hlocal d' hd'
    exact hshape.scrub (hseed key r0 hr0) hd0 hd

/-- No residency of a recovered record is about to be retired. -/
theorem Recovered.not_retiring {pool_names : List String} {r : Record} {d : LocalDramResidency}
    (h : Recovered pool_names r) (hd : r.local_dram = some d) : d.retire_on_release = false := by
  have hlocal := congrArg Record.local_dram h.canonical
  simp only [Record.scrub, hd, Option.bind_some, h.complete hd, if_true, Option.some.injEq]
    at hlocal
  exact (congrArg LocalDramResidency.retire_on_release hlocal).symm

/-- The local half of a recovered table is recovered. -/
theorem recovered_seed {pool_names : List String} {R : Dict BlockKey Record}
    (hR : RecoveredTable pool_names R) {key : BlockKey} {r : Record}
    (hr : (without_g3 R).get? key = some r) : Recovered pool_names r ∧ r.g3 = none ∧
      ∃ d, r.local_dram = some d := by
  rw [get?_seed] at hr
  obtain ⟨r0, hr0, hseed⟩ := Option.bind_eq_some_iff.mp hr
  split at hseed
  next => cases hseed
  next hlocal =>
    cases hseed
    obtain ⟨d, hd⟩ := Option.ne_none_iff_exists'.mp fun hnone =>
      hlocal (Option.isNone_iff_eq_none.mpr hnone)
    have hrecovered := hR key r0 hr0
    refine ⟨⟨?_, ?_, ⟨hrecovered.holdable.local_dram, (fun g hg => nomatch hg),
      hrecovered.holdable.position⟩⟩, rfl, d, hd⟩
    · exact congrArg (fun r : Record => { r with g3 := none }) hrecovered.canonical
    · rw [Record.is_recoverable, hd, Option.any_some, hrecovered.complete hd, Bool.or_true]

/-! ## Evictions -/

section Evict

variable {K : Knot} {s : Core} {t : List Ev}

theorem Dropped.pruned {key : BlockKey} : Dropped s (s.pruned key) := by
  unfold Core.pruned
  cases s.record key with
  | none => exact .refl
  | some record =>
    dsimp only
    split
    · refine ⟨fun key' id hid => ?_, fun _ => ⟨rfl, rfl, .inr rfl⟩, fun _ => .refl, fun h => h⟩
      rw [Dict.get?_erase] at hid
      split at hid
      next => cases hid
      next => exact hid
    · exact .refl

theorem wp_evict_victim_dropped {v : Victim} :
    wp Watch.any (evict_victim K v) (fun _ s' _ => Dropped s s') s t := by
  unfold evict_victim
  rw [wp_bind, wp_remove_evictable, wp_bind, wp_act, wp_bind, wp_modify_rec]
  refine wp_seq wp_residency_observer_frame ?_
  rintro _ s1 t1 ⟨⟨tick, enabled, rfl⟩, -⟩
  rw [wp_bind, wp_read]
  have hevict : Dropped s
      { s.unranked v.key v.residency with
        recs := Function.update s.recs v.record { s.recs v.record with local_dram := none } } := by
    refine ⟨fun _ _ hid => hid, fun id => ?_, fun _ => .refl, fun h => h⟩
    dsimp only
    rcases eq_or_ne id v.record with rfl | hne
    · rw [Function.update_self]
      exact ⟨rfl, rfl, .inl rfl⟩
    · rw [Function.update_of_ne hne]
      exact ⟨rfl, rfl, .inr rfl⟩
  refine wp_seq (P := fun _ s' _ => Dropped s s') ?_ fun _ s2 t2 hdropped => ?_
  · unfold on_remove
    refine wp_ite.mpr ⟨fun _ => wp_act.mpr ?_, fun _ => wp_pure.mpr ?_⟩
    · exact hevict.same rfl rfl rfl rfl
    · exact hevict.same rfl rfl rfl rfl
  · rw [wp_bind, wp_prune_block_record, wp_free]
    exact (hdropped.trans .pruned).same rfl rfl rfl rfl

end Evict

/-! ## Seeding -/

section Seed

variable {K : Knot} {s : Core} {t : List Ev}

theorem SameTable.readersOnly {s s' : Core} (hf : ReadersOnly s s') : SameTable s s' := by
  obtain ⟨_, _, _, _, _, _, _, rfl, hres, -⟩ := hf
  refine ⟨rfl, fun _ => ⟨rfl, rfl, rfl⟩, fun r => ?_, fun h => h⟩
  obtain ⟨n, heq⟩ := hres r
  dsimp only
  rw [heq]
  exact ⟨rfl, rfl, rfl, rfl, rfl⟩

theorem SameTable.set_residency {r : ResId} {d : LocalDramResidency}
    (h : SameShape (s.residencies r) d) : SameTable s (s.set_residency r d) := by
  refine ⟨rfl, fun _ => ⟨rfl, rfl, rfl⟩, fun r' => ?_, fun h => h⟩
  unfold Core.set_residency
  dsimp only
  rcases eq_or_ne r' r with rfl | hne
  · rw [Function.update_self]
    exact h
  · rw [Function.update_of_ne hne]
    exact .refl

theorem wp_publish_source_table {key : BlockKey} {r : ResId} {refs : Option (List TransferRef)} :
    wp Watch.any (publish_source K key r refs) (fun _ s' _ => SameTable s s') s t := by
  unfold publish_source
  rw [wp_bind, wp_read]
  refine wp_ite.mpr ⟨fun _ => ?_, fun _ => wp_pure.mpr .refl⟩
  refine wp_seq wp_lock fun _ s1 t1 hreaders => ?_
  have hsame := SameTable.readersOnly hreaders
  refine wp_ite.mpr ⟨fun _ => ?_, fun _ => wp_pure.mpr hsame⟩
  rw [wp_bind, wp_modify_residency, wp_change]
  have hset := hsame.trans (SameTable.set_residency (s := s1) (r := r)
    (d := { s1.residencies r with
      refs := some (refs.getD (source_refs K.cfg (s.residencies r)
        (List.range (s.residencies r).slots.length))) }) ⟨rfl, rfl, rfl, rfl, rfl⟩)
  refine ⟨hset.map, hset.recs, hset.shapes, fun hquiet => ?_⟩
  refine { hset.quiet hquiet with index := fun key' => ?_ }
  dsimp only [work]
  rw [Dict.get?_set]
  split
  · exact fun h => nomatch h
  · exact (hset.quiet hquiet).index key'

theorem wp_adopt_recovery_slots_table {records : List (BlockKey × RecId)} :
    wp Watch.any (adopt_recovery_slots K records) (fun _ s' _ => SameTable s s') s t := by
  unfold adopt_recovery_slots
  refine wp_seq (P := fun _ s' _ => SameTable s s') ?_ fun _ s1 t1 hsame =>
    wp_change.mpr (hsame.same rfl rfl rfl rfl)
  refine wp_foldEach (fun _ _ s' _ => SameTable s s') ?_ (fun _ _ _ h => h) _ _ _ _ .refl
  rintro ⟨key, record⟩ _ occupied s1 t1 hsame
  dsimp only
  rw [wp_bind, wp_read]
  cases (s1.recs record).local_dram with
  | none => exact wp_pure.mpr hsame
  | some r =>
    dsimp only
    refine wp_seq (P := fun _ s' _ => SameTable s s') ?_ fun occupied s2 t2 hsame2 => ?_
    · cases adopt_residency K.cfg (s1.residencies r) occupied with
      | error e => exact trivial
      | ok occupied => exact wp_pure.mpr hsame
    rw [wp_bind, wp_modify_residency, wp_bind, wp_act]
    have hindex : SameTable s (s2.set_residency r
        ({ s2.residencies r with refs := none } : LocalDramResidency).with_label_index) := by
      refine hsame2.trans (.set_residency ?_)
      unfold LocalDramResidency.with_label_index
      split <;> exact ⟨rfl, rfl, rfl, rfl, rfl⟩
    exact wp_seq wp_publish_source_table fun _ _ _ hpublished =>
      wp_pure.mpr (hindex.trans hpublished)

theorem wp_rank_recovered_table {records : List (BlockKey × RecId)} :
    wp Watch.any (rank_recovered K records) (fun _ s' _ => SameTable s s') s t := by
  unfold rank_recovered
  refine wp_forEach (fun _ s' _ => SameTable s s') ?_ (fun _ _ h => h) _ _ _ .refl
  rintro ⟨key, record⟩ _ s1 t1 hsame
  dsimp only
  rw [wp_bind, wp_read]
  refine wp_ite.mpr ⟨fun _ => ?_, fun _ => wp_pure.mpr hsame⟩
  refine wp_mono (wp_make_evictable fun _ _ _ => trivial) ?_
  rintro _ s2 t2 ⟨_, _, _, _, rfl⟩
  exact hsame.same rfl rfl rfl rfl

/-- What a core is seeded with. -/
def seed_table (seed : Dict BlockKey Record) : Dict BlockKey RecoveryBlock :=
  seed.filterMap fun r => some r.project

/-- The records installed so far. -/
structure Installed (seed : Dict BlockKey Record) (rest : List (BlockKey × RecoveryBlock))
    (s : Core) : Prop where
  holds : Holds seed s
  records : ∀ key id, s.block_record_map.get? key = some id → id < s.next_rec ∧
    ∃ d, (s.recs id).local_dram = some d ∧ d < s.next_res
  there : ∀ key r, seed.get? key = some r → (∃ id, s.block_record_map.get? key = some id) ∨
    key ∈ rest.map Prod.fst

/-- One more record is installed. -/
theorem Installed.next {pool_names : List String} {seed : Dict BlockKey Record} {key : BlockKey}
    {r : Record} {d0 : LocalDramResidency} {rest : List (BlockKey × RecoveryBlock)}
    (h : Installed seed ((key, r.project) :: rest) s) (hr : seed.get? key = some r)
    (hrecovered : Recovered pool_names r) (hg3 : r.g3 = none) (hd0 : r.local_dram = some d0) :
    Installed seed rest (installed key r.project s) := by
  have hcomplete := hrecovered.complete hd0
  have hg2 : r.project.g2 = some d0.slots := by
    rw [Record.project, hd0, Option.bind_some, if_pos hcomplete]
  have hno_disk : r.project.g3 = none := by
    rw [Record.project, hg3, Option.map_none]
  have hshape : SameShape d0
      { slots := d0.slots, state := .READY, key_layout := d0.slots.map Prod.fst } := by
    have hlayout := (hrecovered.holdable.local_dram d0 hd0 hcomplete).2.1
    unfold LocalDramResidency.complete at hcomplete
    simp only [Bool.and_eq_true, decide_eq_true_eq, List.isEmpty_iff] at hcomplete
    exact ⟨rfl, hcomplete.1.symm, hlayout.symm, (OrderedSet.ext_elems hcomplete.2).symm,
      (hrecovered.not_retiring hd0).symm⟩
  unfold installed
  rw [hg2, hno_disk]
  -- the new record and residency are not among the earlier ones
  have hold : ∀ {key' id}, s.block_record_map.get? key' = some id →
      id ≠ s.next_rec ∧ ∀ d, (s.recs id).local_dram = some d → d ≠ s.next_res := by
    intro key' id hid
    obtain ⟨hlt, d, hd, hdlt⟩ := h.records key' id hid
    refine ⟨Nat.ne_of_lt hlt, fun d' hd' => ?_⟩
    cases hd.symm.trans hd'
    exact Nat.ne_of_lt hdlt
  constructor
  · refine ⟨fun key' id hid => ?_⟩
    dsimp only at hid ⊢
    rw [Dict.get?_set] at hid
    split at hid
    next heq =>
      cases hid
      subst heq
      rw [Function.update_self]
      refine ⟨r, hr, rfl, rfl, fun d hd => ⟨d0, hd0, ?_⟩⟩
      cases hd
      rw [Function.update_self]
      exact hshape
    next =>
      obtain ⟨hne, hres⟩ := hold hid
      rw [Function.update_of_ne hne]
      obtain ⟨r0, hr0, hg, hpos, hlocal⟩ := h.holds.record key' id hid
      refine ⟨r0, hr0, hg, hpos, fun d hd => ?_⟩
      rw [Function.update_of_ne (hres d hd)]
      exact hlocal d hd
  · intro key' id hid
    dsimp only at hid ⊢
    rw [Dict.get?_set] at hid
    split at hid
    next =>
      cases hid
      rw [Function.update_self]
      exact ⟨Nat.lt_succ_self _, _, rfl, Nat.lt_succ_self _⟩
    next =>
      obtain ⟨hne, -⟩ := hold hid
      rw [Function.update_of_ne hne]
      obtain ⟨hlt, d, hd, hdlt⟩ := h.records key' id hid
      exact ⟨Nat.lt_succ_of_lt hlt, d, hd, Nat.lt_succ_of_lt hdlt⟩
  · intro key' r' hr'
    dsimp only
    rw [Dict.get?_set]
    by_cases heq : key' = key
    · rw [if_pos heq]
      exact .inl ⟨_, rfl⟩
    · rw [if_neg heq]
      rcases h.there key' r' hr' with hthere | hmem
      · exact .inl hthere
      · rw [List.map_cons, List.mem_cons] at hmem
        exact .inr (hmem.resolve_left heq)

/-- Once everything is installed every key of the seed has its residency. -/
theorem Installed.survives {pool_names : List String} {seed : Dict BlockKey Record}
    (h : Installed seed [] s)
    (hseed : ∀ key r, seed.get? key = some r → Recovered pool_names r) {key : BlockKey} {r : Record}
    (hr : seed.get? key = some r) : survives s.records key := by
  obtain ⟨id, hid⟩ := (h.there key r hr).resolve_right List.not_mem_nil
  obtain ⟨-, d, hd, -⟩ := h.records key id hid
  obtain ⟨r0, hr0, -, -, hlocal⟩ := h.holds.record key id hid
  obtain ⟨d0, hd0, hshape⟩ := hlocal d hd
  refine ⟨(s.recs id).value s, s.residencies d, ?_, ?_, ?_⟩
  · rw [get?_records, hid, Option.map_some]
  · change ((s.recs id).local_dram.map s.residencies) = _
    rw [hd, Option.map_some]
  · rw [hshape.complete]
    exact (hseed key r0 hr0).complete hd0

/-- What survived is there as long as nothing is dropped. -/
theorem SameTable.survives {s' : Core} (h : SameTable s s') {key : BlockKey}
    (hkey : survives s.records key) : survives s'.records key := by
  obtain ⟨r, d, hr, hd, hcomplete⟩ := hkey
  rw [get?_records] at hr
  obtain ⟨id, hid, rfl⟩ := Option.map_eq_some_iff.mp hr
  obtain ⟨res, hres, rfl⟩ := Option.map_eq_some_iff.mp hd
  refine ⟨(s'.recs id).value s', s'.residencies res, ?_, ?_,
    (h.shapes res).complete.trans hcomplete⟩
  · rw [get?_records, h.map, hid, Option.map_some]
  · change ((s'.recs id).local_dram.map s'.residencies) = _
    rw [(h.recs id).2.2, hres, Option.map_some]

/-- A core that was seeded with the local half of a recovered table serves it: every key
is there, with the residency and the position it had. -/
theorem wp_adopt_recovery_records_served {pool_names : List String} {R : Dict BlockKey Record}
    (hR : RecoveredTable pool_names R) (hg3 : K.cfg.g3 = none)
    (hempty : s.block_record_map.entries = []) :
    wp Watch.any (adopt_recovery_records K (seed_table (without_g3 R)))
      (fun _ s' _ => Holds (without_g3 R) s' ∧ ((work s).Quiet → (work s').Quiet) ∧
        ∀ key r, (without_g3 R).get? key = some r → survives s'.records key) s t := by
  have hnone : ∀ key, s.block_record_map.get? key = none := by
    intro key
    rw [Dict.get?_eq_none, Dict.keys, hempty]
    exact List.not_mem_nil
  have hunmapped : ∀ key id, s.block_record_map.get? key ≠ some id := by
    intro key id
    rw [hnone key]
    exact (Option.some_ne_none id).symm
  have hstart : Holds (without_g3 R) s := ⟨fun key id hid => absurd hid (hunmapped key id)⟩
  have hentry : ∀ p ∈ (seed_table (without_g3 R)).entries,
      ∃ r, (without_g3 R).get? p.1 = some r ∧ p.2 = r.project := by
    intro p hp
    have hget := Dict.get?_eq_some.mpr hp
    rw [seed_table, Dict.get?_filterMap] at hget
    obtain ⟨r, hr, hproject⟩ := Option.bind_eq_some_iff.mp hget
    exact ⟨r, hr, (Option.some.inj hproject).symm⟩
  have hlisted : ∀ key r, (without_g3 R).get? key = some r →
      key ∈ (seed_table (without_g3 R)).entries.map Prod.fst := by
    intro key r hr
    refine Dict.mem_keys.mpr ⟨r.project, ?_⟩
    rw [seed_table, Dict.get?_filterMap, hr, Option.bind_some]
  unfold adopt_recovery_records
  rw [wp_bind, wp_read]
  refine wp_ite.mpr ⟨fun hnil => wp_pure.mpr ⟨hstart, fun h => h, fun key r hr => ?_⟩, fun _ => ?_⟩
  · have hmem := hlisted key r hr
    rw [hnil] at hmem
    cases hmem
  refine wp_ite.mpr ⟨fun _ => wp_raise.mpr trivial, fun _ => ?_⟩
  refine wp_ite.mpr ⟨fun _ => wp_raise.mpr trivial, fun _ => ?_⟩
  refine wp_ite.mpr ⟨fun _ => wp_raise.mpr trivial, fun _ => ?_⟩
  refine wp_seq (P := fun _ s' _ => Installed (without_g3 R) [] s' ∧ work s' = work s) ?_ ?_
  · refine wp_forEach (fun rest s' _ => (Installed (without_g3 R) rest s' ∧ work s' = work s) ∧
      ∀ p ∈ rest, ∃ r, (without_g3 R).get? p.1 = some r ∧ p.2 = r.project) ?_
      (fun _ _ h => h.1) _ _ _ ⟨⟨⟨hstart, (fun key id hid => absurd hid (hunmapped key id)),
        fun key r hr => .inr (hlisted key r hr)⟩, rfl⟩, hentry⟩
    rintro ⟨key, block⟩ rest s' t' ⟨⟨hinstalled, hwork⟩, hrest⟩
    obtain ⟨r, hr, rfl⟩ := hrest _ List.mem_cons_self
    obtain ⟨hrecovered, hno_disk, d0, hd0⟩ := recovered_seed hR hr
    exact wp_change.mpr ⟨⟨hinstalled.next hr hrecovered hno_disk hd0, hwork⟩,
      fun p hp => hrest p (List.mem_cons_of_mem _ hp)⟩
  rintro _ s1 t1 ⟨hinstalled, hwork⟩
  rw [wp_bind, wp_read]
  refine wp_seq wp_adopt_recovery_slots_table fun _ s2 t2 hadopted => ?_
  rw [hg3, Option.isSome_none, if_neg Bool.false_ne_true, if_neg Bool.false_ne_true]
  refine wp_seq (P := fun _ s' _ => SameTable s1 s') ?_ fun _ s3 t3 hingested => ?_
  · refine wp_forEach (fun _ s' _ => SameTable s1 s') ?_ (fun _ _ h => h) _ _ _ hadopted
    rintro ⟨key, record⟩ _ s' t' hsame
    dsimp only
    unfold announce_recovered
    rw [wp_bind, wp_read]
    refine wp_ite.mpr ⟨fun _ => wp_raise.mpr trivial, fun _ => ?_⟩
    rw [wp_act]
    exact hsame
  refine wp_seq wp_rank_recovered_table fun _ s4 t4 hranked => wp_pure.mpr ?_
  have hsame := hingested.trans hranked
  refine ⟨hinstalled.holds.dropped hsame.dropped, ?_, fun key r hr =>
    hsame.survives (hinstalled.survives (fun key r hr => (recovered_seed hR hr).1) hr)⟩
  rw [← hwork]
  exact hsame.quiet

end Seed

/-! ## Serving -/

section Poll

variable {K : Knot} {pool_names : List String} {seed : Dict BlockKey Record} {s : Core}
  {t : List Ev}
  {key : BlockKey} {r : ResId}

/-- A residency the core serves from is ready, and stays. -/
theorem Holds.ready (h : Holds seed s)
    (hseed : ∀ key r, seed.get? key = some r → Recovered pool_names r)
    (hlocal : s.local_dram key = some r) :
    (s.residencies r).state = .READY ∧ (s.residencies r).retire_on_release = false := by
  obtain ⟨id, hid, hr⟩ := Option.bind_eq_some_iff.mp hlocal
  obtain ⟨r0, hr0, -, -, hshape⟩ := h.record key id hid
  obtain ⟨d0, hd0, hsame⟩ := hshape r hr
  have hcomplete := (hseed key r0 hr0).complete hd0
  unfold LocalDramResidency.complete at hcomplete
  rw [Bool.and_eq_true, decide_eq_true_eq] at hcomplete
  exact ⟨hsame.state.trans hcomplete.1,
    hsame.retire_on_release.trans ((hseed key r0 hr0).not_retiring hd0)⟩

theorem wp_record_access_table {keys : List BlockKey} :
    wp Watch.any (record_access K keys) (fun _ s' _ => SameTable s s') s t := by
  unfold record_access
  rw [wp_bind, wp_clock]
  refine wp_forEach (fun _ s' _ => SameTable s s') ?_ (fun _ _ h => h) _ _ _
    (SameTable.refl.same rfl rfl rfl rfl)
  intro key _ s' t' hsame
  rw [wp_bind, wp_read]
  cases s'.record key with
  | none => exact wp_raise.mpr trivial
  | some record =>
    rw [wp_modify_rec]
    refine hsame.trans ⟨rfl, fun id => ?_, fun _ => .refl, fun h => h⟩
    dsimp only
    rcases eq_or_ne id record with rfl | hne
    · rw [Function.update_self]
      exact ⟨rfl, rfl, rfl⟩
    · rw [Function.update_of_ne hne]
      exact ⟨rfl, rfl, rfl⟩

theorem wp_release_reader_table :
    wp Watch.any (release_reader key r) (fun _ s' _ => SameTable s s') s t := by
  unfold release_reader
  rw [wp_bind, wp_read]
  refine wp_ite.mpr ⟨fun _ => wp_raise.mpr trivial, fun _ => ?_⟩
  have hset : SameTable s (s.set_residency r
      { s.residencies r with source_readers := (s.residencies r).source_readers - 1 }) :=
    .set_residency ⟨rfl, rfl, rfl, rfl, rfl⟩
  rw [wp_bind, wp_modify_residency, wp_bind, wp_read]
  refine wp_ite.mpr ⟨fun _ => wp_ite.mpr ⟨fun _ => wp_change.mpr ?_, fun _ => wp_raise.mpr trivial⟩,
    fun _ => wp_pure.mpr hset⟩
  exact hset.same rfl rfl rfl rfl

/-- The last claim on a residency that is served from goes, and the residency stays. -/
theorem wp_after_last_claim_table (hstate : (s.residencies r).state = .READY)
    (hretire : (s.residencies r).retire_on_release = false) :
    wp Watch.any (after_last_claim K key r)
      (fun retired s' _ => retired = false ∧ SameTable s s') s t := by
  unfold after_last_claim
  rw [wp_bind, wp_read]
  cases s.record key with
  | none => exact wp_raise.mpr trivial
  | some record =>
    dsimp only
    refine wp_seq wp_lock fun _ s1 t1 hreaders => ?_
    have hsame := SameTable.readersOnly hreaders
    rw [wp_bind, wp_read]
    refine wp_ite.mpr ⟨fun _ => wp_pure.mpr ⟨rfl, hsame⟩, fun _ => ?_⟩
    refine wp_ite.mpr ⟨fun hretiring => ?_, fun _ => ?_⟩
    · rw [hstate, hretire] at hretiring
      exact absurd hretiring (by decide)
    · refine wp_seq (wp_make_evictable fun _ _ _ => trivial) ?_
      rintro _ s2 t2 ⟨_, _, _, _, rfl⟩
      exact wp_pure.mpr ⟨rfl, hsame.same rfl rfl rfl rfl⟩

section Held

variable (hs : Holds seed s) (hseed : ∀ key r, seed.get? key = some r → Recovered pool_names r)

include hs hseed

/-- A read that is over retires nothing. -/
theorem wp_drain_completion_table {keys : List BlockKey} {sources : List ResId} {success : Bool} :
    wp Watch.any (drain_completion K keys sources success false)
      (fun freed s' _ => freed = false ∧ SameTable s s') s t := by
  unfold drain_completion
  refine wp_if_then (P := fun s' _ => SameTable s s') (fun _ => wp_record_access_table)
    (fun _ => .refl) fun s1 t1 hsame1 => ?_
  refine wp_seq wp_lock fun _ s2 t2 hreaders => ?_
  have hsame2 := hsame1.trans (.readersOnly hreaders)
  refine wp_seq (P := fun _ s' _ => SameTable s s') ?_ fun _ s3 t3 hsame3 => ?_
  · refine wp_forEach (fun _ s' _ => SameTable s s') ?_ (fun _ _ h => h) _ _ _ hsame2
    rintro ⟨key, r⟩ _ s' t' hsame'
    exact wp_mono wp_release_reader_table fun _ _ _ h => hsame'.trans h
  refine wp_foldEach (fun _ freed s' _ => freed = false ∧ SameTable s s') ?_ (fun _ _ _ h => h)
    _ _ _ _ ⟨rfl, hsame3⟩
  rintro ⟨key, r⟩ _ freed s' t' ⟨rfl, hsame'⟩
  dsimp only
  rw [wp_bind, wp_read]
  refine wp_ite.mpr ⟨fun hfree => ?_, fun _ => wp_pure.mpr ⟨rfl, hsame'⟩⟩
  obtain ⟨hstate, hretire⟩ := (hs.dropped hsame'.dropped).ready hseed hfree.1
  refine wp_seq (wp_after_last_claim_table hstate hretire) ?_
  rintro retired s'' t'' ⟨rfl, hsame''⟩
  exact wp_pure.mpr ⟨rfl, hsame'.trans hsame''⟩

theorem wp_drain_source_completions_table :
    wp Watch.any (drain_source_completions K) (fun _ s' _ => SameTable s s') s t := by
  unfold drain_source_completions
  rw [wp_bind, wp_read]
  refine wp_ite.mpr ⟨fun _ => wp_pure.mpr .refl, fun _ => ?_⟩
  rw [wp_bind, wp_change]
  refine wp_seq (P := fun freed s' _ => freed = false ∧ SameTable s s') ?_ ?_
  · refine wp_ensure (E := fun _ _ _ => True)
      (P := fun freed s' _ => freed = false ∧ SameTable s s')
      ?_ (fun _ _ _ _ => wp_any) ?_
    · refine wp_whileFuel (fun freed s' _ => freed = false ∧ SameTable s s') ?_
        (fun _ _ _ _ => trivial) _ _ _ _ ⟨rfl, SameTable.refl.same rfl rfl rfl rfl⟩
      rintro freed s' t' ⟨rfl, hsame⟩
      rw [wp_bind, wp_read]
      cases s'.pools.completions with
      | nil => exact wp_pure.mpr ⟨rfl, hsame⟩
      | cons completion completions =>
        dsimp only
        rw [wp_bind, wp_change]
        have hsame' : SameTable s { s' with pools.completions := completions } :=
          hsame.same rfl rfl rfl rfl
        refine wp_seq (wp_drain_completion_table (hs.dropped hsame'.dropped) hseed) ?_
        rintro freed s'' t'' ⟨rfl, hsame''⟩
        exact wp_pure.mpr ⟨rfl, hsame'.trans hsame''⟩
    · rintro freed s' t' ⟨rfl, hsame⟩
      exact wp_change.mpr ⟨rfl, hsame.same rfl rfl rfl rfl⟩
  · rintro freed s' t' ⟨rfl, hsame⟩
    rw [wp_bind, wp_read, if_neg (fun h => nomatch h.1)]
    exact wp_pure.mpr hsame

end Held

theorem wp_update_capacity_pressure_table :
    wp Watch.any (update_capacity_pressure K) (fun _ s' _ => SameTable s s') s t := by
  unfold update_capacity_pressure
  refine wp_ite.mpr ⟨fun _ => ?_, fun _ => wp_pure.mpr .refl⟩
  refine wp_seq wp_lock fun _ s1 t1 hreaders => ?_
  have hsame := SameTable.readersOnly hreaders
  rw [wp_bind, wp_read, wp_bind, wp_change]
  refine wp_ite.mpr ⟨fun _ => wp_pure.mpr ?_, fun _ => wp_act.mpr ?_⟩
  · exact hsame.same rfl rfl rfl rfl
  · exact hsame.same rfl rfl rfl rfl

theorem permute_nil {α : Type} {order : List Nat} : permute order ([] : List α) = [] :=
  (permute_perm order []).eq_nil

/-- The local tier finds reads to account for, and nothing else. -/
theorem wp_local_poll_main_table (hs : Holds seed s)
    (hseed : ∀ key r, seed.get? key = some r → Recovered pool_names r) (hquiet : (work s).Quiet) :
    wp Watch.any (local_poll_main K [])
      (fun unhandled s' _ => unhandled = [] ∧ SameTable s s') s t := by
  unfold local_poll_main
  refine wp_seq (wp_drain_source_completions_table hs hseed) fun _ s1 t1 hsame1 => ?_
  refine wp_seq wp_update_capacity_pressure_table fun _ s2 t2 hsame2 => ?_
  have hsame := hsame1.trans hsame2
  have hquiet2 := hsame.quiet hquiet
  rw [wp_bind]
  refine wp_pure.mpr ?_
  rw [wp_bind, wp_clock]
  unfold expire_pending_ops
  have hresidency : s2.dram.pending_residency_ops.elems = [] := hquiet2.residency_ops
  have hdeliver : s2.dram.pending_deliver_ops.elems = [] := hquiet2.deliver_ops
  simp only [wp_bind, wp_read, hresidency, hdeliver, wp_forEach_nil, wp_pure, true_and]
  exact hsame.same rfl rfl rfl rfl

/-- The remote tier finds nothing. -/
theorem wp_remote_poll_main_table (hpinning : K.cfg.framework_pinning = false)
    (hquiet : (work s).Quiet) :
    wp Watch.any (remote_poll_main K []) (fun _ s' _ => SameTable s s') s t := by
  have hreleasing : s.remote.releasing_framework_pins.elems = [] := hquiet.releasing
  have hpins : s.remote.source_pin_ops.elems = [] := hquiet.source_pins
  unfold remote_poll_main release_framework_pins poll_sources
  simp only [wp_bind, wp_read, wp_visit, hreleasing, permute_nil, wp_forEach_nil, hpinning,
    Bool.false_eq_true, if_false, wp_clock, hpins]
  exact SameTable.refl.same rfl rfl rfl rfl

theorem wp_raise_if_failed_table :
    wp Watch.any (raise_if_failed K) (fun _ s' _ => SameTable s s') s t := by
  unfold raise_if_failed
  rw [wp_bind, wp_ask, wp_bind, wp_change, wp_bind, wp_read]
  exact wp_ite.mpr ⟨fun _ => wp_raise.mpr trivial,
    fun _ => wp_pure.mpr (SameTable.refl.same rfl rfl rfl rfl)⟩

/-- There is nothing to take from the progress thread. -/
theorem wp_poll_disk_table (hg3 : K.cfg.g3 = none) (hquiet : (work s).Quiet) {available : Nat} :
    wp Watch.any (poll_disk K available) (fun items s' _ => items = [] ∧ SameTable s s') s t := by
  have hcompleted : s.progress.completed = [] := hquiet.completed
  unfold poll_disk take_completed
  simp only [wp_bind, wp_read, wp_change, wp_pure, hcompleted, hg3, Option.isSome_none,
    Bool.false_eq_true, if_false, List.take_nil, List.drop_nil, true_and]
  refine SameTable.refl.same rfl rfl rfl ?_
  unfold work
  rw [hcompleted]

/-- A Guard's poll keeps the table. -/
theorem wp_poll_completed_table (hs : Holds seed s)
    (hseed : ∀ key r, seed.get? key = some r → Recovered pool_names r) (hquiet : (work s).Quiet)
    (hg3 : K.cfg.g3 = none) (hpinning : K.cfg.framework_pinning = false) {available : Nat} :
    wp Watch.any (poll_completed K available) (fun _ s' _ => SameTable s s') s t := by
  unfold poll_completed
  refine wp_seq wp_raise_if_failed_table fun _ s1 t1 hsame1 => ?_
  refine wp_seq (wp_poll_disk_table hg3 (hsame1.quiet hquiet)) ?_
  rintro items s2 t2 ⟨rfl, hsame2⟩
  have hsame := hsame1.trans hsame2
  refine wp_ite_then (P := fun items s' _ => items = [] ∧ SameTable s s') (fun _ => ?_)
    (fun _ => wp_pure.mpr ⟨rfl, hsame⟩) ?_
  · refine wp_mono
      (wp_local_poll_main_table (hs.dropped hsame.dropped) hseed (hsame.quiet hquiet)) ?_
    rintro items s3 t3 ⟨rfl, hsame3⟩
    exact ⟨rfl, hsame.trans hsame3⟩
  · rintro items s3 t3 ⟨rfl, hsame3⟩
    refine wp_seq (wp_remote_poll_main_table hpinning (hsame3.quiet hquiet))
      fun _ s4 t4 hsame4 => ?_
    rw [wp_bind, wp_read, wp_bind, wp_change]
    refine wp_seq (P := fun _ s' _ => SameTable s s') ?_ fun _ _ _ hsame5 => wp_pure.mpr hsame5
    refine wp_forEach (fun _ s' _ => SameTable s s') ?_ (fun _ _ h => h) _ _ _
      ((hsame3.trans hsame4).same rfl rfl rfl rfl)
    rintro ⟨op_handle, entries⟩ _ s' t' hsame'
    exact wp_act.mpr hsame'

/-- As long as no source is held back, the progress thread serves what it can of a request. -/
theorem reader_claims_ne_none (hindex : ∀ key, s.pools.index.get? key ≠ some none)
    {key_layout : List Label} {requests : List ((BlockKey × List TransferRef) × Nat)} :
    reader_claims s key_layout true requests ≠ none := by
  induction requests with
  | nil => exact Option.some_ne_none []
  | cons request requests ih =>
    obtain ⟨⟨key, destination⟩, index⟩ := request
    unfold reader_claims
    simp only [if_true]
    split
    · exact ih
    · next hkey => exact absurd hkey (hindex key)
    · split
      · exact ih
      · split
        · exact ih
        · exact fun hnone => ih (Option.map_eq_none_iff.mp hnone)

end Poll

/-! ## Runs -/

/-- What can happen to a core that a Guard serves with: the Guard polls, and the progress thread
works. It leaves a request to the caller if a source is held back. -/
def Attends (cfg : Config) (s : Core) : Event → Prop
  | .call _ (.poll_completed _) => True
  | .call _ _ => False
  | .progress _ _ => True
  | .reader _ => True
  | .request r => reader_claims s r.key_layout (!cfg.framework_pinning)
      (r.keys.zip r.dst_descriptors).zipIdx = none

/-- The states of a core that a Guard seeded with a table, with the victims it evicted. -/
inductive Serving (cfg : Config) (env : Env) (table : Dict BlockKey RecoveryBlock) :
    List Victim → Core → Prop
  | start (seed fuel : Nat) {s : Core} {t : List Ev}
      (adopted : Kvcr.start cfg env seed fuel table = .ok () s t) : Serving cfg env table [] s
  | step {evicted : List Victim} {s s' : Core} {t : List Ev} (event : Event)
      (serving : Serving cfg env table evicted s) (attends : Attends cfg s event)
      (returned : event.run cfg env s = .ok () s' t) : Serving cfg env table evicted s'
  | evict {evicted : List Victim} {s s' : Core} {t : List Ev} (fuel : Nat) (v : Victim)
      (serving : Serving cfg env table evicted s)
      (returned : evict_victim (knot cfg env fuel) v s = .ok () s' t) :
      Serving cfg env table (evicted ++ [v]) s'

/-- What is known of a core that serves. -/
structure Serves (seed : Dict BlockKey Record) (evicted : List Victim) (s : Core) : Prop where
  holds : Holds seed s
  quiet : (work s).Quiet
  all : evicted = [] → ∀ key r, seed.get? key = some r → survives s.records key

section Runs

variable {cfg : Config} {env : Env} {pool_names : List String} {R : Dict BlockKey Record}
  {evicted : List Victim} {s s' : Core}

theorem Serves.same {seed : Dict BlockKey Record} (h : Serves seed evicted s)
    (hsame : SameTable s s') : Serves seed evicted s' :=
  ⟨h.holds.dropped hsame.dropped, hsame.quiet h.quiet,
    fun hnone key r hr => hsame.survives (h.all hnone key r hr)⟩

/-- No request of a peer needs the caller. -/
theorem Serves.no_request {seed : Dict BlockKey Record} (h : Serves seed evicted s)
    (hpinning : cfg.framework_pinning = false) {request : SourceRequest} :
    ¬ Attends cfg s (.request request) := by
  unfold Attends
  rw [hpinning]
  exact reader_claims_ne_none h.quiet.index

/-- What happens to a core that serves keeps its table. -/
theorem Serves.event {seed : Dict BlockKey Record} (h : Serves seed evicted s)
    (hseed : ∀ key r, seed.get? key = some r → Recovered pool_names r) (hg3 : cfg.g3 = none)
    (hpinning : cfg.framework_pinning = false) {event : Event} (hattends : Attends cfg s event)
    {t : List Ev} (hreturned : event.run cfg env s = .ok () s' t) : SameTable s s' := by
  refine ok_of_wp (Q := fun _ s' _ => SameTable s s') (W := Watch.any) ?_ hreturned
  cases event with
  | call fuel c =>
    cases c with
    | poll_completed available =>
      refine wp_seq (wp_poll_completed_table h.holds hseed h.quiet ?_ ?_) fun _ _ _ hsame =>
        wp_pure.mpr hsame
      · rw [knot_cfg, hg3]
      · rw [knot_cfg, hpinning]
    | _ => exact absurd hattends id
  | progress index input =>
    -- nothing is in flight
    have hflight : s.progress.in_flight = [] := h.quiet.in_flight
    change wp Watch.any (advance cfg index input) _ s []
    unfold advance
    rw [wp_bind, wp_read, hflight]
    exact wp_pure.mpr .refl
  | reader a => exact wp_mono wp_reader_act fun _ _ _ hreaders => .readersOnly hreaders
  | request request => exact absurd hattends (h.no_request hpinning)

theorem Serving.serves (hR : RecoveredTable pool_names R) (hg3 : cfg.g3 = none)
    (hpinning : cfg.framework_pinning = false)
    (h : Serving cfg env (seed_table (without_g3 R)) evicted s) :
    Serves (without_g3 R) evicted s := by
  induction h with
  | start seed fuel adopted =>
    have hadopted := ok_of_wp (wp_adopt_recovery_records_served hR
      (by rw [knot_cfg, hg3]) (s := Core.initial cfg seed) rfl) adopted
    refine ⟨hadopted.1, hadopted.2.1 ⟨fun key => ?_, rfl, rfl, rfl, rfl, rfl, rfl⟩,
      fun _ => hadopted.2.2⟩
    change Dict.empty.get? key ≠ _
    rw [Dict.get?_empty]
    exact fun h => nomatch h
  | step event _ attends returned ih =>
    exact ih.same (ih.event (fun _ _ hr => (recovered_seed hR hr).1) hg3 hpinning attends returned)
  | evict fuel v _ returned ih =>
    have hdropped := ok_of_wp (wp_evict_victim_dropped (t := [])) returned
    exact ⟨ih.holds.dropped hdropped, hdropped.quiet ih.quiet,
      fun hnone => absurd hnone (by simp)⟩

/-- A core that serves for a Guard leaves a table as `GuardService` expects it, and all of what it
was seeded with if nothing was evicted. It never needs the Guard to serve a peer. -/
theorem seeded_core_serves (hR : RecoveredTable pool_names R) (hg3 : cfg.g3 = none)
    (hpinning : cfg.framework_pinning = false)
    (h : Serving cfg env (seed_table (without_g3 R)) evicted s) :
    Served (without_g3 R) s.records ∧
    (evicted = [] → ∀ key r, (without_g3 R).get? key = some r → survives s.records key) ∧
    ∀ request, ¬ Attends cfg s (.request request) := by
  have hserves := h.serves hR hg3 hpinning
  exact ⟨hserves.holds.served fun _ _ hr => (recovered_seed hR hr).1, hserves.all,
    fun _ => hserves.no_request hpinning⟩

end Runs

end Kvcr.Guard
