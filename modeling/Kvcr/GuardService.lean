/-
What is left of a recovered table after a Guard served it.

A Guard serves the local half of what it recovered and keeps the disk half aside. When it
stands down the core's table and the kept half are merged, written to the handback region
and adopted by the mirror. `Describes R survived table` says what the result is to be: of
`R` the whole disk half, the local residencies that survived, and nothing else. It
composes, so a table that is served over and over loses exactly what some core evicted.

A core's final table is known by what a core without a disk tier can do to the table it
was seeded with (`Served`): it may drop records, and residencies of records; a residency
it still holds complete is the one it was given.
-/
import Kvcr.GuardRecovery

set_option autoImplicit false

namespace Kvcr.Guard

open Bytes Journal Handback

/-! ## Recovered tables -/

/-- A record as a mirror holds it. -/
structure Recovered (pool_names : List String) (r : Record) : Prop where
  canonical : r.scrub = r
  recoverable : r.is_recoverable = true
  holdable : r.Holdable pool_names

/-- A table as a mirror holds it. -/
def RecoveredTable (pool_names : List String) (table : Dict BlockKey Record) : Prop :=
  ∀ key r, table.get? key = some r → Recovered pool_names r

namespace Recovered

variable {pool_names : List String} {r : Record}

/-- The residencies of a recovered record are complete. -/
theorem complete (h : Recovered pool_names r) {d : LocalDramResidency}
    (hd : r.local_dram = some d) : d.complete = true := by
  have hlocal := congrArg Record.local_dram h.canonical
  by_contra hnot
  rw [hd] at hlocal
  simp [Record.scrub, hd, hnot] at hlocal

theorem g3_unclaimed (h : Recovered pool_names r) :
    (r.g3.map fun g => { g with claim_count := 0 }) = r.g3 :=
  congrArg Record.g3 h.canonical

/-- What stands for a valid block is recovered. -/
theorem of_block {block : RecoveryBlock} (hvalid : block.valid = true)
    (hdisk : block.g3.all (fun g => labels_match pool_names g.1 []) = true)
    (hlocal : labels_match pool_names ((block.g2.getD []).map Prod.fst) [] = true)
    (hr : ¬ (block.record.local_dram.isNone ∧ block.record.g3.isNone)) :
    Recovered pool_names block.record := by
  obtain ⟨g2, g3, position⟩ := block
  simp only [RecoveryBlock.valid, Bool.and_eq_true, decide_eq_true_eq] at hvalid
  obtain ⟨⟨hslots, hlayout⟩, hposition⟩ := hvalid
  refine ⟨?_, ?_, ?_, ?_, hposition⟩
  · cases g2 <;> cases g3 <;> rfl
  · cases g2 <;> cases g3 <;> simp_all [RecoveryBlock.record, Record.is_recoverable,
      LocalDramResidency.complete, OrderedSet.empty]
  · intro d hd _
    obtain ⟨slots, rfl, rfl⟩ := Option.map_eq_some_iff.mp hd
    exact ⟨fun hnil => hslots (congrArg some hnil), rfl, hlocal⟩
  · intro g hg
    obtain ⟨⟨layout, slots⟩, rfl, rfl⟩ := Option.map_eq_some_iff.mp hg
    simp only [Option.all_some, Bool.and_eq_true, decide_eq_true_eq] at hlayout hdisk
    exact ⟨hlayout.1, hlayout.2, hdisk⟩

/-- What a mirror decodes is recovered. -/
theorem of_decode {msgpack : Msgpack} {payload : List UInt8}
    (h : decode_recovery_record msgpack payload pool_names = .ok r)
    (hr : ¬ (r.local_dram.isNone ∧ r.g3.isNone)) : Recovered pool_names r := by
  unfold decode_recovery_record at h
  split at h
  next => cases h
  next block hblock =>
    have hvalid : block.valid = true := (Option.filter_eq_some_iff.mp hblock).2
    split at h
    next => cases h
    next hdisk =>
      split at h
      next => cases h
      next hlocal =>
        cases h
        rw [not_not] at hdisk hlocal
        exact of_block hvalid hdisk hlocal hr

end Recovered

theorem RecoveredTable.empty {pool_names : List String} :
    RecoveredTable pool_names Dict.empty := by
  intro key r hget
  rw [Dict.get?_empty] at hget
  cases hget

/-- A mirror's table is recovered, whatever frames it applies. -/
theorem RecoveredTable.apply {msgpack : Msgpack} {m m' : RecoveryMirror} {f : Frame}
    (h : RecoveredTable m.pool_names m.records) (happly : m.apply msgpack f = .ok m') :
    m'.pool_names = m.pool_names ∧ RecoveredTable m'.pool_names m'.records := by
  unfold RecoveryMirror.apply at happly
  split at happly
  next => cases happly
  next record hdecode =>
    split at happly
    next =>
      cases happly
      refine ⟨rfl, fun key r hget => h key r ?_⟩
      rw [Dict.get?_erase] at hget
      split at hget
      next => cases hget
      next => exact hget
    next htombstone =>
      cases happly
      refine ⟨rfl, fun key r hget => ?_⟩
      rw [Dict.get?_set] at hget
      split at hget
      next =>
        cases hget
        exact .of_decode hdecode htombstone
      next => exact h key r hget

/-! ## What a service leaves -/

/-- The disk half of a table, as `prepare_to_serve` keeps it. -/
def disk_half (table : Dict BlockKey Record) : Dict BlockKey (G3Residency × Int) :=
  table.filterMap fun record => record.g3.map fun g3 => (g3, record.position)

/-- The key has a complete local residency. -/
def survives (final : Dict BlockKey Record) (key : BlockKey) : Prop :=
  ∃ r d, final.get? key = some r ∧ r.local_dram = some d ∧ d.complete = true

/-- A table a core without a disk tier may leave when it was seeded with `seed`. -/
structure Served (seed final : Dict BlockKey Record) : Prop where
  no_disk : ∀ key r, final.get? key = some r → r.g3 = none
  seeded : ∀ key r, final.get? key = some r → ∃ r0, seed.get? key = some r0 ∧
    r.position = r0.position ∧
    ∀ d, r.local_dram = some d → d.complete = true →
      r.scrub.uncached.local_dram = r0.uncached.local_dram

/-- Of `R`, the table has the disk half, the local residencies that survived, and nothing
else. -/
structure Describes (R : Dict BlockKey Record) (survived : BlockKey → Prop)
    (table : Dict BlockKey Record) : Prop where
  disk : ∀ key r g, R.get? key = some r → r.g3 = some g →
    ∃ r', table.get? key = some r' ∧ r'.g3 = some g ∧ r'.position = r.position
  local_dram : ∀ key r d, R.get? key = some r → r.local_dram = some d → survived key →
    ∃ r', table.get? key = some r' ∧ r'.uncached.local_dram = r.uncached.local_dram ∧
      r'.position = r.position
  only : ∀ key r', table.get? key = some r' → ∃ r, R.get? key = some r ∧
    r'.g3 = r.g3 ∧ r'.position = r.position ∧
    ∀ d', r'.local_dram = some d' →
      survived key ∧ r'.uncached.local_dram = r.uncached.local_dram

namespace Describes

variable {R T T' : Dict BlockKey Record} {p q : BlockKey → Prop} {pool_names : List String}

theorem refl (R : Dict BlockKey Record) : Describes R (fun _ => True) R where
  disk _ r _ hr hg := ⟨r, hr, hg, rfl⟩
  local_dram _ r _ hr _ _ := ⟨r, hr, rfl, rfl⟩
  only _ r hr := ⟨r, hr, rfl, rfl, fun _ _ => ⟨trivial, rfl⟩⟩

theorem uncached_isSome {r r' : Record} (h : r'.uncached.local_dram = r.uncached.local_dram)
    {d : LocalDramResidency} (hd : r.local_dram = some d) : ∃ d', r'.local_dram = some d' := by
  unfold Record.uncached at h
  rw [hd] at h
  cases hd' : r'.local_dram with
  | none =>
    rw [hd'] at h
    cases h
  | some d' => exact ⟨d', rfl⟩

/-- Serving twice keeps what survives both times. -/
theorem trans (h : Describes R p T) (h' : Describes T q T') :
    Describes R (fun key => p key ∧ q key) T' where
  disk key r g hr hg := by
    obtain ⟨r1, hr1, hg1, hpos1⟩ := h.disk key r g hr hg
    obtain ⟨r2, hr2, hg2, hpos2⟩ := h'.disk key r1 g hr1 hg1
    exact ⟨r2, hr2, hg2, hpos2.trans hpos1⟩
  local_dram key r d hr hd hboth := by
    obtain ⟨r1, hr1, hlocal1, hpos1⟩ := h.local_dram key r d hr hd hboth.1
    obtain ⟨d1, hd1⟩ := uncached_isSome hlocal1 hd
    obtain ⟨r2, hr2, hlocal2, hpos2⟩ := h'.local_dram key r1 d1 hr1 hd1 hboth.2
    exact ⟨r2, hr2, hlocal2.trans hlocal1, hpos2.trans hpos1⟩
  only key r2 hr2 := by
    obtain ⟨r1, hr1, hg1, hpos1, hlocal1⟩ := h'.only key r2 hr2
    obtain ⟨r, hr, hg, hpos, hlocal⟩ := h.only key r1 hr1
    refine ⟨r, hr, hg1.trans hg, hpos1.trans hpos, fun d2 hd2 => ?_⟩
    obtain ⟨hq, hsame1⟩ := hlocal1 d2 hd2
    obtain ⟨d1, hd1⟩ := uncached_isSome hsame1.symm hd2
    obtain ⟨hp, hsame⟩ := hlocal d1 hd1
    exact ⟨⟨hp, hq⟩, hsame1.trans hsame⟩

theorem congr (h : Describes R p T) (hpq : ∀ key, p key ↔ q key) : Describes R q T where
  disk := h.disk
  local_dram key r d hr hd hq := h.local_dram key r d hr hd ((hpq key).mpr hq)
  only key r' hr' := by
    obtain ⟨r, hr, hg, hpos, hlocal⟩ := h.only key r' hr'
    exact ⟨r, hr, hg, hpos, fun d' hd' => ⟨(hpq key).mp (hlocal d' hd').1, (hlocal d' hd').2⟩⟩

/-- A recovered record is known by its residencies and its position. -/
theorem uncached_ext {r r' : Record} (hr : r.scrub = r) (hr' : r'.scrub = r')
    (hlocal : r'.uncached.local_dram = r.uncached.local_dram) (hg3 : r'.g3 = r.g3)
    (hposition : r'.position = r.position) : r'.uncached = r.uncached := by
  have hrest : ∀ {r : Record}, r.scrub = r → r.fw_mem = none ∧ r.in_flight_ops = OrderedSet.empty ∧
      r.access_count = 0 ∧ r.last_access = none := fun {r} hr =>
    ⟨(congrArg Record.fw_mem hr).symm, (congrArg Record.in_flight_ops hr).symm,
      (congrArg Record.access_count hr).symm, (congrArg Record.last_access hr).symm⟩
  obtain ⟨hfw, hops, hcount, haccess⟩ := hrest hr
  obtain ⟨hfw', hops', hcount', haccess'⟩ := hrest hr'
  unfold Record.uncached at hlocal ⊢
  dsimp only at hlocal
  rw [hlocal, hg3, hposition, hfw, hfw', hops, hops', hcount, hcount', haccess, haccess']

/-- If nothing was evicted the table is as it was. -/
theorem same (h : Describes R p T) (hR : RecoveredTable pool_names R)
    (hT : RecoveredTable pool_names T)
    (hall : ∀ key r d, R.get? key = some r → r.local_dram = some d → p key) (key : BlockKey) :
    (T.get? key).map Record.uncached = (R.get? key).map Record.uncached := by
  cases hr : R.get? key with
  | none =>
    cases hr' : T.get? key with
    | none => rfl
    | some r' =>
      obtain ⟨r, hget, -⟩ := h.only key r' hr'
      exact nomatch hr.symm.trans hget
  | some r =>
    -- the record has a residency, and that brings it into the table
    obtain ⟨r', hr'⟩ : ∃ r', T.get? key = some r' := by
      cases hg : r.g3 with
      | some g =>
        obtain ⟨r', hr', -⟩ := h.disk key r g hr hg
        exact ⟨r', hr'⟩
      | none =>
        cases hd : r.local_dram with
        | some d =>
          obtain ⟨r', hr', -⟩ := h.local_dram key r d hr hd (hall key r d hr hd)
          exact ⟨r', hr'⟩
        | none =>
          have hrecoverable := (hR key r hr).recoverable
          rw [Record.is_recoverable, hg, hd] at hrecoverable
          cases hrecoverable
    obtain ⟨r0, hr0, hg3, hposition, hkept⟩ := h.only key r' hr'
    cases hr.symm.trans hr0
    have hlocal : r'.uncached.local_dram = r.uncached.local_dram := by
      cases hd : r.local_dram with
      | some d =>
        obtain ⟨r1, hr1, hsame, -⟩ := h.local_dram key r d hr hd (hall key r d hr hd)
        cases hr'.symm.trans hr1
        exact hsame
      | none =>
        cases hd' : r'.local_dram with
        | some d' => exact (hkept d' hd').2
        | none => simp only [Record.uncached, hd, hd']
    rw [hr', Option.map_some, Option.map_some,
      uncached_ext (hR key r hr).canonical (hT key r' hr').canonical hlocal hg3 hposition]

end Describes

/-! ## Merging the halves -/

section Merge

variable {R F : Dict BlockKey Record} {pool_names : List String} {key : BlockKey} {r : Record}

/-- What `_with_g3` makes of one key. -/
def restored (v : G3Residency × Int) : Option Record → Record
  | none => { g3 := some v.1, position := v.2 }
  | some record => { record with g3 := some v.1 }

/-- One round of the loop of `_with_g3`. -/
theorem get?_restore (records : Dict BlockKey Record) (p : BlockKey × G3Residency × Int)
    (key : BlockKey) :
    (match records.get? p.1 with
      | none => records.set p.1 { g3 := some p.2.1, position := p.2.2 }
      | some record => records.set p.1 { record with g3 := some p.2.1 }).get? key =
      if key = p.1 then some (restored p.2 (records.get? p.1)) else records.get? key := by
  cases records.get? p.1 <;> exact Dict.get?_set _ _ _ _

theorem get?_with_g3_loop (entries : List (BlockKey × G3Residency × Int))
    (hnodup : (entries.map Prod.fst).Nodup) (records : Dict BlockKey Record) (key : BlockKey) :
    (entries.foldl (fun records (key, g3, position) =>
      match records.get? key with
      | none => records.set key { g3 := some g3, position := position }
      | some record => records.set key { record with g3 := some g3 }) records).get? key =
      match (entries.find? fun p => decide (p.1 = key)).map Prod.snd with
      | none => records.get? key
      | some v => some (restored v (records.get? key)) := by
  induction entries generalizing records with
  | nil => rfl
  | cons p entries ih =>
    rw [List.map_cons, List.nodup_cons] at hnodup
    rw [List.foldl_cons, ih hnodup.2, List.find?_cons]
    have hstep := get?_restore records p key
    by_cases hkey : key = p.1
    · -- no later entry has the key
      subst hkey
      have hlater : entries.find? (fun q => decide (q.1 = p.1)) = none := by
        refine List.find?_eq_none.mpr fun q hq => ?_
        simp only [decide_eq_true_eq]
        exact fun heq => hnodup.1 (heq ▸ List.mem_map_of_mem hq)
      rw [if_pos rfl] at hstep
      simp only [hlater, decide_true, Option.map_none, Option.map_some]
      exact hstep
    · rw [if_neg hkey] at hstep
      have hother : decide (p.1 = key) = false := decide_eq_false (Ne.symm hkey)
      rw [hother]
      dsimp only
      cases (entries.find? fun q => decide (q.1 = key)).map Prod.snd with
      | none => exact hstep
      | some v => exact congrArg (fun found => some (restored v found)) hstep

theorem get?_with_g3 (records : Dict BlockKey Record)
    (g3_records : Dict BlockKey (G3Residency × Int))
    (key : BlockKey) :
    (with_g3 records g3_records).get? key =
      match g3_records.get? key with
      | none => records.get? key
      | some v => some (restored v (records.get? key)) :=
  get?_with_g3_loop g3_records.entries g3_records.nodup records key

/-- The table that is handed back. -/
def merged (R F : Dict BlockKey Record) : Dict BlockKey Record := with_g3 F (disk_half R)

/-- What a key of the recovered table has in the end. -/
def final_record (F : Dict BlockKey Record) (key : BlockKey) (r : Record) : Record :=
  { (F.get? key).getD { position := r.position } with g3 := r.g3 }

theorem get?_seed (R : Dict BlockKey Record) (key : BlockKey) :
    (without_g3 R).get? key = (R.get? key).bind fun r =>
      if r.local_dram.isNone then none else some { r with g3 := none } :=
  Dict.get?_filterMap _ _ _

/-- The core knew no other keys. -/
theorem Served.key_recovered (hF : Served (without_g3 R) F) {rec : Record}
    (hrec : F.get? key = some rec) : ∃ r, R.get? key = some r ∧ rec.position = r.position ∧
      ∀ d, rec.local_dram = some d → d.complete = true →
        rec.scrub.uncached.local_dram = r.uncached.local_dram := by
  obtain ⟨r0, hr0, hposition, hlocal⟩ := hF.seeded key rec hrec
  rw [get?_seed] at hr0
  obtain ⟨r, hr, hseed⟩ := Option.bind_eq_some_iff.mp hr0
  split at hseed
  next => cases hseed
  next =>
    cases hseed
    exact ⟨r, hr, hposition, hlocal⟩

theorem get?_merged_none (hF : Served (without_g3 R) F) (hr : R.get? key = none) :
    (merged R F).get? key = none := by
  rw [merged, get?_with_g3, disk_half, Dict.get?_filterMap, hr, Option.bind_none]
  cases hrec : F.get? key with
  | none => rfl
  | some rec =>
    obtain ⟨r, hr', -⟩ := hF.key_recovered hrec
    exact nomatch hr.symm.trans hr'

theorem get?_merged_some (hF : Served (without_g3 R) F) (hr : R.get? key = some r) :
    (merged R F).get? key =
      if r.g3.isSome ∨ (F.get? key).isSome then some (final_record F key r) else none := by
  rw [merged, get?_with_g3, disk_half, Dict.get?_filterMap, hr, Option.bind_some, final_record]
  cases hg : r.g3 with
  | some g =>
    rw [Option.isSome_some, if_pos (.inl rfl)]
    cases F.get? key <;> rfl
  | none =>
    cases hrec : F.get? key with
    | none => rfl
    | some rec =>
      have hdisk := hF.no_disk key rec hrec
      obtain ⟨_, _, _, _, _, _, _⟩ := rec
      cases hdisk
      rfl

/-- What is known of a key's final record. -/
structure FinalRecord (F : Dict BlockKey Record) (key : BlockKey) (r final : Record) : Prop where
  g3 : final.g3 = r.g3
  position : final.position = r.position
  survives : Guard.survives F key ↔ ∃ d, final.local_dram = some d ∧ d.complete = true
  same : ∀ d, final.local_dram = some d → d.complete = true →
    final.scrub.uncached.local_dram = r.uncached.local_dram

theorem final_record_spec (hF : Served (without_g3 R) F) (hr : R.get? key = some r) :
    FinalRecord F key r (final_record F key r) := by
  unfold final_record
  cases hrec : F.get? key with
  | none =>
    refine ⟨rfl, rfl, ?_, fun d hd => nomatch hd⟩
    constructor
    · rintro ⟨rec, d, hget, -⟩
      exact nomatch hrec.symm.trans hget
    · rintro ⟨d, hd, -⟩
      cases hd
  | some rec =>
    obtain ⟨r', hr', hposition, hlocal⟩ := hF.key_recovered hrec
    cases hr.symm.trans hr'
    refine ⟨rfl, hposition, ?_, hlocal⟩
    constructor
    · rintro ⟨rec', d, hget, hd, hcomplete⟩
      cases hrec.symm.trans hget
      exact ⟨d, hd, hcomplete⟩
    · rintro ⟨d, hd, hcomplete⟩
      exact ⟨rec, d, hrec, hd, hcomplete⟩

/-- A residency that scrubs to a holdable one is holdable. -/
theorem FinalRecord.holdable {final : Record} (h : FinalRecord F key r final)
    (hr : r.Holdable pool_names) (hcomplete : ∀ d, r.local_dram = some d → d.complete = true) :
    final.Holdable pool_names := by
  refine ⟨fun d hd hdone => ?_, fun g hg => hr.g3 g (h.g3 ▸ hg), h.position ▸ hr.position⟩
  have hsame := h.same d hd hdone
  simp only [Record.uncached, Record.scrub, Option.mem_def.mp hd, Option.bind_some, hdone, if_true,
    Option.map_some] at hsame
  obtain ⟨d0, hd0, heq⟩ := Option.map_eq_some_iff.mp hsame.symm
  have hslots : d0.slots = d.slots := (congrArg LocalDramResidency.slots heq :)
  have hlayout : d0.key_layout = d.key_layout := (congrArg LocalDramResidency.key_layout heq :)
  have hheld := hr.local_dram d0 hd0 (hcomplete d0 hd0)
  rw [hslots, hlayout] at hheld
  exact hheld

theorem holdable_merged (hR : RecoveredTable pool_names R) (hF : Served (without_g3 R) F) :
    ∀ p ∈ (merged R F).entries, p.2.Holdable pool_names := by
  rintro ⟨key, rec⟩ hp
  have hget := Dict.get?_eq_some.mpr hp
  cases hr : R.get? key with
  | none =>
    rw [get?_merged_none hF hr] at hget
    cases hget
  | some r =>
    rw [get?_merged_some hF hr] at hget
    split at hget
    next =>
      cases hget
      exact (final_record_spec hF hr).holdable (hR key r hr).holdable fun _ =>
        (hR key r hr).complete
    next => cases hget

theorem scrub_scrub (r : Record) : r.scrub.scrub = r.scrub := by
  obtain ⟨_, d, g, _, _, _, _⟩ := r
  cases d with
  | none => cases g <;> rfl
  | some d =>
    by_cases hd : d.complete = true
    · have hsame : LocalDramResidency.complete
          { d with
            pending_deposits := 0, writers := none, remote_indices := none,
            remote_cancelled := false, claim_count := 0, source_readers := 0,
            retire_on_release := false, refs := none } = d.complete := rfl
      cases g <;> simp [Record.scrub, hd, hsame]
    · cases g <;> simp [Record.scrub, hd]

theorem scrub_holdable (hr : r.Holdable pool_names) : r.scrub.Holdable pool_names := by
  refine ⟨fun d hd _ => ?_, fun g hg => ?_, hr.position⟩
  · obtain ⟨d0, hd0, hscrub⟩ := Option.bind_eq_some_iff.mp hd
    split at hscrub
    next hdone =>
      cases hscrub
      exact hr.local_dram d0 hd0 hdone
    next => cases hscrub
  · obtain ⟨g0, hg0, rfl⟩ := Option.map_eq_some_iff.mp hg
    exact hr.g3 g0 hg0

/-! ## Adoption -/

variable (m : RecoveryMirror)

theorem get?_adopted_none (hF : Served (without_g3 R) F) (hr : R.get? key = none) :
    (m.adopt (merged R F)).records.get? key = none := by
  rw [RecoveryMirror.adopt, Dict.get?_filterMap, get?_merged_none hF hr, Option.bind_none]

theorem get?_adopted_some (hF : Served (without_g3 R) F) (hr : R.get? key = some r) :
    (m.adopt (merged R F)).records.get? key =
      if (final_record F key r).is_recoverable then some (final_record F key r).scrub
      else none := by
  rw [RecoveryMirror.adopt, Dict.get?_filterMap, get?_merged_some hF hr]
  by_cases hsome : r.g3.isSome ∨ (F.get? key).isSome
  · rw [if_pos hsome, Option.bind_some, Record.is_recoverable_scrub]
  · rw [if_neg hsome, Option.bind_none, if_neg]
    simp only [not_or, Bool.not_eq_true, Option.isSome_eq_false_iff, Option.isNone_iff_eq_none]
      at hsome
    rw [final_record, hsome.1, hsome.2]
    exact Bool.false_ne_true

/-- What the mirror adopts is what is to be kept. -/
theorem describes_adopted (hR : RecoveredTable pool_names R) (hF : Served (without_g3 R) F) :
    Describes R (survives F) (m.adopt (merged R F)).records where
  disk key r g hr hg := by
    have hfinal := final_record_spec hF hr
    refine ⟨(final_record F key r).scrub, ?_, ?_, hfinal.position⟩
    · rw [get?_adopted_some m hF hr, if_pos]
      rw [Record.is_recoverable, hfinal.g3, hg]
      rfl
    · change ((final_record F key r).g3.map _) = _
      rw [hfinal.g3, (hR key r hr).g3_unclaimed, hg]
  local_dram key r d hr hd hsurvived := by
    have hfinal := final_record_spec hF hr
    obtain ⟨d', hd', hcomplete⟩ := hfinal.survives.mp hsurvived
    refine ⟨(final_record F key r).scrub, ?_, hfinal.same d' hd' hcomplete, hfinal.position⟩
    rw [get?_adopted_some m hF hr, if_pos]
    rw [Record.is_recoverable, hd', Option.any_some, hcomplete, Bool.or_true]
  only key r' hr' := by
    cases hr : R.get? key with
    | none =>
      rw [get?_adopted_none m hF hr] at hr'
      cases hr'
    | some r =>
      have hfinal := final_record_spec hF hr
      rw [get?_adopted_some m hF hr] at hr'
      split at hr'
      next =>
        cases hr'
        refine ⟨r, rfl, ?_, hfinal.position, fun d' hd' => ?_⟩
        · change ((final_record F key r).g3.map _) = _
          rw [hfinal.g3, (hR key r hr).g3_unclaimed]
        · -- scrubbing keeps a residency only if it is complete
          obtain ⟨d, hd, hscrub⟩ := Option.bind_eq_some_iff.mp hd'
          split at hscrub
          next hcomplete =>
            exact ⟨hfinal.survives.mpr ⟨d, hd, hcomplete⟩, hfinal.same d hd hcomplete⟩
          next => cases hscrub
      next => cases hr'

theorem recovered_adopted (hR : RecoveredTable pool_names R) (hF : Served (without_g3 R) F) :
    RecoveredTable pool_names (m.adopt (merged R F)).records := by
  intro key r' hr'
  cases hr : R.get? key with
  | none =>
    rw [get?_adopted_none m hF hr] at hr'
    cases hr'
  | some r =>
    rw [get?_adopted_some m hF hr] at hr'
    split at hr'
    next hrecoverable =>
      cases hr'
      refine ⟨scrub_scrub _, (Record.is_recoverable_scrub _).trans hrecoverable, scrub_holdable ?_⟩
      exact (final_record_spec hF hr).holdable (hR key r hr).holdable fun _ =>
        (hR key r hr).complete
    next => cases hr'

end Merge

/-! ## Handing back -/

theorem Describes.of_uncached {R T T' : Dict BlockKey Record} {p : BlockKey → Prop}
    (h : Describes R p T)
    (hsame : ∀ key, (T'.get? key).map Record.uncached = (T.get? key).map Record.uncached) :
    Describes R p T' := by
  -- records that look the same have the same residencies and position
  have hlook : ∀ {r r' : Record}, r'.uncached = r.uncached →
      r'.g3 = r.g3 ∧ r'.position = r.position ∧ r'.uncached.local_dram = r.uncached.local_dram :=
    fun heq => ⟨(congrArg Record.g3 heq :), (congrArg Record.position heq :),
      congrArg Record.local_dram heq⟩
  have hthere : ∀ {key r}, T.get? key = some r →
      ∃ r', T'.get? key = some r' ∧ r'.uncached = r.uncached := by
    intro key r hr
    have hkey := hsame key
    rw [hr, Option.map_some] at hkey
    exact Option.map_eq_some_iff.mp hkey
  refine ⟨fun key r g hr hg => ?_, fun key r d hr hd hp => ?_, fun key r' hr' => ?_⟩
  · obtain ⟨r1, hr1, hg1, hpos1⟩ := h.disk key r g hr hg
    obtain ⟨r', hr', heq⟩ := hthere hr1
    obtain ⟨hg', hpos', -⟩ := hlook heq
    exact ⟨r', hr', hg'.trans hg1, hpos'.trans hpos1⟩
  · obtain ⟨r1, hr1, hlocal1, hpos1⟩ := h.local_dram key r d hr hd hp
    obtain ⟨r', hr', heq⟩ := hthere hr1
    obtain ⟨-, hpos', hlocal'⟩ := hlook heq
    exact ⟨r', hr', hlocal'.trans hlocal1, hpos'.trans hpos1⟩
  · have hkey := hsame key
    rw [hr', Option.map_some] at hkey
    obtain ⟨r1, hr1, heq⟩ := Option.map_eq_some_iff.mp hkey.symm
    obtain ⟨hg1, hpos1, hlocal1⟩ := hlook heq
    obtain ⟨r, hr, hg, hpos, hlocal⟩ := h.only key r1 hr1
    refine ⟨r, hr, hg1.symm.trans hg, hpos1.symm.trans hpos, fun d' hd' => ?_⟩
    obtain ⟨d1, hd1⟩ := Describes.uncached_isSome hlocal1 hd'
    exact ⟨(hlocal d1 hd1).1, hlocal1.symm.trans (hlocal d1 hd1).2⟩

namespace RecoveryState

variable {setting : Setting} {r r' : RecoveryState} {R F : Dict BlockKey Record}
  {fault : Option (Nat × SnapshotError)}

/-- What `_serve` takes of a recovered table, and what it leaves. -/
def serve (r : RecoveryState) (R : Dict BlockKey Record) : Dict BlockKey Record × RecoveryState :=
  ((r.prepare_to_serve R).1, (r.prepare_to_serve R).2.release_snapshot_region)

/-- What the next primary, or a Guard started over the pool, reads. -/
def read_region (setting : Setting) (r : RecoveryState) : Except RecoveryError RecoveryMirror :=
  (Kvcr.read_handback setting.msgpack setting.sha (setting.canonical_pool_terms r.pools)
    (r.pools.map (·.name)) r.region).1

/-- A hand-back that keeps its mirror wrote the region. -/
theorem hand_back_kept (hback : r.hand_back setting F fault = (.ok (), r'))
    (hkept : r'.mirror.isSome) :
    (write_recovery_snapshot setting.sha setting.backing (setting.canonical_pool_terms r.pools)
      (recovery_frames setting.msgpack (with_g3 F r.g3_records)) fault).raised = none ∧
    r' =
      { r with
        region := run (write_recovery_snapshot setting.sha setting.backing
          (setting.canonical_pool_terms r.pools)
          (recovery_frames setting.msgpack (with_g3 F r.g3_records)) fault).steps r.region
        mirror := r.mirror.map fun mirror => mirror.adopt (with_g3 F r.g3_records)
        g3_records := Dict.empty } := by
  unfold hand_back write_handback at hback
  dsimp only at hback
  split at hback
  next r1 heq =>
    obtain ⟨hraised, rfl⟩ := Prod.mk.inj heq
    cases hback
    exact ⟨hraised, rfl⟩
  next =>
    -- full storage: the mirror is gone
    obtain ⟨-, rfl⟩ := Prod.mk.inj hback
    cases hkept
  next => exact nomatch (Prod.mk.inj hback).1

theorem hand_back_written (setting : Setting) (r : RecoveryState) (F : Dict BlockKey Record)
    (fault : Option (Nat × SnapshotError))
    (hraised : (write_recovery_snapshot setting.sha setting.backing
      (setting.canonical_pool_terms r.pools)
      (recovery_frames setting.msgpack (with_g3 F r.g3_records)) fault).raised = none) :
    ∃ r', r.hand_back setting F fault = (.ok (), r') ∧ (r.mirror.isSome → r'.mirror.isSome) := by
  unfold hand_back write_handback
  dsimp only
  rw [hraised]
  exact ⟨_, rfl, fun hsome => Option.isSome_map.trans hsome⟩

/-- A round of service leaves, in the mirror and in the region, what is to be kept. -/
theorem serve_hand_back (hR : RecoveredTable (r.pools.map (·.name)) R)
    (hF : Served (r.serve R).1 F) (hback : (r.serve R).2.hand_back setting F fault = (.ok (), r'))
    (hkept : r'.mirror.isSome) :
    r'.pools = r.pools ∧ ∃ m m' : RecoveryMirror, r'.mirror = some m ∧
      r'.read_region setting = .ok m' ∧
      Describes R (survives F) m.records ∧ RecoveredTable (r.pools.map (·.name)) m.records ∧
      ∀ key, (m'.records.get? key).map Record.uncached =
        (m.records.get? key).map Record.uncached := by
  obtain ⟨hraised, rfl⟩ := hand_back_kept hback hkept
  refine ⟨rfl, ?_⟩
  dsimp only at hkept ⊢
  obtain ⟨m0, hm0⟩ := Option.isSome_iff_exists.mp (Option.isSome_map.symm.trans hkept)
  rw [hm0, Option.map_some]
  obtain ⟨m', hread, -, hsame⟩ := replayed_eq_adopted setting.msgpack setting.sha setting.backing
    (setting.canonical_pool_terms r.pools) (r.serve R).2.region m0 (holdable_merged hR hF) hraised
  refine ⟨_, m', rfl, congrArg Prod.fst hread, describes_adopted m0 hR hF,
    recovered_adopted m0 hR hF, fun key => Dict.map_get?_eq hsame key⟩

/-- What a replay gives is a recovered table. -/
theorem recovered_apply_all {msgpack : Msgpack} {frames : List Frame} {m m' : RecoveryMirror}
    (h : RecoveredTable m.pool_names m.records) (happly : m.apply_all msgpack frames = .ok m') :
    RecoveredTable m.pool_names m'.records := by
  unfold RecoveryMirror.apply_all at happly
  induction frames generalizing m with
  | nil =>
    cases happly
    exact h
  | cons f frames ih =>
    rw [List.foldlM_cons] at happly
    cases hf : m.apply msgpack f with
    | error e =>
      rw [hf] at happly
      cases happly
    | ok m1 =>
      rw [hf] at happly
      obtain ⟨hnames, h1⟩ := h.apply hf
      exact hnames ▸ ih h1 happly

theorem recovered_read_region {m : RecoveryMirror} (hread : r.read_region setting = .ok m) :
    RecoveredTable (r.pools.map (·.name)) m.records := by
  unfold read_region Kvcr.read_handback at hread
  dsimp only at hread
  split at hread
  next => cases hread
  next mirror happly =>
    split at hread
    next =>
      cases hread
      exact recovered_apply_all .empty happly
    next =>
      cases hread
      exact .empty
    next => cases hread

end RecoveryState

/-! ## Rounds -/

/-- Rounds of service from the table `R0` on: each time a core serves the local half and
leaves a table, the table is handed back, and what is recovered of it is served again, by
the same Guard after a primary that published nothing, or by one started over the pool. -/
inductive Rounds (setting : Setting) (r0 : RecoveryState) (R0 : Dict BlockKey Record) :
    List (Dict BlockKey Record) → RecoveryState → Dict BlockKey Record → Prop
  | start : Rounds setting r0 R0 [] r0 R0
  | resumed {Fs : List (Dict BlockKey Record)} {r r' : RecoveryState} {R F : Dict BlockKey Record}
      {fault : Option (Nat × SnapshotError)} (before : Rounds setting r0 R0 Fs r R)
      (served : Served (r.serve R).1 F)
      (handed : (r.serve R).2.hand_back setting F fault = (.ok (), r'))
      (kept : r'.mirror.isSome) :
      Rounds setting r0 R0 (Fs ++ [F]) (r'.start_primary.take_for_promotion setting).2
        (r'.start_primary.take_for_promotion setting).1
  | reopened {Fs : List (Dict BlockKey Record)} {r r' : RecoveryState} {R F : Dict BlockKey Record}
      {fault : Option (Nat × SnapshotError)} {m : RecoveryMirror}
      (before : Rounds setting r0 R0 Fs r R)
      (served : Served (r.serve R).1 F)
      (handed : (r.serve R).2.hand_back setting F fault = (.ok (), r'))
      (kept : r'.mirror.isSome) (read : r'.read_region setting = .ok m) :
      Rounds setting r0 R0 (Fs ++ [F])
        { pools := r'.pools, mirror := some { m with records := Dict.empty }, region := r'.region }
        m.records

/-- The key was there at the end of every round. -/
def survives_all (Fs : List (Dict BlockKey Record)) (key : BlockKey) : Prop :=
  ∀ F ∈ Fs, survives F key

theorem survives_all_append {Fs : List (Dict BlockKey Record)} {F : Dict BlockKey Record}
    (key : BlockKey) : survives_all Fs key ∧ survives F key ↔ survives_all (Fs ++ [F]) key := by
  unfold survives_all
  rw [List.forall_mem_append, List.forall_mem_singleton]

namespace Rounds

variable {setting : Setting} {r0 r : RecoveryState} {R0 R : Dict BlockKey Record}
  {Fs : List (Dict BlockKey Record)}

/-- The journal of a primary that published nothing adds nothing. -/
theorem take_for_promotion_resumed (setting : Setting) {r' : RecoveryState} {m : RecoveryMirror}
    (hm : r'.mirror = some m) :
    (r'.start_primary.take_for_promotion setting).1 = m.records ∧
      (r'.start_primary.take_for_promotion setting).2.pools = r'.pools := by
  refine ⟨?_, rfl⟩
  unfold RecoveryState.take_for_promotion RecoveryState.start_primary
  dsimp only
  rw [hm, Option.getD_some]
  rfl

theorem kept (hrounds : Rounds setting r0 R0 Fs r R)
    (hR : RecoveredTable (r0.pools.map (·.name)) R0) :
    r.pools = r0.pools ∧ RecoveredTable (r0.pools.map (·.name)) R ∧
      Describes R0 (survives_all Fs) R := by
  induction hrounds with
  | start =>
    refine ⟨rfl, hR, (Describes.refl R0).congr fun key => ?_⟩
    exact ⟨fun _ F hF => absurd hF List.not_mem_nil, fun _ => trivial⟩
  | resumed _ served handed hkept ih =>
    obtain ⟨hpools, hrecovered, hdescribes⟩ := ih
    rw [← hpools] at hrecovered ⊢
    obtain ⟨hpools', m, m', hm, -, hm_describes, hm_recovered, -⟩ :=
      RecoveryState.serve_hand_back hrecovered served handed hkept
    obtain ⟨hrecords, hsame⟩ := take_for_promotion_resumed setting hm
    rw [hrecords]
    exact ⟨hsame.trans hpools', hm_recovered,
      (hdescribes.trans hm_describes).congr survives_all_append⟩
  | reopened _ served handed hkept hread ih =>
    obtain ⟨hpools, hrecovered, hdescribes⟩ := ih
    rw [← hpools] at hrecovered ⊢
    obtain ⟨hpools', m, m', hm, hregion, hm_describes, -, hsame⟩ :=
      RecoveryState.serve_hand_back hrecovered served handed hkept
    cases hread.symm.trans hregion
    refine ⟨hpools', hpools' ▸ RecoveryState.recovered_read_region hread, ?_⟩
    exact (hdescribes.trans (hm_describes.of_uncached hsame)).congr survives_all_append

end Rounds

/-- However often a recovered table is served, what is handed back in the end, in the
mirror and in the region, has of it the whole disk half and the local residencies that
survived every round, at their positions, and nothing else. If nothing was evicted it is
the table. -/
theorem hand_back_keeps_disk_half {setting : Setting} {r0 r r' : RecoveryState}
    {R0 R F : Dict BlockKey Record} {Fs : List (Dict BlockKey Record)}
    {fault : Option (Nat × SnapshotError)} (hR : RecoveredTable (r0.pools.map (·.name)) R0)
    (hrounds : Rounds setting r0 R0 Fs r R) (hF : Served (r.serve R).1 F)
    (hback : (r.serve R).2.hand_back setting F fault = (.ok (), r')) (hkept : r'.mirror.isSome) :
    ∃ m m' : RecoveryMirror, r'.mirror = some m ∧ r'.read_region setting = .ok m' ∧
      ∀ table ∈ [m.records, m'.records],
        Describes R0 (survives_all (Fs ++ [F])) table ∧
        ((∀ key rec d, R0.get? key = some rec → rec.local_dram = some d →
            survives_all (Fs ++ [F]) key) →
          ∀ key, (table.get? key).map Record.uncached = (R0.get? key).map Record.uncached) := by
  obtain ⟨hpools, hrecovered, hdescribes⟩ := hrounds.kept hR
  rw [← hpools] at hR hrecovered
  obtain ⟨-, m, m', hm, hregion, hmirror, hm_recovered, hsame⟩ :=
    RecoveryState.serve_hand_back hrecovered hF hback hkept
  have hall : Describes R0 (survives_all (Fs ++ [F])) m.records :=
    (hdescribes.trans hmirror).congr survives_all_append
  refine ⟨m, m', hm, hregion, fun table htable => ?_⟩
  rcases List.mem_pair.mp htable with rfl | rfl
  · exact ⟨hall, fun heverything key => hall.same hR hm_recovered heverything key⟩
  · refine ⟨hall.of_uncached hsame, fun heverything key => ?_⟩
    exact (hsame key).trans (hall.same hR hm_recovered heverything key)

/-- A block on both tiers. -/
def both_tiers : Record :=
  { local_dram := some
      { slots := [(⟨"full", none⟩, 0)], state := .READY, key_layout := [⟨"full", none⟩] }
    g3 := some ⟨[⟨"full", none⟩], [3], 0⟩
    position := 7 }

def one_recovered : Dict BlockKey Record := ⟨[(⟨[1]⟩, both_tiers)], by decide⟩

def promoted : RecoveryState :=
  { pools := [⟨"full", 64, 16, 0⟩], mirror := some { pool_names := ["full"] } }

theorem one_recovered_table :
    RecoveredTable (promoted.pools.map (·.name)) one_recovered := by
  intro key r hr
  obtain ⟨rfl, rfl⟩ := Prod.mk.inj (List.mem_singleton.mp (Dict.get?_eq_some.mp hr))
  exact ⟨rfl, rfl, by simp [both_tiers, promoted, labels_match],
    by simp [both_tiers, promoted, labels_match], by simp [both_tiers]⟩

/-- A block whose local residency is evicted comes back with its disk half. -/
theorem hand_back_keeps_evicted_block :
    ∃ (setting : Setting) (r' : RecoveryState) (m : RecoveryMirror) (r : Record),
      (promoted.serve one_recovered).2.hand_back setting Dict.empty none = (.ok (), r') ∧
      r'.mirror = some m ∧ m.records.get? ⟨[1]⟩ = some r ∧
      r.g3 = some ⟨[⟨"full", none⟩], [3], 0⟩ ∧ r.position = 7 := by
  obtain ⟨msgpack, hpayload⟩ := exists_msgpack { both_tiers with local_dram := none }.project []
  let setting : Setting :=
    { msgpack := msgpack
      sha := Sha256.zero
      backing := Backing.plain
      canonical_pool_terms := fun _ => []
      guard_index := 0
      journal_bytes := 0
      pool_sizes_bytes := [64] }
  have hframes : recovery_frames msgpack (with_g3 Dict.empty (disk_half one_recovered)) =
      [{ key := [1], payload := [] }] := by
    have hkept : recoverable_entries (with_g3 Dict.empty (disk_half one_recovered)) =
        [(⟨[1]⟩, { both_tiers with local_dram := none })] := rfl
    rw [recovery_frames, hkept, List.map_singleton, hpayload]
  obtain ⟨r', hback, hmirror⟩ := RecoveryState.hand_back_written setting
    (promoted.serve one_recovered).2 Dict.empty none
    ((congrArg (fun frames => (write_recovery_snapshot Sha256.zero Backing.plain [] frames
      none).raised) hframes).trans rfl)
  have hserved : Served (promoted.serve one_recovered).1 Dict.empty :=
    ⟨(fun _ r hr => absurd (hr.symm.trans (Dict.get?_empty _)) (Option.some_ne_none r)),
      (fun _ r hr => absurd (hr.symm.trans (Dict.get?_empty _)) (Option.some_ne_none r))⟩
  obtain ⟨m, m', hm, -, htables⟩ :=
    hand_back_keeps_disk_half one_recovered_table .start hserved hback (hmirror rfl)
  obtain ⟨r, hr, hg, hposition⟩ :=
    (htables m.records List.mem_cons_self).1.disk ⟨[1]⟩ both_tiers _ rfl rfl
  exact ⟨setting, r', m, r, hback, hm, hr, hg, hposition⟩

end Kvcr.Guard
