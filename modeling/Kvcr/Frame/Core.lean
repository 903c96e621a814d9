/-
What the public calls leave alone, in any frame.

Deposits, fetches, deliveries and the progress of waiting operations are within every frame
whose calls into the disk are; so is the knot, by induction on its fuel. Remote writes are
within a frame that is not about pins, finished disk transfers within one that is not about
the disk, and finished pulls within one that lets them write to their request's hint.
-/
import Kvcr.Frame.Tiers
import Kvcr.Run

set_option autoImplicit false

namespace Kvcr

open Prog

/-! ## The local tier -/

section LocalDram

variable {K : Knot} {F : Frame K.cfg}

/-- The result of a key is an event and an entry of its operation. -/
theorem set_result_moves {cfg : Config} {F : Frame cfg} {op_id : OpId} {key : BlockKey}
    {entry : OpEntryResult} :
    Moves F.R (set_result op_id key entry) := .bind act_moves fun _ => modify_op_moves

theorem set_deliver_result_moves {cfg : Config} {F : Frame cfg} {op_id : OpId} {key : BlockKey}
    {entry : OpEntryResult} : Moves F.R (set_deliver_result op_id key entry) :=
  .bind act_moves fun _ => modify_deliver_op_moves

/-- The keys a request has got are no longer expected from elsewhere. -/
theorem forget_remote_keys_moves {cfg : Config} {F : Frame cfg} {op : PendingResidencyOp} :
    Moves F.R (forget_remote_keys op) := by
  unfold forget_remote_keys
  refine .bind .read fun s => ?_
  split
  · exact .pure
  · split
    · exact .pure
    · exact .change fun _ => F.plain rfl rfl

/-- An operation with all its results gives up its sources and its dependencies and completes. -/
theorem finish_residency_if_ready_moves (hK : Tied K F) {op_id : OpId} :
    Moves F.R (finish_residency_if_ready K op_id) := by
  unfold finish_residency_if_ready
  refine .bind .read fun s => .ite .pure ?_
  refine .if_then forget_remote_keys_moves ?_
  refine .bind modify_op_moves fun _ => .bind (.change fun _ => F.plain rfl rfl) fun _ =>
    .bind modify_op_moves fun _ => ?_
  refine .unless_then (release_sources_moves hK) ?_
  exact .bind remove_block_dependencies_moves fun _ => complete_moves

/-- A delivery with all its results does the same. -/
theorem finish_deliver_if_ready_moves (hK : Tied K F) {op_id : OpId} :
    Moves F.R (finish_deliver_if_ready K op_id) := by
  refine .bind .read fun s => .ite .pure (.bind (release_sources_moves hK) fun _ =>
    .bind modify_deliver_op_moves fun _ => .bind .read fun s => .ite ?_ .raise)
  exact .bind (.change fun _ => F.plain rfl rfl) fun _ =>
    .bind remove_block_dependencies_moves fun _ => complete_moves

/-- A core with pools may have waiters. -/
theorem enqueue_capacity_waiter_moves {cfg : Config} {F : Frame cfg} (hp : cfg.local_dram.isSome)
    {op_id : OpId}
    {key : BlockKey} : Moves F.R (enqueue_capacity_waiter op_id key) :=
  .bind .read fun _ => .ite .raise
    (.bind (.change fun _ => F.waiters hp) fun _ => modify_op_moves)

/-- The new residency is the one that was asked for. -/
theorem attach_residency_later (hp : K.cfg.local_dram.isSome) {key : BlockKey} {record : RecId}
    {residency : LocalDramResidency} (hx : residency.Described K.cfg F.P) {s₀ s : Core}
    {t : List Ev} (hs : F.G s ∧ F.Q s₀ s) :
    wp ⟨fun _ s' _ => F.G s' ∧ F.Q s₀ s', fun _ => True⟩ (attach_residency K key record residency)
      (fun r s' _ => (s'.residencies r).slots = residency.slots ∧ F.G s' ∧ F.Q s₀ s') s t := by
  refine wp_seq (mark_source_pending_moves.later hs) fun _ s₁ t₁ h₁ => ?_
  refine wp_bind.mpr (wp_read.mpr (wp_bind.mpr (wp_act.mpr (wp_bind.mpr (wp_change.mpr
    (wp_pure.mpr ⟨?_, F.next h₁ (F.attach hp hx)⟩))))))
  dsimp only
  rw [Function.update_self]

/-- A residency over slots that were allocated. -/
theorem attach_residency_moves (hp : K.cfg.local_dram.isSome) {key : BlockKey} {record : RecId}
    {residency : LocalDramResidency} (hx : residency.Described K.cfg F.P) :
    Moves F.R (attach_residency K key record residency) :=
  .of_good fun s _ hs => wp_mono (attach_residency_later hp hx ⟨hs, F.refl s⟩) fun _ _ _ h => h.2

/-- What a plan writes to is memory of the pools. -/
def CopyPlan.Described (cfg : Config) (P : String → Nat → Prop) (plan : CopyPlan) : Prop :=
  Destinations cfg P plan.indices plan.dst

/-- A planned copy writes into slots of the residency, which the indices name. -/
theorem plan_copy_later {op_id : OpId} {key : BlockKey} {r : ResId} {indices : List Nat}
    {src : List TransferRef} {plan : CopyPlan} (hplan : plan.Described K.cfg F.P) {s₀ s : Core}
    {t : List Ev} (hs : F.G s ∧ F.Q s₀ s)
    (hindices : ∀ i ∈ indices, i < (s.residencies r).slots.length) :
    wp ⟨fun _ s' _ => F.G s' ∧ F.Q s₀ s', fun _ => True⟩ (plan_copy K op_id key r indices src plan)
      (fun plan s' _ => plan.Described K.cfg F.P ∧ F.G s' ∧ F.Q s₀ s') s t := by
  refine wp_bind.mpr (wp_act.mpr (wp_bind.mpr (wp_modify_residency.mpr (wp_bind.mpr (wp_change.mpr
    (wp_bind.mpr (wp_read.mpr (wp_pure.mpr ⟨?_, ?_⟩))))))))
  · refine hplan.concat (by rw [List.length_map]) ?_
    dsimp only [Core.set_residency]
    rw [Function.update_self]
    exact (hs.1.residencies r).descriptors hindices
  · have hcounted : F.R s (s.set_residency r { s.residencies r with
        claim_count := (s.residencies r).claim_count + 1
        pending_deposits := (s.residencies r).pending_deposits + 1 }) :=
      F.residency fun hx => hx.congr rfl rfl rfl
    exact F.next (F.next hs hcounted) (F.plain rfl rfl)

/-- A deposit into a residency that is there copies the pieces still missing, and claims it. -/
theorem deposit_pieces_gives {op_id : OpId} {key : BlockKey} {r : ResId}
    {sources : List TransferRef} {plan : CopyPlan} (hplan : plan.Described K.cfg F.P) :
    Gives F.G F.Q (CopyPlan.Described K.cfg F.P) (deposit_pieces K op_id key r sources plan) := by
  have hset (entry : OpEntryResult) : Gives F.G F.Q (CopyPlan.Described K.cfg F.P) (do
      set_result op_id key entry
      pure plan) := .after set_result_moves fun _ => .pure hplan
  refine .after (modify_residency_moves fun _ hx => hx.with_label_index) fun _ s t hs =>
    wp_bind.mpr (wp_read.mpr ?_)
  dsimp only
  split
  · exact hset _ s t hs
  · next indices hnamed =>
    have hlt := (hs.residencies r).named_lt hnamed
    refine wp_ite.mpr ⟨fun _ => Gives.after act_moves (fun _ => ?_) s t hs, fun _ => ?_⟩
    · exact .ite (fun _ => .after new_public_claim_moves fun entry => hset entry) fun _ => hset _
    · split
      · exact Gives.raise s t hs
      · refine wp_ite.mpr ⟨fun _ => Gives.pure hplan s t hs, fun _ => ?_⟩
        refine wp_bind.mpr (wp_remove_evictable.mpr (wp_bind.mpr (wp_modify_residency.mpr ?_)))
        have hunranked : F.R s (s.unranked key r) := F.plain rfl rfl
        refine plan_copy_later hplan (F.next (F.next ⟨hs, F.refl s⟩ hunranked)
          (F.residency fun hx => hx.congr rfl rfl rfl)) fun i hi => ?_
        dsimp only [Core.set_residency]
        rw [Function.update_self]
        exact hlt i (List.mem_of_mem_filter hi)

/-- A deposit of a new block: the policy admits it, slots are allocated, and the copy fills all
of them. -/
theorem deposit_new_gives (hK : Tied K F) (hp : K.cfg.local_dram.isSome) {op_id : OpId}
    {key : BlockKey} {record : RecId} {sources : List TransferRef} {plan : CopyPlan}
    (hplan : plan.Described K.cfg F.P) :
    Gives F.G F.Q (CopyPlan.Described K.cfg F.P)
      (deposit_new K op_id key record sources plan) := by
  refine .read fun s _ => .after ask_moves fun answer =>
    .ite (fun _ => .after set_result_moves fun _ => .pure hplan) fun _ =>
      .bind (allocate_slots_gives hK) fun allocation hslots => ?_
  dsimp only
  split
  · refine .ite (fun _ => .after (enqueue_capacity_waiter_moves hp) fun _ => .pure hplan)
      fun _ => ?_
    exact .after set_result_moves fun _ => .pure hplan
  · next locations hlocations =>
    intro s t hs
    refine wp_seq (attach_residency_later hp (LocalDramResidency.described_filling
      (hslots locations hlocations)) ⟨hs, F.refl s⟩) fun r s₁ t₁ h₁ => ?_
    have hplan' : CopyPlan.Described K.cfg F.P
        { plan with evicted := plan.evicted ++ allocation.2.1 } := hplan
    refine wp_ite.mpr ⟨fun _ => plan_copy_later hplan' h₁.2 fun i hi => ?_,
      fun _ => (deposit_pieces_gives hplan').later h₁.2⟩
    rw [h₁.1]
    exact List.mem_range.mp hi

/-- One key of a deposit adds to the plan or gets its result. -/
theorem start_deposit_gives (hK : Tied K F) (hp : K.cfg.local_dram.isSome) {op_id : OpId}
    {plan : CopyPlan} {key : BlockKey} (hplan : plan.Described K.cfg F.P) :
    Gives F.G F.Q (CopyPlan.Described K.cfg F.P) (start_deposit K op_id plan key) := by
  refine .read fun s _ => .ite (fun _ => .pure hplan) fun _ => .after clock_moves fun now =>
    .ite (fun _ => .after set_result_moves fun _ => .pure hplan) fun _ => ?_
  split
  · exact .raise
  · refine .after block_record_moves fun record => .read fun s _ => ?_
    split
    · exact deposit_new_gives hK hp hplan
    · exact .ite (fun _ => .after set_result_moves fun _ => .pure hplan) fun _ =>
        deposit_pieces_gives hplan

/-- A copy is submitted if what it writes to is memory of the pools. -/
theorem submit_copy_moves {op : LocalCopyOp} (hop : op.Described K.cfg F.P) :
    Moves F.R (submit_copy K op) :=
  .bind (submit_moves fun _ => F.submit_copy hop) fun _ => .change fun _ => F.take_handle

/-- The plan is built key by key and submitted as one copy. -/
theorem start_deposits_moves (hK : Tied K F) (hp : K.cfg.local_dram.isSome) {op_id : OpId}
    {keys : List BlockKey} : Moves F.R (start_deposits K op_id keys) := by
  refine .using (Gives.foldEach (P := CopyPlan.Described K.cfg F.P) Destinations.nil
    fun plan key hplan => start_deposit_gives hK hp hplan) fun plan hplan =>
    .bind update_capacity_pressure_moves fun _ => .bind publish_inventory_moves fun _ =>
    .bind (finish_residency_if_ready_moves hK) fun _ => ?_
  exact .ite .pure (.bind .read fun _ => submit_copy_moves fun _ => hplan)

/-- A new operation with its dependencies. -/
theorem register_residency_op_moves {op : PendingResidencyOp} :
    Moves F.R (register_residency_op K op) :=
  .bind modify_op_moves fun _ => .bind (.change fun _ => F.plain rfl rfl) fun _ =>
    add_block_dependencies_moves

/-- The local tier's part of a deposit. -/
theorem local_deposit_moves (hK : Tied K F) (hp : K.cfg.local_dram.isSome) {op_handle : OpHandle}
    {blocks : Dict BlockKey (List TransferRef)} {no_evict : Bool}
    {key_layout : Option (List Label)} :
    Moves F.R (local_deposit K op_handle blocks no_evict key_layout) :=
  .ite complete_moves (.bind operation_deadline_moves fun _ =>
    .bind register_residency_op_moves fun _ => start_deposits_moves hK hp)

/-- Slots for a block that is to be filled from disk or from a peer. -/
theorem reserve_fill_moves (hK : Tied K F) (hp : K.cfg.local_dram.isSome) {key : BlockKey}
    {op_id : OpId} {source : CacheTier} : Moves F.R (reserve_fill K key op_id source) := by
  refine .bind block_record_moves fun record => .bind .read fun s => .bind ask_moves fun answer =>
    .ite .pure (.using (allocate_slots_gives hK) fun allocation hslots => ?_)
  dsimp only
  split
  · exact .bind update_capacity_pressure_moves fun _ => .bind publish_inventory_moves fun _ =>
      .pure
  · next locations hlocations =>
    exact .bind (attach_residency_moves hp (LocalDramResidency.described_filling
      (hslots locations hlocations))) fun _ => .bind update_capacity_pressure_moves fun _ =>
      .bind publish_inventory_moves fun _ => .pure

/-- A fetch claims a residency once. -/
theorem claim_for_fetch_moves {cfg : Config} {F : Frame cfg} {op_id : OpId} {key : BlockKey}
    {r : ResId} :
    Moves F.R (claim_for_fetch op_id key r) :=
  .bind .read fun _ => .ite .pure (.bind acquire_claim_moves fun _ => .bind act_moves fun _ =>
    modify_op_moves)

/-- The references a fetch is to be filled through are to the pools. -/
def OwnFill (cfg : Config) (P : String → Nat → Prop) (refs : Option (List TransferRef)) : Prop :=
  ∀ fill, refs = some fill → ∀ ref ∈ fill, Own cfg P ref

theorem own_fill_none {cfg : Config} {P : String → Nat → Prop} : OwnFill cfg P none :=
  fun _ h => (by cases h)

/-- A fetch of a residency that is there: a claim for the caller if it is complete, otherwise the
pieces that are to be filled. -/
theorem fetch_from_residency_gives {op_id : OpId} {key : BlockKey} {r : ResId}
    {source : Option CacheTier} :
    Gives F.G F.Q (OwnFill K.cfg F.P) (fetch_from_residency K op_id key r source) := by
  refine .after (modify_residency_moves fun _ hx => hx.with_label_index) fun _ =>
    .read fun s hs => ?_
  dsimp only
  split
  · exact .after set_result_moves fun _ => .pure own_fill_none
  · next indices hnamed =>
    have hlt := (hs.residencies r).named_lt hnamed
    refine .ite (fun _ => ?_) fun _ => .after claim_for_fetch_moves fun _ =>
      .ite (fun _ => .pure own_fill_none) fun _ => ?_
    · exact .after record_access_moves fun _ => .after act_moves fun _ =>
        .after new_public_claim_moves fun _ => .after set_result_moves fun _ =>
        .pure own_fill_none
    · split
      · exact .raise
      · refine .ite (fun _ => .pure own_fill_none) fun _ => .after remove_evictable_moves fun _ =>
          .after act_moves fun _ =>
          .after (modify_residency_moves fun _ hx => hx.congr rfl rfl rfl) fun _ =>
          .after modify_op_moves fun _ => .pure fun fill hfill => ?_
        cases hfill
        exact (hs.residencies r).descriptors fun i hi => hlt i (List.mem_of_mem_filter hi)

/-- One key of a fetch. Where slots are short the operation waits, or the key fails. -/
theorem prepare_fetch_gives (hK : Tied K F) (hp : K.cfg.local_dram.isSome) {op_id : OpId}
    {key : BlockKey} : Gives F.G F.Q (OwnFill K.cfg F.P) (prepare_fetch K op_id key) := by
  have hfail : Gives F.G F.Q (OwnFill K.cfg F.P) (do
      set_result op_id key FAILED_RESULT
      pure (none : Option (List TransferRef))) :=
    .after set_result_moves fun _ => .pure own_fill_none
  have hwait : Gives F.G F.Q (OwnFill K.cfg F.P) (do
      enqueue_capacity_waiter op_id key
      pure (none : Option (List TransferRef))) :=
    .after (enqueue_capacity_waiter_moves hp) fun _ => .pure own_fill_none
  refine .after block_record_moves fun record => .read fun s _ => .after clock_moves fun now =>
    .ite (fun _ => hfail) fun _ => ?_
  dsimp only
  split
  · refine .ite (fun _ => .ite (fun _ => hwait) fun _ => hfail) fun _ =>
      .ite (fun _ => hfail) fun _ => fetch_from_residency_gives
  · split
    · exact hfail
    · refine .after (reserve_fill_moves hK hp) fun reserved =>
        .ite (fun _ => .ite (fun _ => hwait) fun _ => hfail) fun _ => .read fun s _ => ?_
      split
      · exact .raise
      · exact fetch_from_residency_gives

theorem each_ref_empty {p : TransferRef → Prop} : EachRef p Dict.empty :=
  fun _ h => absurd h List.not_mem_nil

/-- A table with one more entry. -/
theorem EachRef.set {p : TransferRef → Prop} {blocks : Dict BlockKey (List TransferRef)}
    (h : EachRef p blocks) {key : BlockKey} {refs : List TransferRef}
    (hrefs : ∀ ref ∈ refs, p ref) :
    EachRef p (blocks.set key refs) := by
  intro other hother
  rcases Dict.mem_values_set hother with rfl | hother
  · exact hrefs
  · exact h other hother

/-- A table of some of the entries. -/
theorem EachRef.part {p : TransferRef → Prop} {blocks : Dict BlockKey (List TransferRef)}
    (h : EachRef p blocks) (keep : BlockKey × List TransferRef → Bool) :
    EachRef p ((blocks.entries.filter keep).foldl (fun d q => d.set q.1 q.2) Dict.empty) := by
  have hall : ∀ q ∈ blocks.entries.filter keep, ∀ ref ∈ q.2, p ref := fun q hq =>
    h q.2 (List.mem_map_of_mem (List.mem_of_mem_filter hq))
  generalize blocks.entries.filter keep = entries at hall
  have hfold (d : Dict BlockKey (List TransferRef)) (hd : EachRef p d) :
      EachRef p (entries.foldl (fun d q => d.set q.1 q.2) d) := by
    induction entries generalizing d with
    | nil => exact hd
    | cons q entries ih =>
      exact ih (fun q' hq' => hall q' (List.mem_cons_of_mem q hq')) _
        (hd.set (hall q List.mem_cons_self))
  exact hfold _ each_ref_empty

/-- The local tier's part of a fetch collects what the other tiers have to fill. -/
theorem local_fetch_gives (hK : Tied K F) (hp : K.cfg.local_dram.isSome) {op_handle : OpHandle}
    {keys : List BlockKey} {sources : Dict BlockKey CacheTier} {request_id : Option RequestId}
    {deadline : Time} {layout : List Label} :
    Gives F.G F.Q (EachRef (Own K.cfg F.P))
      (local_fetch K op_handle keys sources request_id deadline layout) := by
  refine .ite (fun _ => .after complete_moves fun _ => .pure each_ref_empty) fun _ =>
    .after register_residency_op_moves fun _ => .bind (.foldEach each_ref_empty
      fun destinations key hown => .bind (prepare_fetch_gives hK hp) fun refs hrefs => ?_)
      fun destinations hown =>
      .after (finish_residency_if_ready_moves hK) fun _ => .pure hown
  cases refs with
  | none => exact .pure hown
  | some refs => exact .pure (hown.set (hrefs refs rfl))

/-- A fetch that waited is prepared again, and its fill is started. -/
theorem resolve_fetch_waiter_moves (hK : Tied K F) (hp : K.cfg.local_dram.isSome) {key : BlockKey}
    {op_id : OpId} : Moves F.R (resolve_fetch_waiter K key op_id) := by
  refine .using (prepare_fetch_gives hK hp) fun refs hrefs => ?_
  cases refs with
  | none => exact .bind .read fun _ => .pure
  | some refs =>
    refine .bind .read fun s => ?_
    dsimp only
    split
    · exact .bind .raise fun _ => .bind .read fun _ => .pure
    · exact .bind (start_local_fill_moves hK (each_ref_empty.set (hrefs refs rfl))) fun _ =>
        .bind .read fun _ => .pure

/-- One key of a delivery: its source is claimed, and what is ready is added to the plan. -/
theorem start_delivery_moves {op_id : OpId} {now : Time} {plan : DeliveryPlan}
    {key : BlockKey} : Moves F.R (start_delivery K op_id now plan key) := by
  have hfail : Moves F.R (do
      set_deliver_result op_id key FAILED_RESULT
      pure plan) := .bind set_deliver_result_moves fun _ => .pure
  refine .bind .read fun s => .ite .pure ?_
  split
  · exact hfail
  · refine .ite hfail (.bind (modify_residency_moves fun _ hx => hx.with_label_index) fun _ =>
      .bind .read fun s => .ite hfail ?_)
    refine have hrest := ?_; .ite hrest (.bind acquire_claim_moves fun _ =>
      .bind modify_deliver_op_moves fun _ => hrest)
    dsimp only
    split
    · exact .pure
    · exact .bind act_moves fun _ => .bind modify_deliver_op_moves fun _ => .pure

/-- A delivery copies out of the pools, so nothing is asked of what it writes to. -/
theorem start_deliveries_moves (hK : Tied K F) {op_id : OpId} {keys : List BlockKey} :
    Moves F.R (start_deliveries K op_id keys) := by
  refine .bind clock_moves fun now => .bind (.foldEach fun _ _ => start_delivery_moves) fun plan =>
    .bind update_capacity_pressure_moves fun _ => ?_
  refine .ite (finish_deliver_if_ready_moves hK) (.bind .read fun s => ?_)
  exact .bind (submit_copy_moves fun h => (by cases h)) fun _ => finish_deliver_if_ready_moves hK

/-- The local tier's part of a delivery. -/
theorem local_deliver_moves (hK : Tied K F) {op_handle : OpHandle}
    {blocks : Dict BlockKey (List TransferRef)} {deadline : Time} :
    Moves F.R (local_deliver K op_handle blocks deadline) :=
  .bind modify_deliver_op_moves fun _ => .bind (.change fun _ => F.plain rfl rfl) fun _ =>
    .bind add_block_dependencies_moves fun _ => start_deliveries_moves hK

/-- Every key of a finished delivery gives up its claim and gets its result. -/
theorem finish_delivery_copy_moves (hK : Tied K F) {copy : LocalCopyOp} {op_id : OpId} :
    Moves F.R (finish_delivery_copy K copy op_id) := by
  refine .bind .read fun s => .bind (.forEach fun key => .bind .read fun s => ?_) fun _ =>
    .bind update_capacity_pressure_moves fun _ =>
    .ite (finish_deliver_if_ready_moves hK) .pure
  split
  · exact .raise
  · refine .ite .raise ?_
    refine .if_then record_access_moves ?_
    refine .bind (release_claim_moves hK) fun _ => .ite ?_ .pure
    exact .bind act_moves fun _ => modify_deliver_op_moves

/-- What a commit publishes is as long as the pieces it has written. -/
theorem commit_pieces_moves {key : BlockKey} {record : RecId} {r : ResId} {indices : List Nat}
    {source : CacheTier} {refs : Option (List TransferRef)} {deposit cancelled : Bool}
    {now : Time} {acc : FillAcc}
    (hrefs : ∀ given, refs = some given → given.length = indices.length ∧
      ∀ ref ∈ given, Own K.cfg F.P ref) :
    Moves F.R (commit_pieces K key record r indices source refs deposit cancelled now acc) := by
  refine .of_good fun s t hs => wp_bind.mpr (wp_read.mpr ?_)
  refine wp_ite.mpr ⟨fun _ => ?_, fun _ => wp_pure.mpr ⟨hs, F.refl s⟩⟩
  refine wp_bind.mpr (wp_act.mpr (wp_bind.mpr (wp_modify_residency.mpr ?_)))
  have hready (pending : OrderedSet Label) : F.R s (s.set_residency r
      ({ s.residencies r with pending_labels := pending, state := .READY }).with_label_index) := by
    refine F.residency fun hx => .with_label_index ?_
    exact hx.congr rfl rfl rfl
  refine wp_seq (publish_source_later (F.next ⟨hs, F.refl s⟩ (hready _)) fun given hgiven => ?_)
    fun _ s₁ t₁ h₁ => ?_
  · by_cases hfull : indices = List.range (s.residencies r).slots.length
    · rw [if_pos (decide_eq_true hfull)] at hgiven
      obtain ⟨hlength, hown⟩ := hrefs given hgiven
      refine ⟨?_, hown⟩
      dsimp only [Core.set_residency]
      rw [Function.update_self, LocalDramResidency.with_label_index_slots, hlength, hfull,
        List.length_range]
    · rw [if_neg (by simpa using hfull)] at hgiven
      cases hgiven
  · refine wp_seq (Moves.later (modify_rec_moves (f := fun rec =>
      { rec with last_access := some now })
      (fun _ => rfl) (fun _ => rfl) fun _ h => h) h₁)
      fun _ s₂ t₂ h₂ => wp_bind.mpr (wp_read.mpr (Moves.later ?_ h₂))
    refine .unless_then on_ingest_moves ?_
    exact .ite (.bind residency_observer_moves fun _ => .pure) .pure

/-- The operation that wrote the pieces gets its result, with a claim for the caller if it asked
for one. -/
theorem resolve_writer_moves {writer : OpId} {key : BlockKey} {r : ResId} {indices : List Nat}
    {key_success : Bool} {acc : FillAcc} :
    Moves F.R (resolve_writer K writer key r indices key_success acc) := by
  have hset (entry : OpEntryResult) (acc : FillAcc) : Moves F.R (do
      set_result writer key entry
      pure acc) := .bind set_result_moves fun _ => .pure
  refine .bind .read fun s => .ite .pure (.ite (.bind act_moves fun _ => ?_) (hset _ _))
  exact .ite (.bind new_public_claim_moves fun _ => hset _ _) (hset _ _)

/-- The operations that wait for a fill of the key get its result. -/
theorem resolve_fillers_moves {key : BlockKey} {record : RecId} {key_success : Bool}
    {acc : FillAcc} : Moves F.R (resolve_fillers K key record key_success acc) := by
  refine .bind active_op_ids_moves fun op_ids => .foldEach fun acc op_id => .bind .read fun s =>
    .ite (.bind modify_op_moves fun _ => ?_) .pure
  exact .ite .pure (.bind set_result_moves fun _ => .pure)

/-- Fetches that wait for the key are prepared again. Deposits and deliveries are noted for
another start, except that a delivery of a block that is gone fails. -/
theorem resolve_waiters_moves (hK : Tied K F) (hp : K.cfg.local_dram.isSome) {key : BlockKey}
    {record : RecId}
    {writer : Option OpId} {acc : FillAcc} :
    Moves F.R (resolve_waiters K key record writer acc) := by
  refine .bind active_op_ids_moves fun op_ids => .foldEach fun acc op_id =>
    .ite .pure (.bind .read fun s => .ite (.ite .pure ?_) (.ite ?_ .pure))
  · exact .bind (resolve_fetch_waiter_moves hK hp) fun _ => .ite .pure .pure
  · exact .ite .pure (.bind set_deliver_result_moves fun _ => .pure)

/-- The pieces that were written have no writer any longer. -/
theorem drop_writers_moves {cfg : Config} {F : Frame cfg} {r : ResId} {indices : List Nat} :
    Moves F.R (drop_writers r indices) := by
  refine .bind .read fun s => ?_
  split
  · exact .raise
  · exact .ite .raise (modify_residency_moves fun _ hx => hx.congr rfl rfl rfl)

/-- The writer, or the fill, has no part in the residency any longer. -/
theorem drop_writer_moves {cfg : Config} {F : Frame cfg} {writer : Option OpId} {key : BlockKey}
    {r : ResId} :
    Moves F.R (drop_writer writer key r) := by
  unfold drop_writer
  split
  · exact .bind .read fun _ =>
      .ite (.bind modify_op_moves fun _ =>
        modify_residency_moves fun _ hx => hx.congr rfl rfl rfl) .raise
  · exact (modify_residency_moves fun _ hx => hx.congr rfl rfl rfl)

/-- One key of a finished fill: its pieces are committed or not, and everybody who waited for
them is told. -/
theorem apply_fill_key_moves (hK : Tied K F) (hp : K.cfg.local_dram.isSome) {success : Bool}
    {source : CacheTier} {writer : Option OpId} {now : Time} {acc : FillAcc} {key : BlockKey}
    {indices : List Nat} {refs : Option (List TransferRef)}
    (hrefs : ∀ given, refs = some given → given.length = indices.length ∧
      ∀ ref ∈ given, Own K.cfg F.P ref) :
    Moves F.R (apply_fill_key K success source writer now acc key indices refs) := by
  unfold apply_fill_key
  refine .bind .read fun s => ?_
  split
  · exact .raise
  · split
    · exact .raise
    · refine .bind drop_writers_moves fun _ => .bind drop_writer_moves fun _ => ?_
      refine .ite_then (fun _ => commit_pieces_moves hrefs) .pure fun acc => ?_
      refine .bind (modify_residency_moves fun _ hx => hx.settle) fun _ => ?_
      split
      · refine .bind resolve_writer_moves fun acc => .bind (release_claim_moves hK) fun _ => ?_
        exact .bind .read fun s => resolve_waiters_moves hK hp
      · refine .bind resolve_fillers_moves fun acc => .bind (release_claim_moves hK) fun _ => ?_
        exact .bind .read fun s => resolve_waiters_moves hK hp

/-- From `start` on, the destinations that are left are those of the fills that are left. -/
theorem apply_fill_loop_moves (hK : Tied K F) (hp : K.cfg.local_dram.isSome) {success : Bool}
    {source : CacheTier} {writer : Option OpId} {now : Time} {dst_descriptors : List TransferRef}
    {fills : List (BlockKey × List Nat)} {start : Nat} {acc : FillAcc}
    (hlength : dst_descriptors ≠ [] →
      start + ((fills.map Prod.snd).map List.length).sum ≤ dst_descriptors.length)
    (hown : ∀ ref ∈ dst_descriptors, Own K.cfg F.P ref) :
    Moves F.R (apply_fill_loop K success source writer now dst_descriptors fills start acc) := by
  induction fills generalizing start acc with
  | nil => exact .pure
  | cons fill rest ih =>
    unfold apply_fill_loop
    refine .bind (apply_fill_key_moves hK hp fun given hgiven => ?_) fun acc =>
      ih fun hne => ?_
    · by_cases hne : dst_descriptors = []
      · rw [if_pos hne] at hgiven
        cases hgiven
      · rw [if_neg hne] at hgiven
        cases hgiven
        have hle := hlength hne
        rw [List.map_cons, List.map_cons, List.sum_cons] at hle
        refine ⟨?_, fun ref href => hown ref (List.mem_of_mem_drop (List.mem_of_mem_take href))⟩
        rw [List.length_take, List.length_drop]
        omega
    · have hle := hlength hne
      rw [List.map_cons, List.map_cons, List.sum_cons] at hle
      omega

/-- Cutting a list of index lists short makes the sum smaller. -/
theorem sum_zip_le (keys : List BlockKey) (indices : List (List Nat)) :
    (((keys.zip indices).map Prod.snd).map List.length).sum ≤ (indices.map List.length).sum := by
  induction keys generalizing indices with
  | nil => exact Nat.zero_le _
  | cons key keys ih =>
    cases indices with
    | nil => exact Nat.zero_le _
    | cons pieces indices =>
      rw [List.zip_cons_cons, List.map_cons, List.map_cons, List.sum_cons, List.map_cons,
        List.sum_cons]
      exact Nat.add_le_add_left (ih indices) _

/-- After all keys, the operations that were touched are finished or started again, and waiters
for memory go on. -/
theorem apply_fill_result_moves (hK : Tied K F) (hp : K.cfg.local_dram.isSome)
    {ordered_keys : List BlockKey} {local_indices : List (List Nat)} {success : Bool}
    {source : CacheTier} {writer : Option OpId} {dst_descriptors : List TransferRef}
    (hdst : dst_descriptors ≠ [] → Destinations K.cfg F.P local_indices dst_descriptors) :
    Moves F.R (apply_fill_result K ordered_keys local_indices success source writer
      dst_descriptors) := by
  have hloop (now : Time) (acc : FillAcc) : Moves F.R (apply_fill_loop K success source writer now
      dst_descriptors (ordered_keys.zip local_indices) 0 acc) := by
    refine apply_fill_loop_moves hK hp (fun hne => ?_) fun ref href => ?_
    · rw [(hdst hne).length, Nat.zero_add]
      exact sum_zip_le ordered_keys local_indices
    · exact (hdst (List.ne_nil_of_mem href)).own ref href
  refine .bind clock_moves fun now => .bind (hloop now _) fun acc =>
    .bind update_capacity_pressure_moves fun _ => .bind publish_inventory_moves fun _ =>
    .bind (.forEach fun _ => finish_residency_if_ready_moves hK) fun _ =>
    .bind (.forEach fun _ => ?_) fun _ =>
    .bind (.forEach fun _ => start_deliveries_moves hK) fun _ =>
    .bind (.forEach fun _ => prune_block_record_moves) fun _ => hK.resume
  exact .bind .read fun _ => .ite (start_deposits_moves hK hp) .pure

/-- A question about the state; a key without a residency raises. -/
theorem fill_indices_moves {cfg : Config} {F : Frame cfg} {s : Core} {keys : List BlockKey} :
    Moves F.R (fill_indices s keys) := by
  induction keys with
  | nil => exact .pure
  | cons key keys ih =>
    unfold fill_indices
    split
    · exact .raise
    · exact .bind ih fun _ => .pure

/-- The result of a fill of nothing. -/
theorem apply_fill_result_nil_moves (hK : Tied K F) {success : Bool} {source : CacheTier}
    {writer : Option OpId} {dst_descriptors : List TransferRef} :
    Moves F.R (apply_fill_result K [] [] success source writer dst_descriptors) := by
  refine .bind clock_moves fun now => .pure_bind ?_
  exact .bind update_capacity_pressure_moves fun _ => .bind publish_inventory_moves fun _ =>
    .pure_bind (.pure_bind (.pure_bind (.pure_bind hK.resume)))

/-- Without pools there is nothing a fill could be for. -/
theorem complete_fill_moves (hK : Tied K F) {keys : List BlockKey} {success : Bool} :
    Moves F.R (complete_fill K keys success) := by
  by_cases hp : K.cfg.local_dram.isSome
  · exact .bind .read fun _ => .bind fill_indices_moves fun _ =>
      apply_fill_result_moves hK hp fun h => absurd rfl h
  · cases keys with
    | nil => exact .bind .read fun _ => .pure_bind (apply_fill_result_nil_moves hK)
    | cons key keys =>
      refine .of_good fun s t hs => wp_bind.mpr (wp_read.mpr ?_)
      have hpoolless := hs.fit.pools (Option.not_isSome_iff_eq_none.mp hp)
      have hnone : s.local_dram key = none :=
        Option.bind_eq_none_iff.mpr fun record _ => hpoolless.records record
      have hraise : fill_indices s (key :: keys) =
          raise (.runtime_error "local DRAM fill state lost") := by
        rw [fill_indices, hnone]
        rfl
      rw [hraise]
      exact wp_bind.mpr (wp_raise.mpr ⟨hs, F.refl s⟩)

/-- A copy whose outcome is unknown fails its operation and keeps its slots. The other copies are
deposits, whose pieces are committed, and deliveries. -/
theorem finish_copy_moves (hK : Tied K F) (hp : K.cfg.local_dram.isSome) {copy : LocalCopyOp}
    (hcopy : copy.Described K.cfg F.P) :
    Moves F.R (finish_copy K copy) := by
  unfold finish_copy
  refine .ite ?_ ?_
  · split
    · exact .bind (.forEach fun _ => set_result_moves) fun _ => finish_residency_if_ready_moves hK
    · exact .bind .read fun _ => .ite (.bind (.forEach fun _ => set_deliver_result_moves) fun _ =>
        finish_deliver_if_ready_moves hK) .raise
    · exact .raise
  · split
    · exact finish_delivery_copy_moves hK
    · next hdeposit =>
      refine apply_fill_result_moves hK hp fun hne => ?_
      by_cases hcontrol : K.cfg.framework_control = true
      · rw [if_pos hcontrol]
        exact hcopy hdeposit
      · rw [if_neg hcontrol] at hne
        exact absurd rfl hne

/-- Every operation on the key fails for it. -/
theorem discard_ops_moves {cfg : Config} {F : Frame cfg} {key : BlockKey} {r : ResId}
    {op_ids : List OpId}
    {acc : OrderedSet OpId × OrderedSet OpId} :
    Moves F.R (discard_ops key r op_ids acc) := by
  refine .foldEach fun acc op_id => .bind .read fun s => ?_
  refine have hrest := ?_; .ite (.bind set_result_moves fun _ => .bind .pure hrest)
    (.bind .pure hrest)
  intro residency_ops
  exact .ite (.bind set_deliver_result_moves fun _ => .bind .pure fun _ => .pure)
    (.bind .pure fun _ => .pure)

/-- A fill nobody may use any longer is marked, under the lock if nothing of it can be kept. -/
theorem discard_key_moves {acc : OrderedSet OpId × OrderedSet OpId} {key : BlockKey} :
    Moves F.R (discard_key K acc key) := by
  unfold discard_key
  refine .bind .read fun s => ?_
  split
  · exact .raise
  · split
    · exact .raise
    · refine .ite .raise ?_
      refine have hrest := ?_; .ite (.bind lock_moves fun _ =>
        .if_then (.change fun _ => F.plain rfl rfl)
          (.bind (modify_residency_moves fun _ hx => hx.congr rfl rfl rfl) fun _ => hrest)) hrest
      refine .if_then (modify_residency_moves fun _ hx => hx.congr rfl rfl rfl) ?_
      exact .bind active_op_ids_moves fun _ => discard_ops_moves

/-- The operations that failed with the fill are finished. -/
theorem discard_fill_moves (hK : Tied K F) {keys : List BlockKey} :
    Moves F.R (discard_fill K keys) :=
  .bind visit_moves fun _ => .bind (.foldEach fun _ _ => discard_key_moves) fun _ =>
    .bind (.forEach fun _ => finish_residency_if_ready_moves hK) fun _ =>
    .forEach fun _ => finish_deliver_if_ready_moves hK

/-- An operation past its deadline fails for the keys it has no result for. If it was filling,
the fill is discarded. -/
theorem expire_residency_op_moves (hK : Tied K F) {now : Time} {op_id : OpId} :
    Moves F.R (expire_residency_op K now op_id) := by
  refine .bind .read fun s => .ite .pure (.ite ?_ ?_)
  · exact .bind visit_moves fun _ => .bind (.forEach fun _ => set_result_moves) fun _ =>
      .ite (finish_residency_if_ready_moves hK) (discard_fill_moves hK)
  · refine .bind visit_moves fun _ => .bind (.forEach fun key => .bind .read fun s =>
      .ite .pure ?_) fun _ => finish_residency_if_ready_moves hK
    exact .bind modify_op_moves fun _ => set_result_moves

/-- A delivery past its deadline fails for the keys it has no result for. -/
theorem expire_deliver_op_moves (hK : Tied K F) {now : Time} {op_id : OpId} :
    Moves F.R (expire_deliver_op K now op_id) :=
  .bind .read fun _ => .ite .pure (.bind visit_moves fun _ =>
    .bind (.forEach fun _ => set_deliver_result_moves) fun _ => finish_deliver_if_ready_moves hK)

/-- The deadlines of one poll. -/
theorem expire_pending_ops_moves (hK : Tied K F) {now : Time} :
    Moves F.R (expire_pending_ops K now) :=
  .bind .read fun _ => .bind (.forEach fun _ => expire_residency_op_moves hK) fun _ =>
    .bind .read fun _ => .forEach fun _ => expire_deliver_op_moves hK

/-- The local tier's part of a poll: finished reads, finished copies, deadlines. -/
theorem local_poll_main_moves (hK : Tied K F) (hp : K.cfg.local_dram.isSome) {items : List Item}
    (hitems : ∀ copy, .op (.local_copy copy) ∈ items → copy.Described K.cfg F.P) :
    Moves F.R (local_poll_main K items) := by
  refine .bind (drain_source_completions_moves hK) fun _ =>
    .bind update_capacity_pressure_moves fun _ =>
      .bind (.foldEach_mem fun unhandled item hitem => ?_)
      fun unhandled => .bind clock_moves fun now =>
    .bind (expire_pending_ops_moves hK) fun _ => .pure
  split
  · next copy => exact .bind (finish_copy_moves hK hp (hitems copy hitem)) fun _ => .pure
  · exact .pure

theorem pop_waiter_moves {cfg : Config} {F : Frame cfg} (hp : cfg.local_dram.isSome) :
    Moves F.R pop_waiter := .change fun _ => F.waiters hp

theorem forget_waiter_moves {cfg : Config} {F : Frame cfg} {op_id : OpId} {key : BlockKey} :
    Moves F.R (forget_waiter op_id key) := modify_op_moves

/-- The first waiter is dropped, goes back to the queue or goes on. -/
theorem resume_waiter_moves (hK : Tied K F) (hp : K.cfg.local_dram.isSome) :
    Moves F.R (resume_waiter K) := by
  refine .bind .read fun s => ?_
  split
  · exact .raise
  · refine .ite (.bind (pop_waiter_moves hp) fun _ => .pure)
      (.ite (.bind (pop_waiter_moves hp) fun _ => .bind forget_waiter_moves fun _ => .pure)
        (.bind clock_moves fun now => .ite ?_ (.bind block_record_moves fun record =>
          .bind .read fun s => .ite ?_ (.bind (pop_waiter_moves hp) fun _ =>
            .bind forget_waiter_moves fun _ => .ite ?_ ?_))))
    · exact .bind (pop_waiter_moves hp) fun _ => .bind forget_waiter_moves fun _ =>
        .bind set_result_moves fun _ => .bind (finish_residency_if_ready_moves hK) fun _ => .pure
    · exact .bind (.change fun _ => F.waiters hp) fun _ => .pure
    · exact .bind (start_deposits_moves hK hp) fun _ => .pure
    · refine .bind (resolve_fetch_waiter_moves hK hp) fun _ => .bind .read fun s => .ite ?_ ?_
      · exact .bind (.change fun _ => F.waiters hp) fun _ => .pure
      · exact .bind (finish_residency_if_ready_moves hK) fun _ => .pure

/-- One pass over the waiters, which ends early at a fetch that has to go on waiting. -/
theorem resume_pass_moves (hK : Tied K F) (hp : K.cfg.local_dram.isSome) {n : Nat} :
    Moves F.R (resume_pass K n) := by
  induction n with
  | zero => exact .pure
  | succ n ih =>
    unfold resume_pass
    exact .bind (resume_waiter_moves hK hp) fun _ => .ite ih .pure

/-- The call is guarded against itself, and the guard is cleared on every way out. -/
theorem resume_capacity_waiters_moves (hK : Tied K F) :
    Moves F.R (resume_capacity_waiters K) := by
  refine .bind .read fun s => .ite .pure (.bind (.change fun _ => F.plain rfl rfl) fun _ =>
    .ensure ?_ (.bind (.change fun _ => F.plain rfl rfl) fun _ =>
      update_capacity_pressure_moves))
  by_cases hp : K.cfg.local_dram.isSome
  · exact .bind (drain_source_completions_moves hK) fun _ => .bind .read fun _ =>
      resume_pass_moves hK hp
  · refine .of_good fun s t hs => wp_seq ((drain_source_completions_moves hK).later
      ⟨hs, F.refl s⟩) fun _ s₁ t₁ h₁ => ?_
    -- nothing waits in a core without pools
    have hpoolless := h₁.1.fit.pools (Option.not_isSome_iff_eq_none.mp hp)
    refine wp_bind.mpr (wp_read.mpr ?_)
    rw [hpoolless.waiters]
    exact wp_pure.mpr h₁

end LocalDram

/-! ## Tying the knot -/

/-- Tying the knot does not change the configuration. -/
@[simp] theorem knot_cfg {cfg : Config} {env : Env} {fuel : Nat} :
    (knot cfg env fuel).cfg = cfg := by
  cases fuel <;> rfl

theorem knot_env {cfg : Config} {env : Env} {fuel : Nat} : (knot cfg env fuel).env = env := by
  cases fuel <;> rfl

/-- The knot is tied out of calls within the frame. -/
theorem knot_tied {cfg : Config} {env : Env} {F : Frame cfg}
    (hdisk : ∀ fuel resume fail, DiskCalls ⟨cfg, env, fuel, resume, fail⟩ F) (fuel : Nat) :
    ∃ fuel' resume fail, knot cfg env fuel = ⟨cfg, env, fuel', resume, fail⟩ ∧
      Tied ⟨cfg, env, fuel', resume, fail⟩ F := by
  induction fuel with
  | zero =>
    exact ⟨0, exhausted, fun _ => exhausted, rfl, hdisk _ _ _, .exhausted, fun _ => .exhausted⟩
  | succ n ih =>
    obtain ⟨fuel', resume, fail, heq, ih⟩ := ih
    have hresume := resume_capacity_waiters_moves ih
    have hfail (keys : List BlockKey) : Moves F.R
        (complete_fill ⟨cfg, env, fuel', resume, fail⟩ keys false) := complete_fill_moves ih
    have hnext : knot cfg env (n + 1) =
        ⟨cfg, env, n + 1, resume_capacity_waiters (knot cfg env n),
          fun keys => complete_fill (knot cfg env n) keys false⟩ := rfl
    rw [heq] at hnext
    exact ⟨_, _, _, hnext, hdisk _ _ _, hresume, hfail⟩

/-! ## Remote writes -/

section Sources

variable {K : Knot} {F : Frame K.cfg}

/-- A question about the state. -/
theorem releasing_overlaps_moves {cfg : Config} {F : Frame cfg} {s : Core} {keys : List BlockKey}
    {pins : List PinHandle} : Moves F.R (releasing_overlaps s keys pins) := by
  induction pins with
  | nil => exact .pure
  | cons pin pins ih =>
    unfold releasing_overlaps
    split
    · exact .raise
    · exact .ite .pure ih

variable [F.OpenPins]

/-- A frame that is not about pins lets the operations that hold them change. -/
theorem modify_source_pin_moves {cfg : Config} {F : Frame cfg} [F.OpenPins] {op_id : OpId}
    {f : SourcePinOp → SourcePinOp} : Moves F.R (modify_source_pin op_id f) :=
  .change fun _ => F.on_pins rfl rfl

/-- The record loses the pinned memory and is pruned if nothing else holds it. -/
theorem forget_pinned_key_moves {cfg : Config} {F : Frame cfg} [F.OpenPins]
    {pin_handle : PinHandle} {key : BlockKey} :
    Moves F.R (forget_pinned_key pin_handle key) := by
  refine .bind .read fun s => ?_
  split
  · exact .pure
  · exact .ite (.bind (.change fun _ => F.record_on_pins rfl id) fun _ =>
      prune_block_record_moves) .pure

/-- A pin nobody uses is given back. If the framework does not take it, it stays among those to
be released. -/
theorem release_framework_pin_moves {pin_handle : PinHandle} :
    Moves F.R (release_framework_pin K pin_handle) := by
  refine .bind .read fun s => .ite .pure ?_
  split
  · exact .pure
  · exact .bind (.change fun _ => F.on_pins rfl rfl) fun _ => .bind visit_moves fun _ =>
      .bind (.forEach fun _ => forget_pinned_key_moves) fun _ => .bind ask_moves fun _ =>
      .ite (.change fun _ => F.on_pins rfl rfl) .pure

/-- Pins are given back in any order. -/
theorem release_framework_pins_moves {pins : List PinHandle} :
    Moves F.R (release_framework_pins K pins) :=
  .bind visit_moves fun _ => .forEach fun _ => release_framework_pin_moves

theorem add_pin_keys_moves {cfg : Config} {F : Frame cfg} [F.OpenPins] {pin_handle : PinHandle}
    {keys : List BlockKey} :
    Moves F.R (add_pin_keys pin_handle keys) := .change fun _ => F.on_pins rfl rfl

/-- A pin that came too late is given back at once. -/
theorem discard_pin_result_moves {result : PinResult} {keys : List BlockKey} :
    Moves F.R (discard_pin_result K result keys) := by
  unfold discard_pin_result
  split
  · exact .pure
  · exact .bind add_pin_keys_moves fun _ => release_framework_pins_moves

/-- The pinned memory is noted with the record of each key. An answer that does not fit is given
back. -/
theorem install_framework_pin_moves {keys : List BlockKey} {pin_handle : PinHandle}
    {descriptors : Dict BlockKey (Option (List MemoryRef))} :
    Moves F.R (install_framework_pin K keys pin_handle descriptors) := by
  unfold install_framework_pin
  split
  · exact .bind discard_pin_result_moves fun _ => .pure
  · refine .bind add_pin_keys_moves fun _ => .bind (.forEach fun entry =>
      .bind block_record_moves fun record => .bind .read fun s => .ite .pure ?_) fun _ => .pure
    exact .bind (.change fun _ => F.record_on_pins rfl id) fun _ => add_pin_keys_moves

/-- A request that was answered is pending for no key any longer. -/
theorem remove_pending_pin_state_moves {cfg : Config} {F : Frame cfg} [F.OpenPins]
    {request : PinRequestId} :
    Moves F.R (remove_pending_pin_state request) := by
  refine .bind .read fun s => ?_
  split
  · exact .pure
  · refine .bind (.change fun _ => F.on_pins rfl rfl) fun _ => .bind (.forEach fun key =>
      .bind .read fun s => ?_) fun _ => .pure
    split
    · exact .pure
    · exact .change fun _ => F.on_pins rfl rfl

/-- An operation joins those that wait for a request. -/
theorem register_pending_pin_moves {cfg : Config} {F : Frame cfg} [F.OpenPins] {op_id : OpId}
    {request : PinRequestId} :
    Moves F.R (register_pending_pin op_id request) := by
  refine .bind .read fun s => ?_
  split
  · exact .pure
  · exact .bind (.change fun _ => F.on_pins rfl rfl) fun _ => .ite modify_source_pin_moves .pure

/-- The framework is asked to pin the keys no request is pending for. -/
theorem pin_framework_keys_moves {keys : List BlockKey} :
    Moves F.R (pin_framework_keys K keys) := by
  refine .ite .pure (.bind ask_moves fun request => ?_)
  split
  · exact .pure
  · exact .bind .read fun _ => .ite .pure
      (.bind (.change fun _ => F.on_pins rfl rfl) fun _ => .pure)

/-- An operation leaves the requests it waits for. -/
theorem cancel_pending_pin_for_op_moves {op_id : OpId} :
    Moves F.R (cancel_pending_pin_for_op K op_id) := by
  refine .bind .read fun s => .bind visit_moves fun requests => .bind (.forEach fun request =>
    .bind .read fun s => ?_) fun _ => modify_source_pin_moves
  split
  · exact .pure
  · exact .bind (.change fun _ => F.on_pins rfl rfl) fun _ =>
      .ite (.bind remove_pending_pin_state_moves fun _ => .pure) .pure

/-- What is pinned already is used, and the rest is asked for. -/
theorem acquire_framework_sources_moves {keys : List BlockKey} :
    Moves F.R (acquire_framework_sources K keys) :=
  .ite .pure (.bind .read fun _ => .ite .pure (.bind pin_framework_keys_moves fun _ => .pure))

/-- An operation gives up a key, with its dependency on the record. -/
theorem drop_source_key_moves {cfg : Config} {F : Frame cfg} [F.OpenPins] {op_id : OpId}
    {key : BlockKey} :
    Moves F.R (drop_source_key op_id key) := by
  refine .bind modify_source_pin_moves fun _ => .bind .read fun s => ?_
  split
  · exact .raise
  · exact .bind (.change fun _ => F.record_on_pins rfl id) fun _ => prune_block_record_moves

/-- A key is written from the pools, from pinned memory, or not at all. -/
theorem select_source_moves {op_id : OpId} {local_sources : Dict BlockKey ResId}
    {framework_sources : BlockKey → Option (List TransferRef)} {acc : Selection}
    {key : BlockKey} {destination : List TransferRef} {index : Nat} :
    Moves F.R
      (select_source K op_id local_sources framework_sources acc key destination index) := by
  refine .bind .read fun s => .ite .pure ?_
  dsimp only
  split
  · exact .pure
  · split
    · exact .ite .pure (.bind drop_source_key_moves fun _ => .pure)
    · split
      · exact .bind act_moves fun _ => .pure
      · exact .pure

/-- The sources are selected, those not needed are given up, and one write is submitted for the
rest. -/
theorem submit_prepared_source_write_moves (hK : Tied K F) {op_id : OpId}
    {force_failure : Bool} :
    Moves F.R (submit_prepared_source_write K op_id force_failure) := by
  refine .bind .read fun s => .bind ask_moves fun changed => .bind visit_moves fun keys =>
    .bind claim_local_dram_sources_moves fun local_sources => .bind .read fun s =>
    .bind (.foldEach fun _ _ => select_source_moves) fun selection => .bind .read fun s =>
    .bind (release_local_dram_sources_moves hK) fun _ => .bind .read fun s => .ite ?_ ?_
  · exact .bind modify_source_pin_moves fun _ => release_framework_pins_moves
  · refine .bind modify_source_pin_moves fun _ => .bind (.change fun _ => F.on_pins rfl rfl)
      fun _ => .bind remove_block_dependencies_moves fun _ =>
      .bind add_block_dependencies_moves fun _ => .bind (.change fun _ => F.on_pins rfl rfl)
      fun _ => .bind (submit_moves fun s hs => ?_) fun _ => release_framework_pins_moves
    exact ⟨hs.submit fun _ h => (by cases h), Frame.OpenPins.write hs⟩

/-- A write whose sources are not all there asks for pins once, and waits for them; past its
deadline it fails. -/
theorem resume_source_pin_moves (hK : Tied K F) {op_id : OpId} :
    Moves F.R (resume_source_pin K op_id) := by
  refine .bind .read fun s => .ite .pure (.bind clock_moves fun now =>
    .ite (submit_prepared_source_write_moves hK) (.bind visit_moves fun keys =>
      .bind claim_local_dram_sources_moves fun local_sources => .bind .read fun s =>
      .ite ?_ (submit_prepared_source_write_moves hK)))
  refine .bind releasing_overlaps_moves fun overlaps => .ite .pure
    (.bind modify_source_pin_moves fun _ => .bind acquire_framework_sources_moves fun acquired =>
      .bind modify_source_pin_moves fun _ => ?_)
  exact .ite (.forEach fun _ => register_pending_pin_moves) (submit_prepared_source_write_moves hK)

/-- A peer asks for blocks. -/
theorem start_source_pin_moves (hK : Tied K F) {op : SourcePinOp} :
    Moves F.R (start_source_pin K op) :=
  .bind modify_source_pin_moves fun _ => .bind add_block_dependencies_moves fun _ =>
    .bind (.change fun _ => F.on_pins rfl rfl) fun _ => resume_source_pin_moves hK

/-- A write past its deadline stops waiting for pins. -/
theorem expire_source_pin_moves (hK : Tied K F) {op_id : OpId} :
    Moves F.R (expire_source_pin K op_id) :=
  .bind cancel_pending_pin_for_op_moves fun _ => submit_prepared_source_write_moves hK

/-- With its last request answered an operation goes on. -/
theorem resolve_pending_source_pin_moves (hK : Tied K F) {request : PinRequestId}
    {op_id : OpId} : Moves F.R (resolve_pending_source_pin K request op_id) :=
  .bind .read fun _ => .ite .pure (.bind modify_source_pin_moves fun _ => .bind .read fun _ =>
    .ite .pure (.bind modify_source_pin_moves fun _ => .bind release_framework_pins_moves fun _ =>
      resume_source_pin_moves hK))

/-- An answer of the framework is installed for the operations that still wait and given back
otherwise. -/
theorem process_pin_result_moves (hK : Tied K F) {request : PinRequestId}
    {result : PinResult} : Moves F.R (process_pin_result K request result) := by
  have hexpire (op_id : OpId) : Moves F.R (do
      modify_source_pin op_id fun op =>
        { op with pending_pin_ids := op.pending_pin_ids.erase request }
      expire_source_pin K op_id) :=
    .bind modify_source_pin_moves fun _ => expire_source_pin_moves hK
  refine .bind remove_pending_pin_state_moves fun wait => .bind .read fun s =>
    .bind visit_moves fun ops => .ite discard_pin_result_moves (.bind clock_moves fun now =>
      .ite (.bind discard_pin_result_moves fun _ => .forEach hexpire) ?_)
  refine have hrest := ?_; (by
    cases result with
    | none => exact .bind .pure hrest
    | some pin => exact .bind install_framework_pin_moves fun _ => .bind .pure hrest)
  intro installed
  cases installed with
  | none =>
    exact .bind (.forEach hexpire) fun _ =>
      .bind (.forEach fun _ => resolve_pending_source_pin_moves hK) fun _ => .pure
  | some pin_handle =>
    exact .bind (.forEach fun _ => modify_source_pin_moves) fun _ =>
      .bind (.forEach hexpire) fun _ =>
      .bind (.forEach fun _ => resolve_pending_source_pin_moves hK) fun _ =>
      release_framework_pins_moves

/-- The answers of the framework, and then the deadlines of the waiting writes. -/
theorem poll_sources_moves (hK : Tied K F) : Moves F.R (poll_sources K) := by
  unfold poll_sources
  refine have hrest := ?_; .ite (.bind ask_moves fun _ =>
    .bind (.forEach fun _ => process_pin_result_moves hK) fun _ => hrest) hrest
  refine .bind clock_moves fun now => .bind .read fun s => .forEach fun op_id =>
    .bind .read fun s => .ite (expire_source_pin_moves hK) ?_
  exact .ite (resume_source_pin_moves hK) .pure

/-- A finished write gives up its sources. -/
theorem finish_source_write_moves (hK : Tied K F) {item : SourceWriteOp} :
    Moves F.R (finish_source_write K item) := by
  refine .ite (.ite .pure (.bind .read fun s => .bind (.change fun _ => F.on_pins rfl rfl)
    fun _ => ?_)) .raise
  refine have hrest := ?_; .ite (.bind remove_block_dependencies_moves fun _ => .ite
    (.bind .read fun _ => .bind record_access_moves fun _ =>
      .bind (release_local_dram_sources_moves hK) fun _ => hrest)
    (.bind (release_local_dram_sources_moves hK) fun _ => hrest)) hrest
  split
  · exact .pure
  · exact release_framework_pins_moves

end Sources

/-! ## Finished disk transfers -/

section Polls

variable {K : Knot} {F : Frame K.cfg}

/-- The copies among the items write into own memory. -/
def CopiesDescribed (cfg : Config) (P : String → Nat → Prop) (items : List Item) : Prop :=
  ∀ copy, .op (.local_copy copy) ∈ items → copy.Described cfg P

/-- The items that are left to the progress thread, if the frame lets some be taken. -/
theorem Good.take {cfg : Config} {P : String → Nat → Prop} {s : Core}
    (hs : Good cfg P s) {n : Nat} :
    Good cfg P { s with progress.completed := s.progress.completed.drop n } :=
  ⟨hs.fit.same rfl rfl, hs.free, hs.residencies, fun copy hcopy =>
    hs.copies copy (hcopy.imp_right List.mem_of_mem_drop)⟩

/-- The items of a poll are the first of those the progress thread has left. -/
theorem take_completed_gives {cfg : Config} {F : Frame cfg} {available : Nat}
    (htake : ∀ {s : Core} {n : Nat}, F.G s →
      F.Q s { s with progress.completed := s.progress.completed.drop n }) :
    Gives F.G F.Q (CopiesDescribed cfg F.P) (take_completed available) :=
  .read fun _ hs => .after (.change fun _ hs => ⟨hs.take, htake hs⟩) fun _ =>
    .pure fun copy hcopy => hs.copies copy (.inr (List.mem_of_mem_take hcopy))

section DiskPolls

variable [F.OpenDisk]

/-- In a core with a disk a record may get a disk residency. -/
theorem g3_commit_moves (hg3 : K.cfg.g3.isSome) {key : BlockKey} {g : G3Id} :
    Moves F.R (g3_commit K key g) := by
  refine .bind .read fun s => .ite (.bind (.change fun _ => F.on_disk rfl rfl) fun _ =>
    .bind block_record_moves fun record => .bind .read fun s => .ite .raise
      (.bind (.change fun s => F.record_on_disk rfl id fun hnone => ?_) fun _ =>
        .bind residency_observer_moves fun _ => .bind g3_make_evictable_moves fun _ =>
        publish_inventory_moves)) .raise
  rw [hnone] at hg3
  cases hg3

/-- What follows a transfer: a store commits its blocks or is rolled back, a fill completes and a
delivery ends, and both give up their claims. -/
theorem g3_finish_moves (hK : Tied K F) (hg3 : K.cfg.g3.isSome) {op : G3TransferOp} :
    Moves F.R (g3_finish K op) := by
  unfold g3_finish
  split
  · refine .ite (.bind (.forEach fun _ => g3_commit_moves hg3) fun _ =>
      retire_local_sources_moves hK) (.bind g3_rollback_moves fun _ => ?_)
    split
    · exact recover_store_failure_moves hK
    · exact .raise
  · exact .bind .read fun s => .ensure (complete_fill_moves hK) g3_release_claims_moves
  · exact .bind (.ensure (.ite record_access_moves .pure) g3_release_claims_moves) fun _ =>
      .ite .pure complete_moves

/-- What is left for the other tiers was there before. -/
theorem g3_poll_main_gives (hK : Tied K F) (hg3 : K.cfg.g3.isSome) {items : List Item} :
    Gives F.G F.Q (fun left => ∀ item ∈ left, item ∈ items) (g3_poll_main K items) := by
  refine .foldEach_mem (fun _ h => absurd h List.not_mem_nil) fun unhandled item hitem hleft => ?_
  split
  · refine .after (.bind .read fun s => .ite (.ite complete_moves .raise) (.ite ?_ .raise))
      fun _ => .pure hleft
    exact .bind (.change fun _ => F.on_disk rfl rfl) fun _ =>
      .ensure (g3_finish_moves hK hg3) remove_block_dependencies_moves
  · refine .pure fun other hother => ?_
    rcases List.mem_append.mp hother with hother | hother
    · exact hleft other hother
    · rw [List.mem_singleton.mp hother]
      exact hitem

/-- The disk tier's part of a poll, in a frame that lets items be taken from the progress
thread. -/
theorem poll_disk_gives (hK : Tied K F) {available : Nat}
    (htake : ∀ {s : Core} {n : Nat}, F.G s →
      F.Q s { s with progress.completed := s.progress.completed.drop n }) :
    Gives F.G F.Q (CopiesDescribed K.cfg F.P) (poll_disk K available) := by
  refine .bind (take_completed_gives htake) fun items hitems => .ite (fun hg3 => ?_) fun _ =>
    .pure hitems
  exact (g3_poll_main_gives hK hg3).imp fun left hleft copy hcopy => hitems copy (hleft _ hcopy)

end DiskPolls

/-! ## Finished pulls -/

section PullPolls

variable [F.OpenPulls]

/-- Writing a hint back with its source, and failed if it was. -/
theorem set_hint_later {cfg : Config} {F : Frame cfg} [F.OpenPulls] {s₀ s : Core} {t : List Ev}
    {request_id : RequestId} {hint hint' : RequestHint}
    (hget : s.remote.request_hints.get? request_id = some hint)
    (hsource : hint'.source = hint.source) (hfailed : hint.failed = true → hint'.failed = true)
    (hs : F.G s ∧ F.Q s₀ s) :
    wp ⟨fun _ s' _ => F.G s' ∧ F.Q s₀ s', fun _ => True⟩ (set_hint request_id hint')
      (fun _ s' _ => F.G s' ∧ F.Q s₀ s') s t :=
  wp_change.mpr ⟨hs.1.same rfl,
    F.trans hs.2 (Frame.OpenPulls.hint hs.1 hget hsource hfailed)⟩

/-- A failed hint keeps its source. -/
theorem fail_request_hint_moves {cfg : Config} {F : Frame cfg} [F.OpenPulls]
    {request_id : Option RequestId} : Moves F.R (fail_request_hint request_id) := by
  cases request_id with
  | none => exact .pure
  | some request_id =>
    refine .of_good fun s t hs => wp_bind.mpr (wp_read.mpr ?_)
    split
    · exact wp_pure.mpr ⟨hs, F.refl s⟩
    · next hint hget => exact set_hint_later hget rfl (fun _ => rfl) ⟨hs, F.refl s⟩

/-- A hint misses the keys its pull has not brought, and fails with it. -/
theorem update_request_hint_moves {cfg : Config} {F : Frame cfg} [F.OpenPulls]
    {op : TargetPullOp} : Moves F.R (update_request_hint op) := by
  refine .ite fail_request_hint_moves ?_
  split
  · exact .pure
  · refine .of_good fun s t hs => wp_bind.mpr (wp_read.mpr ?_)
    split
    · exact wp_pure.mpr ⟨hs, F.refl s⟩
    · next hint hget => exact set_hint_later hget rfl id ⟨hs, F.refl s⟩

/-- The keys a pull has brought are filled, the others fail. -/
theorem finish_target_pull_moves (hK : Tied K F) {op : TargetPullOp} :
    Moves F.R (finish_target_pull K op) := by
  unfold finish_target_pull
  refine .unless_then remove_block_dependencies_moves ?_
  refine .bind update_request_hint_moves fun _ => .ite ?_ complete_moves
  refine .ite .pure ?_
  refine .unless_then (complete_fill_moves hK) ?_
  exact .ite .pure (.bind visit_moves fun _ => complete_fill_moves hK)

/-- A pull that waits for its terminal message discards its fill, and one that ended uncertain
fails it. -/
theorem poll_target_pull_moves (hK : Tied K F) {op : TargetPullOp} :
    Moves F.R (poll_target_pull K op) := by
  unfold poll_target_pull
  split
  · exact .ite (discard_fill_moves hK) .raise
  · exact finish_target_pull_moves hK
  · refine .ite (.bind remove_block_dependencies_moves fun _ => ?_) (finish_target_pull_moves hK)
    exact .ite (.bind visit_moves fun _ => complete_fill_moves hK) .pure
  · exact .raise

/-- The remote tier's part of a poll goes through the items that are left. -/
theorem remote_poll_main_moves [F.OpenPins] (hK : Tied K F) {items : List Item} :
    Moves F.R (remote_poll_main K items) := by
  refine .bind .read fun s => .bind release_framework_pins_moves fun _ =>
    .bind (.forEach fun item => ?_) fun _ => poll_sources_moves hK
  split
  · exact start_source_pin_moves hK
  · exact finish_source_write_moves hK
  · exact poll_target_pull_moves hK
  · exact .change fun _ => F.plain rfl rfl
  · exact .raise
  · exact .raise

/-- A poll, given that the disk tier's part of it is within the frame. -/
theorem poll_completed_moves [F.OpenPins] (hK : Tied K F) {available : Nat}
    (hdisk : Gives F.G F.Q (CopiesDescribed K.cfg F.P) (poll_disk K available)) :
    Moves F.R (poll_completed K available) := by
  refine .bind raise_if_failed_moves fun _ => .using hdisk fun items hitems => ?_
  refine .ite_then (fun hp => local_poll_main_moves hK hp hitems) .pure fun items => ?_
  refine .bind (remote_poll_main_moves hK) fun _ => .bind .read fun s => ?_
  exact .bind (.change fun _ => F.plain rfl rfl) fun _ =>
    .bind (.forEach fun _ => act_moves) fun _ => .pure

end PullPolls

end Polls

/-! ## Public calls -/

section Calls

variable {K : Knot} {F : Frame K.cfg}

/-- Handles are counted. -/
theorem next_op_handle_moves {cfg : Config} {F : Frame cfg} : Moves F.R next_op_handle :=
  .bind .read fun _ => .bind (.change fun _ => F.plain rfl rfl) fun _ => .pure

/-- A deposit. Without pools it completes with nothing. -/
theorem deposit_moves (hK : Tied K F) {blocks : Dict BlockKey (List MemoryRef)}
    {no_evict : Bool} {expected_layout : Option (List Label)} :
    Moves F.R (deposit K blocks no_evict expected_layout) := by
  unfold deposit
  split
  · exact .pure
  · refine .bind next_op_handle_moves fun op_handle =>
      .cases (fun _ => .bind complete_moves fun _ => .pure) fun hp => ?_
    split
    · exact .pure
    · refine .bind (drain_source_completions_moves hK) fun _ => .bind .read fun _ => .ite .pure ?_
      exact .bind (local_deposit_moves hK (Option.isSome_iff_ne_none.mpr
        (by simpa using hp))) fun _ => .pure

/-- A fetch. What is not in the pools is filled from disk and from peers. -/
theorem fetch_moves (hK : Tied K F) {keys : List BlockKey} {request_id : Option RequestId}
    {expected_layout : Option (List Label)} :
    Moves F.R (fetch K keys request_id expected_layout) := by
  unfold fetch
  dsimp only
  split
  · exact .pure
  · refine .bind next_op_handle_moves fun op_handle =>
      .cases (fun _ => .bind complete_moves fun _ => .pure) fun hp =>
      .bind (drain_source_completions_moves hK) fun _ => .bind .read fun s => ?_
    split
    · exact .pure
    · exact .bind operation_deadline_moves fun _ => .using (local_fetch_gives hK
        (Option.isSome_iff_ne_none.mpr (by simpa using hp))) fun destinations hown =>
        .bind (start_local_fill_moves hK (hown.part _)) fun _ =>
        .bind (start_local_fill_moves hK (hown.part _)) fun _ => .pure

theorem open_delivery_moves : Moves F.R (open_delivery K) :=
  .bind next_op_handle_moves fun _ => .bind operation_deadline_moves fun _ => .pure

/-- Each tier gets its blocks. -/
theorem dispatch_moves (hK : Tied K F) {op_handle : OpHandle} {deadline : Time}
    {request_id : Option RequestId} {blocks : Dict BlockKey (List TransferRef)}
    {route : CacheTier → Dict BlockKey (List TransferRef)}
    (hroute : EachRef (Validated K.cfg) (route .G3)) :
    Moves F.R (dispatch K op_handle deadline request_id blocks route) := by
  unfold dispatch
  refine .if_then (.change fun _ => F.plain rfl rfl) ?_
  refine .if_then (local_deliver_moves hK) ?_
  refine have hrest := ?_; .ite (.bind (hK.deliver hroute) fun _ =>
    .unless_then complete_moves hrest) hrest
  refine .ite (.bind remote_deliver_moves fun _ => .pure) ?_
  exact .ite (.bind complete_moves fun _ => .pure) .pure

/-- Descriptors that pass the check are slices of registered regions, of the block size of their
pool. -/
theorem validate_descriptors_loop_ok {cfg : Config} {refs : List TransferRef} {labels : List Label}
    (h : validate_descriptors_loop cfg refs labels = .ok ()) :
    ∀ ref ∈ refs, ∃ region, own_region cfg ref = .ok region ∧
      cfg.block_size ref.label.pool = some region.size := by
  induction refs generalizing labels with
  | nil => exact fun _ href => absurd href List.not_mem_nil
  | cons first refs ih =>
    unfold validate_descriptors_loop at h
    cases hregion : own_region cfg first with
    | error e =>
      rw [hregion] at h
      cases h
    | ok region =>
      simp only [hregion, bind, Except.bind] at h
      split at h
      · cases h
      · next block_size hsize =>
        split at h
        · cases h
        · split at h
          · cases h
          · next hbytes =>
            split at h
            · cases h
            · intro ref href
              rcases List.mem_cons.mp href with rfl | href
              · exact ⟨region, hregion, hsize.trans (congrArg some (not_not.mp hbytes).symm)⟩
              · exact ih h ref href

/-- So are those of one block. -/
theorem normalize_descriptors_ok {cfg : Config} {descriptors : List MemoryRef}
    {refs : List TransferRef} (h : normalize_descriptors cfg descriptors = .ok refs) :
    ∀ ref ∈ refs, Validated cfg ref := by
  unfold normalize_descriptors at h
  split at h
  · cases h
  · dsimp only at h
    cases hloop : validate_descriptors_loop cfg (descriptors.map fun ref =>
        ({ end_point_name := ref.end_point_name, element_index := ref.element_index,
           label := ref.label } : TransferRef)) [] with
    | error e =>
      rw [hloop] at h
      cases h
    | ok _ =>
      rw [hloop] at h
      cases h
      intro ref href
      refine ⟨?_, validate_descriptors_loop_ok hloop ref href⟩
      obtain ⟨d, -, rfl⟩ := List.mem_map.mp href
      rfl

/-- And those of a whole request. -/
theorem normalize_blocks_ok {cfg : Config} {blocks : Dict BlockKey (List MemoryRef)}
    {normalized : Dict BlockKey (List TransferRef)}
    (h : normalize_blocks cfg blocks = .ok normalized) : EachRef (Validated cfg) normalized := by
  unfold normalize_blocks at h
  have hfold : ∀ (entries : List (BlockKey × List MemoryRef))
      (d : Dict BlockKey (List TransferRef)),
      EachRef (Validated cfg) d → entries.foldlM (fun d (p : BlockKey × List MemoryRef) => do
        let refs ← normalize_descriptors cfg p.2
        pure (d.set p.1 refs)) d = .ok normalized → EachRef (Validated cfg) normalized := by
    intro entries
    induction entries with
    | nil =>
      intro d hd h
      cases h
      exact hd
    | cons entry entries ih =>
      intro d hd h
      rw [List.foldlM_cons] at h
      cases hrefs : normalize_descriptors cfg entry.2 with
      | error e =>
        rw [hrefs] at h
        cases h
      | ok refs =>
        rw [hrefs] at h
        exact ih _ (hd.set (normalize_descriptors_ok hrefs)) h
  exact hfold _ _ each_ref_empty h

/-- A delivery. The descriptors are checked before anything is done. -/
theorem deliver_moves (hK : Tied K F) {blocks : Dict BlockKey (List MemoryRef)}
    {request_id : Option RequestId} : Moves F.R (deliver K blocks request_id) := by
  refine .bind open_delivery_moves fun opened => ?_
  dsimp only
  split
  · exact .pure
  · next normalized hnormalized =>
    exact .bind .read fun s => dispatch_moves hK ((normalize_blocks_ok hnormalized).part _)

theorem release_moves (hK : Tied K F) {handles : List ReleaseHandle} :
    Moves F.R (release K handles) := .ite .pure (release_handles_moves hK)

/-- The position and the time of a block are data of its record. -/
theorem align_record_moves {timestamp : Option Time} {key : BlockKey} {position : Nat}
    {record : RecId} : Moves F.R (align_record K timestamp key position record) :=
  .bind (modify_rec_moves (fun _ => rfl) (fun _ => rfl) fun _ h => h) fun _ => .bind .read fun _ =>
    .ite .pure (.bind (modify_rec_moves (fun _ => rfl) (fun _ => rfl) fun _ h => h) fun _ =>
      .ite residency_observer_moves .pure)

/-- The blocks of a sequence are ranked anew, in both tiers. -/
theorem align_sequence_moves (hK : Tied K F) {ordered_keys : List BlockKey}
    {use_current_time : Bool} :
    Moves F.R (align_sequence K ordered_keys use_current_time) := by
  refine .bind .read fun s => .ite .pure ?_
  refine have hrest := ?_; .ite (.bind clock_moves fun _ => .bind .pure hrest) (.bind .pure hrest)
  intro timestamp
  refine .bind (.forEach fun entry => align_record_moves) fun _ => .bind (.forEach fun key => ?_)
    fun _ => .ite update_capacity_pressure_moves .pure
  exact .if_then make_evictable_moves (.ite hK.rank .pure)

/-- A query may note that a key is expected from elsewhere. -/
theorem query_key_moves {request_id : Option RequestId} {key : BlockKey} :
    Moves F.R (query_key K request_id key) := by
  refine .bind .read fun s => .ite .pure (.ite .pure ?_)
  split
  · exact .pure
  · exact .ite (.bind remember_remote_keys_moves fun _ => .pure) .pure
  · exact .pure

/-- The answers for the keys, one after the other. -/
theorem query_moves {keys : List BlockKey} {request_id : Option RequestId} :
    Moves F.R (query K keys request_id) :=
  .foldEach fun _ _ => .bind query_key_moves fun _ => .pure

end Calls

end Kvcr
