/-
What a disk transfer moves.

A transfer moves whole disk slots: the memory of each piece is cut into chunks of one
slot, and the slots of a block are a flat list that a read cuts into pieces again, by the
layout. Both cuts are the same list of (piece of memory, slots) pairs, the `PieceMove`s of a
transfer; so one lemma about parts serves stores and reads, and blocks that travel
together.

A transfer fits the residencies it is about if its descriptors are those of its blocks, and the
layouts have the pieces it moves. What it moves is said here of any transfer that fits; that
those of the code do is the matter of `Kvcr.DiskFrame`.
-/
import Kvcr.LayoutMatching
import Kvcr.LocalDisk
import Kvcr.Lib.Ranges
import Mathlib.Data.List.Flatten

set_option autoImplicit false

namespace Kvcr

open Range

/-! ## Descriptors as ranges -/

/-- The addresses a descriptor stands for. Files are devices of their own. -/
def MemDescriptor.range (d : MemDescriptor) : Range (String × Nat) :=
  ⟨(d.mem_type, d.device_Id), d.addr, d.size⟩

/-- The memory a reference stands for. -/
def ref_range (cfg : Config) (ref : TransferRef) : Range (String × Nat) :=
  match address_descriptor cfg ref with
  | .ok d => d.range
  | .error _ => ⟨("", 0), 0, 0⟩

/-- The reference was accepted: it is registered memory of the size of a block of its
pool. -/
def Accepted (cfg : Config) (ref : TransferRef) : Prop :=
  ∃ d, address_descriptor cfg ref = .ok d ∧ cfg.block_size ref.label.pool = some d.size ∧
    d.mem_type ≠ "FILE"

/-- How many disk slots a piece takes. -/
def slots_per_piece (cfg : Config) (label : Label) : Nat :=
  (cfg.block_size label.pool).getD 0 / cfg.g3_slot_size

def file_range (cfg : Config) (slot : Nat) : Range (String × Nat) :=
  (file_descriptor cfg slot).range

theorem foldr_gcd_dvd {sizes : List Nat} {size : Nat} (h : size ∈ sizes) :
    sizes.foldr Nat.gcd 0 ∣ size := by
  induction sizes with
  | nil => cases h
  | cons first sizes ih =>
    rw [List.foldr_cons]
    rcases List.mem_cons.mp h with rfl | h
    · exact Nat.gcd_dvd_left _ _
    · exact Nat.dvd_trans (Nat.gcd_dvd_right _ _) (ih h)

/-- The disk slot divides every block. -/
theorem g3_slot_size_dvd {cfg : Config} {pool : String} {size : Nat}
    (h : cfg.block_size pool = some size) : cfg.g3_slot_size ∣ size := by
  unfold Config.block_size at h
  obtain ⟨p, hfind, rfl⟩ := Option.map_eq_some_iff.mp h
  exact foldr_gcd_dvd (List.mem_map_of_mem (List.mem_of_find?_eq_some hfind))

theorem block_size_eq {cfg : Config} {label : Label} {size : Nat}
    (h : cfg.block_size label.pool = some size) :
    size = slots_per_piece cfg label * cfg.g3_slot_size := by
  unfold slots_per_piece
  rw [h, Option.getD_some, Nat.div_mul_cancel (g3_slot_size_dvd h)]

/-- Slots are striped over the files without overlap. -/
theorem file_range_apart (cfg : Config) {slot slot' : Nat} (hne : slot ≠ slot') :
    (file_range cfg slot).Apart (file_range cfg slot') := by
  intro hdevice
  unfold file_range file_descriptor MemDescriptor.range at hdevice ⊢
  dsimp only at hdevice ⊢
  generalize (cfg.g3.map (·.paths)).getD 0 = files at hdevice ⊢
  have hmod : slot % files = slot' % files := (Prod.mk.inj hdevice).2
  have hdiv : slot / files ≠ slot' / files := by
    intro heq
    apply hne
    rw [← Nat.div_add_mod slot files, ← Nat.div_add_mod slot' files, hmod, heq]
  rcases Nat.lt_or_gt_of_ne hdiv with hlt | hlt
  · left
    calc slot / files * cfg.g3_slot_size + cfg.g3_slot_size
        = (slot / files + 1) * cfg.g3_slot_size := (Nat.succ_mul _ _).symm
      _ ≤ slot' / files * cfg.g3_slot_size := Nat.mul_le_mul_right _ hlt
  · right
    calc slot' / files * cfg.g3_slot_size + cfg.g3_slot_size
        = (slot' / files + 1) * cfg.g3_slot_size := (Nat.succ_mul _ _).symm
      _ ≤ slot / files * cfg.g3_slot_size := Nat.mul_le_mul_right _ hlt

/-- `_bytes_per_file`: complete slots within the budget of a file. -/
def bytes_per_file (cfg : Config) : Nat :=
  (cfg.g3.map (·.capacity_bytes_per_file)).getD 0 / cfg.g3_slot_size * cfg.g3_slot_size

/-- Every slot lies inside its file. -/
theorem file_range_inside (cfg : Config) {slot : Nat} (hslot : slot < cfg.g3_total_slots) :
    (file_range cfg slot).addr + (file_range cfg slot).size ≤ bytes_per_file cfg := by
  unfold file_range file_descriptor MemDescriptor.range bytes_per_file
  unfold Config.g3_total_slots at hslot
  dsimp only
  cases hg3 : cfg.g3 with
  | none =>
    rw [hg3] at hslot
    exact absurd hslot (Nat.not_lt_zero slot)
  | some options =>
    rw [hg3] at hslot
    simp only [Option.map_some, Option.getD_some]
    have hlt : slot / options.paths < options.capacity_bytes_per_file / cfg.g3_slot_size :=
      Nat.div_lt_of_lt_mul hslot
    calc slot / options.paths * cfg.g3_slot_size + cfg.g3_slot_size
        = (slot / options.paths + 1) * cfg.g3_slot_size := (Nat.succ_mul _ _).symm
      _ ≤ _ := Nat.mul_le_mul_right _ hlt

/-! ## Chunks -/

theorem memory_chunks_accepted {cfg : Config} {ref : TransferRef} (h : Accepted cfg ref) :
    ∃ chunks, memory_chunks cfg ref = .ok chunks ∧
      chunks.map MemDescriptor.range =
        (ref_range cfg ref).chunks (slots_per_piece cfg ref.label) cfg.g3_slot_size := by
  obtain ⟨d, hd, hsize, -⟩ := h
  have hcount : (d.size + cfg.g3_slot_size - 1) / cfg.g3_slot_size =
      slots_per_piece cfg ref.label := by
    rw [block_size_eq hsize]
    rcases Nat.eq_zero_or_pos cfg.g3_slot_size with hzero | hpos
    · unfold slots_per_piece
      rw [hzero, Nat.div_zero, Nat.div_zero]
    · rw [Nat.add_sub_assoc hpos, Nat.mul_comm, Nat.mul_add_div hpos,
        Nat.div_eq_of_lt (Nat.sub_lt hpos Nat.one_pos), Nat.add_zero]
  unfold memory_chunks ref_range
  rw [hd]
  refine ⟨_, rfl, ?_⟩
  dsimp only
  rw [hcount, List.map_map]
  rfl

theorem size_ref_range {cfg : Config} {ref : TransferRef} (h : Accepted cfg ref) :
    (ref_range cfg ref).size = slots_per_piece cfg ref.label * cfg.g3_slot_size := by
  obtain ⟨d, hd, hsize, -⟩ := h
  unfold ref_range
  rw [hd]
  exact block_size_eq hsize

/-- Memory is never a file. -/
theorem ref_range_apart_file {cfg : Config} {ref : TransferRef} (h : Accepted cfg ref)
    (slot : Nat) : (ref_range cfg ref).Apart (file_range cfg slot) := by
  obtain ⟨d, hd, -, hmemory⟩ := h
  unfold ref_range
  rw [hd]
  intro hdevice
  exact absurd (Prod.mk.inj hdevice).1 hmemory

theorem memory_chunks_all_accepted {cfg : Config} {refs : List TransferRef}
    (h : ∀ ref ∈ refs, Accepted cfg ref) :
    ∃ memory, memory_chunks_all cfg refs = .ok memory ∧
      memory.map MemDescriptor.range = refs.flatMap fun ref =>
        (ref_range cfg ref).chunks (slots_per_piece cfg ref.label) cfg.g3_slot_size := by
  unfold memory_chunks_all
  induction refs with
  | nil => exact ⟨[], rfl, rfl⟩
  | cons ref refs ih =>
    obtain ⟨chunks, hchunks, hranges⟩ := memory_chunks_accepted (h ref List.mem_cons_self)
    obtain ⟨memory, hmemory, hrest⟩ := ih fun r hr => h r (List.mem_cons_of_mem _ hr)
    rw [List.mapM_cons, hchunks]
    cases hmapM : refs.mapM (memory_chunks cfg) with
    | error e =>
      rw [hmapM] at hmemory
      cases hmemory
    | ok rest =>
      rw [hmapM] at hmemory
      cases hmemory
      refine ⟨chunks ++ rest.flatten, rfl, ?_⟩
      rw [List.map_append, hranges, hrest, List.flatMap_cons]

/-! ## Parts of a transfer -/

/-- A piece of memory and the slots it goes to or comes from. -/
abbrev PieceMove := TransferRef × List Nat

namespace PieceMove

variable {β : Type}

def memory (cfg : Config) (p : PieceMove) : List (Range (String × Nat)) :=
  (ref_range cfg p.1).chunks (slots_per_piece cfg p.1.label) cfg.g3_slot_size

def files (cfg : Config) (p : PieceMove) : List (Range (String × Nat)) :=
  p.2.map (file_range cfg)

/-- The slots hold a piece of the label's pool, and the memory is one. -/
structure Fits (cfg : Config) (p : PieceMove) : Prop where
  accepted : Accepted cfg p.1
  length : p.2.length = slots_per_piece cfg p.1.label

variable {cfg : Config} {p : PieceMove}

theorem Fits.sizes (h : p.Fits cfg) :
    (p.memory cfg).map size = (p.files cfg).map size := by
  unfold memory files chunks
  rw [List.map_map, List.map_map, List.eq_replicate_of_mem (a := cfg.g3_slot_size)
    (l := (List.range _).map _) fun n hn => ?_, List.eq_replicate_of_mem (a := cfg.g3_slot_size)
    (l := p.2.map _) fun n hn => ?_]
  · rw [List.length_map, List.length_map, List.length_range, h.length]
  · obtain ⟨slot, -, rfl⟩ := List.mem_map.mp hn
    rfl
  · obtain ⟨i, -, rfl⟩ := List.mem_map.mp hn
    rfl

theorem sizes_flatMap {parts : List PieceMove} (h : ∀ p ∈ parts, p.Fits cfg) :
    (parts.flatMap (memory cfg)).map size = (parts.flatMap (files cfg)).map size := by
  rw [List.map_flatMap, List.map_flatMap]
  exact List.flatMap_congr fun p hp => (h p hp).sizes

theorem Fits.memory_apart_file (h : p.Fits cfg) {r : Range (String × Nat)}
    (hr : r ∈ p.memory cfg) (slot : Nat) : r.Apart (file_range cfg slot) :=
  (ref_range_apart_file h.accepted slot).chunk (size_ref_range h.accepted) hr

theorem mem_files {parts : List PieceMove} {r : Range (String × Nat)}
    (hr : r ∈ parts.flatMap (files cfg)) : ∃ p ∈ parts, ∃ slot ∈ p.2, r = file_range cfg slot := by
  obtain ⟨p, hp, hr⟩ := List.mem_flatMap.mp hr
  obtain ⟨slot, hslot, rfl⟩ := List.mem_map.mp hr
  exact ⟨p, hp, slot, hslot, rfl⟩

theorem pairwise_files (hnodup : p.2.Nodup) : (p.files cfg).Pairwise Apart :=
  List.pairwise_map.mpr (hnodup.imp fun hne => file_range_apart cfg hne)

/-- What a piece's slots hold. -/
def on_disk (cfg : Config) (image : Image (String × Nat) β) (slots : List Nat) : List β :=
  slots.flatMap fun slot => (file_range cfg slot).read image

theorem on_disk_eq {image : Image (String × Nat) β} :
    on_disk cfg image p.2 = ((p.files cfg).map (read image)).flatten := by
  unfold on_disk files
  rw [List.map_map, List.flatMap_def]
  rfl

theorem Fits.read_memory (h : p.Fits cfg) (image : Image (String × Nat) β) :
    (ref_range cfg p.1).read image = ((p.memory cfg).map (read image)).flatten := by
  rw [← List.flatMap_def]
  exact (read_chunks image (size_ref_range h.accepted)).symm

theorem length_flatMap {parts : List PieceMove} (h : ∀ p ∈ parts, p.Fits cfg) :
    (parts.flatMap (memory cfg)).length = (parts.flatMap (files cfg)).length := by
  simpa using congrArg List.length (sizes_flatMap h)

/-- A store puts each piece into its slots. -/
theorem store {parts : List PieceMove} (image : Image (String × Nat) β)
    (hfits : ∀ p ∈ parts, p.Fits cfg) (hslots : (parts.flatMap Prod.snd).Nodup) (hp : p ∈ parts) :
    on_disk cfg (transfer (parts.flatMap (memory cfg)) (parts.flatMap (files cfg)) image) p.2 =
      (ref_range cfg p.1).read image := by
  have hfit := hfits p hp
  obtain ⟨before, after, rfl⟩ := List.append_of_mem hp
  simp only [List.flatMap_append, List.flatMap_cons] at hslots ⊢
  have hrest := (List.nodup_append.mp hslots).2.1
  obtain ⟨hown, -, hlater⟩ := List.nodup_append.mp hrest
  rw [on_disk_eq, hfit.read_memory]
  congr 1
  refine map_read_transfer_middle image
    (length_flatMap fun q hq => hfits q (List.mem_append_left _ hq)) hfit.sizes
    (pairwise_files hown) ?_ ?_
  · -- memory is no file, so what was copied before is not in the way
    intro r hr r' hr'
    rcases List.mem_append.mp hr' with hr' | hr'
    · obtain ⟨-, -, slot, -, rfl⟩ := mem_files hr'
      exact hfit.memory_apart_file hr slot
    · obtain ⟨slot, -, rfl⟩ := List.mem_map.mp hr'
      exact hfit.memory_apart_file hr slot
  · intro r hr r' hr'
    obtain ⟨slot, hslot, rfl⟩ := List.mem_map.mp hr
    obtain ⟨q, hq, slot', hslot', rfl⟩ := mem_files hr'
    exact file_range_apart cfg (hlater slot hslot slot' (List.mem_flatMap.mpr ⟨q, hq, hslot'⟩))

/-- A read puts what a piece's slots hold into its memory, if it is not written to after. -/
theorem fetch {before after : List PieceMove} (image : Image (String × Nat) β)
    (hfits : ∀ q ∈ before ++ p :: after, q.Fits cfg)
    (halone : ∀ q ∈ after, (ref_range cfg p.1).Apart (ref_range cfg q.1)) :
    (ref_range cfg p.1).read (transfer ((before ++ p :: after).flatMap (files cfg))
      ((before ++ p :: after).flatMap (memory cfg)) image) = on_disk cfg image p.2 := by
  have hfit := hfits p (List.mem_append_right _ List.mem_cons_self)
  simp only [List.flatMap_append, List.flatMap_cons]
  rw [on_disk_eq, hfit.read_memory]
  congr 1
  refine map_read_transfer_middle image
    (length_flatMap fun q hq => hfits q (List.mem_append_left _ hq)).symm hfit.sizes.symm
    (pairwise_chunks _ _ _) ?_ ?_
  · intro r hr r' hr'
    obtain ⟨slot, -, rfl⟩ := List.mem_map.mp hr
    rcases List.mem_append.mp hr' with hr' | hr'
    · obtain ⟨q, hq, hr'⟩ := List.mem_flatMap.mp hr'
      exact ((hfits q (List.mem_append_left _ hq)).memory_apart_file hr' slot).symm
    · exact (hfit.memory_apart_file hr' slot).symm
  · intro r hr r' hr'
    obtain ⟨q, hq, hr'⟩ := List.mem_flatMap.mp hr'
    have hother := (hfits q (List.mem_append_right _ (List.mem_cons_of_mem _ hq))).accepted
    have hchunk := (halone q hq).chunk (size_ref_range hfit.accepted) hr
    exact (hchunk.symm.chunk (size_ref_range hother) hr').symm

/-! ### The parts of a block -/

variable {refs : List TransferRef} {pieces : List (List Nat)}

theorem length_of_lengths
    (h : pieces.map List.length = refs.map fun ref => slots_per_piece cfg ref.label) :
    refs.length = pieces.length := by
  simpa using (congrArg List.length h).symm

theorem fits_zip (haccepted : ∀ ref ∈ refs, Accepted cfg ref)
    (h : pieces.map List.length = refs.map fun ref => slots_per_piece cfg ref.label) :
    ∀ p ∈ refs.zip pieces, Fits cfg p := by
  induction refs generalizing pieces with
  | nil =>
    intro p hp
    rw [List.zip_nil_left] at hp
    cases hp
  | cons ref refs ih =>
    cases pieces with
    | nil => cases h
    | cons piece pieces =>
      rw [List.map_cons, List.map_cons, List.cons.injEq] at h
      rw [List.zip_cons_cons]
      intro p hp
      rcases List.mem_cons.mp hp with rfl | hp
      · exact ⟨haccepted ref List.mem_cons_self, h.1⟩
      · exact ih (fun r hr => haccepted r (List.mem_cons_of_mem _ hr)) h.2 p hp

theorem memory_zip (hlength : refs.length = pieces.length) :
    (refs.zip pieces).flatMap (memory cfg) = refs.flatMap fun ref =>
      (ref_range cfg ref).chunks (slots_per_piece cfg ref.label) cfg.g3_slot_size := by
  conv_rhs => rw [← List.map_fst_zip (Nat.le_of_eq hlength), List.flatMap_map]
  rfl

theorem files_zip (hlength : refs.length = pieces.length) :
    (refs.zip pieces).flatMap (files cfg) = pieces.flatMap fun slots =>
      slots.map (file_range cfg) := by
  conv_rhs => rw [← List.map_snd_zip (Nat.le_of_eq hlength.symm), List.flatMap_map]
  rfl

end PieceMove

/-! ## Pieces of a block -/

/-- The block has the slots its layout calls for. -/
def WellSized (cfg : Config) (g : G3Residency) : Prop :=
  g.slots.length = (g.layout.map (slots_per_piece cfg)).sum

theorem lengths_piece_slots_loop {cfg : Config} {layout : List Label} {slots : List Nat}
    (h : slots.length = (layout.map (slots_per_piece cfg)).sum) :
    (piece_slots_loop cfg layout slots).map List.length = layout.map (slots_per_piece cfg) ∧
      (piece_slots_loop cfg layout slots).flatten = slots := by
  induction layout generalizing slots with
  | nil =>
    rw [List.map_nil, List.sum_nil] at h
    exact ⟨rfl, (List.length_eq_zero_iff.mp h).symm⟩
  | cons label layout ih =>
    rw [List.map_cons, List.sum_cons] at h
    have hrest : (slots.drop (slots_per_piece cfg label)).length =
        (layout.map (slots_per_piece cfg)).sum := by
      rw [List.length_drop, h, Nat.add_sub_cancel_left]
    obtain ⟨hlengths, hflatten⟩ := ih hrest
    unfold slots_per_piece at hlengths hflatten h
    unfold piece_slots_loop slots_per_piece
    dsimp only
    refine ⟨?_, ?_⟩
    · rw [List.map_cons, List.map_cons, hlengths, List.length_take, h,
        Nat.min_eq_left (Nat.le_add_right _ _)]
    · rw [List.flatten_cons, hflatten, List.take_append_drop]

theorem WellSized.lengths {cfg : Config} {g : G3Residency} (h : WellSized cfg g) :
    (piece_slots cfg g).map List.length = g.layout.map (slots_per_piece cfg) :=
  (lengths_piece_slots_loop h).1

theorem WellSized.flatten {cfg : Config} {g : G3Residency} (h : WellSized cfg g) :
    (piece_slots cfg g).flatten = g.slots :=
  (lengths_piece_slots_loop h).2

/-! ## Transfers -/

/-- Descriptor `i` is copied to descriptor `i`. -/
def move {β : Type} (source target : List MemDescriptor) (image : Image (String × Nat) β) :
    Image (String × Nat) β :=
  transfer (source.map MemDescriptor.range) (target.map MemDescriptor.range) image

/-- What the slots of each piece hold. -/
def disk_pieces {β : Type} (cfg : Config) (image : Image (String × Nat) β) (g : G3Residency) :
    List (List β) :=
  (piece_slots cfg g).map (PieceMove.on_disk cfg image)

/-- The places in the layout of the requested pieces. -/
def read_indices (g : G3Residency) (refs : List TransferRef) : List Nat :=
  (layout_indices g.layout (refs.map (·.label))).getD []

/-- The slots of the requested pieces. -/
def read_slots (cfg : Config) (g : G3Residency) (refs : List TransferRef) : List (List Nat) :=
  (read_indices g refs).map fun i => (piece_slots cfg g).getD i []

section Lengths

variable {cfg : Config} {g : G3Residency} {refs : List TransferRef}

/-- A residency with the layout of the references has a piece of the right size for each. -/
theorem WellSized.lengths_of_layout (hsized : WellSized cfg g)
    (hlayout : g.layout = refs.map (·.label)) :
    (piece_slots cfg g).map List.length = refs.map fun ref => slots_per_piece cfg ref.label := by
  rw [hsized.lengths, hlayout, List.map_map]
  rfl

theorem WellSized.lengths_read_slots (hsized : WellSized cfg g)
    (hfound : layout_indices g.layout (refs.map (·.label)) = some (read_indices g refs)) :
    (read_slots cfg g refs).map List.length =
      refs.map fun ref => slots_per_piece cfg ref.label := by
  have hlabels := layout_indices_getElem? hfound
  -- a piece has the slots of the label at its place in the layout
  have hpiece : ∀ i, ((piece_slots cfg g).getD i []).length =
      ((g.layout[i]?).map (slots_per_piece cfg)).getD 0 := by
    intro i
    rw [← List.getElem?_map, ← hsized.lengths, List.getElem?_map, List.getD_eq_getElem?_getD]
    cases (piece_slots cfg g)[i]? <;> rfl
  unfold read_slots
  calc ((read_indices g refs).map fun i => (piece_slots cfg g).getD i []).map List.length
      = (read_indices g refs).map fun i => ((g.layout[i]?).map (slots_per_piece cfg)).getD 0 := by
        rw [List.map_map]
        exact List.map_congr_left fun i _ => hpiece i
    _ = ((read_indices g refs).map (g.layout[·]?)).map
          fun label => (label.map (slots_per_piece cfg)).getD 0 := by
        rw [List.map_map]
        rfl
    _ = refs.map fun ref => slots_per_piece cfg ref.label := by
        rw [hlabels, List.map_map, List.map_map]
        rfl

end Lengths

/-- The claimed residencies have the pieces the blocks ask for, and these are their memory and
their files. -/
structure Matched (cfg : Config) (residencies : G3Id → G3Residency)
    (blocks : Dict BlockKey (List TransferRef)) (claims : List (BlockKey × G3Id))
    (memory files : List MemDescriptor) : Prop where
  memory : memory_chunks_all cfg (claims.flatMap fun p => block_refs blocks p.1) = .ok memory
  files : files = claims.flatMap fun p => read_files cfg (residencies p.2)
    (read_indices (residencies p.2) (block_refs blocks p.1))
  accepted : ∀ p ∈ claims, ∀ ref ∈ block_refs blocks p.1, Accepted cfg ref
  found : ∀ p ∈ claims,
    layout_indices (residencies p.2).layout ((block_refs blocks p.1).map (·.label)) =
      some (read_indices (residencies p.2) (block_refs blocks p.1))

namespace G3TransferOp

/-- The descriptors are those of the memory of the blocks and of all slots of the
reservations, which have the layouts of the blocks. -/
structure StoreFits (cfg : Config) (residencies : G3Id → G3Residency) (op : G3TransferOp) :
    Prop where
  memory : memory_chunks_all cfg (op.reservations.flatMap fun p => block_refs op.blocks p.1) =
    .ok op.memory_descriptors
  files : op.file_descriptors = store_files cfg residencies op.reservations
  accepted : ∀ p ∈ op.reservations, ∀ ref ∈ block_refs op.blocks p.1, Accepted cfg ref
  layout : ∀ p ∈ op.reservations,
    (residencies p.2).layout = (block_refs op.blocks p.1).map (·.label)

/-- The descriptors are those of the memory of the blocks and of the slots of the pieces they
ask for, which the layouts of the claimed residencies have. -/
abbrev ReadFits (cfg : Config) (residencies : G3Id → G3Residency) (op : G3TransferOp) : Prop :=
  Matched cfg residencies op.blocks op.claims op.memory_descriptors op.file_descriptors

def store_moves (cfg : Config) (residencies : G3Id → G3Residency) (op : G3TransferOp) :
    List PieceMove :=
  op.reservations.flatMap fun p => (block_refs op.blocks p.1).zip
    (piece_slots cfg (residencies p.2))

def read_moves (cfg : Config) (residencies : G3Id → G3Residency) (op : G3TransferOp) :
    List PieceMove :=
  op.claims.flatMap fun p => (block_refs op.blocks p.1).zip
    (read_slots cfg (residencies p.2) (block_refs op.blocks p.1))

/-- The descriptors are those of these moves, and the moves fit. -/
structure Carries (cfg : Config) (op : G3TransferOp) (moves : List PieceMove) : Prop where
  memory : op.memory_descriptors.map MemDescriptor.range = moves.flatMap (PieceMove.memory cfg)
  files : op.file_descriptors.map MemDescriptor.range = moves.flatMap (PieceMove.files cfg)
  fits : ∀ p ∈ moves, p.Fits cfg

variable {cfg : Config} {residencies : G3Id → G3Residency} {op : G3TransferOp}

/-- Both sides of a transfer have the same sizes. -/
theorem Carries.sizes {moves : List PieceMove} (h : op.Carries cfg moves) :
    op.memory_descriptors.map (·.size) = op.file_descriptors.map (·.size) := by
  have hsizes := PieceMove.sizes_flatMap h.fits
  rw [← h.memory, ← h.files, List.map_map, List.map_map] at hsizes
  exact hsizes

/-- The memory and the slots of some blocks, piece by piece. -/
theorem carries_of_pieces {ι : Type} {blocks : List ι} (refs : ι → List TransferRef)
    (pieces : ι → List (List Nat)) (haccepted : ∀ b ∈ blocks, ∀ ref ∈ refs b, Accepted cfg ref)
    (hlengths : ∀ b ∈ blocks,
      (pieces b).map List.length = (refs b).map fun ref => slots_per_piece cfg ref.label)
    (hmemory : memory_chunks_all cfg (blocks.flatMap refs) = .ok op.memory_descriptors)
    (hfiles : op.file_descriptors = blocks.flatMap fun b => (pieces b).flatMap fun slots =>
      slots.map (file_descriptor cfg)) :
    op.Carries cfg (blocks.flatMap fun b => (refs b).zip (pieces b)) := by
  have hall : ∀ ref ∈ blocks.flatMap refs, Accepted cfg ref := by
    intro ref href
    obtain ⟨b, hb, href⟩ := List.mem_flatMap.mp href
    exact haccepted b hb ref href
  obtain ⟨memory, hchunks, hranges⟩ := memory_chunks_all_accepted hall
  cases hmemory.symm.trans hchunks
  refine ⟨?_, ?_, fun p hp => ?_⟩
  · rw [hranges, List.flatMap_assoc, List.flatMap_assoc]
    refine List.flatMap_congr fun b hb => ?_
    exact (PieceMove.memory_zip (PieceMove.length_of_lengths (hlengths b hb))).symm
  · rw [hfiles, List.map_flatMap, List.flatMap_assoc]
    refine List.flatMap_congr fun b hb => ?_
    rw [PieceMove.files_zip (PieceMove.length_of_lengths (hlengths b hb)), List.map_flatMap]
    refine List.flatMap_congr fun slots _ => ?_
    rw [List.map_map]
    rfl
  · obtain ⟨b, hb, hp⟩ := List.mem_flatMap.mp hp
    exact PieceMove.fits_zip (haccepted b hb) (hlengths b hb) p hp

theorem StoreFits.carries (h : op.StoreFits cfg residencies)
    (hsized : ∀ p ∈ op.reservations, WellSized cfg (residencies p.2)) :
    op.Carries cfg (op.store_moves cfg residencies) := by
  refine carries_of_pieces _ _ h.accepted
    (fun p hp => (hsized p hp).lengths_of_layout (h.layout p hp)) h.memory (h.files.trans ?_)
  refine List.flatMap_congr fun p hp => ?_
  rw [← List.map_flatMap, List.flatMap_id', (hsized p hp).flatten]

theorem ReadFits.carries (h : op.ReadFits cfg residencies)
    (hsized : ∀ p ∈ op.claims, WellSized cfg (residencies p.2)) :
    op.Carries cfg (op.read_moves cfg residencies) := by
  refine carries_of_pieces _ _ h.accepted
    (fun p hp => (hsized p hp).lengths_read_slots (h.found p hp)) h.memory (h.files.trans ?_)
  refine List.flatMap_congr fun p _ => ?_
  rw [read_files, read_slots, List.flatMap_map]

end G3TransferOp

/-! ## What the code asks for -/

section Slots

variable {cfg : Config}

theorem sum_map_block_size (labels : List Label) :
    (labels.map fun label => (cfg.block_size label.pool).getD 0).sum =
      (labels.map (slots_per_piece cfg)).sum * cfg.g3_slot_size := by
  induction labels with
  | nil => rw [List.map_nil, List.map_nil, List.sum_nil, Nat.zero_mul]
  | cons label labels ih =>
    rw [List.map_cons, List.map_cons, List.sum_cons, List.sum_cons, Nat.add_mul, ih]
    congr 1
    cases hsize : cfg.block_size label.pool with
    | none => rw [slots_per_piece, hsize, Option.getD_none, Nat.zero_div, Nat.zero_mul]
    | some size => exact block_size_eq hsize

/-- Without a slot size nothing takes a slot. -/
theorem sum_slots_per_piece_of_zero (hzero : cfg.g3_slot_size = 0) (labels : List Label) :
    (labels.map (slots_per_piece cfg)).sum = 0 := by
  unfold slots_per_piece
  simp [hzero]

/-- `_reserve` asks for the slots of the pieces. -/
theorem descriptor_bytes_div (refs : List TransferRef) :
    descriptor_bytes cfg refs / cfg.g3_slot_size =
      ((refs.map (·.label)).map (slots_per_piece cfg)).sum := by
  have hbytes : descriptor_bytes cfg refs =
      ((refs.map (·.label)).map (slots_per_piece cfg)).sum * cfg.g3_slot_size := by
    rw [← sum_map_block_size, List.map_map]
    rfl
  rcases Nat.eq_zero_or_pos cfg.g3_slot_size with hzero | hpos
  · rw [hzero, Nat.div_zero, sum_slots_per_piece_of_zero hzero]
  · rw [hbytes, Nat.mul_div_cancel _ hpos]

/-- A recovered row is adopted with the slots its layout calls for, none of them taken. -/
theorem adopted_row {g : G3Residency} {local_layout : Option (List Label)}
    {occupied occupied' : List Nat}
    (h : g3_adopt_residency cfg g local_layout occupied = .ok occupied') :
    WellSized cfg g ∧ (∀ slot ∈ g.slots, slot < cfg.g3_total_slots) ∧
      occupied' = g.slots ++ occupied ∧ (occupied.Nodup → occupied'.Nodup) := by
  unfold g3_adopt_residency at h
  cases hlayout : validate_expected_layout cfg g.layout with
  | error e =>
    rw [hlayout] at h
    cases h
  | ok _ =>
    rw [hlayout] at h
    change (if _ then _ else _) = _ at h
    split at h
    next => cases h
    next hbytes =>
      split at h
      next => cases h
      next hslots =>
        split at h
        next => cases h
        next =>
          cases h
          simp only [not_or, not_not, List.all_eq_true, decide_eq_true_eq,
            List.any_eq_true, not_exists, not_and] at hbytes hslots
          obtain ⟨hlt, hnodup, hfree⟩ := hslots
          refine ⟨?_, hlt, rfl, fun hoccupied => ?_⟩
          · rw [sum_map_block_size, g3_size_bytes] at hbytes
            rcases Nat.eq_zero_or_pos cfg.g3_slot_size with hzero | hpos
            · -- no slot size, no slots
              have hnone : cfg.g3_total_slots = 0 := by
                unfold Config.g3_total_slots
                cases cfg.g3 with
                | none => rfl
                | some options =>
                  dsimp only
                  rw [hzero, Nat.div_zero, Nat.mul_zero]
              rw [WellSized, sum_slots_per_piece_of_zero hzero, List.length_eq_zero_iff,
                List.eq_nil_iff_forall_not_mem]
              intro slot hslot
              exact absurd (hnone ▸ hlt slot hslot) (Nat.not_lt_zero slot)
            · exact Nat.eq_of_mul_eq_mul_right hpos hbytes
          · exact List.nodup_append.mpr ⟨hnodup, hoccupied, fun slot hslot slot' hslot' heq =>
              hfree slot hslot (heq ▸ hslot')⟩

end Slots

/-! ## What comes of a transfer -/

section Contents

variable {β : Type} {cfg : Config} {residencies : G3Id → G3Residency} {op : G3TransferOp}

/-- There is a piece for each label. -/
theorem length_disk_pieces {image : Image (String × Nat) β} {g : G3Residency} :
    (disk_pieces cfg image g).length = g.layout.length := by
  have hloop : ∀ layout slots, (piece_slots_loop cfg layout slots).length = layout.length := by
    intro layout
    induction layout with
    | nil => exact fun _ => rfl
    | cons label layout ih => exact fun slots => congrArg (· + 1) (ih _)
  rw [disk_pieces, List.length_map]
  exact hloop _ _

theorem disk_pieces_congr {image image' : Image (String × Nat) β} {g : G3Residency}
    (hsized : WellSized cfg g)
    (hsame : ∀ slot ∈ g.slots,
      (file_range cfg slot).read image' = (file_range cfg slot).read image) :
    disk_pieces cfg image' g = disk_pieces cfg image g := by
  unfold disk_pieces
  refine List.map_congr_left fun piece hpiece => ?_
  unfold PieceMove.on_disk
  refine List.flatMap_congr fun slot hslot => hsame slot ?_
  rw [← hsized.flatten]
  exact List.mem_flatten.mpr ⟨piece, hpiece, hslot⟩

namespace G3TransferOp

/-- A store leaves every piece in its slots. -/
theorem StoreFits.stored (h : op.StoreFits cfg residencies)
    (hsized : ∀ p ∈ op.reservations, WellSized cfg (residencies p.2))
    (hnodup : (op.reservations.flatMap fun p => (residencies p.2).slots).Nodup)
    (image : Image (String × Nat) β) {p : BlockKey × G3Id} (hp : p ∈ op.reservations) :
    disk_pieces cfg (move op.memory_descriptors op.file_descriptors image) (residencies p.2) =
      (block_refs op.blocks p.1).map fun ref => (ref_range cfg ref).read image := by
  have hcarries := h.carries hsized
  have hlength : ∀ p ∈ op.reservations,
      (block_refs op.blocks p.1).length = (piece_slots cfg (residencies p.2)).length := fun p hp =>
    PieceMove.length_of_lengths ((hsized p hp).lengths_of_layout (h.layout p hp))
  -- the slots of the moves are those of the reservations
  have hslots : (op.store_moves cfg residencies).flatMap Prod.snd =
      op.reservations.flatMap fun p => (residencies p.2).slots := by
    unfold store_moves
    rw [List.flatMap_assoc]
    refine List.flatMap_congr fun p hp => ?_
    rw [List.flatMap_def, List.map_snd_zip (Nat.le_of_eq (hlength p hp).symm),
      (hsized p hp).flatten]
  have hmoved : ∀ q ∈ (block_refs op.blocks p.1).zip (piece_slots cfg (residencies p.2)),
      PieceMove.on_disk cfg (move op.memory_descriptors op.file_descriptors image) q.2 =
        (ref_range cfg q.1).read image := by
    intro q hq
    unfold move
    rw [hcarries.memory, hcarries.files]
    refine PieceMove.store image hcarries.fits ?_ (List.mem_flatMap.mpr ⟨p, hp, hq⟩)
    rw [hslots]
    exact hnodup
  have hall := List.map_congr_left hmoved
  unfold disk_pieces
  rw [← List.map_snd_zip (Nat.le_of_eq (hlength p hp).symm), List.map_map]
  refine hall.trans ?_
  conv_rhs => rw [← List.map_fst_zip (Nat.le_of_eq (hlength p hp)), List.map_map]
  rfl

/-- A store leaves alone the slots it has not reserved. -/
theorem StoreFits.read_other (h : op.StoreFits cfg residencies) (image : Image (String × Nat) β)
    {slot : Nat} (hslot : ∀ p ∈ op.reservations, slot ∉ (residencies p.2).slots) :
    (file_range cfg slot).read (move op.memory_descriptors op.file_descriptors image) =
      (file_range cfg slot).read image := by
  refine read_transfer_apart _ fun r hr => ?_
  obtain ⟨f, hf, rfl⟩ := List.mem_map.mp hr
  rw [h.files] at hf
  obtain ⟨p, hp, hf⟩ := List.mem_flatMap.mp hf
  obtain ⟨slot', hslot', rfl⟩ := List.mem_map.mp hf
  exact file_range_apart cfg fun heq => hslot p hp (heq ▸ hslot')

/-- A read leaves the files alone. -/
theorem ReadFits.read_file (h : op.ReadFits cfg residencies)
    (hsized : ∀ p ∈ op.claims, WellSized cfg (residencies p.2)) (image : Image (String × Nat) β)
    (slot : Nat) :
    (file_range cfg slot).read (move op.file_descriptors op.memory_descriptors image) =
      (file_range cfg slot).read image := by
  have hcarries := h.carries hsized
  refine read_transfer_apart _ fun r hr => ?_
  rw [hcarries.memory] at hr
  obtain ⟨p, hp, hr⟩ := List.mem_flatMap.mp hr
  exact ((hcarries.fits p hp).memory_apart_file hr slot).symm

/-- The memory of each piece a read asks for, and what that piece is. -/
def wanted (residencies : G3Id → G3Residency) (pieces : G3Id → List (List β)) (op : G3TransferOp) :
    List (TransferRef × List β) :=
  op.claims.flatMap fun p => (block_refs op.blocks p.1).zip
    ((read_indices (residencies p.2) (block_refs op.blocks p.1)).map fun i =>
      (pieces p.2).getD i [])

/-- What is wanted is what the slots of the moves hold. -/
theorem wanted_eq {pieces : G3Id → List (List β)} {image : Image (String × Nat) β}
    (hholds : ∀ p ∈ op.claims, disk_pieces cfg image (residencies p.2) = pieces p.2) :
    op.wanted residencies pieces = (op.read_moves cfg residencies).map
      fun q => (q.1, PieceMove.on_disk cfg image q.2) := by
  unfold wanted read_moves
  rw [List.map_flatMap]
  refine List.flatMap_congr fun p hp => ?_
  have hpieces : ((read_indices (residencies p.2) (block_refs op.blocks p.1)).map
      fun i => (pieces p.2).getD i []) =
      (read_slots cfg (residencies p.2) (block_refs op.blocks p.1)).map
        (PieceMove.on_disk cfg image) := by
    unfold read_slots
    rw [List.map_map, ← hholds p hp]
    refine List.map_congr_left fun i _ => ?_
    unfold disk_pieces
    rw [Function.comp_apply, List.getD_eq_getElem?_getD, List.getD_eq_getElem?_getD,
      List.getElem?_map]
    cases (piece_slots cfg (residencies p.2))[i]? <;> rfl
  rw [hpieces, List.zip_map_right]
  rfl

/-- The memory of a requested piece gets what the piece is, unless the same transfer writes
something else over it. -/
theorem ReadFits.fetched (h : op.ReadFits cfg residencies)
    (hsized : ∀ p ∈ op.claims, WellSized cfg (residencies p.2)) {pieces : G3Id → List (List β)}
    {image : Image (String × Nat) β}
    (hholds : ∀ p ∈ op.claims, disk_pieces cfg image (residencies p.2) = pieces p.2)
    {before after : List (TransferRef × List β)} {ref : TransferRef} {bytes : List β}
    (hpiece : op.wanted residencies pieces = before ++ (ref, bytes) :: after)
    (halone : ∀ other ∈ after, (ref_range cfg ref).Apart (ref_range cfg other.1)) :
    (ref_range cfg ref).read (move op.file_descriptors op.memory_descriptors image) = bytes := by
  have hcarries := h.carries hsized
  -- the piece is at the same place among the moves
  rw [wanted_eq hholds] at hpiece
  obtain ⟨before', rest, hmoves, -, hrest⟩ := List.map_eq_append_iff.mp hpiece
  obtain ⟨q, after', rfl, hq, hafter⟩ := List.map_eq_cons_iff.mp hrest
  obtain ⟨rfl, rfl⟩ := Prod.mk.inj hq
  unfold move
  rw [hcarries.memory, hcarries.files, hmoves]
  refine PieceMove.fetch image (hmoves ▸ hcarries.fits) fun other hother => ?_
  exact halone (other.1, PieceMove.on_disk cfg image other.2)
    (hafter ▸ List.mem_map.mpr ⟨other, hother, rfl⟩)

end G3TransferOp

end Contents

end Kvcr
