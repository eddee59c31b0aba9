import Vllm.Worker.BlockTable
import Vllm.Library.ParallelWrites

/-!
# Slot mapping

For each token of a batch the kernel computes the slot of the cache that takes it.  The positions
of a request are split into virtual blocks over all ranks of a context-parallel group, in runs of
the interleave size, and each rank keeps the positions of its own.
-/

namespace Vllm.Worker

open Vllm.Library

def PAD_SLOT_ID : Int := -1

def tritonBlockSize : Nat := 1024

/-- The tokens of a batch, request after request. -/
structure TokenBatch where
  num_reqs : Nat
  num_tokens : Nat
  max_num_tokens : Nat
  query_start_loc : Nat → Nat
  positions : Nat → Nat
  first : query_start_loc 0 = 0
  monotone : ∀ req < num_reqs, query_start_loc req ≤ query_start_loc (req + 1)
  last : query_start_loc num_reqs = num_tokens
  fits : num_tokens ≤ max_num_tokens

/-- The arguments of the kernel on one rank. -/
structure SlotMappingLaunch where
  table : BlockTable
  total_cp_world_size : Nat
  total_cp_rank : Nat
  cp_kv_cache_interleave_size : Nat
  batch : TokenBatch

/-- The offsets of the lanes, chunk after chunk. -/
def laneOffsets (start_idx end_idx : Nat) : List Nat :=
  (List.range' start_idx ((end_idx - start_idx + tritonBlockSize - 1) / tritonBlockSize)
    tritonBlockSize).flatMap fun i => (List.range tritonBlockSize).map fun lane => i + lane

namespace SlotMappingLaunch

variable (launch : SlotMappingLaunch)

/-- A load from the flat table. -/
def loadBlock (offset : Nat) : Nat :=
  launch.table.block_table (offset / launch.table.max_num_blocks_per_req)
    (offset % launch.table.max_num_blocks_per_req)

def virtualBlockSize : Nat :=
  launch.table.kv_cache_block_size * launch.total_cp_world_size

def virtualBlockOffset (pos : Nat) : Nat :=
  pos - pos / launch.virtualBlockSize * launch.virtualBlockSize

def isLocal (pos : Nat) : Bool :=
  decide (launch.virtualBlockOffset pos / launch.cp_kv_cache_interleave_size %
    launch.total_cp_world_size = launch.total_cp_rank)

def localBlockOffset (pos : Nat) : Nat :=
  launch.virtualBlockOffset pos /
      (launch.total_cp_world_size * launch.cp_kv_cache_interleave_size) *
    launch.cp_kv_cache_interleave_size +
  launch.virtualBlockOffset pos % launch.cp_kv_cache_interleave_size

/-- The slot of a position of a request. -/
def slotId (req_idx pos : Nat) : Int :=
  let row_offset := req_idx * launch.table.max_num_blocks_per_req
  let block_index := pos / launch.virtualBlockSize * launch.table.blocks_per_kv_block +
    launch.localBlockOffset pos / launch.table.block_size
  let block_number :=
    if launch.isLocal pos then launch.loadBlock (row_offset + block_index) else 0
  let slot_offset := launch.localBlockOffset pos % launch.table.block_size
  if launch.isLocal pos then ((block_number * launch.table.block_size + slot_offset : Nat) : Int)
  else PAD_SLOT_ID

/-- What a program of the kernel stores.  The last one pads the mapping. -/
def kernel (program : Fin (launch.batch.num_reqs + 1)) (_ : Nat → Int) : List (Nat × Int) :=
  if program.val = launch.batch.num_reqs then
    ((laneOffsets launch.batch.num_tokens launch.batch.max_num_tokens).filter fun offset =>
      decide (offset < launch.batch.max_num_tokens)).map fun offset => (offset, PAD_SLOT_ID)
  else
    let start_idx := launch.batch.query_start_loc program
    let end_idx := launch.batch.query_start_loc (program + 1)
    ((laneOffsets start_idx end_idx).filter fun offset => decide (offset < end_idx)).map
      fun offset => (offset, launch.slotId program (launch.batch.positions offset))

/-- The slot mapping after the programs ran in some order. -/
def computeSlotMapping (order : List (Fin (launch.batch.num_reqs + 1)))
    (slot_mapping : Nat → Int) : Nat → Int :=
  runThreads launch.kernel order slot_mapping

end SlotMappingLaunch

/-! ## Programs -/

variable {offset req other : Nat}

theorem mem_laneOffsets {start_idx end_idx : Nat} :
    offset ∈ (laneOffsets start_idx end_idx).filter (fun offset => decide (offset < end_idx)) ↔
      start_idx ≤ offset ∧ offset < end_idx := by
  rw [List.mem_filter, decide_eq_true_eq]
  apply and_congr_left
  intro below
  rw [laneOffsets, List.mem_flatMap]
  have positive : 0 < tritonBlockSize := by decide
  constructor
  · rintro ⟨i, inChunks, inLanes⟩
    rcases List.mem_range'.mp inChunks with ⟨chunk, _, rfl⟩
    rcases List.mem_map.mp inLanes with ⟨lane, _, rfl⟩
    omega
  · intro above
    refine ⟨start_idx + tritonBlockSize * ((offset - start_idx) / tritonBlockSize), ?_, ?_⟩
    · apply List.mem_range'.mpr
      refine ⟨(offset - start_idx) / tritonBlockSize, ?_, rfl⟩
      rw [Nat.lt_div_iff_mul_lt positive]
      have whole := Nat.div_mul_le_self (offset - start_idx) tritonBlockSize
      omega
    · apply List.mem_map.mpr
      refine ⟨(offset - start_idx) % tritonBlockSize,
        List.mem_range.mpr (Nat.mod_lt _ positive), ?_⟩
      have parts := Nat.div_add_mod (offset - start_idx) tritonBlockSize
      omega

theorem TokenBatch.start_le (batch : TokenBatch) (le : req ≤ other)
    (inside : other ≤ batch.num_reqs) :
    batch.query_start_loc req ≤ batch.query_start_loc other := by
  induction le with
  | refl => exact Nat.le_refl _
  | step _ inductionHypothesis =>
      exact (inductionHypothesis (Nat.le_of_succ_le inside)).trans (batch.monotone _ inside)

/-- The tokens of two requests are apart. -/
theorem TokenBatch.req_unique (batch : TokenBatch) (inside : req < batch.num_reqs)
    (within : other < batch.num_reqs)
    (here : batch.query_start_loc req ≤ offset ∧ offset < batch.query_start_loc (req + 1))
    (there : batch.query_start_loc other ≤ offset ∧ offset < batch.query_start_loc (other + 1)) :
    req = other := by
  rcases Nat.lt_trichotomy req other with before | same | after
  · have next : req + 1 ≤ other := before
    have apart := batch.start_le next within.le
    omega
  · exact same
  · have next : other + 1 ≤ req := after
    have apart := batch.start_le next inside.le
    omega

namespace SlotMappingLaunch

variable (launch : SlotMappingLaunch)

/-- The entries that a program stores to. -/
def Cells (program : Fin (launch.batch.num_reqs + 1)) (offset : Nat) : Prop :=
  if program.val = launch.batch.num_reqs then
    launch.batch.num_tokens ≤ offset ∧ offset < launch.batch.max_num_tokens
  else
    launch.batch.query_start_loc program ≤ offset ∧
      offset < launch.batch.query_start_loc (program + 1)

theorem Cells.lt_num_tokens {program : Fin (launch.batch.num_reqs + 1)}
    (request : program.val ≠ launch.batch.num_reqs) (own : launch.Cells program offset) :
    offset < launch.batch.num_tokens := by
  rw [Cells, if_neg request] at own
  have before : program.val + 1 ≤ launch.batch.num_reqs := by omega
  have bound := launch.batch.start_le before (Nat.le_refl _)
  rw [launch.batch.last] at bound
  omega

theorem exclusive : Exclusive launch.kernel launch.Cells where
  own := by
    intro program memory write member
    rw [kernel] at member
    rw [Cells]
    split at member
    · rename_i last
      rcases List.mem_map.mp member with ⟨offset, inside, rfl⟩
      rw [if_pos last]
      exact mem_laneOffsets.mp inside
    · rename_i request
      rcases List.mem_map.mp member with ⟨offset, inside, rfl⟩
      rw [if_neg request]
      exact mem_laneOffsets.mp inside
  disjoint := by
    intro program other offset here there
    apply Fin.ext
    by_cases last : program.val = launch.batch.num_reqs
    · by_cases last' : other.val = launch.batch.num_reqs
      · exact last.trans last'.symm
      · have below := Cells.lt_num_tokens launch last' there
        rw [Cells, if_pos last] at here
        omega
    · by_cases last' : other.val = launch.batch.num_reqs
      · have below := Cells.lt_num_tokens launch last here
        rw [Cells, if_pos last'] at there
        omega
      · rw [Cells, if_neg last] at here
        rw [Cells, if_neg last'] at there
        exact launch.batch.req_unique (by omega) (by omega) here there
  local_ := fun _ _ _ _ => rfl

section Order

variable {order : List (Fin (launch.batch.num_reqs + 1))} (distinct : order.Nodup)
  (every : ∀ program, program ∈ order) (slot_mapping : Nat → Int)

include distinct every

/-- A token of a request gets the slot of its position, in any order of the programs. -/
theorem computeSlotMapping_token (inside : req < launch.batch.num_reqs)
    (above : launch.batch.query_start_loc req ≤ offset)
    (below : offset < launch.batch.query_start_loc (req + 1)) :
    launch.computeSlotMapping order slot_mapping offset =
      launch.slotId req (launch.batch.positions offset) := by
  have request : req ≠ launch.batch.num_reqs := inside.ne
  have own : launch.Cells ⟨req, by omega⟩ offset := by
    rw [Cells, if_neg request]
    exact ⟨above, below⟩
  rw [computeSlotMapping, runThreads_of_mem launch.exclusive distinct (every _) own]
  apply writeAll_eq
  · refine ⟨(offset, launch.slotId req (launch.batch.positions offset)), ?_, rfl⟩
    rw [kernel, if_neg request]
    exact List.mem_map.mpr ⟨offset, mem_laneOffsets.mpr ⟨above, below⟩, rfl⟩
  · intro write member same
    rw [kernel, if_neg request] at member
    rcases List.mem_map.mp member with ⟨other, _, rfl⟩
    have same : other = offset := same
    rw [same]

/-- The entries after the last token are padding. -/
theorem computeSlotMapping_padding (above : launch.batch.num_tokens ≤ offset)
    (below : offset < launch.batch.max_num_tokens) :
    launch.computeSlotMapping order slot_mapping offset = PAD_SLOT_ID := by
  have own : launch.Cells ⟨launch.batch.num_reqs, Nat.lt_succ_self _⟩ offset := by
    rw [Cells, if_pos rfl]
    exact ⟨above, below⟩
  rw [computeSlotMapping, runThreads_of_mem launch.exclusive distinct (every _) own]
  apply writeAll_eq
  · refine ⟨(offset, PAD_SLOT_ID), ?_, rfl⟩
    rw [kernel, if_pos rfl]
    exact List.mem_map.mpr ⟨offset, mem_laneOffsets.mpr ⟨above, below⟩, rfl⟩
  · intro write member _
    rw [kernel, if_pos rfl] at member
    rcases List.mem_map.mp member with ⟨_, _, rfl⟩
    rfl

end Order

end SlotMappingLaunch

/-! ## Interleaved positions -/

section Interleave

variable (world interleave offset : Nat)

/-- An offset is the run of its owner, and a place in the run. -/
theorem interleave_eq : offset = offset / (world * interleave) * (world * interleave) +
    (offset / interleave % world * interleave + offset % interleave) :=
  calc offset
      = offset / interleave * interleave + offset % interleave := (Nat.div_add_mod' _ _).symm
    _ = (offset / interleave / world * world + offset / interleave % world) * interleave +
          offset % interleave := by rw [Nat.div_add_mod' (offset / interleave) world]
    _ = offset / (world * interleave) * (world * interleave) +
          (offset / interleave % world * interleave + offset % interleave) := by
        rw [Nat.add_mul, Nat.mul_assoc, Nat.div_div_eq_div_mul, Nat.mul_comm interleave world,
          Nat.add_assoc]

variable {world interleave offset} {runs : Nat}

/-- The place on the owner is below its share. -/
theorem localOffset_lt (positive : 0 < interleave) (inside : offset < runs * interleave * world) :
    offset / (world * interleave) * interleave + offset % interleave < runs * interleave := by
  apply block_lt _ (Nat.mod_lt _ positive)
  apply Nat.div_lt_of_lt_mul
  calc offset < runs * interleave * world := inside
    _ = world * interleave * runs := by rw [Nat.mul_assoc, Nat.mul_comm, Nat.mul_comm interleave]

/-- The owner and the place on it determine the offset. -/
theorem offset_eq (positive : 0 < interleave)
    (owner : offset / interleave % world = other / interleave % world)
    (place : offset / (world * interleave) * interleave + offset % interleave =
      other / (world * interleave) * interleave + other % interleave) : offset = other := by
  rcases block_eq (Nat.mod_lt _ positive) (Nat.mod_lt _ positive) place with ⟨rounds, places⟩
  rw [interleave_eq world interleave offset, interleave_eq world interleave other, owner, rounds,
    places]

end Interleave

/-! ## Slots of positions -/

/-- The rank that keeps a position. -/
def positionOwner (world interleave pos : Nat) : Nat :=
  pos / interleave % world

namespace SlotMappingLaunch

variable {launch : SlotMappingLaunch} {held : Nat → List Nat}

theorem virtualBlockOffset_eq (pos : Nat) :
    launch.virtualBlockOffset pos = pos % launch.virtualBlockSize := by
  rw [virtualBlockOffset, Nat.mul_comm, Nat.mod_eq_sub_mul_div]

theorem virtualBlockOffset_lt (pos : Nat) (positive : 0 < launch.table.kv_cache_block_size)
    (world : 0 < launch.total_cp_world_size) :
    launch.virtualBlockOffset pos <
      launch.table.kv_cache_block_size * launch.total_cp_world_size := by
  rw [virtualBlockOffset_eq]
  exact Nat.mod_lt _ (Nat.mul_pos positive world)

/-- Whole rounds of the ranks do not change the owner. -/
theorem owner_virtualBlockOffset (launch : SlotMappingLaunch) (pos : Nat)
    (divides : launch.cp_kv_cache_interleave_size ∣ launch.table.kv_cache_block_size) :
    launch.virtualBlockOffset pos / launch.cp_kv_cache_interleave_size %
        launch.total_cp_world_size =
      positionOwner launch.total_cp_world_size launch.cp_kv_cache_interleave_size pos := by
  rcases divides with ⟨runs, split⟩
  rw [virtualBlockOffset_eq, virtualBlockSize, split, Nat.mul_assoc, Nat.mod_mul_right_div_self,
    Nat.mod_mul_left_mod, positionOwner]

theorem isLocal_iff (launch : SlotMappingLaunch) (pos : Nat)
    (divides : launch.cp_kv_cache_interleave_size ∣ launch.table.kv_cache_block_size) :
    launch.isLocal pos = true ↔ positionOwner launch.total_cp_world_size
      launch.cp_kv_cache_interleave_size pos = launch.total_cp_rank := by
  rw [isLocal, decide_eq_true_eq, owner_virtualBlockOffset launch pos divides]

theorem localBlockOffset_lt (launch : SlotMappingLaunch) (pos : Nat)
    (positive : 0 < launch.table.kv_cache_block_size)
    (world : 0 < launch.total_cp_world_size)
    (divides : launch.cp_kv_cache_interleave_size ∣ launch.table.kv_cache_block_size) :
    launch.localBlockOffset pos < launch.table.kv_cache_block_size := by
  have inside := virtualBlockOffset_lt pos positive world
  have some_ := Nat.pos_of_dvd_of_pos divides positive
  rcases divides with ⟨runs, split⟩
  rw [split, Nat.mul_comm launch.cp_kv_cache_interleave_size] at inside ⊢
  exact localOffset_lt some_ inside

/-- On its owner a position has its place in the request's block. -/
theorem slotId_eq (holds : launch.table.Holds held)
    (positive : 0 < launch.table.kv_cache_block_size) (world : 0 < launch.total_cp_world_size)
    (divides : launch.cp_kv_cache_interleave_size ∣ launch.table.kv_cache_block_size) {pos id : Nat}
    (local_ : launch.isLocal pos = true)
    (covered : (held req)[pos / launch.virtualBlockSize]? = some id) :
    launch.slotId req pos =
      ((id * launch.table.kv_cache_block_size + launch.localBlockOffset pos : Nat) : Int) := by
  have below := localBlockOffset_lt launch pos positive world divides
  have kernel : launch.localBlockOffset pos / launch.table.block_size <
      launch.table.blocks_per_kv_block := by
    apply Nat.div_lt_of_lt_mul
    rwa [Nat.mul_comm, holds.split]
  have inRow := (holds.entry_lt covered kernel).trans_le (holds.fits req)
  have number : launch.loadBlock (req * launch.table.max_num_blocks_per_req +
      (pos / launch.virtualBlockSize * launch.table.blocks_per_kv_block +
        launch.localBlockOffset pos / launch.table.block_size)) =
      id * launch.table.blocks_per_kv_block +
        launch.localBlockOffset pos / launch.table.block_size := by
    rw [loadBlock, block_div inRow, Nat.mul_add_mod', Nat.mod_eq_of_lt inRow]
    exact holds.entry req _ id _ covered kernel
  rw [slotId]
  simp only [local_, if_true, number]
  congr 1
  rw [Nat.add_mul, Nat.mul_assoc, holds.split, Nat.add_assoc, Nat.div_add_mod']

theorem slotId_of_not_local {pos : Nat} (other : launch.isLocal pos = false) :
    launch.slotId req pos = PAD_SLOT_ID := by
  rw [slotId]
  simp only [other, Bool.false_eq_true, if_false]

end SlotMappingLaunch

/-! ## The mapping over all ranks -/

/-- A token of a request whose position lies in the request's blocks. -/
structure TokenBatch.Covered (batch : TokenBatch) (held : Nat → List Nat) (virtual_block_size : Nat)
    (req offset : Nat) : Prop where
  inside : req < batch.num_reqs
  above : batch.query_start_loc req ≤ offset
  below : offset < batch.query_start_loc (req + 1)
  covered : batch.positions offset / virtual_block_size < (held req).length

/-- No block stands twice in the rows of a batch. -/
def DistinctBlocks (held : Nat → List Nat) (num_reqs : Nat) : Prop :=
  ((List.range num_reqs).flatMap held).Nodup

theorem DistinctBlocks.unique {held : Nat → List Nat} {num_reqs : Nat}
    (distinct : DistinctBlocks held num_reqs) {block there id : Nat} (inside : req < num_reqs)
    (within : other < num_reqs) (here : (held req)[block]? = some id)
    (away : (held other)[there]? = some id) : req = other ∧ block = there := by
  rcases List.nodup_flatMap.mp distinct with ⟨rows, apart⟩
  have same : req = other := by
    by_contra differ
    have symmetric : Std.Symm (Function.onFun List.Disjoint held) :=
      ⟨fun _ _ disjoint => List.Disjoint.symm disjoint⟩
    have disjoint := apart.forall (List.mem_range.mpr inside) (List.mem_range.mpr within) differ
    exact disjoint (List.mem_of_getElem? here) (List.mem_of_getElem? away)
  subst same
  refine ⟨rfl, ?_⟩
  have small := (List.getElem?_eq_some_iff.mp here).1
  rw [← away] at here
  exact (List.getElem?_inj small (rows req (List.mem_range.mpr inside))).mp here

/-- The slots that the ranks give to the tokens of a batch. -/
structure SlotsAssigned (batch : TokenBatch) (held : Nat → List Nat)
    (block_size world interleave num_blocks : Nat) (slots : Nat → Nat → Int) : Prop where
  one_rank : ∀ req offset, batch.Covered held (block_size * world) req offset →
    ∃ rank < world, slots rank offset ≠ PAD_SLOT_ID ∧
      ∀ other < world, slots other offset ≠ PAD_SLOT_ID → other = rank
  owner : ∀ req offset, batch.Covered held (block_size * world) req offset → ∀ rank < world,
    slots rank offset ≠ PAD_SLOT_ID →
    positionOwner world interleave (batch.positions offset) = rank
  own_block : ∀ req offset, batch.Covered held (block_size * world) req offset → ∀ rank < world,
    slots rank offset ≠ PAD_SLOT_ID → ∃ id slot : Nat,
      (held req)[batch.positions offset / (block_size * world)]? = some id ∧
      slots rank offset = slot ∧ slot / block_size = id ∧ slot < num_blocks * block_size
  apart : ∀ req offset other offset', batch.Covered held (block_size * world) req offset →
    batch.Covered held (block_size * world) other offset' → ∀ rank < world,
    slots rank offset ≠ PAD_SLOT_ID → slots rank offset' ≠ PAD_SLOT_ID →
    slots rank offset = slots rank offset' →
    req = other ∧ batch.positions offset = batch.positions offset'
  padded : ∀ rank < world, ∀ offset, batch.num_tokens ≤ offset → offset < batch.max_num_tokens →
    slots rank offset = PAD_SLOT_ID

end Vllm.Worker
