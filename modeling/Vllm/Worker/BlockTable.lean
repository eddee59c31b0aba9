import Vllm.Library.Blocks
import Mathlib.Logic.Function.Basic

/-!
# Block table

Each request of the batch has a row with the ids of its blocks.  Where the attention kernel uses
smaller blocks than the cache, each block of the cache stands as its kernel blocks.
-/

namespace Vllm.Worker

open Vllm.Library

/-- The table of one cache group. -/
structure BlockTable where
  max_num_reqs : Nat
  max_num_blocks_per_req : Nat
  kv_cache_block_size : Nat
  block_size : Nat
  blocks_per_kv_block : Nat
  use_hybrid_blocks : Bool
  block_table : Nat → Nat → Nat
  num_blocks_per_row : Nat → Nat

namespace BlockTable

def init (block_size max_num_reqs max_num_blocks_per_req kernel_block_size : Nat) :
    Option BlockTable :=
  if kernel_block_size = block_size then
    some {
      max_num_reqs := max_num_reqs
      max_num_blocks_per_req := max_num_blocks_per_req * 1
      kv_cache_block_size := block_size
      block_size := block_size
      blocks_per_kv_block := 1
      use_hybrid_blocks := false
      block_table := fun _ _ => 0
      num_blocks_per_row := fun _ => 0 }
  else if kernel_block_size = 0 ∨ block_size % kernel_block_size ≠ 0 then none
  else
    some {
      max_num_reqs := max_num_reqs
      max_num_blocks_per_req := max_num_blocks_per_req * (block_size / kernel_block_size)
      kv_cache_block_size := block_size
      block_size := kernel_block_size
      blocks_per_kv_block := block_size / kernel_block_size
      use_hybrid_blocks := true
      block_table := fun _ _ => 0
      num_blocks_per_row := fun _ => 0 }

/-- `map_to_kernel_blocks`. -/
def mapToKernelBlocks (kv_manager_block_ids : List Nat) (blocks_per_kv_block : Nat) : List Nat :=
  if blocks_per_kv_block = 1 then kv_manager_block_ids
  else kv_manager_block_ids.flatMap fun id =>
    (List.range blocks_per_kv_block).map fun kernel => id * blocks_per_kv_block + kernel

/-- Writes to a part of a row. -/
def writeRow (table : Nat → Nat → Nat) (row_idx start : Nat) (entries : List Nat) :
    Nat → Nat → Nat :=
  fun row column =>
    if row = row_idx ∧ start ≤ column ∧ column < start + entries.length then
      entries.getD (column - start) 0
    else table row column

/-- `append_row`; a row outside of the table and a row that is too long are errors. -/
def appendRow (table : BlockTable) (block_ids : List Nat) (row_idx : Nat) : Option BlockTable :=
  if block_ids = [] then some table
  else
    let block_ids :=
      if table.use_hybrid_blocks then mapToKernelBlocks block_ids table.blocks_per_kv_block
      else block_ids
    let num_blocks := block_ids.length
    let start := table.num_blocks_per_row row_idx
    if row_idx < table.max_num_reqs ∧ start + num_blocks ≤ table.max_num_blocks_per_req then
      some { table with
        num_blocks_per_row :=
          Function.update table.num_blocks_per_row row_idx (start + num_blocks)
        block_table := writeRow table.block_table row_idx start block_ids }
    else none

def addRow (table : BlockTable) (block_ids : List Nat) (row_idx : Nat) : Option BlockTable :=
  if row_idx < table.max_num_reqs then
    appendRow { table with
      num_blocks_per_row := Function.update table.num_blocks_per_row row_idx 0 } block_ids row_idx
  else none

/-- The first entries of a row become zero. -/
def zeroRow (table : Nat → Nat → Nat) (row_idx num_blocks : Nat) : Nat → Nat → Nat :=
  fun row column => if row = row_idx ∧ column < num_blocks then 0 else table row column

def clearRow (table : BlockTable) (row_idx : Nat) : Option BlockTable :=
  if row_idx < table.max_num_reqs then
    some { table with
      block_table := zeroRow table.block_table row_idx (table.num_blocks_per_row row_idx)
      num_blocks_per_row := Function.update table.num_blocks_per_row row_idx 0 }
  else none

def moveRow (table : BlockTable) (src tgt : Nat) : Option BlockTable :=
  if src < table.max_num_reqs ∧ tgt < table.max_num_reqs then
    let num_blocks := table.num_blocks_per_row src
    let moved := fun row column =>
      if row = tgt ∧ column < num_blocks then table.block_table src column
      else table.block_table row column
    some { table with
      block_table := zeroRow moved src num_blocks
      num_blocks_per_row := Function.update
        (Function.update table.num_blocks_per_row tgt num_blocks) src 0 }
  else none

def swapRow (table : BlockTable) (src tgt : Nat) : Option BlockTable :=
  if src < table.max_num_reqs ∧ tgt < table.max_num_reqs then
    some { table with
      num_blocks_per_row := Function.update
        (Function.update table.num_blocks_per_row src (table.num_blocks_per_row tgt)) tgt
        (table.num_blocks_per_row src)
      block_table := Function.update
        (Function.update table.block_table src (table.block_table tgt)) tgt
        (table.block_table src) }
  else none

end BlockTable

/-- A change of the rows. -/
inductive RowUpdate where
  | append (block_ids : List Nat) (row_idx : Nat)
  | add (block_ids : List Nat) (row_idx : Nat)
  | clear (row_idx : Nat)
  | move (src tgt : Nat)
  | swap (src tgt : Nat)

def BlockTable.update (table : BlockTable) : RowUpdate → Option BlockTable
  | .append block_ids row_idx => table.appendRow block_ids row_idx
  | .add block_ids row_idx => table.addRow block_ids row_idx
  | .clear row_idx => table.clearRow row_idx
  | .move src tgt => table.moveRow src tgt
  | .swap src tgt => table.swapRow src tgt

/-! ## Blocks of the requests -/

/-- The cache blocks that the requests hold after a change, without any table. -/
def holdBlocks (held : Nat → List Nat) : RowUpdate → Nat → List Nat
  | .append block_ids row_idx => Function.update held row_idx (held row_idx ++ block_ids)
  | .add block_ids row_idx => Function.update held row_idx block_ids
  | .clear row_idx => Function.update held row_idx []
  | .move src tgt => Function.update (Function.update held tgt (held src)) src []
  | .swap src tgt => Function.update (Function.update held src (held tgt)) tgt (held src)

/-- The rows hold the kernel blocks of the requests' cache blocks. -/
structure BlockTable.Holds (table : BlockTable) (held : Nat → List Nat) : Prop where
  split : table.blocks_per_kv_block * table.block_size = table.kv_cache_block_size
  whole : table.use_hybrid_blocks = false → table.blocks_per_kv_block = 1
  count : ∀ row, table.num_blocks_per_row row = (held row).length * table.blocks_per_kv_block
  fits : ∀ row, table.num_blocks_per_row row ≤ table.max_num_blocks_per_req
  entry : ∀ row block id kernel : Nat, (held row)[block]? = some id →
    kernel < table.blocks_per_kv_block →
    table.block_table row (block * table.blocks_per_kv_block + kernel) =
      id * table.blocks_per_kv_block + kernel

namespace BlockTable

variable {block_size max_num_reqs max_num_blocks_per_req kernel_block_size row_idx src tgt : Nat}

theorem holds_init {table : BlockTable}
    (made : init block_size max_num_reqs max_num_blocks_per_req kernel_block_size = some table) :
    table.Holds (fun _ => []) := by
  rw [init] at made
  split at made
  · cases made
    constructor
    · exact Nat.one_mul _
    · exact fun _ => rfl
    · exact fun _ => (Nat.zero_mul _).symm
    · exact fun _ => Nat.zero_le _
    · intro row block id kernel read
      cases read
  · split at made
    · cases made
    · rename_i whole
      have divides : block_size % kernel_block_size = 0 := by
        by_contra rest
        exact whole (Or.inr rest)
      cases made
      constructor
      · exact Nat.div_mul_cancel (Nat.dvd_of_mod_eq_zero divides)
      · intro hybrid
        cases hybrid
      · exact fun _ => (Nat.zero_mul _).symm
      · exact fun _ => Nat.zero_le _
      · intro row block id kernel read
        cases read

/-- The kernel blocks of cache blocks. -/
theorem mapToKernelBlocks_spec (ids : List Nat) (blocks_per_kv_block : Nat) :
    (mapToKernelBlocks ids blocks_per_kv_block).length = ids.length * blocks_per_kv_block ∧
      ∀ block id kernel : Nat, ids[block]? = some id → kernel < blocks_per_kv_block →
        (mapToKernelBlocks ids blocks_per_kv_block)[block * blocks_per_kv_block + kernel]? =
          some (id * blocks_per_kv_block + kernel) := by
  rw [mapToKernelBlocks]
  split
  · rename_i single
    subst single
    refine ⟨(Nat.mul_one _).symm, ?_⟩
    intro block id kernel read small
    have none_ : kernel = 0 := by omega
    subst none_
    rw [Nat.mul_one, Nat.mul_one, Nat.add_zero, Nat.add_zero]
    exact read
  · have blocks : ∀ id ∈ ids, ((List.range blocks_per_kv_block).map fun kernel =>
        id * blocks_per_kv_block + kernel).length = blocks_per_kv_block := by
      intro id _
      rw [List.length_map, List.length_range]
    refine ⟨length_flatMap_blocks blocks_per_kv_block blocks, ?_⟩
    intro block id kernel read small
    rw [getElem?_flatMap_blocks blocks_per_kv_block blocks small, read, Option.bind_some,
      List.getElem?_map, List.getElem?_range small, Option.map_some]

variable {table after : BlockTable} {held : Nat → List Nat}

theorem Holds.entry_lt (holds : table.Holds held) {row block id kernel : Nat}
    (read : (held row)[block]? = some id) (small : kernel < table.blocks_per_kv_block) :
    block * table.blocks_per_kv_block + kernel < table.num_blocks_per_row row := by
  rw [holds.count]
  exact block_lt (List.getElem?_eq_some_iff.mp read).1 small

/-- A row whose count is set to zero holds nothing. -/
theorem Holds.reset (holds : table.Holds held) (row_idx : Nat) :
    { table with num_blocks_per_row :=
        Function.update table.num_blocks_per_row row_idx 0 : BlockTable }.Holds
      (Function.update held row_idx []) := by
  constructor
  · exact holds.split
  · exact holds.whole
  · intro row
    dsimp only
    by_cases here : row = row_idx
    · subst here
      rw [Function.update_self, Function.update_self, List.length_nil, Nat.zero_mul]
    · rw [Function.update_of_ne here, Function.update_of_ne here]
      exact holds.count row
  · intro row
    dsimp only
    by_cases here : row = row_idx
    · subst here
      rw [Function.update_self]
      exact Nat.zero_le _
    · rw [Function.update_of_ne here]
      exact holds.fits row
  · intro row block id kernel read small
    by_cases here : row = row_idx
    · subst here
      rw [Function.update_self] at read
      cases read
    · rw [Function.update_of_ne here] at read
      exact holds.entry row block id kernel read small

theorem Holds.appendRow (holds : table.Holds held) {block_ids : List Nat}
    (step : table.appendRow block_ids row_idx = some after) :
    after.Holds (Function.update held row_idx (held row_idx ++ block_ids)) := by
  rw [BlockTable.appendRow] at step
  split at step
  · rename_i empty
    cases step
    rw [empty, List.append_nil, Function.update_eq_self]
    exact holds
  · -- Both kinds of table append the kernel blocks.
    have ids : (if table.use_hybrid_blocks then
        mapToKernelBlocks block_ids table.blocks_per_kv_block else block_ids) =
        mapToKernelBlocks block_ids table.blocks_per_kv_block := by
      cases hybrid : table.use_hybrid_blocks with
      | true => rfl
      | false => rw [holds.whole hybrid, mapToKernelBlocks, if_pos rfl, if_neg Bool.false_ne_true]
    simp only [ids] at step
    rcases mapToKernelBlocks_spec block_ids table.blocks_per_kv_block with ⟨length, kernelAt⟩
    generalize mapToKernelBlocks block_ids table.blocks_per_kv_block = kernel_ids
      at step length kernelAt
    split at step
    · rename_i room
      cases step
      constructor
      · exact holds.split
      · exact holds.whole
      · intro row
        dsimp only
        by_cases here : row = row_idx
        · subst here
          rw [Function.update_self, Function.update_self, List.length_append, Nat.add_mul,
            holds.count, length]
        · rw [Function.update_of_ne here, Function.update_of_ne here]
          exact holds.count row
      · intro row
        dsimp only
        by_cases here : row = row_idx
        · subst here
          rw [Function.update_self]
          exact room.2
        · rw [Function.update_of_ne here]
          exact holds.fits row
      · intro row block id kernel read small
        by_cases here : row = row_idx
        · subst here
          rw [Function.update_self] at read
          rcases Nat.lt_or_ge block (held row).length with old | new
          · rw [List.getElem?_append_left old] at read
            have before := holds.entry_lt read small
            dsimp only
            rw [writeRow, if_neg (by omega)]
            exact holds.entry row block id kernel read small
          · rw [List.getElem?_append_right new] at read
            have place : block * table.blocks_per_kv_block + kernel =
                table.num_blocks_per_row row +
                  ((block - (held row).length) * table.blocks_per_kv_block + kernel) := by
              rw [holds.count, ← Nat.add_assoc, ← Nat.add_mul, Nat.add_sub_cancel' new]
            have value := kernelAt _ id kernel read small
            have inside := (List.getElem?_eq_some_iff.mp value).1
            dsimp only
            rw [place, writeRow, if_pos ⟨rfl, Nat.le_add_right _ _, Nat.add_lt_add_left inside _⟩,
              Nat.add_sub_cancel_left, List.getD_eq_getElem?_getD, value, Option.getD_some]
        · rw [Function.update_of_ne here] at read
          dsimp only
          rw [writeRow, if_neg fun both => here both.1]
          exact holds.entry row block id kernel read small
    · cases step

theorem Holds.clearRow (holds : table.Holds held) (step : table.clearRow row_idx = some after) :
    after.Holds (Function.update held row_idx []) := by
  rw [BlockTable.clearRow] at step
  split at step
  · cases step
    have reset := holds.reset row_idx
    refine ⟨reset.split, reset.whole, reset.count, reset.fits, ?_⟩
    intro row block id kernel read small
    have other : row ≠ row_idx := by
      rintro rfl
      rw [Function.update_self] at read
      cases read
    dsimp only
    rw [zeroRow, if_neg fun both => other both.1]
    exact reset.entry row block id kernel read small
  · cases step

theorem Holds.moveRow (holds : table.Holds held) (step : table.moveRow src tgt = some after) :
    after.Holds (Function.update (Function.update held tgt (held src)) src []) := by
  rw [BlockTable.moveRow] at step
  split at step
  · cases step
    constructor
    · exact holds.split
    · exact holds.whole
    · intro row
      dsimp only
      by_cases source : row = src
      · subst source
        rw [Function.update_self, Function.update_self, List.length_nil, Nat.zero_mul]
      · rw [Function.update_of_ne source, Function.update_of_ne source]
        by_cases target : row = tgt
        · subst target
          rw [Function.update_self, Function.update_self]
          exact holds.count src
        · rw [Function.update_of_ne target, Function.update_of_ne target]
          exact holds.count row
    · intro row
      dsimp only
      by_cases source : row = src
      · subst source
        rw [Function.update_self]
        exact Nat.zero_le _
      · rw [Function.update_of_ne source]
        by_cases target : row = tgt
        · subst target
          rw [Function.update_self]
          exact holds.fits src
        · rw [Function.update_of_ne target]
          exact holds.fits row
    · intro row block id kernel read small
      by_cases source : row = src
      · subst source
        rw [Function.update_self] at read
        cases read
      · rw [Function.update_of_ne source] at read
        dsimp only
        rw [zeroRow, if_neg fun both => source both.1]
        by_cases target : row = tgt
        · subst target
          rw [Function.update_self] at read
          rw [if_pos ⟨rfl, holds.entry_lt read small⟩]
          exact holds.entry src block id kernel read small
        · rw [Function.update_of_ne target] at read
          rw [if_neg fun both => target both.1]
          exact holds.entry row block id kernel read small
  · cases step

theorem Holds.swapRow (holds : table.Holds held) (step : table.swapRow src tgt = some after) :
    after.Holds (Function.update (Function.update held src (held tgt)) tgt (held src)) := by
  rw [BlockTable.swapRow] at step
  split at step
  · cases step
    -- Each row stands for one of the old rows.
    have row_of : ∀ row, ∃ old, (∀ {β : Type} (f : Nat → β),
        Function.update (Function.update f src (f tgt)) tgt (f src) row = f old) := by
      intro row
      by_cases target : row = tgt
      · subst target
        exact ⟨src, fun f => Function.update_self _ _ _⟩
      · by_cases source : row = src
        · subst source
          refine ⟨tgt, fun f => ?_⟩
          rw [Function.update_of_ne target, Function.update_self]
        · refine ⟨row, fun f => ?_⟩
          rw [Function.update_of_ne target, Function.update_of_ne source]
    constructor
    · exact holds.split
    · exact holds.whole
    · intro row
      dsimp only
      rcases row_of row with ⟨old, same⟩
      rw [same, same]
      exact holds.count old
    · intro row
      dsimp only
      rcases row_of row with ⟨old, same⟩
      rw [same]
      exact holds.fits old
    · intro row block id kernel read small
      rcases row_of row with ⟨old, same⟩
      rw [same] at read
      dsimp only
      rw [same]
      exact holds.entry old block id kernel read small
  · cases step

variable {change : RowUpdate}

/-- A change of the rows changes the blocks that the requests hold. -/
theorem Holds.update (holds : table.Holds held) (step : table.update change = some after) :
    after.Holds (holdBlocks held change) := by
  cases change with
  | append block_ids row_idx => exact holds.appendRow step
  | add block_ids row_idx =>
      have step : table.addRow block_ids row_idx = some after := step
      rw [addRow] at step
      split at step
      · have appended := (holds.reset row_idx).appendRow step
        rw [Function.update_self, List.nil_append, Function.update_idem] at appended
        exact appended
      · cases step
  | clear row_idx => exact holds.clearRow step
  | move src tgt => exact holds.moveRow step
  | swap src tgt => exact holds.swapRow step

/-- A whole run of changes. -/
theorem Holds.run : ∀ {changes : List RowUpdate} {table after : BlockTable}
    {held : Nat → List Nat}, table.Holds held → changes.foldlM BlockTable.update table = some after →
      after.Holds (changes.foldl holdBlocks held) := by
  intro changes
  induction changes with
  | nil =>
      intro table after held holds run
      cases run
      exact holds
  | cons change changes inductionHypothesis =>
      intro table after held holds run
      rcases Option.bind_eq_some_iff.mp run with ⟨next, step, rest⟩
      exact inductionHypothesis (holds.update step) rest

theorem update_kv_cache_block_size (step : table.update change = some after) :
    after.kv_cache_block_size = table.kv_cache_block_size := by
  have append : ∀ {table after : BlockTable} {block_ids : List Nat} {row_idx : Nat},
      table.appendRow block_ids row_idx = some after →
      after.kv_cache_block_size = table.kv_cache_block_size := by
    intro table after block_ids row_idx step
    rw [BlockTable.appendRow] at step
    split at step
    · cases step
      rfl
    · dsimp only at step
      split at step
      · split at step <;> cases step
        rfl
      · split at step <;> cases step
        rfl
  cases change with
  | append block_ids row_idx => exact append step
  | add block_ids row_idx =>
      have step : table.addRow block_ids row_idx = some after := step
      rw [addRow] at step
      split at step
      · have same := append step
        exact same
      · cases step
  | clear row_idx =>
      have step : table.clearRow row_idx = some after := step
      rw [BlockTable.clearRow] at step
      split at step <;> cases step
      rfl
  | move src tgt =>
      have step : table.moveRow src tgt = some after := step
      rw [BlockTable.moveRow] at step
      split at step <;> cases step
      rfl
  | swap src tgt =>
      have step : table.swapRow src tgt = some after := step
      rw [BlockTable.swapRow] at step
      split at step <;> cases step
      rfl

/-- A new table after a run of changes. -/
def build (block_size max_num_reqs max_num_blocks_per_req kernel_block_size : Nat)
    (changes : List RowUpdate) : Option BlockTable :=
  (init block_size max_num_reqs max_num_blocks_per_req kernel_block_size).bind fun table =>
    changes.foldlM BlockTable.update table

theorem build_spec {changes : List RowUpdate}
    (built : build block_size max_num_reqs max_num_blocks_per_req kernel_block_size changes =
      some table) :
    table.Holds (changes.foldl holdBlocks fun _ => []) ∧ table.kv_cache_block_size = block_size := by
  rcases Option.bind_eq_some_iff.mp built with ⟨first, made, run⟩
  refine ⟨(holds_init made).run run, ?_⟩
  have size : first.kv_cache_block_size = block_size := by
    rw [init] at made
    split at made
    · cases made
      rfl
    · split at made <;> cases made
      rfl
  rw [← size]
  clear made size built
  induction changes generalizing first with
  | nil =>
      cases run
      rfl
  | cons change changes inductionHypothesis =>
      rcases Option.bind_eq_some_iff.mp run with ⟨next, step, rest⟩
      exact (inductionHypothesis next rest).trans (update_kv_cache_block_size step)

end BlockTable

end Vllm.Worker
