import Mathlib.Algebra.BigOperators.Intervals
import Mathlib.Data.List.ProdSigma
import Mathlib.Logic.Function.Basic

/-!
# Threads that write cells of their own

The threads of a grid run in some order, each to its end.  When no two of them write one cell and
none reads a cell of another, every cell holds what its thread writes in the memory before the run.
-/

namespace Vllm.Library

variable {α β τ : Type*} [DecidableEq α]

/-- Write a list of cells, one after another. -/
def writeAll (writes : List (α × β)) (memory : α → β) : α → β :=
  writes.foldl (fun memory write => Function.update memory write.1 write.2) memory

variable {writes : List (α × β)} {memory : α → β} {cell : α} {width height columns rows : Nat}

theorem writeAll_of_forall_ne (apart : ∀ write ∈ writes, write.1 ≠ cell) :
    writeAll writes memory cell = memory cell := by
  induction writes generalizing memory with
  | nil => rfl
  | cons write rest inductionHypothesis =>
      refine (inductionHypothesis fun other member =>
        apart other (List.mem_cons_of_mem _ member)).trans ?_
      exact Function.update_of_ne (apart write List.mem_cons_self).symm _ _

/-- All writes to a cell write the same. -/
theorem writeAll_eq {value : β} (written : ∃ write ∈ writes, write.1 = cell)
    (agree : ∀ write ∈ writes, write.1 = cell → write.2 = value) :
    writeAll writes memory cell = value := by
  induction writes generalizing memory with
  | nil =>
      rcases written with ⟨write, member, -⟩
      cases member
  | cons write rest inductionHypothesis =>
      rw [writeAll, List.foldl_cons]
      by_cases again : ∃ write ∈ rest, write.1 = cell
      · exact inductionHypothesis again fun other member =>
          agree other (List.mem_cons_of_mem _ member)
      · have apart : ∀ other ∈ rest, other.1 ≠ cell := fun other member same =>
          again ⟨other, member, same⟩
        refine (writeAll_of_forall_ne apart).trans ?_
        rcases written with ⟨other, member, same⟩
        rcases List.mem_cons.mp member with rfl | member
        · subst same
          rw [Function.update_self]
          exact agree other List.mem_cons_self rfl
        · exact absurd same (apart other member)

theorem writeAll_congr {memory' : α → β} (same : memory cell = memory' cell) :
    writeAll writes memory cell = writeAll writes memory' cell := by
  induction writes generalizing memory memory' with
  | nil => exact same
  | cons write rest inductionHypothesis =>
      apply inductionHypothesis
      dsimp only
      by_cases mine : cell = write.1
      · rw [mine, Function.update_self, Function.update_self]
      · rw [Function.update_of_ne mine, Function.update_of_ne mine, same]

/-- Run threads to their ends, one after another. -/
def runThreads (writes : τ → (α → β) → List (α × β)) (threads : List τ) (memory : α → β) :
    α → β :=
  threads.foldl (fun memory thread => writeAll (writes thread memory) memory) memory

/-- Each thread writes cells of its own, and reads no others that are written. -/
structure Exclusive (writes : τ → (α → β) → List (α × β)) (cells : τ → α → Prop) : Prop where
  own : ∀ thread memory, ∀ write ∈ writes thread memory, cells thread write.1
  disjoint : ∀ thread other cell, cells thread cell → cells other cell → thread = other
  local_ : ∀ thread memory memory', (∀ cell, cells thread cell → memory cell = memory' cell) →
    writes thread memory = writes thread memory'

variable {writes : τ → (α → β) → List (α × β)} {cells : τ → α → Prop} {threads : List τ}

theorem runThreads_of_forall_not (exclusive : Exclusive writes cells)
    (apart : ∀ thread ∈ threads, ¬ cells thread cell) :
    runThreads writes threads memory cell = memory cell := by
  induction threads generalizing memory with
  | nil => rfl
  | cons thread rest inductionHypothesis =>
      refine (inductionHypothesis fun other member =>
        apart other (List.mem_cons_of_mem _ member)).trans ?_
      apply writeAll_of_forall_ne
      rintro write member rfl
      exact apart thread List.mem_cons_self (exclusive.own thread memory write member)

/-- A cell of a thread holds what the thread writes there, in any order of the threads. -/
theorem runThreads_of_mem (exclusive : Exclusive writes cells) (distinct : threads.Nodup)
    {thread : τ} (member : thread ∈ threads) (own : cells thread cell) :
    runThreads writes threads memory cell = writeAll (writes thread memory) memory cell := by
  induction threads generalizing memory with
  | nil => cases member
  | cons first rest inductionHypothesis =>
      rw [runThreads, List.foldl_cons]
      rcases List.nodup_cons.mp distinct with ⟨new, distinct⟩
      rcases List.mem_cons.mp member with rfl | member
      · apply runThreads_of_forall_not exclusive
        intro other member foreign
        exact new (exclusive.disjoint _ _ _ own foreign ▸ member)
      · -- The first thread writes nothing that this one reads.
        have untouched : ∀ cell, cells thread cell →
            writeAll (writes first memory) memory cell = memory cell := by
          intro cell own
          apply writeAll_of_forall_ne
          rintro write written rfl
          have foreign := exclusive.own first memory write written
          exact new (exclusive.disjoint _ _ _ foreign own ▸ member)
        refine (inductionHypothesis distinct member).trans ?_
        rw [exclusive.local_ thread _ memory untouched]
        exact writeAll_congr (untouched cell own)

/-- The cells that threads write, in the order of the writes. -/
def trace (writes : τ → (α → β) → List (α × β)) : List τ → (α → β) → List α
  | [], _ => []
  | thread :: rest, memory =>
      (writes thread memory).map Prod.fst ++
        trace writes rest (writeAll (writes thread memory) memory)

theorem mem_trace
    (exact_ : ∀ thread memory cell, cell ∈ (writes thread memory).map Prod.fst ↔ cells thread cell)
    (threads : List τ) (memory : α → β) (cell : α) :
    cell ∈ trace writes threads memory ↔ ∃ thread ∈ threads, cells thread cell := by
  induction threads generalizing memory with
  | nil => simp [trace]
  | cons thread rest inductionHypothesis =>
      rw [trace, List.mem_append, exact_, inductionHypothesis]
      simp

/-- Threads with cells of their own write each of them once. -/
theorem nodup_trace
    (exact_ : ∀ thread memory cell, cell ∈ (writes thread memory).map Prod.fst ↔ cells thread cell)
    (disjoint : ∀ thread other cell, cells thread cell → cells other cell → thread = other)
    (single : ∀ thread memory, ((writes thread memory).map Prod.fst).Nodup)
    (distinct : threads.Nodup) (memory : α → β) : (trace writes threads memory).Nodup := by
  induction threads generalizing memory with
  | nil => exact List.nodup_nil
  | cons thread rest inductionHypothesis =>
      rcases List.nodup_cons.mp distinct with ⟨new, distinct⟩
      apply List.Nodup.append (single thread memory) (inductionHypothesis distinct _)
      intro cell first later
      rcases (mem_trace exact_ rest _ cell).mp later with ⟨other, member, foreign⟩
      exact new (disjoint _ _ _ ((exact_ thread memory cell).mp first) foreign ▸ member)

/-! ## Grids -/

/-- A thread of a grid: its block and its place in the block. -/
abbrev Lane (width height : Nat) :=
  (Nat × Nat) × (Fin width × Fin height)

/-- An order in which the threads of a grid run, each once. -/
structure GridOrder (width height columns rows : Nat) where
  lanes : List (Lane width height)
  nodup : lanes.Nodup
  mem_iff : ∀ lane, lane ∈ lanes ↔ lane.1.1 < columns ∧ lane.1.2 < rows

/-- Block after block. -/
def GridOrder.blockwise (width height columns rows : Nat) :
    GridOrder width height columns rows where
  lanes := (List.range columns ×ˢ List.range rows) ×ˢ
    (List.finRange width ×ˢ List.finRange height)
  nodup := by
    apply List.Nodup.product
    · exact List.Nodup.product List.nodup_range List.nodup_range
    · exact List.Nodup.product (List.nodup_finRange _) (List.nodup_finRange _)
  mem_iff := by
    rintro ⟨⟨column, row⟩, x, y⟩
    simp [List.mem_product]

/-- The thread of a place in a grid of tiles. -/
theorem GridOrder.exists_lane {x y : Nat} (wide : 0 < width) (high : 0 < height)
    (order : GridOrder width height columns rows) (column : x / width < columns)
    (row : y / height < rows) :
    ∃ lane ∈ order.lanes, lane.1.2 * height + lane.2.2 = y ∧ lane.1.1 * width + lane.2.1 = x := by
  refine ⟨((x / width, y / height), (⟨x % width, Nat.mod_lt _ wide⟩,
    ⟨y % height, Nat.mod_lt _ high⟩)), (order.mem_iff _).mpr ⟨column, row⟩, ?_, ?_⟩
  · exact Nat.div_add_mod' _ _
  · exact Nat.div_add_mod' _ _

/-- A grid without blocks has no threads. -/
theorem GridOrder.lanes_eq_nil (order : GridOrder width height columns rows)
    (idle : columns = 0 ∨ rows = 0) : order.lanes = [] := by
  apply List.eq_nil_iff_forall_not_mem.mpr
  intro lane member
  have inside := (order.mem_iff lane).mp member
  rcases idle with none_ | none_
  · exact Nat.not_lt_zero _ (none_ ▸ inside.1)
  · exact Nat.not_lt_zero _ (none_ ▸ inside.2)

theorem GridOrder.lanes_eq_nil_of_nonpos {columns rows : Int}
    (order : GridOrder width height columns.toNat rows.toNat) (idle : ¬ (0 < columns ∧ 0 < rows)) :
    order.lanes = [] := by
  apply order.lanes_eq_nil
  rcases not_and_or.mp idle with none_ | none_
  · exact Or.inl (Int.toNat_of_nonpos (Int.not_lt.mp none_))
  · exact Or.inr (Int.toNat_of_nonpos (Int.not_lt.mp none_))

/-! ## Sums over tiles -/

variable {γ : Type*}

theorem foldl_add_eq_sum [AddCommMonoid γ] (term : Nat → γ) (count : Nat) (start : γ) :
    (List.range count).foldl (fun sum index => sum + term index) start =
      start + ∑ index ∈ Finset.range count, term index := by
  induction count with
  | zero => simp
  | succ count inductionHypothesis =>
      rw [List.range_succ, List.foldl_append, inductionHypothesis, Finset.sum_range_succ]
      exact add_assoc _ _ _

/-- Tile after tile. -/
theorem sum_tiles [AddCommMonoid γ] (term : Nat → γ) (width tiles : Nat) :
    (∑ tile ∈ Finset.range tiles, ∑ index ∈ Finset.range width, term (tile * width + index)) =
      ∑ index ∈ Finset.range (tiles * width), term index := by
  induction tiles with
  | zero => simp
  | succ tiles inductionHypothesis =>
      rw [Finset.sum_range_succ, inductionHypothesis, Nat.succ_mul, Finset.sum_range_add]

/-- What lies past the end adds nothing. -/
theorem sum_cut [AddCommMonoid γ] (term : Nat → γ) {length bound : Nat} (le : length ≤ bound) :
    (∑ index ∈ Finset.range bound, if index < length then term index else 0) =
      ∑ index ∈ Finset.range length, term index := by
  rw [← Finset.sum_filter]
  congr 1
  ext index
  simp only [Finset.mem_filter, Finset.mem_range]
  exact ⟨And.right, fun below => ⟨Nat.lt_of_lt_of_le below le, below⟩⟩

/-! ## Sums by exchange -/

/-- Every place adds what lies across a mask, mask after mask. -/
def exchangeAdd {γ : Type*} [Add γ] (masks : List Nat) (values : Nat → γ) : Nat → γ :=
  masks.foldl (fun values mask place => values place + values (place ^^^ mask)) values

/-- The powers of two below a power of two, the greatest first. -/
def masksBelow : Nat → List Nat
  | 0 => []
  | bits + 1 => 2 ^ bits :: masksBelow bits

theorem xor_two_pow {bits offset : Nat} (below : offset < 2 ^ bits) :
    2 ^ bits ^^^ offset = 2 ^ bits + offset := by
  apply Nat.eq_of_testBit_eq
  intro index
  rw [Nat.testBit_xor, Nat.testBit_two_pow]
  rcases Nat.lt_trichotomy index bits with lower | rfl | higher
  · rw [Nat.testBit_two_pow_add_gt lower]
    simp [Nat.ne_of_gt lower]
  · rw [Nat.testBit_two_pow_add_eq, Nat.testBit_lt_two_pow below]
    simp
  · have small := Nat.pow_lt_pow_right Nat.one_lt_two higher
    rw [Nat.testBit_lt_two_pow (Nat.lt_trans below small),
      Nat.testBit_lt_two_pow (Nat.lt_of_lt_of_le (Nat.add_lt_add_left below _) ?_)]
    · simp [Nat.ne_of_lt higher]
    · rw [← Nat.two_mul, ← Nat.pow_succ']
      exact Nat.pow_le_pow_right Nat.two_pos higher

/-- Across all masks a place adds up its group. -/
theorem exchangeAdd_masksBelow [AddCommMonoid γ] (bits : Nat) (values : Nat → γ) (place : Nat) :
    exchangeAdd (masksBelow bits) values place =
      ∑ offset ∈ Finset.range (2 ^ bits), values (place ^^^ offset) := by
  induction bits generalizing values with
  | zero => simp [exchangeAdd, masksBelow]
  | succ bits inductionHypothesis =>
      refine (inductionHypothesis _).trans ?_
      rw [Finset.sum_add_distrib, Nat.pow_succ, Nat.mul_two, Finset.sum_range_add]
      congr 1
      apply Finset.sum_congr rfl
      intro offset member
      rw [Nat.xor_assoc, Nat.xor_comm offset, xor_two_pow (Finset.mem_range.mp member)]

end Vllm.Library
