import Mathlib.Algebra.Order.BigOperators.Group.Finset
import Vllm.Rocblas.Gemm

/-!
# Products that read their operands differently

A product with other transpositions, another leading dimension for `C` or no terms at all leaves the
same results for all contents exactly when it reads the same entries.
-/

namespace Vllm.Rocblas

/-- Whether an operand reads the same with another transposition. -/
def SameReads (trans trans' : Bool) (ld rows cols : Nat) : Prop :=
  trans = trans' ∨ ld = 1 ∨ rows = 1 ∧ cols = 1

instance (trans trans' : Bool) (ld rows cols : Nat) :
    Decidable (SameReads trans trans' ld rows cols) :=
  inferInstanceAs (Decidable (_ ∨ _ ∨ _))

variable {ld rows cols count : Nat}

variable {trans trans' : Bool} {address : Int} {reads : Nat → Int}

theorem SameReads.entry_eq {row col : Nat} (same : SameReads trans trans' ld rows cols)
    (below : row < rows) (below' : col < cols) :
    entry trans ld row col = entry trans' ld row col := by
  rcases same with rfl | rfl | ⟨rfl, rfl⟩
  · rfl
  · cases trans <;> cases trans' <;> simp [entry, add_comm]
  · cases Nat.lt_one_iff.mp below
    cases Nat.lt_one_iff.mp below'
    cases trans <;> cases trans' <;> simp [entry]

namespace Problem

variable {problem : Problem ℚ}

/-- The product with other transpositions, another number of terms and another leading dimension
for `C`. -/
def misread (problem : Problem ℚ) (transA transB : Bool) (k ldc : Nat) : Problem ℚ :=
  { problem with transA, transB, k, ldc }

/-- The results agree for all contents. -/
def Agrees (computed problem : Problem ℚ) : Prop :=
  ∀ A B before after, computed.Computes A B before after → problem.Computes A B before after

theorem computes_congr {computed : Problem ℚ} {A B before after : Memory ℚ}
    (inside : ∀ batch row col, computed.Inside batch row col ↔ problem.Inside batch row col)
    (cells : ∀ batch row col, computed.cell batch row col = problem.cell batch row col)
    (values : ∀ batch row col, problem.Inside batch row col →
      computed.value A B before batch row col = problem.value A B before batch row col)
    (computes : computed.Computes A B before after) : problem.Computes A B before after where
  result := by
    intro batch row col within
    rw [← cells, computes.result batch row col ((inside batch row col).mpr within),
      values batch row col within]
  frame := by
    intro address outside
    apply computes.frame
    intro batch row col within
    rw [cells]
    exact outside batch row col ((inside batch row col).mp within)

/-- Agreement is agreement of the values. -/
theorem agrees_iff (computed problem : Problem ℚ) (apart : computed.Apart)
    (inside : ∀ batch row col, computed.Inside batch row col ↔ problem.Inside batch row col)
    (cells : ∀ batch row col, computed.cell batch row col = problem.cell batch row col) :
    computed.Agrees problem ↔ ∀ A B before batch row col, problem.Inside batch row col →
      computed.value A B before batch row col = problem.value A B before batch row col := by
  constructor
  · intro agrees A B before batch row col within
    have ran := computed.run_computes apart A B before
    rw [← ran.result batch row col ((inside batch row col).mpr within), cells]
    exact (agrees A B before _ ran).result batch row col within
  · intro values A B before after
    exact computes_congr inside cells (values A B before)

theorem product_one (problem : Problem ℚ) (batch row col : Nat) :
    problem.product 1 1 batch row col = problem.k := by
  simp [product, term]

theorem product_zero (problem : Problem ℚ) (batch row col : Nat) :
    problem.product 0 0 batch row col = 0 := by
  simp [product, term]

end Problem

/-- Memory that is one at an address and zero elsewhere. -/
def unit (address : Int) : Memory ℚ :=
  fun other => if other = address then 1 else 0

theorem sum_unit_eq_zero (missed : ∀ index < count, reads index ≠ address) :
    ∑ index ∈ Finset.range count, unit address (reads index) = 0 := by
  apply Finset.sum_eq_zero
  intro index member
  exact if_neg (missed index (Finset.mem_range.mp member))

theorem sum_unit_ne_zero (hit : ∃ index < count, reads index = address) :
    ∑ index ∈ Finset.range count, unit address (reads index) ≠ 0 := by
  rcases hit with ⟨index, below, same⟩
  have nonneg : ∀ other, 0 ≤ unit address other := by
    intro other
    unfold unit
    split
    · exact zero_le_one
    · exact le_rfl
  have one : unit address (reads index) = 1 := if_pos same
  have positive : 0 < ∑ index ∈ Finset.range count, unit address (reads index) :=
    Finset.sum_pos' (fun index _ => nonneg (reads index))
      ⟨index, Finset.mem_range.mpr below, one ▸ zero_lt_one⟩
  exact positive.ne'

/-- Row by row, some row reads an entry that it does not read column by column. -/
theorem exists_place (wide : 2 ≤ ld) (some_ : 0 < rows) (some' : 0 < cols)
    (more : 2 ≤ rows ∨ 2 ≤ cols) :
    ∃ row < rows, ∃ place, (∃ col < cols, entry true ld row col = place) ∧
      ∀ col < cols, entry false ld row col ≠ place := by
  by_cases several : 2 ≤ cols
  · refine ⟨0, some_, 1, ⟨1, several, by simp [entry]⟩, ?_⟩
    intro col _ same
    have whole : col * ld = 1 := by
      simp only [entry, Bool.false_eq_true, if_false, Nat.cast_zero, add_zero] at same
      exact_mod_cast same
    have one := Nat.eq_one_of_mul_eq_one_left whole
    omega
  · have two : 2 ≤ rows := more.resolve_right several
    refine ⟨1, two, ld, ⟨0, some', by simp [entry]⟩, ?_⟩
    intro col below same
    have first : col = 0 := by omega
    subst first
    have one : (1 : Int) = ld := by simpa [entry] using same
    omega

theorem SameReads.of_not (positive : 0 < ld) (some_ : 0 < rows) (some' : 0 < cols)
    (differ : ¬ SameReads trans trans' ld rows cols) :
    trans ≠ trans' ∧ 2 ≤ ld ∧ (2 ≤ rows ∨ 2 ≤ cols) := by
  unfold SameReads at differ
  push Not at differ
  refine ⟨differ.1, ?_, ?_⟩
  · have other := differ.2.1
    omega
  · by_contra few
    push Not at few
    exact differ.2.2 (by omega) (by omega)

namespace Problem

variable {problem : Problem ℚ} {transA transB : Bool} {k ldc : Nat}

theorem misread_product (A B : Memory ℚ) (batch row col : Nat) :
    (problem.misread transA transB k ldc).product A B batch row col =
      ∑ index ∈ Finset.range k,
        A (problem.a + batch * problem.strideA + entry transA problem.lda row index) *
          B (problem.b + batch * problem.strideB + entry transB problem.ldb index col) :=
  rfl

theorem misread_product_eq (sameA : SameReads transA problem.transA problem.lda problem.m problem.k)
    (sameB : SameReads transB problem.transB problem.ldb problem.k problem.n) {A B : Memory ℚ}
    {batch row col : Nat} (inside : problem.Inside batch row col) :
    (problem.misread transA transB problem.k ldc).product A B batch row col =
      problem.product A B batch row col := by
  apply Finset.sum_congr rfl
  intro index member
  have below := Finset.mem_range.mp member
  unfold term misread
  rw [sameA.entry_eq inside.2.1 below, sameB.entry_eq below inside.2.2]

/-- A transposed operand that is read as it is stored shows for some contents. -/
theorem sameA_of_products (positive : 0 < problem.lda) (some_ : 0 < problem.m)
    (some' : 0 < problem.k) (dropped : transA = true → problem.transA = true)
    (products : ∀ A B row, row < problem.m →
      (problem.misread transA transB problem.k ldc).product A B 0 row 0 =
        problem.product A B 0 row 0) :
    SameReads transA problem.transA problem.lda problem.m problem.k := by
  by_contra differ
  rcases SameReads.of_not positive some_ some' differ with ⟨flags, wide, more⟩
  have flag : transA = false := by
    cases transA with
    | false => rfl
    | true => exact absurd (dropped rfl).symm flags
  subst flag
  have flag' : problem.transA = true := by
    cases known : problem.transA with
    | false => exact absurd known.symm flags
    | true => rfl
  rcases exists_place wide some_ some' more with ⟨row, below, place, hit, missed⟩
  have same := products (unit (problem.a + place)) 1 row below
  rw [misread_product] at same
  unfold product term at same
  simp only [Nat.cast_zero, zero_mul, add_zero, Pi.one_apply, mul_one, flag'] at same
  rw [sum_unit_eq_zero (fun index less => fun equal =>
    missed index less (Int.add_left_cancel equal))] at same
  apply sum_unit_ne_zero _ same.symm
  rcases hit with ⟨index, less, rfl⟩
  exact ⟨index, less, rfl⟩

theorem sameB_of_products (positive : 0 < problem.ldb) (some_ : 0 < problem.k)
    (some' : 0 < problem.n) (dropped : transB = true → problem.transB = true)
    (products : ∀ A B col, col < problem.n →
      (problem.misread transA transB problem.k ldc).product A B 0 0 col =
        problem.product A B 0 0 col) :
    SameReads transB problem.transB problem.ldb problem.k problem.n := by
  by_contra differ
  rcases SameReads.of_not positive some_ some' differ with ⟨flags, wide, more⟩
  have flag : transB = false := by
    cases transB with
    | false => rfl
    | true => exact absurd (dropped rfl).symm flags
  subst flag
  have flag' : problem.transB = true := by
    cases known : problem.transB with
    | false => exact absurd known.symm flags
    | true => rfl
  -- A column of the one reading is a row of the other.
  have swap : ∀ trans row col, entry trans problem.ldb row col =
      entry (!trans) problem.ldb col row := by
    intro trans row col
    cases trans <;> rfl
  rcases exists_place wide some' some_ more.symm with ⟨col, below, place, hit, missed⟩
  have same := products 1 (unit (problem.b + place)) col below
  unfold product term at same
  simp only [Nat.cast_zero, zero_mul, add_zero, Pi.one_apply, one_mul, flag'] at same
  have away : ∀ index < problem.k,
      problem.b + entry true problem.ldb index col ≠ problem.b + place := by
    intro index less equal
    exact missed index less (Int.add_left_cancel equal)
  rw [sum_unit_eq_zero away] at same
  apply sum_unit_ne_zero _ same
  rcases hit with ⟨index, less, rfl⟩
  exact ⟨index, less, by rw [swap]; rfl⟩

/-- When a product that is read differently leaves the same results. -/
theorem misread_agrees_iff (apart : problem.Apart) (some_ : 0 < problem.batches)
    (high : 0 < problem.m) (wide : 0 < problem.n) (positive : 0 < problem.lda ∧ 0 < problem.ldb)
    (dropped : (transA = true → problem.transA = true) ∧ (transB = true → problem.transB = true)) :
    (problem.misread transA transB k ldc).Agrees problem ↔
      (problem.alpha = 0 ∨ k = problem.k ∧ (problem.k = 0 ∨
        SameReads transA problem.transA problem.lda problem.m problem.k ∧
          SameReads transB problem.transB problem.ldb problem.k problem.n)) ∧
      (problem.beta = 0 ∨ ldc = problem.ldc ∨ problem.n = 1) := by
  have apart' : (problem.misread transA transB k ldc).Apart := apart
  rw [agrees_iff _ problem apart' (fun _ _ _ => Iff.rfl) (fun _ _ _ => rfl)]
  constructor
  · intro values
    constructor
    · by_cases unscaled : problem.alpha = 0
      · exact Or.inl unscaled
      · right
        -- Without `C` the values are products.
        have products : ∀ A B row col, row < problem.m → col < problem.n →
            (problem.misread transA transB k ldc).product A B 0 row col =
              problem.product A B 0 row col := by
          intro A B row col below below'
          have same := values A B 0 0 row col ⟨some_, below, below'⟩
          simp only [value, misread, Pi.zero_apply, mul_zero, add_zero] at same
          exact mul_left_cancel₀ unscaled same
        have terms := products 1 1 0 0 high wide
        rw [product_one, product_one] at terms
        have whole : k = problem.k := Nat.cast_injective terms
        subst whole
        refine ⟨rfl, ?_⟩
        rcases Nat.eq_zero_or_pos problem.k with none_ | more
        · exact Or.inl none_
        · right
          constructor
          · exact sameA_of_products positive.1 high more dropped.1
              fun A B row below => products A B row 0 below wide
          · exact sameB_of_products positive.2 more wide dropped.2
              fun A B col below => products A B 0 col high below
    · by_cases same : ldc = problem.ldc
      · exact Or.inr (Or.inl same)
      · by_cases one : problem.n = 1
        · exact Or.inr (Or.inr one)
        · left
          have read := values 0 0 (unit (problem.cellC 0 0 1)) 0 0 1 ⟨some_, high, by omega⟩
          have elsewhere : (problem.misread transA transB k ldc).cellC 0 0 1 ≠
              problem.cellC 0 0 1 := by
            intro equal
            simp only [cellC, misread] at equal
            exact same (by simpa using Int.add_left_cancel equal)
          simp only [value, product_zero, unit, if_neg elsewhere, if_true] at read
          simpa [misread] using read.symm
  · rintro ⟨reads, places⟩ A B before batch row col inside
    unfold value
    congr 1
    · rcases reads with unscaled | ⟨rfl, none_ | ⟨sameA, sameB⟩⟩
      · simp [misread, unscaled]
      · change problem.alpha * _ = _
        congr 1
        simp [product, misread, none_]
      · change problem.alpha * _ = _
        rw [misread_product_eq sameA sameB inside]
    · rcases places with unscaled | rfl | one
      · simp [misread, unscaled]
      · rfl
      · have first : col = 0 := by
          have below := inside.2.2
          omega
        subst first
        simp [misread, cellC]

/-- The product without scalars. -/
def plain (problem : Problem ℚ) (k : Nat) : Problem ℚ :=
  { problem with alpha := 1, beta := 0, k }

/-- When a product without scalars leaves the same results. -/
theorem plain_agrees_iff (apart : problem.Apart) (some_ : 0 < problem.batches)
    (high : 0 < problem.m) (wide : 0 < problem.n) (unadded : problem.beta = 0)
    (scaled : problem.alpha = 1 ∨ problem.alpha = 0) :
    (problem.plain k).Agrees problem ↔
      problem.alpha = 1 ∧ k = problem.k ∨ problem.alpha = 0 ∧ k = 0 := by
  have apart' : (problem.plain k).Apart := apart
  rw [agrees_iff _ problem apart' (fun _ _ _ => Iff.rfl) (fun _ _ _ => rfl)]
  constructor
  · intro values
    have same := values 1 1 0 0 0 0 ⟨some_, high, wide⟩
    rw [value, value, product_one, product_one] at same
    simp only [plain, Pi.zero_apply, mul_zero, add_zero, one_mul] at same
    rcases scaled with one | zero
    · rw [one, one_mul] at same
      exact Or.inl ⟨one, Nat.cast_injective same⟩
    · rw [zero, zero_mul] at same
      exact Or.inr ⟨zero, Nat.cast_eq_zero.mp same⟩
  · rintro (⟨one, rfl⟩ | ⟨zero, rfl⟩) A B before batch row col _
    · rw [value, value, unadded, one]
      rfl
    · rw [value, value, unadded, zero]
      simp [plain, product]

end Problem

end Vllm.Rocblas
