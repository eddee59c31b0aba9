import Vllm.Rocblas.ShimLaw

/-!
# The law of a launch

Over any commutative ring a launch of either kernel leaves the product it is asked for, writes each
entry of it once and reads nothing else, unless the number of its tiles overflows.
-/

namespace Vllm.Rocblas

open Vllm.Library

variable {R : Type} [CommRing R]

/-! ## What a launch is for -/

section Launch

variable {τ : Type} (problem : Problem R) (threads : List τ)
  (kernel : Memory R → Memory R → τ → Memory R → List (Int × R)) (loadsA loadsB : τ → Int → Prop)

/-- The threads of a launch, in their order, leave the product of the first batch; they write each
of its entries once and nothing else, and load entries of the operands only. -/
structure Multiplies : Prop where
  computes : ∀ A B before, problem.Computes A B before (runThreads (kernel A B) threads before)
  once : ∀ A B before, (trace (kernel A B) threads before).Nodup
  writes : ∀ A B before address, address ∈ trace (kernel A B) threads before ↔
    ∃ row col, problem.Inside 0 row col ∧ problem.cell 0 row col = address
  readsA : ∀ thread ∈ threads, ∀ address, loadsA thread address →
    ∃ row < problem.m, ∃ index < problem.k,
      address = problem.a + entry problem.transA problem.lda row index
  readsB : ∀ thread ∈ threads, ∀ address, loadsB thread address →
    ∃ index < problem.k, ∃ col < problem.n,
      address = problem.b + entry problem.transB problem.ldb index col

/-- What a launch never does: the order of its threads does not matter, no entry is written twice,
and nothing but the product is written and nothing but the operands is read. -/
structure Safe (IsOrder : List τ → Prop) : Prop where
  ordered : ∀ A B before threads, IsOrder threads → ∀ threads', IsOrder threads' →
    runThreads (kernel A B) threads before = runThreads (kernel A B) threads' before
  once : ∀ A B before threads, IsOrder threads → (trace (kernel A B) threads before).Nodup
  writes : ∀ A B before threads, ∀ address ∈ trace (kernel A B) threads before,
    ∃ row col, problem.Inside 0 row col ∧ problem.cell 0 row col = address
  readsA : ∀ thread address, loadsA thread address → ∃ row < problem.m, ∃ index < problem.k,
    address = problem.a + entry problem.transA problem.lda row index
  readsB : ∀ thread address, loadsB thread address → ∃ index < problem.k, ∃ col < problem.n,
    address = problem.b + entry problem.transB problem.ldb index col

end Launch

/-! ## Lost terms -/

namespace Problem

/-- A memory with a single one. -/
def spot (address : Int) : Memory R :=
  fun other => if other = address then 1 else 0

variable {problem : Problem R}

/-- Some contents make an entry of the product one. -/
theorem exists_product_one (some_ : 0 < problem.k) (positive : 0 < problem.ldb) :
    ∃ A B : Memory R, problem.product A B 0 0 0 = 1 := by
  refine ⟨1, spot (problem.b + entry problem.transB problem.ldb 0 0), ?_⟩
  rw [product, Finset.sum_eq_single_of_mem 0 (Finset.mem_range.mpr some_)]
  · simp [term, spot]
  · intro index _ later
    have apart : entry problem.transB problem.ldb index 0 ≠
        entry problem.transB problem.ldb 0 0 := by
      unfold entry
      cases problem.transB with
      | false => simpa using later
      | true =>
          simp only [if_true, Nat.cast_zero, add_zero, zero_mul, ne_eq, mul_eq_zero,
            Nat.cast_eq_zero]
          rintro (none_ | none_)
          · exact later none_
          · exact Nat.ne_of_gt positive none_
    simp [term, spot, apart]

/-- A product that lost all its terms is the product only if these are not counted. -/
theorem alpha_eq_zero (some_ : problem.Inside 0 0 0) (more : 0 < problem.k)
    (positive : 0 < problem.ldb)
    (agrees : ∀ A B, ∃ after : Memory R, ({ problem with k := 0 } : Problem R).Computes A B 0 after ∧
      problem.Computes A B 0 after) : problem.alpha = 0 := by
  rcases exists_product_one more positive with ⟨A, B, one⟩
  rcases agrees A B with ⟨after, lost, whole⟩
  have left := lost.result 0 0 0 some_
  have right := whole.result 0 0 0 some_
  change after (problem.cell 0 0 0) = _ at left
  rw [right, value, value, one] at left
  simpa [product, cellC] using left

end Problem

/-! ## The law -/

section Law

variable {τ : Type}

/-- A kernel whose threads own the entries of a product, though it may lose all terms of it; the
threads of a launch come in some order, and there are none when blocks cannot be counted. -/
structure Lawful (problem : Problem R) (kept : Nat) (launched : Prop) (IsOrder : List τ → Prop)
    (kernel : Memory R → Memory R → τ → Memory R → List (Int × R)) (cells : τ → Int → Prop)
    (loadsA loadsB : τ → Int → Prop) : Prop where
  single : problem.batches = 1
  whole : kept = problem.k ∨ kept = 0
  positive : 0 < problem.n → 0 < problem.k → 0 < problem.ldb
  ordered : ∃ threads, IsOrder threads
  distinct : ∀ threads, IsOrder threads → threads.Nodup
  idle : ∀ threads, IsOrder threads → problem.m = 0 ∨ problem.n = 0 ∨ ¬ launched → threads = []
  computes : launched → ∀ threads, IsOrder threads → ∀ A B before,
    ({ problem with k := kept } : Problem R).Computes A B before
      (runThreads (kernel A B) threads before)
  exact_ : ∀ A B thread memory cell,
    cell ∈ (kernel A B thread memory).map Prod.fst ↔ cells thread cell
  disjoint : ∀ thread other cell, cells thread cell → cells other cell → thread = other
  once : ∀ A B thread memory, ((kernel A B thread memory).map Prod.fst).Nodup
  covered : launched → ∀ threads, IsOrder threads → ∀ row col, problem.Inside 0 row col →
    ∃ thread ∈ threads, cells thread (problem.cell 0 row col)
  within : ∀ thread cell, cells thread cell →
    ∃ row col, problem.Inside 0 row col ∧ problem.cell 0 row col = cell
  readsA : ∀ thread address, loadsA thread address → ∃ row < problem.m, ∃ index < problem.k,
    address = problem.a + entry problem.transA problem.lda row index
  readsB : ∀ thread address, loadsB thread address → ∃ index < problem.k, ∃ col < problem.n,
    address = problem.b + entry problem.transB problem.ldb index col

variable {problem : Problem R} {kept : Nat} {launched : Prop} {IsOrder : List τ → Prop}
  {kernel : Memory R → Memory R → τ → Memory R → List (Int × R)} {cells : τ → Int → Prop}
  {loadsA loadsB : τ → Int → Prop}

/-- The launch leaves the product when the terms that are lost are not counted. -/
theorem Lawful.asked_computes
    (lawful : Lawful problem kept launched IsOrder kernel cells loadsA loadsB) (runs : launched)
    (counted : problem.alpha = 0 ∨ kept = problem.k) {threads : List τ} (order : IsOrder threads)
    (A B before : Memory R) :
    problem.Computes A B before (runThreads (kernel A B) threads before) := by
  have computes := lawful.computes runs threads order A B before
  rcases counted with unscaled | rfl
  · constructor
    · intro batch row col inside
      refine (computes.result batch row col inside).trans ?_
      simp [Problem.value, Problem.cellC, unscaled]
    · exact computes.frame
  · exact computes

/-- A kernel multiplies, in every order of its threads, exactly when nothing is asked for, or its
blocks can be counted and no term is lost that counts. -/
theorem Lawful.multiplies_iff
    (lawful : Lawful problem kept launched IsOrder kernel cells loadsA loadsB) :
    (∀ threads, IsOrder threads → Multiplies problem threads kernel loadsA loadsB) ↔
      problem.m = 0 ∨ problem.n = 0 ∨ launched ∧ (problem.alpha = 0 ∨ kept = problem.k) := by
  constructor
  · intro multiplies
    refine or_iff_not_imp_left.mpr fun high => or_iff_not_imp_left.mpr fun wide => ?_
    rcases lawful.ordered with ⟨threads, order⟩
    have inside : problem.Inside 0 0 0 :=
      ⟨lawful.single ▸ Nat.zero_lt_one, Nat.pos_of_ne_zero high, Nat.pos_of_ne_zero wide⟩
    have runs : launched := by
      by_contra stuck
      have written := ((multiplies threads order).writes 0 0 0 _).mpr ⟨0, 0, inside, rfl⟩
      rw [lawful.idle threads order (Or.inr (Or.inr stuck))] at written
      cases written
    refine ⟨runs, ?_⟩
    rcases lawful.whole with all | none_
    · exact Or.inr all
    · by_cases more : 0 < problem.k
      · left
        apply Problem.alpha_eq_zero inside more (lawful.positive inside.2.2 more)
        intro A B
        refine ⟨_, ?_, (multiplies threads order).computes A B 0⟩
        rw [← none_]
        exact lawful.computes runs threads order A B 0
      · exact Or.inr (none_.trans (Nat.eq_zero_of_not_pos more).symm)
  · intro fits threads order
    have run : (∃ row col, problem.Inside 0 row col) →
        launched ∧ (problem.alpha = 0 ∨ kept = problem.k) := by
      rintro ⟨row, col, -, high, wide⟩
      exact (fits.resolve_left (Nat.ne_zero_of_lt high)).resolve_left (Nat.ne_zero_of_lt wide)
    constructor
    · intro A B before
      by_cases empty : problem.m = 0 ∨ problem.n = 0
      · rw [lawful.idle threads order (empty.imp_right Or.inl)]
        constructor
        · rintro batch row col ⟨-, high, wide⟩
          rcases empty with none_ | none_
          · exact absurd (none_ ▸ high) (Nat.not_lt_zero row)
          · exact absurd (none_ ▸ wide) (Nat.not_lt_zero col)
        · exact fun _ _ => rfl
      · rcases not_or.mp empty with ⟨high, wide⟩
        rcases (fits.resolve_left high).resolve_left wide with ⟨runs, counted⟩
        exact lawful.asked_computes runs counted order A B before
    · intro A B before
      exact nodup_trace (lawful.exact_ A B) lawful.disjoint (lawful.once A B)
        (lawful.distinct threads order) before
    · intro A B before address
      rw [mem_trace (lawful.exact_ A B)]
      constructor
      · rintro ⟨thread, -, own⟩
        exact lawful.within thread address own
      · rintro ⟨row, col, inside, rfl⟩
        exact lawful.covered (run ⟨row, col, inside⟩).1 threads order row col inside
    · exact fun thread _ => lawful.readsA thread
    · exact fun thread _ => lawful.readsB thread

/-- A kernel is safe also when terms are lost or blocks cannot be counted. -/
theorem Lawful.safe (lawful : Lawful problem kept launched IsOrder kernel cells loadsA loadsB) :
    Safe problem kernel loadsA loadsB IsOrder := by
  constructor
  · intro A B before threads order threads' order'
    by_cases runs : launched
    · have computes := lawful.computes runs threads order A B before
      have computes' := lawful.computes runs threads' order' A B before
      funext address
      by_cases inside : ∃ batch row col, problem.Inside batch row col ∧
        problem.cell batch row col = address
      · rcases inside with ⟨batch, row, col, inside, rfl⟩
        exact (computes.result _ _ _ inside).trans (computes'.result _ _ _ inside).symm
      · have outside := fun batch row col inside_ same =>
          inside ⟨batch, row, col, inside_, same⟩
        exact (computes.frame address outside).trans (computes'.frame address outside).symm
    · rw [lawful.idle threads order (Or.inr (Or.inr runs)),
        lawful.idle threads' order' (Or.inr (Or.inr runs))]
  · intro A B before threads order
    exact nodup_trace (lawful.exact_ A B) lawful.disjoint (lawful.once A B)
      (lawful.distinct threads order) before
  · intro A B before threads address written
    rcases (mem_trace (lawful.exact_ A B) threads before address).mp written with
      ⟨thread, -, own⟩
    exact lawful.within thread address own
  · exact lawful.readsA
  · exact lawful.readsB

end Law

/-! ## Single precision -/

namespace SgemmLaunch

variable [DecidableEq R] (launch : SgemmLaunch R)

/-- The product that is asked for. -/
def asked : Problem R :=
  { launch.problem with k := launch.K }

/-- The element of `A` that the thread at `ty`, `tx` of a block row reads for tile `t`. -/
def addressA (blockY t ty tx : Nat) : Option Int :=
  let row := blockY * sgemmTile + ty
  let a_k := t * sgemmTile + tx
  if row < launch.M ∧ a_k < launch.K then
    some (if launch.transA then launch.A + (row * launch.lda + a_k)
      else launch.A + (a_k * launch.lda + row))
  else none

/-- The element of `B` that the thread at `ty`, `tx` of a block column reads for tile `t`. -/
def addressB (blockX t ty tx : Nat) : Option Int :=
  let col := blockX * sgemmTile + tx
  let b_k := t * sgemmTile + ty
  if col < launch.N ∧ b_k < launch.K then
    some (if launch.transB then launch.B + (b_k * launch.ldb + col)
      else launch.B + (col * launch.ldb + b_k))
  else none

omit [DecidableEq R] in
theorem loadA_eq (A : Memory R) (blockY t ty tx : Nat) :
    launch.loadA A blockY t ty tx = (launch.addressA blockY t ty tx).elim 0 A := by
  unfold loadA addressA
  dsimp only
  split
  · exact (apply_ite A _ _ _).symm
  · rfl

omit [DecidableEq R] in
theorem loadB_eq (B : Memory R) (blockX t ty tx : Nat) :
    launch.loadB B blockX t ty tx = (launch.addressB blockX t ty tx).elim 0 B := by
  unfold loadB addressB
  dsimp only
  split
  · exact (apply_ite B _ _ _).symm
  · rfl

/-- What a thread reads of `A`. -/
def LoadsA (lane : Lane sgemmTile sgemmTile) (address : Int) : Prop :=
  ∃ t < (ceilDiv launch.K sgemmTile).toNat,
    launch.addressA lane.1.2 t lane.2.2 lane.2.1 = some address

/-- What a thread reads of `B`. -/
def LoadsB (lane : Lane sgemmTile sgemmTile) (address : Int) : Prop :=
  ∃ t < (ceilDiv launch.K sgemmTile).toNat,
    launch.addressB lane.1.1 t lane.2.2 lane.2.1 = some address

/-- Sizes are 32-bit integers, and leading dimensions cover the stored matrices. -/
structure Admitted : Prop where
  sizes : launch.M < 2 ^ 31 ∧ launch.N < 2 ^ 31 ∧ launch.K < 2 ^ 31
  lda : (if launch.transA then launch.K else launch.M) ≤ launch.lda
  ldb : (if launch.transB then launch.N else launch.K) ≤ launch.ldb
  ldc : launch.M ≤ launch.ldc

/-- The launch multiplies, in every order of its threads. -/
def Sound : Prop :=
  ∀ order : GridOrder sgemmTile sgemmTile launch.columns.toNat launch.rows.toNat,
    Multiplies launch.asked order.lanes launch.kernel launch.LoadsA launch.LoadsB

/-- Nothing is asked for, or no number of tiles that matters overflows. -/
def Fits : Prop :=
  launch.M = 0 ∨ launch.N = 0 ∨
    launch.M + 15 < 2 ^ 31 ∧ launch.N + 15 < 2 ^ 31 ∧ (launch.alpha = 0 ∨ launch.K + 15 < 2 ^ 31)

variable {launch}

theorem mem_kernel_places (A B : Memory R) (lane : Lane sgemmTile sgemmTile) (C : Memory R)
    (address : Int) :
    address ∈ (launch.kernel A B lane C).map Prod.fst ↔ launch.Owns lane address := by
  unfold kernel Owns
  rw [cell_problem]
  dsimp only
  split
  · rename_i inside
    simp [inside]
  · rename_i outside
    simp only [List.map_nil, List.not_mem_nil, false_iff]
    exact fun owns => outside ⟨owns.1, owns.2.1⟩

theorem nodup_kernel_places (A B : Memory R) (lane : Lane sgemmTile sgemmTile) (C : Memory R) :
    ((launch.kernel A B lane C).map Prod.fst).Nodup := by
  unfold kernel
  dsimp only
  split
  · exact List.nodup_singleton _
  · exact List.nodup_nil

section

omit [CommRing R] [DecidableEq R]

variable {address : Int}

/-- The loads of a thread are entries of the operands. -/
theorem addressA_inside {blockY t ty tx : Nat}
    (loaded : launch.addressA blockY t ty tx = some address) :
    ∃ row < launch.M, ∃ index < launch.K,
      address = launch.A + entry launch.transA launch.lda row index := by
  unfold addressA at loaded
  dsimp only at loaded
  split at loaded
  · rename_i inside
    refine ⟨_, inside.1, _, inside.2, ?_⟩
    rw [← Option.some.inj loaded]
    unfold entry
    split
    · norm_cast
    · norm_cast
  · cases loaded

theorem addressB_inside {blockX t ty tx : Nat}
    (loaded : launch.addressB blockX t ty tx = some address) :
    ∃ index < launch.K, ∃ col < launch.N,
      address = launch.B + entry launch.transB launch.ldb index col := by
  unfold addressB at loaded
  dsimp only at loaded
  split at loaded
  · rename_i inside
    refine ⟨_, inside.2, _, inside.1, ?_⟩
    rw [← Option.some.inj loaded]
    unfold entry
    split
    · norm_cast
    · norm_cast
  · cases loaded

/-- The grid has blocks. -/
theorem launched_iff (admitted : launch.Admitted) (high : launch.M ≠ 0) (wide : launch.N ≠ 0) :
    0 < launch.columns ∧ 0 < launch.rows ↔ launch.M + 15 < 2 ^ 31 ∧ launch.N + 15 < 2 ^ 31 := by
  rw [columns, rows, ceilDiv_pos_iff (by decide) admitted.sizes.2.1 (by decide),
    ceilDiv_pos_iff (by decide) admitted.sizes.1 (by decide)]
  have high := Nat.pos_of_ne_zero high
  have wide := Nat.pos_of_ne_zero wide
  exact ⟨fun runs => ⟨runs.2.2, runs.1.2⟩, fun fits => ⟨⟨wide, fits.2⟩, high, fits.1⟩⟩

end

theorem lawful (admitted : launch.Admitted) :
    Lawful launch.asked (terms launch.K) (0 < launch.columns ∧ 0 < launch.rows)
      (fun lanes => ∃ order : GridOrder sgemmTile sgemmTile launch.columns.toNat launch.rows.toNat,
        order.lanes = lanes)
      launch.kernel launch.Owns launch.LoadsA launch.LoadsB where
  single := rfl
  whole := by
    unfold terms
    split
    · exact Or.inl rfl
    · exact Or.inr rfl
  positive := fun wide more => by
    have covers := admitted.ldb
    split at covers
    · exact Nat.lt_of_lt_of_le wide covers
    · exact Nat.lt_of_lt_of_le more covers
  ordered := ⟨_, GridOrder.blockwise _ _ _ _, rfl⟩
  distinct := by
    rintro _ ⟨order, rfl⟩
    exact order.nodup
  idle := by
    rintro _ ⟨order, rfl⟩ (none_ | none_ | stuck)
    · exact order.lanes_eq_nil (Or.inr (by rw [rows, show launch.M = 0 from none_]; rfl))
    · exact order.lanes_eq_nil (Or.inl (by rw [columns, show launch.N = 0 from none_]; rfl))
    · exact order.lanes_eq_nil_of_nonpos stuck
  computes := by
    rintro runs _ ⟨order, rfl⟩ A B before
    exact kernel_computes launch A B admitted.sizes admitted.ldc runs order before
  exact_ := mem_kernel_places
  disjoint := (kernel_exclusive (A := 0) (B := 0) admitted.ldc).disjoint
  once := nodup_kernel_places
  covered := by
    rintro runs _ ⟨order, rfl⟩ row col ⟨-, inside, inside'⟩
    have fits := (launched_iff admitted (Nat.ne_zero_of_lt inside)
      (Nat.ne_zero_of_lt inside')).mp runs
    rcases order.exists_lane (by decide) (by decide)
      (div_lt_ceilDiv (by decide) inside' fits.2) (div_lt_ceilDiv (by decide) inside fits.1) with
      ⟨lane, member, rfl, rfl⟩
    exact ⟨lane, member, inside, inside', rfl⟩
  within := by
    rintro lane address ⟨row, col, rfl⟩
    exact ⟨_, _, ⟨Nat.zero_lt_one, row, col⟩, rfl⟩
  readsA := by
    rintro lane address ⟨t, -, loaded⟩
    exact addressA_inside loaded
  readsB := by
    rintro lane address ⟨t, -, loaded⟩
    exact addressB_inside loaded

/-- A launch of the single-precision kernel multiplies exactly when its tiles can be counted. -/
theorem sound_iff_tilesFit (launch : SgemmLaunch R) (admitted : launch.Admitted) :
    launch.Sound ↔ launch.Fits := by
  have law := (lawful admitted).multiplies_iff
  simp only [forall_exists_index, forall_apply_eq_imp_iff] at law
  refine law.trans ?_
  change launch.M = 0 ∨ launch.N = 0 ∨ _ ∧ (launch.alpha = 0 ∨ terms launch.K = launch.K) ↔ _
  unfold Fits
  by_cases high : launch.M = 0
  · simp [high]
  by_cases wide : launch.N = 0
  · simp [wide]
  rw [launched_iff admitted high wide, terms_eq_self, and_assoc]
  have counted : launch.K = 0 → launch.K + 15 < 2 ^ 31 := by omega
  simp only [high, wide, false_or, or_iff_right_of_imp counted]

/-- Edges in all directions, with both operands transposed. -/
def ragged : SgemmLaunch ℤ where
  M := 17
  N := 3
  K := 35
  alpha := 2
  A := 0
  lda := 36
  transA := true
  B := 0
  ldb := 3
  transB := true
  beta := -1
  C := 5
  ldc := 20

theorem ragged_sound : ragged.Sound := by
  apply (sound_iff_tilesFit ragged ⟨by decide, by decide, by decide, by decide⟩).mpr
  right
  right
  decide

/-- A single column that is too high for the count of its tiles. -/
def highColumn : SgemmLaunch ℤ where
  M := 2 ^ 31 - 1
  N := 1
  K := 1
  alpha := 1
  A := 0
  lda := 2 ^ 31 - 1
  transA := false
  B := 0
  ldb := 1
  transB := false
  beta := 0
  C := 0
  ldc := 2 ^ 31 - 1

theorem highColumn_not_sound : highColumn.Admitted ∧ ¬ highColumn.Sound := by
  have admitted : highColumn.Admitted := ⟨by decide, by decide, by decide, by decide⟩
  refine ⟨admitted, fun sound => ?_⟩
  have fits := (sound_iff_tilesFit highColumn admitted).mp sound
  rcases fits with none_ | none_ | ⟨rows, -, -⟩
  · exact absurd none_ (by decide)
  · exact absurd none_ (by decide)
  · exact absurd rows (by decide)

end SgemmLaunch

/-! ## Half precision -/

namespace GemmLaunch

variable (launch : GemmLaunch)

/-- The place of an element that `load_a_tile` reads. -/
def addressATile (block_row k0 a_row a_chunk e : Nat) : Option Int :=
  let gr := block_row + a_row
  let gc := k0 + a_chunk * 4
  if gr < launch.M ∧ gc + 3 < launch.K then some (launch.A + (gr * launch.K + gc + e : Nat))
  else
    let kk := gc + e
    if gr < launch.M ∧ kk < launch.K then some (launch.A + (gr * launch.K + kk : Nat)) else none

/-- The place of an element that `load_b_tile` reads. -/
def addressBTile (block_col k0 b_row b_chunk e : Nat) : Option Int :=
  let gr := k0 + b_row
  let gc := block_col + b_chunk * 4
  if gr < launch.K ∧ gc + 3 < launch.N then some (launch.B + (gr * launch.N + gc + e : Nat))
  else
    let nn := gc + e
    if gr < launch.K ∧ nn < launch.N then some (launch.B + (gr * launch.N + nn : Nat)) else none

theorem loadATile_eq_elim (A : Memory R) (block_row k0 a_row a_chunk e : Nat) :
    launch.loadATile A block_row k0 a_row a_chunk e =
      (launch.addressATile block_row k0 a_row a_chunk e).elim 0 A := by
  unfold loadATile addressATile
  dsimp only
  split
  · rfl
  · split
    · rfl
    · rfl

theorem loadBTile_eq_elim (B : Memory R) (block_col k0 b_row b_chunk e : Nat) :
    launch.loadBTile B block_col k0 b_row b_chunk e =
      (launch.addressBTile block_col k0 b_row b_chunk e).elim 0 B := by
  unfold loadBTile addressBTile
  dsimp only
  split
  · rfl
  · split
    · rfl
    · rfl

/-- A tile that a thread loads: the first one, and those that are staged in the loop. -/
def Staged (t : Nat) : Prop :=
  t = 0 ∨ t < launch.numTiles

/-- What a thread reads of `A`. -/
def LoadsA (lane : Lane 256 1) (address : Int) : Prop :=
  ∃ t, launch.Staged t ∧ ∃ e < 4, launch.addressATile (lane.1.2 * 64) (t * 16)
    (lane.2.1.val / 4) (lane.2.1.val % 4) e = some address

/-- What a thread reads of `B`. -/
def LoadsB (lane : Lane 256 1) (address : Int) : Prop :=
  ∃ t, launch.Staged t ∧ ∃ e < 4, launch.addressBTile (lane.1.1 * 64) (t * 16)
    (lane.2.1.val / 16) (lane.2.1.val % 16) e = some address

variable {launch}

variable {address : Int}

theorem addressATile_inside {block_row k0 a_row a_chunk e : Nat} (small : e < 4)
    (loaded : launch.addressATile block_row k0 a_row a_chunk e = some address) :
    ∃ gr < launch.M, ∃ kk < launch.K, address = launch.A + (gr * launch.K + kk : Nat) := by
  unfold addressATile at loaded
  dsimp only at loaded
  split at loaded
  · rename_i whole
    refine ⟨_, whole.1, k0 + a_chunk * 4 + e, by omega, ?_⟩
    rw [← Option.some.inj loaded, Nat.add_assoc _ _ e]
  · split at loaded
    · rename_i inside
      exact ⟨_, inside.1, _, inside.2, (Option.some.inj loaded).symm⟩
    · cases loaded

theorem addressBTile_inside {block_col k0 b_row b_chunk e : Nat} (small : e < 4)
    (loaded : launch.addressBTile block_col k0 b_row b_chunk e = some address) :
    ∃ kk < launch.K, ∃ gc < launch.N, address = launch.B + (kk * launch.N + gc : Nat) := by
  unfold addressBTile at loaded
  dsimp only at loaded
  split at loaded
  · rename_i whole
    refine ⟨_, whole.1, block_col + b_chunk * 4 + e, by omega, ?_⟩
    rw [← Option.some.inj loaded, Nat.add_assoc _ _ e]
  · split at loaded
    · rename_i inside
      exact ⟨_, inside.1, _, inside.2, (Option.some.inj loaded).symm⟩
    · cases loaded

theorem mem_kernel_places (A B : Memory R) (lane : Lane 256 1) (C : Memory R) (address : Int) :
    address ∈ (launch.kernel A B lane C).map Prod.fst ↔ launch.Owns lane address := by
  rw [List.mem_map]
  constructor
  · rintro ⟨write, listed, rfl⟩
    rcases mem_kernel.mp listed with ⟨i, small, j, small', row, col, rfl⟩
    exact ⟨i, small, j, small', row, col, rfl⟩
  · rintro ⟨i, small, j, small', row, col, rfl⟩
    exact ⟨_, mem_kernel.mpr ⟨i, small, j, small', row, col, rfl⟩, rfl⟩

theorem nodup_kernel_places (A B : Memory R) (lane : Lane 256 1) (C : Memory R) :
    ((launch.kernel A B lane C).map Prod.fst).Nodup := by
  have places : (launch.kernel A B lane C).map Prod.fst = (List.range 4).flatMap fun i =>
      if rowOf lane i ≥ launch.M then [] else (List.range 4).flatMap fun j =>
        if colOf lane j ≥ launch.N then []
        else [launch.C + (rowOf lane i * launch.N + colOf lane j : Nat)] := by
    unfold kernel rowOf colOf
    simp only [List.map_flatMap, apply_ite (List.map Prod.fst), List.map_nil, List.map_cons,
      Nat.add_assoc]
  have written : ∀ i j address, address ∈ (if colOf lane j ≥ launch.N then []
      else [launch.C + (rowOf lane i * launch.N + colOf lane j : Nat)]) →
        colOf lane j < launch.N ∧
          address = launch.C + (rowOf lane i * launch.N + colOf lane j : Nat) := by
    intro i j address listed
    split at listed
    · cases listed
    · rename_i col
      exact ⟨Nat.lt_of_not_le col, List.mem_singleton.mp listed⟩
  rw [places, List.nodup_flatMap]
  constructor
  · intro i _
    split
    · exact List.nodup_nil
    · rw [List.nodup_flatMap]
      constructor
      · intro j _
        split
        · exact List.nodup_nil
        · exact List.nodup_singleton _
      · apply List.nodup_range.imp
        intro j j' apart address listed listed'
        rcases written i j address listed with ⟨col, same⟩
        rcases written i j' address listed' with ⟨col', same'⟩
        have columns := (place_injective col col'
          (by exact_mod_cast Int.add_left_cancel (same.symm.trans same'))).1
        exact apart (Nat.add_left_cancel (Nat.add_left_cancel columns))
  · apply List.nodup_range.imp
    intro i i' apart address listed listed'
    dsimp only at listed listed'
    split at listed
    · cases listed
    · split at listed'
      · cases listed'
      · rcases List.mem_flatMap.mp listed with ⟨j, -, listed⟩
        rcases List.mem_flatMap.mp listed' with ⟨j', -, listed'⟩
        rcases written i j address listed with ⟨col, same⟩
        rcases written i' j' address listed' with ⟨col', same'⟩
        have rows := (place_injective col col'
          (by exact_mod_cast Int.add_left_cancel (same.symm.trans same'))).2
        exact apart (Nat.add_left_cancel (Nat.add_left_cancel rows))

end GemmLaunch

namespace GemmExArgs

variable (R) (args : GemmExArgs) (a b d : Int)

/-- The product of half-precision operands that is asked for, without scalars. -/
def f16Asked : Problem R where
  transA := false
  transB := false
  m := args.m
  n := args.n
  k := args.k
  alpha := 1
  a := a
  lda := args.a.ld
  strideA := 0
  b := b
  ldb := args.b.ld
  strideB := 0
  beta := 0
  c := d
  ldc := args.c.ld
  strideC := 0
  d := d
  ldd := args.d.ld
  strideD := 0
  batches := 1

/-- The launch of `route_f16` multiplies, in every order of its threads. -/
def F16Sound : Prop :=
  let launch := f16Launch a b d args.m args.n args.k
  ∀ order : GridOrder 256 1 launch.columns.toNat launch.rows.toNat,
    Multiplies (args.f16Asked R a b d) order.lanes (fun A B => launch.kernel B A)
      launch.LoadsB launch.LoadsA

/-- Nothing is asked for, or no number of tiles that matters overflows. -/
def F16Fits : Prop :=
  args.m = 0 ∨ args.n = 0 ∨
    args.m + 63 < 2 ^ 31 ∧ args.n + 63 < 2 ^ 31 ∧ ((1 : R) = 0 ∨ args.k + 15 < 2 ^ 31)

variable {R args a b d} {strideA strideB strideC strideD : Int}

theorem f16Launched_iff (sizes : args.m < 2 ^ 31 ∧ args.n < 2 ^ 31 ∧ args.k < 2 ^ 31)
    (high : args.m ≠ 0) (wide : args.n ≠ 0) :
    0 < (f16Launch a b d args.m args.n args.k).columns ∧
        0 < (f16Launch a b d args.m args.n args.k).rows ↔
      args.m + 63 < 2 ^ 31 ∧ args.n + 63 < 2 ^ 31 := by
  have columns := @ceilDiv_pos_iff args.m 64 (by decide) sizes.1 (by decide)
  have rows := @ceilDiv_pos_iff args.n 64 (by decide) sizes.2.1 (by decide)
  have high := Nat.pos_of_ne_zero high
  have wide := Nat.pos_of_ne_zero wide
  refine (and_congr columns rows).trans ?_
  exact ⟨fun runs => ⟨runs.1.2, runs.2.2⟩, fun fits => ⟨⟨high, fits.1⟩, wide, fits.2⟩⟩

theorem f16Lawful (sizes : args.m < 2 ^ 31 ∧ args.n < 2 ^ 31 ∧ args.k < 2 ^ 31)
    (layout : F16Layout args) :
    let launch := f16Launch a b d args.m args.n args.k
    Lawful (args.f16Asked R a b d) (terms args.k) (0 < launch.columns ∧ 0 < launch.rows)
      (fun lanes => ∃ order : GridOrder 256 1 launch.columns.toNat launch.rows.toNat,
        order.lanes = lanes)
      (fun A B => launch.kernel B A) launch.Owns launch.LoadsB launch.LoadsA := by
  intro launch
  have place : ∀ row col, (args.f16Asked R a b d).cell 0 row col =
      launch.C + (col * launch.N + row : Nat) := by
    intro row col
    simp [Problem.cell, f16Asked, launch, f16Launch, layout.ldd]
  constructor
  · rfl
  · unfold terms
    split
    · exact Or.inl rfl
    · exact Or.inr rfl
  · exact fun _ more => Nat.lt_of_lt_of_eq more layout.ldb.symm
  · exact ⟨_, GridOrder.blockwise _ _ _ _, rfl⟩
  · rintro _ ⟨order, rfl⟩
    exact order.nodup
  · rintro _ ⟨order, rfl⟩ (none_ | none_ | stuck)
    · exact order.lanes_eq_nil (Or.inl (by
        rw [show launch.columns = ceilDiv args.m 64 from rfl, show args.m = 0 from none_]; rfl))
    · exact order.lanes_eq_nil (Or.inr (by
        rw [show launch.rows = ceilDiv args.n 64 from rfl, show args.n = 0 from none_]; rfl))
    · exact order.lanes_eq_nil_of_nonpos stuck
  · rintro runs _ ⟨order, rfl⟩ A B before
    have computes := GemmLaunch.kernel_computes launch B A ⟨sizes.2.1, sizes.1, sizes.2.2⟩ runs
      order before
    have same : (launch.problem : Problem R) = { args.f16Asked R a b d with k := terms args.k } := by
      simp [f16Asked, GemmLaunch.problem, launch, f16Launch, layout.lda, layout.ldb, layout.ldc,
        layout.ldd]
    rwa [same] at computes
  · exact fun A B => GemmLaunch.mem_kernel_places B A
  · exact (GemmLaunch.kernel_exclusive (A := (0 : Memory R)) (B := 0)).disjoint
  · exact fun A B => GemmLaunch.nodup_kernel_places B A
  · rintro runs _ ⟨order, rfl⟩ row col ⟨-, inside, inside'⟩
    have fits := (f16Launched_iff sizes (Nat.ne_zero_of_lt inside)
      (Nat.ne_zero_of_lt inside')).mp runs
    rcases GemmLaunch.exists_lane order (div_lt_ceilDiv (by decide) inside fits.1)
      (div_lt_ceilDiv (by decide) inside' fits.2) with ⟨lane, member, i, small, j, small', rfl, rfl⟩
    exact ⟨lane, member, i, small, j, small', inside', inside, place _ _⟩
  · rintro lane address ⟨i, -, j, -, row, col, rfl⟩
    exact ⟨_, _, ⟨Nat.zero_lt_one, col, row⟩, place _ _⟩
  · rintro lane address ⟨t, -, e, small, loaded⟩
    rcases GemmLaunch.addressBTile_inside small loaded with ⟨kk, below, gc, below', rfl⟩
    refine ⟨gc, below', kk, below, ?_⟩
    simp [entry, f16Asked, launch, f16Launch, layout.lda]
  · rintro lane address ⟨t, -, e, small, loaded⟩
    rcases GemmLaunch.addressATile_inside small loaded with ⟨gr, below, kk, below', rfl⟩
    refine ⟨kk, below', gr, below, ?_⟩
    simp [entry, f16Asked, launch, f16Launch, layout.ldb]

/-- A half-precision product of contiguous operands. -/
def contiguous (m n k : Nat) : GemmExArgs where
  transA := .none_
  transB := .none_
  m := m
  n := n
  k := k
  alpha := { low := 0, high := 0x3F80 }
  a := { pointer := 0, type_ := .f16R, ld := m }
  b := { pointer := 0, type_ := .f16R, ld := k }
  beta := { low := 0, high := 0 }
  c := { pointer := 0, type_ := .f16R, ld := m }
  d := { pointer := 0, type_ := .f16R, ld := m }
  compute_type := .f32R
  algo := .standard
  solution_index := 0

end GemmExArgs

end Vllm.Rocblas
