import Vllm.Rocblas.LaunchLaw

/-!
# The product of a few tokens

`gfx803_gemv_m_kernel`: a wave of 64 lanes is divided between two rows of the weights and the lanes
along `K`; every lane keeps one sum for each token, and the lanes of a row add theirs up by
exchanges.
-/

namespace Vllm.Kernels

open Vllm.Library Vllm.Rocblas

/-- A thread: its block and its place in the block. -/
abbrev Thread := Nat × Fin 256

/-- The arguments of `gfx803_gemv_m_launch`, less the contents of its operands. -/
structure GemvLaunch where
  X : Int
  W : Int
  C : Int
  M : Nat
  N : Nat
  K : Nat

namespace GemvLaunch

/-- `klane`: the lane within its group along `K`. -/
def klane (tid : Nat) : Nat := tid % 64 % 32

/-- The row of a thread: eight for each block, two for each wave. -/
def row (block tid : Nat) : Nat := block * 8 + tid / 64 * 2 + tid % 64 / 32

variable {R : Type} [CommRing R] (launch : GemvLaunch) (X W : Memory R)

/-- The number of tokens that the kernel is instantiated for. -/
def mtok : Nat :=
  if launch.M ≤ 2 then 2 else if launch.M ≤ 4 then 4 else if launch.M ≤ 8 then 8 else 16

/-- `EXACT || m < M`. -/
def live (m : Nat) : Bool := launch.M == launch.mtok || m < launch.M

/-- The blocks of the launch; other numbers of tokens are not launched. -/
def columns : Int := if launch.M < 2 ∨ 16 < launch.M then 0 else ceilDiv launch.N 8

/-- `(K + 7) >> 3` in 32-bit integers. -/
def chunks : Int := Int.bmod (launch.K + 7 : Nat) (2 ^ 32) / 8

/-- The rounds of the loop over the chunks. -/
def niter : Nat := ((launch.chunks + 31).tdiv 32).toNat

/-- The place of an element that `load8_packed` reads, if it does. -/
def place8 (p : Int) (full : Bool) (K k e : Nat) : Option Int :=
  if full ∨ k + e < K then some (p + e) else none

/-- An element of `load8_packed`. -/
def load8Packed (memory : Memory R) (p : Int) (full : Bool) (K k e : Nat) : R :=
  (place8 p full K k e).elim 0 memory

/-- `X + m * K + k`. -/
def xChunk (m k : Nat) : Int := launch.X + (m * launch.K + k : Nat)

/-- `wrow + k`. -/
def wChunk (row k : Nat) : Int := launch.W + (row * launch.K + k : Nat)

/-- A round of the loop over the chunks, for all tokens. -/
def chunkStep (block tid : Nat) (acc : Nat → R) (i : Nat) : Nat → R :=
  let c := klane tid + i * 32
  if (c : Int) < launch.chunks then
    let k := c * 8
    let full : Bool := k + 8 ≤ launch.K
    let x2 m e := if launch.live m then load8Packed X (launch.xChunk m k) full launch.K k e else 0
    let wv e := if row block tid < launch.N then
      load8Packed W (launch.wChunk (row block tid) k) full launch.K k e else 0
    fun m => (List.range 8).foldl (fun acc e => acc + x2 m e * wv e) (acc m)
  else acc

/-- The sums of a thread over its chunks. -/
def acc (block tid : Nat) : Nat → R :=
  (List.range launch.niter).foldl (launch.chunkStep X W block tid) fun _ => 0

/-- The sum of a thread after the exchanges in its wave. -/
def reduced (block tid m : Nat) : R :=
  exchangeAdd [16, 8, 4, 2, 1] (fun lane => launch.acc X W block (tid / 64 * 64 + lane) m)
    (tid % 64)

/-- What a thread of `gfx803_gemv_m_kernel` writes. -/
def kernel (thread : Thread) (_ : Memory R) : List (Int × R) :=
  if klane thread.2 = 0 ∧ row thread.1 thread.2 < launch.N then
    ((List.range launch.mtok).filter launch.live).map fun m =>
      (launch.C + (m * launch.N + row thread.1 thread.2 : Nat),
        launch.reduced X W thread.1 thread.2 m)
  else []

/-- What a thread reads of `X`. -/
def LoadsX (thread : Thread) (address : Int) : Prop :=
  ∃ i < launch.niter, ∃ m < launch.mtok, ∃ e < 8, ∃ c, c = klane thread.2 + i * 32 ∧
    (c : Int) < launch.chunks ∧ launch.live m ∧
      place8 (launch.xChunk m (c * 8)) (c * 8 + 8 ≤ launch.K) launch.K (c * 8) e = some address

/-- What a thread reads of `W`. -/
def LoadsW (thread : Thread) (address : Int) : Prop :=
  ∃ i < launch.niter, ∃ e < 8, ∃ c, c = klane thread.2 + i * 32 ∧
    (c : Int) < launch.chunks ∧ row thread.1 thread.2 < launch.N ∧
      place8 (launch.wChunk (row thread.1 thread.2) (c * 8)) (c * 8 + 8 ≤ launch.K) launch.K
        (c * 8) e = some address

/-- `C = X * W^T`, column by column. -/
def asked : Problem R where
  transA := true
  transB := false
  m := launch.N
  n := launch.M
  k := launch.K
  alpha := 1
  a := launch.W
  lda := launch.K
  strideA := 0
  b := launch.X
  ldb := launch.K
  strideB := 0
  beta := 0
  c := launch.C
  ldc := launch.N
  strideC := 0
  d := launch.C
  ldd := launch.N
  strideD := 0
  batches := 1

/-- The terms that the kernel adds up: none when the number of chunks overflows. -/
def terms : Nat := if launch.K + 7 < 2 ^ 31 then launch.K else 0

/-- The product that the kernel computes. -/
def problem : Problem R := { launch.asked with k := launch.terms }

/-- The number of tokens is one that is launched, and sizes are 32-bit integers. -/
structure Admitted : Prop where
  tokens : 2 ≤ launch.M ∧ launch.M ≤ 16
  sizes : launch.N < 2 ^ 31 ∧ launch.K < 2 ^ 31

/-- The threads of a launch in some order, each once. -/
def IsOrder (launch : GemvLaunch) (threads : List Thread) : Prop :=
  threads.Nodup ∧ ∀ thread, thread ∈ threads ↔ (thread.1 : Int) < launch.columns

/-- The launch multiplies, in every order of its threads. -/
def Sound (R : Type) [CommRing R] (launch : GemvLaunch) : Prop :=
  ∀ threads, launch.IsOrder threads →
    Multiplies (launch.asked : Problem R) threads (fun W X => launch.kernel X W) launch.LoadsW
      launch.LoadsX

/-- Nothing is asked for, or neither the number of blocks nor that of chunks overflows. -/
def Fits (R : Type) [CommRing R] (launch : GemvLaunch) : Prop :=
  launch.N = 0 ∨ launch.N + 7 < 2 ^ 31 ∧ ((1 : R) = 0 ∨ launch.K + 7 < 2 ^ 31)

variable {launch} {X W}

variable {m K k e block tid : Nat} {thread thread' : Thread}

theorem lt_M_of_live (below : m < launch.mtok) (live : launch.live m = true) : m < launch.M := by
  unfold GemvLaunch.live at live
  rcases Bool.or_eq_true_iff.mp live with exact_ | inside
  · rwa [beq_iff_eq.mp exact_]
  · exact of_decide_eq_true inside

theorem Admitted.live_iff (admitted : launch.Admitted) :
    m < launch.mtok ∧ launch.live m = true ↔ m < launch.M := by
  constructor
  · exact fun held => lt_M_of_live held.1 held.2
  · intro below
    refine ⟨Nat.lt_of_lt_of_le below ?_, ?_⟩
    · have tokens := admitted.tokens
      unfold mtok
      split_ifs <;> omega
    · simp [live, below]

/-! ## The chunks of a thread -/

theorem chunks_of_lt (fits : launch.K + 7 < 2 ^ 31) :
    launch.chunks = ((launch.K + 7) / 8 : Nat) := by
  have wrapped := wrap_of_lt fits
  unfold chunks
  generalize launch.K + 7 = sum at *
  rw [wrapped]
  exact (Int.natCast_ediv sum 8).symm

theorem niter_of_lt (fits : launch.K + 7 < 2 ^ 31) :
    launch.niter = ((launch.K + 7) / 8 + 31) / 32 := by
  rw [niter, chunks_of_lt fits]
  norm_cast

theorem niter_of_large (bounded : launch.K < 2 ^ 31) (large : 2 ^ 31 ≤ launch.K + 7) :
    launch.niter = 0 := by
  have below : launch.K + 7 < 2 ^ 32 := by omega
  have wrapped := wrap_nonpos large below
  have low : launch.chunks + 31 < 32 := by
    unfold chunks
    omega
  rw [niter, Int.toNat_eq_zero]
  rcases Int.lt_or_le (launch.chunks + 31) 0 with negative | positive
  · have below := Int.tdiv_nonneg (Int.le_of_lt (Int.neg_pos_of_neg negative))
      (show (0 : Int) ≤ 32 by decide)
    rw [Int.neg_tdiv] at below
    omega
  · exact le_of_eq (Int.tdiv_eq_zero_of_lt positive low)

variable {p address : Int}

/-- A product of two elements of a chunk is a term, and nothing past the end. -/
theorem load8Packed_mul {q : Int} (below : e < 8) :
    load8Packed X p (decide (k + 8 ≤ K)) K k e * load8Packed W q (decide (k + 8 ≤ K)) K k e =
      if k + e < K then W (q + e) * X (p + e) else 0 := by
  unfold load8Packed place8
  simp only [decide_eq_true_eq]
  by_cases inside : k + e < K
  · rw [if_pos (Or.inr inside), if_pos (Or.inr inside), if_pos inside]
    exact mul_comm _ _
  · have past : ¬ (k + 8 ≤ K ∨ k + e < K) := by omega
    rw [if_neg past, if_neg past, if_neg inside]
    exact mul_zero _

/-- The terms of a chunk, cut at the end. -/
def chunkTerms (launch : GemvLaunch) (X W : Memory R) (row m c : Nat) : R :=
  ∑ e ∈ Finset.range 8,
    if c * 8 + e < launch.K then launch.asked.term W X 0 row m (c * 8 + e) else 0

theorem chunkStep_eq (fits : launch.K + 7 < 2 ^ 31) (sums : Nat → R) (i : Nat)
    (inside : row block tid < launch.N) (live : launch.live m = true) :
    launch.chunkStep X W block tid sums i m =
      sums m + launch.chunkTerms X W (row block tid) m (klane tid + i * 32) := by
  unfold chunkStep chunkTerms
  dsimp only
  generalize klane tid + i * 32 = c
  rw [chunks_of_lt fits]
  split
  · simp only [live, if_true]
    rw [foldl_add_eq_sum]
    congr 1
    apply Finset.sum_congr rfl
    intro e member
    rw [load8Packed_mul (Finset.mem_range.mp member)]
    simp [Problem.term, asked, entry, xChunk, wChunk, add_assoc]
  · -- A chunk past the last one has no terms.
    rename_i past
    rw [Finset.sum_eq_zero, add_zero]
    intro e _
    rw [if_neg]
    have past' := Nat.le_of_not_lt (fun below => past (Int.ofNat_lt.mpr below))
    omega

theorem acc_eq (fits : launch.K + 7 < 2 ^ 31) (inside : row block tid < launch.N)
    (live : launch.live m = true) :
    launch.acc X W block tid m = ∑ i ∈ Finset.range launch.niter,
      launch.chunkTerms X W (row block tid) m (klane tid + i * 32) := by
  unfold acc
  generalize launch.niter = count
  induction count with
  | zero => rfl
  | succ count inductionHypothesis =>
      rw [List.range_succ, List.foldl_append, List.foldl_cons, List.foldl_nil,
        chunkStep_eq fits _ count inside live, inductionHypothesis, Finset.sum_range_succ]

/-- The chunks of all lanes of a row are the chunks of the row. -/
theorem sum_chunkTerms (fits : launch.K + 7 < 2 ^ 31) (row m : Nat) :
    (∑ lane ∈ Finset.range 32, ∑ i ∈ Finset.range launch.niter,
      launch.chunkTerms X W row m (lane + i * 32)) = launch.asked.product W X 0 row m := by
  rw [Finset.sum_comm]
  simp only [Nat.add_comm _ (_ * 32)]
  rw [sum_tiles]
  unfold chunkTerms
  rw [sum_tiles (fun index =>
    if index < launch.K then launch.asked.term W X 0 row m index else 0), sum_cut]
  · rfl
  · rw [niter_of_lt fits]
    omega

theorem problem_of_fits (fits : launch.K + 7 < 2 ^ 31) :
    (launch.problem : Problem R) = launch.asked := by
  rw [problem, terms, if_pos fits]
  rfl

/-- The exchange stays in the group of a row. -/
theorem reduced_eq (bounded : launch.K < 2 ^ 31) (first : klane tid = 0)
    (inside : row block tid < launch.N) (live : launch.live m = true) :
    launch.reduced X W block tid m = launch.problem.product W X 0 (row block tid) m := by
  have start : tid % 64 = 0 ∨ tid % 64 = 32 := by
    unfold klane at first
    omega
  have across : ∀ offset < 32, tid / 64 * 64 + (tid % 64 ^^^ offset) = tid + offset := by
    intro offset below
    have place : tid % 64 ^^^ offset = tid % 64 + offset := by
      rcases start with zero | half
      · rw [zero, Nat.zero_xor, Nat.zero_add]
      · rw [half]
        exact @xor_two_pow 5 offset below
    rw [place]
    omega
  unfold reduced
  change exchangeAdd (masksBelow 5) _ _ = _
  rw [exchangeAdd_masksBelow]
  by_cases fits : launch.K + 7 < 2 ^ 31
  · rw [problem_of_fits fits, ← sum_chunkTerms fits]
    apply Finset.sum_congr rfl
    intro offset member
    have below := Finset.mem_range.mp member
    have sameRow : row block (tid + offset) = row block tid := by
      unfold row
      omega
    have sameLane : klane (tid + offset) = offset := by
      unfold klane
      omega
    rw [across offset below, acc_eq fits (sameRow ▸ inside) live, sameRow, sameLane]
  · rw [Finset.sum_eq_zero, Problem.product, problem, terms, if_neg fits]
    · rfl
    · intro offset _
      rw [acc, niter_of_large bounded (Nat.le_of_not_lt fits)]
      rfl

/-! ## The places of a thread -/

/-- The places a thread writes. -/
def Owns (launch : GemvLaunch) (thread : Thread) (address : Int) : Prop :=
  klane thread.2 = 0 ∧ row thread.1 thread.2 < launch.N ∧
    ∃ m < launch.M, address = launch.C + (m * launch.N + row thread.1 thread.2 : Nat)

theorem mem_kernel (admitted : launch.Admitted) {C : Memory R} {write : Int × R} :
    write ∈ launch.kernel X W thread C ↔
      klane thread.2 = 0 ∧ row thread.1 thread.2 < launch.N ∧ ∃ m < launch.M,
        write = (launch.C + (m * launch.N + row thread.1 thread.2 : Nat),
          launch.reduced X W thread.1 thread.2 m) := by
  unfold kernel
  split
  · rename_i held
    simp only [held, true_and, List.mem_map, List.mem_filter, List.mem_range, admitted.live_iff]
    simp only [eq_comm]
  · rename_i held
    constructor
    · intro listed
      cases listed
    · exact fun listed => absurd ⟨listed.1, listed.2.1⟩ held

theorem mem_kernel_places (admitted : launch.Admitted) (X W : Memory R) (thread : Thread)
    (C : Memory R) (address : Int) :
    address ∈ (launch.kernel X W thread C).map Prod.fst ↔ launch.Owns thread address := by
  rw [List.mem_map]
  constructor
  · rintro ⟨write, listed, rfl⟩
    rcases (mem_kernel admitted).mp listed with ⟨first, inside, m, below, rfl⟩
    exact ⟨first, inside, m, below, rfl⟩
  · rintro ⟨first, inside, m, below, rfl⟩
    exact ⟨_, (mem_kernel admitted).mpr ⟨first, inside, m, below, rfl⟩, rfl⟩

theorem nodup_kernel_places (X W : Memory R) (thread : Thread) (C : Memory R) :
    ((launch.kernel X W thread C).map Prod.fst).Nodup := by
  unfold kernel
  split
  · rename_i held
    rw [List.map_map]
    apply List.Nodup.map
    · intro m m' same
      exact (place_injective held.2 held.2 (by exact_mod_cast Int.add_left_cancel same)).2
    · exact List.Nodup.filter _ List.nodup_range
  · exact List.nodup_nil

/-- The first lane of a row is one thread. -/
theorem thread_injective (first : klane thread.2 = 0) (first' : klane thread'.2 = 0)
    (same : row thread.1 thread.2 = row thread'.1 thread'.2) : thread = thread' := by
  rcases thread with ⟨block, tid⟩
  rcases thread' with ⟨block', tid'⟩
  simp only [row, klane] at first first' same
  have place := tid.isLt
  have place' := tid'.isLt
  have sameBlock : block = block' := by omega
  have sameTid : tid.val = tid'.val := by omega
  rw [sameBlock, Fin.ext sameTid]

theorem cell_eq (n m : Nat) :
    (launch.asked : Problem R).cell 0 n m = launch.C + (m * launch.N + n : Nat) := by
  simp [Problem.cell, asked]

theorem owns_disjoint (own : launch.Owns thread address) (own' : launch.Owns thread' address) :
    thread = thread' := by
  rcases own with ⟨first, inside, m, -, rfl⟩
  rcases own' with ⟨first', inside', m', -, same⟩
  exact thread_injective first first'
    (place_injective inside inside' (by exact_mod_cast Int.add_left_cancel same)).1

theorem kernel_exclusive (admitted : launch.Admitted) (X W : Memory R) :
    Exclusive (launch.kernel X W) launch.Owns where
  own := by
    intro thread memory write written
    exact (mem_kernel_places admitted X W thread memory _).mp (List.mem_map_of_mem written)
  disjoint := fun _ _ _ => owns_disjoint
  local_ := fun _ _ _ _ => rfl

variable {threads : List Thread}

/-- The thread of a row. -/
theorem exists_thread (admitted : launch.Admitted) (order : launch.IsOrder threads)
    (fits : launch.N + 7 < 2 ^ 31) {n : Nat} (inside : n < launch.N) :
    ∃ thread ∈ threads, klane thread.2 = 0 ∧ row thread.1 thread.2 = n := by
  have place : n % 8 * 32 < 256 := by omega
  have launched : launch.columns = ((launch.N + 7) / 8 : Nat) := by
    have tokens := admitted.tokens
    rw [columns, if_neg (by omega)]
    exact ceilDiv_of_lt fits
  refine ⟨(n / 8, ⟨n % 8 * 32, place⟩), (order.2 _).mpr ?_, ?_, ?_⟩
  · rw [launched]
    norm_cast
    omega
  · simp only [klane]
    omega
  · simp only [row]
    omega

/-- The places that a chunk reads. -/
theorem place8_inside (below : e < 8) (read : place8 p (decide (k + 8 ≤ K)) K k e = some address) :
    k + e < K ∧ address = p + e := by
  unfold place8 at read
  simp only [decide_eq_true_eq] at read
  split at read
  · rename_i inside
    exact ⟨by omega, (Option.some.inj read).symm⟩
  · cases read

/-! ## The law -/

/-- What a launch leaves. -/
theorem kernel_computes (admitted : launch.Admitted) (rows : launch.N + 7 < 2 ^ 31)
    (order : launch.IsOrder threads) (W X before : Memory R) :
    launch.problem.Computes W X before (runThreads (launch.kernel X W) threads before) where
  result := by
    rintro batch n m ⟨single, inside, below⟩
    cases Nat.lt_one_iff.mp single
    rcases exists_thread admitted order rows inside with ⟨thread, member, first, rfl⟩
    have own : launch.Owns thread (launch.C + (m * launch.N + row thread.1 thread.2 : Nat)) :=
      ⟨first, inside, m, below, rfl⟩
    have place : (launch.problem : Problem R).cell 0 (row thread.1 thread.2) m = _ :=
      cell_eq (R := R) _ _
    rw [place, runThreads_of_mem (kernel_exclusive admitted X W) order.1 member own]
    apply writeAll_eq
    · exact ⟨_, (mem_kernel admitted).mpr ⟨first, inside, m, below, rfl⟩, rfl⟩
    · intro write listed same
      rcases (mem_kernel admitted).mp listed with ⟨-, -, m', -, rfl⟩
      have sameM := (place_injective inside inside
        (by exact_mod_cast Int.add_left_cancel same)).2
      rw [sameM, reduced_eq admitted.sizes.2 first inside (admitted.live_iff.mpr below).2]
      simp [Problem.value, problem, asked]
  frame := by
    intro address outside
    apply runThreads_of_forall_not (kernel_exclusive admitted X W)
    rintro thread - ⟨-, inside, m, below, rfl⟩
    exact outside 0 _ _ ⟨Nat.zero_lt_one, inside, below⟩ (cell_eq (R := R) _ _)

/-- Block after block. -/
theorem blockwise_isOrder (launch : GemvLaunch) :
    launch.IsOrder (List.range launch.columns.toNat ×ˢ List.finRange 256) := by
  constructor
  · exact List.Nodup.product List.nodup_range (List.nodup_finRange _)
  · rintro ⟨block, tid⟩
    simp [List.mem_product, Int.lt_toNat]

theorem lawful (admitted : launch.Admitted) :
    Lawful (launch.asked : Problem R) launch.terms (launch.N + 7 < 2 ^ 31) launch.IsOrder
      (fun W X => launch.kernel X W) launch.Owns launch.LoadsW launch.LoadsX where
  single := rfl
  whole := by
    unfold terms
    split
    · exact Or.inl rfl
    · exact Or.inr rfl
  positive := fun _ more => more
  ordered := ⟨_, launch.blockwise_isOrder⟩
  distinct := fun _ order => order.1
  idle := by
    intro threads order idle
    have none_ : launch.columns ≤ 0 := by
      rw [columns]
      split
      · exact le_rfl
      · rcases idle with (empty : launch.N = 0) | empty | large
        · rw [empty]
          decide
        · exact absurd empty (Nat.ne_of_gt (Nat.lt_of_lt_of_le Nat.two_pos admitted.tokens.1))
        · exact ceilDiv_of_ge (Nat.le_of_not_lt large)
            (show launch.N + 8 - 1 < 2 ^ 32 by have := admitted.sizes.1; omega)
    apply List.eq_nil_iff_forall_not_mem.mpr
    intro thread member
    exact absurd ((order.2 thread).mp member)
      (Int.not_lt.mpr (none_.trans (Int.natCast_nonneg _)))
  computes := fun rows _ order W X before => kernel_computes admitted rows order W X before
  exact_ := fun W X => mem_kernel_places admitted X W
  disjoint := fun _ _ _ => owns_disjoint
  once := fun W X => nodup_kernel_places X W
  covered := by
    rintro rows threads order n m ⟨-, inside, below⟩
    rcases exists_thread admitted order rows inside with ⟨thread, member, first, rfl⟩
    exact ⟨thread, member, first, inside, m, below, cell_eq _ _⟩
  within := by
    rintro thread address ⟨first, inside, m, below, rfl⟩
    exact ⟨_, m, ⟨Nat.zero_lt_one, inside, below⟩, cell_eq _ _⟩
  readsA := by
    rintro thread address ⟨i, -, e, below, c, -, -, inside, read⟩
    rcases place8_inside below read with ⟨index, rfl⟩
    refine ⟨_, inside, _, index, ?_⟩
    simp [asked, entry, wChunk, add_assoc]
  readsB := by
    rintro thread address ⟨i, -, m, token, e, below, c, -, -, live, read⟩
    rcases place8_inside below read with ⟨index, rfl⟩
    refine ⟨_, index, m, lt_M_of_live token live, ?_⟩
    simp [asked, entry, xChunk, add_assoc]

/-- Five tokens, and edges in both directions. -/
def fiveTokens : GemvLaunch where
  X := 0
  W := 0
  C := 3
  M := 5
  N := 11
  K := 269

/-- A matrix with too many rows for the count of its blocks. -/
def highMatrix : GemvLaunch where
  X := 0
  W := 0
  C := 0
  M := 2
  N := 2 ^ 31 - 1
  K := 1

end GemvLaunch

variable {R : Type} [CommRing R] [DecidableEq R]

/-- A launch of each of the three kernels is safe. -/
structure LaunchesSafe (single : SgemmLaunch R) (args : GemmExArgs) (a b d : Int)
    (few : GemvLaunch) : Prop where
  single : Safe single.asked single.kernel single.LoadsA single.LoadsB fun lanes =>
    ∃ order : GridOrder sgemmTile sgemmTile single.columns.toNat single.rows.toNat,
      order.lanes = lanes
  half : let launch := f16Launch a b d args.m args.n args.k
    Safe (args.f16Asked R a b d) (fun A B => launch.kernel B A) launch.LoadsB launch.LoadsA
      fun lanes => ∃ order : GridOrder 256 1 launch.columns.toNat launch.rows.toNat,
        order.lanes = lanes
  few : Safe (few.asked : Problem R) (fun W X => few.kernel X W) few.LoadsW few.LoadsX few.IsOrder

/-- The kernels are safe for all sizes, also where a count of blocks or of tiles overflows. -/
theorem launches_safe (single : SgemmLaunch R) (singleAdmitted : single.Admitted)
    (args : GemmExArgs) (a b d : Int) {strideA strideB strideC strideD : Int}
    (ok : args.f16_layout_ok strideA strideB strideC strideD = true)
    (sizes : args.m < 2 ^ 31 ∧ args.n < 2 ^ 31 ∧ args.k < 2 ^ 31)
    (few : GemvLaunch) (fewAdmitted : few.Admitted) : LaunchesSafe single args a b d few where
  single := (SgemmLaunch.lawful singleAdmitted).safe
  half := (GemmExArgs.f16Lawful sizes (GemmExArgs.F16Layout.of_ok ok).1).safe
  few := (GemvLaunch.lawful fewAdmitted).safe

/-- Blocks that cannot be counted, terms that cannot, and again blocks. -/
theorem launches_safe_overflow :
    (SgemmLaunch.highColumn.rows < 0 ∧ (f16Launch 0 0 0 1 1 (2 ^ 31 - 1)).numTiles = 0 ∧
      GemvLaunch.highMatrix.columns < 0) ∧
    LaunchesSafe SgemmLaunch.highColumn (GemmExArgs.contiguous 1 1 (2 ^ 31 - 1)) 0 0 0
      GemvLaunch.highMatrix := by
  refine ⟨by decide +kernel, ?_⟩
  have ok : (GemmExArgs.contiguous 1 1 (2 ^ 31 - 1)).f16_layout_ok (2 ^ 31 - 1) (2 ^ 31 - 1) 1 1 =
      true := by decide +kernel
  exact launches_safe SgemmLaunch.highColumn ⟨by decide, by decide, by decide, by decide⟩ _ 0 0 0 ok
    (by decide) GemvLaunch.highMatrix ⟨by decide, by decide⟩

end Vllm.Kernels
