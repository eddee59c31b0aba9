import Vllm.Core.RetentionMasks

/-!
# Sparse retention

Under sparse retention a prompt keeps the blocks in front of its last aligned boundary, so that
the same prompt hits there again.  With EAGLE the run of that hit ends one block behind the
boundary, and the lookup of the prompt may not reach so far.
-/

namespace Vllm.Core

open BlockPool SingleTypeKVCacheManager

/-! ## The ends of the kept runs -/

section Ends

variable {blockSize alignmentTokens needed shift size total top segments : Nat}
  {keeps : Nat → Prop}

/-- The ends of the aligned runs of `needed` kept blocks. -/
def keptEnds (keeps : Nat → Prop) (size needed shift total : Nat) : Set Nat :=
  {top | top ≤ total ∧ size ∣ top - shift ∧
    ∀ index, top ≤ index + max needed 1 → index < top → keeps index}

theorem keptEnds_eq_empty_or (aligned : size ∣ top - 1) :
    top = 0 ∨ ∃ segments, top = segments * size + 1 := by
  rcases aligned with ⟨segments, sum⟩
  cases top with
  | zero => exact .inl rfl
  | succ top =>
      rw [Nat.mul_comm] at sum
      exact .inr ⟨segments, by omega⟩

theorem alignedCount_eq_mul (block_pos : 0 < blockSize) (whole : blockSize ∣ alignmentTokens)
    (count : Nat) :
    alignedCount blockSize alignmentTokens count =
      count / (alignmentTokens / blockSize) * (alignmentTokens / blockSize) := by
  induction count with
  | zero => simp [alignedCount]
  | succ count inductionHypothesis =>
      have aligned := @topAligned_iff blockSize alignmentTokens (count + 1) false block_pos whole
      simp only [TopAligned, Bool.false_eq_true, if_false, peekBlocks, Nat.sub_zero] at aligned
      rw [alignedCount]
      by_cases divides : alignmentTokens / blockSize ∣ count + 1
      · rw [if_neg, Nat.div_mul_cancel divides]
        rintro ⟨apart, misaligned⟩
        exact misaligned (aligned.mpr divides apart)
      · have misaligned := mt aligned.mp divides
        rw [if_pos (Classical.not_imp.mp misaligned), inductionHypothesis,
          Nat.succ_div_of_not_dvd divides]

/-- The blocks that are left of a run that ends behind its first block past a boundary. -/
theorem blocksLeft_dropping (block_pos : 0 < blockSize) (alignment_pos : 0 < alignmentTokens)
    (whole : blockSize ∣ alignmentTokens) (some : 0 < needed)
    (size_eq : alignmentTokens / blockSize = size) :
    blocksLeft blockSize alignmentTokens needed true (segments * size + 1) =
      if size = 1 ∨ needed ≤ segments * size + 1 then segments * size
      else (segments - 1) * size := by
  have size_pos : 0 < size := size_eq ▸ Nat.div_pos (Nat.le_of_dvd alignment_pos whole) block_pos
  have max_eq : max needed 1 = needed := by omega
  simp only [blocksLeft, alignedCount_eq_mul block_pos whole, size_eq, max_eq]
  by_cases long : needed ≤ segments * size + 1
  · simp [long, size_pos]
  · by_cases one : size = 1
    · simp [one]
    · have below : (segments * size + 1) / size = segments := by
        rw [Nat.mul_comm, Nat.mul_add_div size_pos, Nat.div_eq_of_lt (by omega), Nat.add_zero]
      simp only [below, one, long, or_self, if_false]
      cases segments with
      | zero => simp
      | succ segments =>
          have nonzero : (segments + 1) * size ≠ 0 := by positivity
          have before : ((segments + 1) * size - 1) / size = segments := by
            rw [Nat.succ_mul, Nat.add_sub_assoc size_pos, Nat.mul_comm,
              Nat.mul_add_div size_pos, Nat.div_eq_of_lt (by omega), Nat.add_zero]
          simp [nonzero, before]

/-- The last end, if its run is kept. -/
theorem isGreatest_keptEnds (keeps : Nat → Prop) (needed : Nat) (size_pos : 0 < size)
    (le : shift ≤ total)
    (last : ∀ index, (total - shift) / size * size + shift ≤ index + max needed 1 →
      index < (total - shift) / size * size + shift → keeps index) :
    IsGreatest (keptEnds keeps size needed shift total) ((total - shift) / size * size + shift) := by
  have below := Nat.div_mul_le_self (total - shift) size
  constructor
  · refine ⟨by omega, ?_, last⟩
    rw [Nat.add_sub_cancel]
    exact Nat.dvd_mul_left ..
  · rintro top ⟨within, ⟨segments, sum⟩, _⟩
    have fewer : segments ≤ (total - shift) / size := by
      rw [Nat.le_div_iff_mul_le size_pos, Nat.mul_comm, ← sum]
      omega
    have bounded := Nat.mul_le_mul_right size fewer
    rw [Nat.mul_comm segments, ← sum] at bounded
    omega

/-- Dense retention keeps the run in front of every end behind the first boundary. -/
theorem DenselyKept.of_end {index : Nat} (aligned : size ∣ top - shift) (after : shift < top)
    (least : top ≤ index + needed) (less : index < top) : DenselyKept size needed shift index := by
  by_cases all : size ≤ needed
  · exact .inl all
  · exact .inr (.of_end (Nat.lt_of_not_le all) aligned after least less)

/-- The tail of a boundary, in blocks. -/
theorem inBoundaryTail_iff {tokens index : Nat} (whole : blockSize ∣ alignmentTokens)
    (size_eq : alignmentTokens / blockSize = size) :
    InBoundaryTail blockSize alignmentTokens needed shift (tokens : Int) index ↔
      tokens / blockSize / size * size + shift ≤ index + needed ∧
        index < tokens / blockSize / size * size + shift := by
  have blocks : tokens / alignmentTokens * alignmentTokens / blockSize =
      tokens / blockSize / size * size := by
    rw [← size_eq, Nat.div_div_eq_div_mul, Nat.mul_div_cancel' whole, Nat.mul_div_assoc _ whole]
  simp only [InBoundaryTail]
  have cast : (tokens : Int) / alignmentTokens * alignmentTokens / blockSize =
      ((tokens / blockSize / size * size : Nat) : Int) := by
    norm_cast
  omega

end Ends

/-! ## The end of a replayed prompt -/

section Replay

variable {blockSize alignmentTokens needed shift size interval tokens dense sparse : Nat}
  {boundaries : List Int}

variable {index top : Nat}

/-- Without blocks to keep in a tail, nothing is kept. -/
theorem not_denselyKept_zero (size_pos : 0 < size) : ¬ DenselyKept size 0 shift index := by
  rintro (all | ⟨_, tail⟩)
  · omega
  · have less := Nat.mod_lt (index - shift) size_pos
    omega

theorem not_sparselyKept_zero (block_pos : 0 < blockSize) (whole : blockSize ∣ alignmentTokens)
    (spaced : alignmentTokens ∣ interval) :
    ¬ SparselyKept blockSize alignmentTokens 0 shift interval boundaries index := by
  rintro (⟨nonzero, kept⟩ | ⟨boundaryTokens, _, least, less⟩)
  · have large := Nat.le_of_dvd (Nat.pos_of_ne_zero nonzero) (whole.trans spaced)
    exact not_denselyKept_zero (Nat.div_pos large block_pos) kept
  · simp only [Nat.cast_zero, sub_zero] at least
    omega

/-- A kept run has no end but the first, if no block is kept. -/
theorem eq_zero_of_mem_keptEnds {keeps : Nat → Prop} {total : Nat} (none : ∀ index, ¬ keeps index)
    (ends : top ∈ keptEnds keeps size needed shift total) : top = 0 := by
  by_contra some
  exact none (top - 1) (ends.2.2 (top - 1) (by omega) (by omega))

/-- The replay boundary is the end of a kept run. -/
theorem sparselyKept_replay (whole : blockSize ∣ alignmentTokens)
    (size_eq : alignmentTokens / blockSize = size) (replayed : (tokens : Int) ∈ boundaries)
    (least : tokens / blockSize / size * size + shift ≤ index + needed)
    (less : index < tokens / blockSize / size * size + shift) :
    SparselyKept blockSize alignmentTokens needed shift interval boundaries index :=
  .inr ⟨tokens, replayed, (inBoundaryTail_iff whole size_eq).mpr ⟨least, less⟩⟩

/-- Without EAGLE both retentions keep the run in front of the last boundary. -/
theorem replay_keeping (block_pos : 0 < blockSize) (alignment_pos : 0 < alignmentTokens)
    (whole : blockSize ∣ alignmentTokens) (spaced : alignmentTokens ∣ interval)
    (size_eq : alignmentTokens / blockSize = size) (replayed : (tokens : Int) ∈ boundaries)
    (denseEnd : IsGreatest (keptEnds (DenselyKept size needed 0) size needed 0
      (tokens / blockSize)) dense)
    (sparseEnd : IsGreatest (keptEnds (SparselyKept blockSize alignmentTokens needed 0 interval
      boundaries) size needed 0 (tokens / blockSize)) sparse) : sparse = dense := by
  have size_pos : 0 < size := size_eq ▸ Nat.div_pos (Nat.le_of_dvd alignment_pos whole) block_pos
  cases needed with
  | zero =>
      rw [eq_zero_of_mem_keptEnds (fun _ => not_denselyKept_zero size_pos) denseEnd.1,
        eq_zero_of_mem_keptEnds
          (fun _ => not_sparselyKept_zero block_pos whole spaced) sparseEnd.1]
  | succ needed =>
      have max_eq : max (needed + 1) 1 = needed + 1 := by omega
      have lastDense := isGreatest_keptEnds (DenselyKept size (needed + 1) 0) (needed + 1) size_pos
        (Nat.zero_le (tokens / blockSize)) (by
          intro index least less
          rw [max_eq] at least
          exact .of_end (Nat.dvd_mul_left ..) (Nat.zero_lt_of_lt less) least less)
      have lastSparse := isGreatest_keptEnds
        (SparselyKept blockSize alignmentTokens (needed + 1) 0 interval boundaries) (needed + 1)
        size_pos (Nat.zero_le (tokens / blockSize)) (by
          intro index least less
          rw [max_eq] at least
          exact sparselyKept_replay whole size_eq replayed least less)
      rw [sparseEnd.unique lastSparse, denseEnd.unique lastDense]

/-- Sparse retention serves a replayed prompt under EAGLE: the last boundary leaves room for the
dropped block, or lies in the first segment, or the run that ends behind the boundary before is
kept, or is of no use to dense retention either. -/
def ReplayKept (blockSize alignmentTokens needed interval tokens : Nat) (boundaries : List Int) :
    Prop :=
  let size := alignmentTokens / blockSize
  let total := tokens / blockSize
  size ∣ total → 2 * size ≤ total →
    (∀ index, total - size + 1 ≤ index + needed → index ≤ total - size →
      SparselyKept blockSize alignmentTokens needed 1 interval boundaries index) ∨
    (total = 2 * size ∧ 1 < size ∧ size + 1 < needed)

/-- Two ends behind boundaries leave as many blocks. -/
theorem blocksLeft_lt_iff {first second : Nat} (block_pos : 0 < blockSize)
    (alignment_pos : 0 < alignmentTokens) (whole : blockSize ∣ alignmentTokens)
    (some : 0 < needed) (size_eq : alignmentTokens / blockSize = size) (earlier : first < second) :
    blocksLeft blockSize alignmentTokens needed true (first * size + 1) =
        blocksLeft blockSize alignmentTokens needed true (second * size + 1) ↔
      second = 1 ∧ 1 < size ∧ size + 1 < needed := by
  have size_pos : 0 < size := size_eq ▸ Nat.div_pos (Nat.le_of_dvd alignment_pos whole) block_pos
  rw [blocksLeft_dropping block_pos alignment_pos whole some size_eq,
    blocksLeft_dropping block_pos alignment_pos whole some size_eq]
  have fewer : first * size < second * size := Nat.mul_lt_mul_of_pos_right earlier size_pos
  by_cases useful : size = 1 ∨ needed ≤ second * size + 1
  · rw [if_pos useful]
    apply iff_of_false
    · have less : (first - 1) * size ≤ first * size := Nat.mul_le_mul_right _ (Nat.sub_le first 1)
      split <;> omega
    · rintro ⟨rfl, large, long⟩
      omega
  · rw [not_or, Nat.not_le] at useful
    rw [if_neg (by omega), if_neg (by omega), Nat.mul_left_inj (by omega)]
    constructor
    · intro same
      have one : second = 1 := by omega
      rw [one, Nat.one_mul] at useful
      exact ⟨one, by omega, useful.2⟩
    · rintro ⟨rfl, _⟩
      omega

/-- Nothing is left of a run that ends behind the first block. -/
theorem blocksLeft_first (block_pos : 0 < blockSize) (alignment_pos : 0 < alignmentTokens)
    (whole : blockSize ∣ alignmentTokens) (some : 0 < needed) (le : top ≤ 1) :
    blocksLeft blockSize alignmentTokens needed true top = 0 := by
  rcases Nat.le_one_iff_eq_zero_or_eq_one.mp le with rfl | rfl
  · simp [blocksLeft, alignedCount]
  · have left := @blocksLeft_dropping blockSize alignmentTokens needed _ 0 block_pos alignment_pos
      whole some rfl
    simpa using left

/-- With EAGLE the run of the last hit ends one block behind a boundary. -/
theorem replay_dropping (block_pos : 0 < blockSize) (alignment_pos : 0 < alignmentTokens)
    (whole : blockSize ∣ alignmentTokens) (some : 0 < needed)
    (size_eq : alignmentTokens / blockSize = size) (replayed : (tokens : Int) ∈ boundaries)
    (denseEnd : IsGreatest (keptEnds (DenselyKept size needed 1) size needed 1
      (tokens / blockSize)) dense)
    (sparseEnd : IsGreatest (keptEnds (SparselyKept blockSize alignmentTokens needed 1 interval
      boundaries) size needed 1 (tokens / blockSize)) sparse) :
    blocksLeft blockSize alignmentTokens needed true sparse =
        blocksLeft blockSize alignmentTokens needed true dense ↔
      ReplayKept blockSize alignmentTokens needed interval tokens boundaries := by
  have size_pos : 0 < size := size_eq ▸ Nat.div_pos (Nat.le_of_dvd alignment_pos whole) block_pos
  have max_eq : max needed 1 = needed := by omega
  simp only [ReplayKept, size_eq]
  by_cases short : tokens / blockSize ≤ size
  · have first {top : Nat} {keeps : Nat → Prop}
        (ends : top ∈ keptEnds keeps size needed 1 (tokens / blockSize)) : top ≤ 1 := by
      by_contra beyond
      have large := Nat.le_of_dvd (by omega) ends.2.1
      have within := ends.1
      omega
    rw [blocksLeft_first block_pos alignment_pos whole some (first denseEnd.1),
      blocksLeft_first block_pos alignment_pos whole some (first sparseEnd.1)]
    apply iff_of_true rfl
    intro _ two
    omega
  · have room : 1 ≤ tokens / blockSize := by omega
    have pred : tokens / blockSize - 1 + 1 = tokens / blockSize := by omega
    have later : 0 < (tokens / blockSize - 1) / size := Nat.div_pos (by omega) size_pos
    have some_segment : 0 < (tokens / blockSize - 1) / size * size := Nat.mul_pos later size_pos
    have lastDense := isGreatest_keptEnds (DenselyKept size needed 1) needed size_pos room (by
      intro index least less
      rw [max_eq] at least
      apply DenselyKept.of_end _ _ least less
      · rw [Nat.add_sub_cancel]
        exact Nat.dvd_mul_left ..
      · omega)
    rw [denseEnd.unique lastDense]
    have before (divides : size ∣ tokens / blockSize) :
        (tokens / blockSize - 1) / size * size = tokens / blockSize - size := by
      have succ := Nat.succ_div_of_dvd (pred.symm ▸ divides)
      have exact_ := Nat.div_mul_cancel divides
      rw [pred] at succ
      rw [succ, Nat.add_mul, Nat.one_mul] at exact_
      omega
    by_cases kept : ∀ index, (tokens / blockSize - 1) / size * size + 1 ≤ index + needed →
        index < (tokens / blockSize - 1) / size * size + 1 →
        SparselyKept blockSize alignmentTokens needed 1 interval boundaries index
    · have lastSparse := isGreatest_keptEnds
        (SparselyKept blockSize alignmentTokens needed 1 interval boundaries) needed size_pos room
        (by rwa [max_eq])
      rw [sparseEnd.unique lastSparse]
      apply iff_of_true rfl
      intro divides _
      rw [before divides] at kept
      exact .inl fun index least le => kept index least (Nat.lt_succ_of_le le)
    · -- The replay boundary is the end of the last run, unless no block is left behind it.
      have divides : size ∣ tokens / blockSize := by
        by_contra inside
        apply kept
        have same := Nat.succ_div_of_not_dvd (pred.symm ▸ inside)
        rw [pred] at same
        intro index least less
        rw [← same] at least less
        exact sparselyKept_replay whole size_eq replayed least less
      have total_eq := before divides
      have earlier : ∃ segments < (tokens / blockSize - 1) / size,
          blocksLeft blockSize alignmentTokens needed true sparse =
            blocksLeft blockSize alignmentTokens needed true (segments * size + 1) := by
        rcases keptEnds_eq_empty_or sparseEnd.1.2.1 with rfl | ⟨segments, rfl⟩
        · refine ⟨0, later, ?_⟩
          rw [blocksLeft_first block_pos alignment_pos whole some (Nat.zero_le 1),
            blocksLeft_first block_pos alignment_pos whole some (by omega)]
        · refine ⟨segments, ?_, rfl⟩
          have within := sparseEnd.1.1
          have le : segments ≤ (tokens / blockSize - 1) / size := by
            rw [Nat.le_div_iff_mul_le size_pos]
            omega
          apply Nat.lt_of_le_of_ne le
          rintro rfl
          apply kept
          intro index least less
          exact sparseEnd.1.2.2 index (by rwa [max_eq]) less
      rcases earlier with ⟨segments, less, left⟩
      rw [left, blocksLeft_lt_iff block_pos alignment_pos whole some size_eq less]
      rw [total_eq] at kept
      have two : 2 * size ≤ tokens / blockSize := by
        have one := Nat.le_mul_of_pos_left size later
        omega
      generalize (tokens / blockSize - 1) / size = last at *
      constructor
      · rintro ⟨rfl, large, long⟩ _ _
        exact .inr ⟨by omega, large, long⟩
      · intro served
        rcases served divides two with all | ⟨exact_, large, long⟩
        · refine absurd ?_ kept
          intro index least less
          exact all index least (Nat.le_of_lt_succ less)
        · refine ⟨?_, large, long⟩
          apply Nat.eq_of_mul_eq_mul_right size_pos
          omega

end Replay

/-! ## Replaying a prompt -/

section Prompt

variable {H : Type} [DecidableEq H] [BlockHashing H] {cache dense sparse : BlockPool H}
  {groupIds : List Nat} {request : Request H} {mask denseMask sparseMask : Option (List Bool)}
  {blockSize alignmentTokens slidingWindow interval : Nat} {useEagle : Bool}

omit [DecidableEq H] in
/-- A request shares its own blocks. -/
theorem Request.Hashed.shared_self {hashBlockSize numTokens index : Nat}
    (hash_pos : 0 < hashBlockSize) (block_pos : 0 < blockSize) (divides : hashBlockSize ∣ blockSize)
    (hashed : request.Hashed hashBlockSize) (within : numTokens ≤ request.numTokens)
    (before : index < numTokens / blockSize) :
    Shared hashBlockSize blockSize request.blockHashes request.blockHashes index := by
  rcases hashed with ⟨keys, hashes⟩
  have whole : (index + 1) * blockSize ≤ request.numTokens :=
    ((Nat.le_div_iff_mul_le block_pos).mp before).trans within
  have most : (index + 1) * blockSize / hashBlockSize ≤ request.numTokens / hashBlockSize :=
    Nat.div_le_div_right whole
  have least : 0 < (index + 1) * blockSize / hashBlockSize :=
    Nat.div_pos ((Nat.le_of_dvd block_pos divides).trans
      (Nat.le_mul_of_pos_left _ (Nat.succ_pos index))) hash_pos
  refine ⟨chainHash (request.hashParts hashBlockSize keys
    ((index + 1) * blockSize / hashBlockSize - 1 + 1)), ?_⟩
  rw [hashes, Request.getElem?_hashList_eq_some]
  exact ⟨⟨by omega, rfl⟩, by omega, rfl⟩

/-- The runs that a lookup of the cached prompt can use. -/
theorem fullRuns_eq_keptEnds {keeps : Nat → Prop}
    (injective : Function.Injective (BlockHashing.hashFunction : HashInput H → H))
    (hash_pos : 0 < cache.hashBlockSize) (block_pos : 0 < blockSize)
    (divides : cache.hashBlockSize ∣ blockSize) (whole : blockSize ∣ alignmentTokens)
    (hashed : request.Hashed cache.hashBlockSize)
    (prompt : request.numPromptTokens ≤ request.numTokens)
    (holds : Holds cache groupIds cache.hashBlockSize blockSize request.blockHashes fun index =>
      index < request.numPromptTokens / blockSize ∧ maskedOut mask index = false)
    (kept : ∀ index < request.numPromptTokens / blockSize,
      maskedOut mask index = false ↔ keeps index) (needed : Nat) :
    {top | FullRun cache request.blockHashes groupIds blockSize alignmentTokens needed useEagle
        ((request.numPromptTokens - 1) / blockSize) top} =
      keptEnds keeps (alignmentTokens / blockSize) needed (peekBlocks useEagle)
        ((request.numPromptTokens - 1) / blockSize) := by
  have fewer : (request.numPromptTokens - 1) / blockSize ≤ request.numPromptTokens / blockSize :=
    Nat.div_le_div_right (Nat.sub_le ..)
  have cached (index : Nat) (before : index < (request.numPromptTokens - 1) / blockSize) :
      BlockCached cache request.blockHashes groupIds blockSize index ↔ keeps index := by
    rw [Holds.blockCached_iff injective hash_pos block_pos divides hashed hashed holds,
      kept index (by omega)]
    have shared := hashed.shared_self hash_pos block_pos divides prompt
      (Nat.lt_of_lt_of_le before fewer)
    simp [shared, Nat.lt_of_lt_of_le before fewer]
  ext top
  constructor
  · intro run
    refine ⟨run.within, (topAligned_iff block_pos whole).mp run.aligned, ?_⟩
    intro index least less
    exact (cached index (Nat.lt_of_lt_of_le less run.within)).mp (run.cached index least less)
  · rintro ⟨within, aligned, run⟩
    constructor
    · exact within
    · exact (topAligned_iff block_pos whole).mpr aligned
    · intro index least less
      exact (cached index (Nat.lt_of_lt_of_le less within)).mpr (run index least less)

/-- A replayed prompt hits under sparse retention as under dense retention exactly when, with EAGLE,
the mask keeps a run that the lookup reaches. -/
theorem hitLength_sparseMask_iff
    (injective : Function.Injective (BlockHashing.hashFunction : HashInput H → H))
    (hash_pos : 0 < dense.hashBlockSize) (block_pos : 0 < blockSize)
    (alignment_pos : 0 < alignmentTokens) (same : sparse.hashBlockSize = dense.hashBlockSize)
    (divides : dense.hashBlockSize ∣ blockSize) (spaced : alignmentTokens ∣ interval)
    (hashed : request.Hashed dense.hashBlockSize)
    (prompt : request.numPromptTokens ≤ request.numTokens)
    (denseMasked : slidingWindowBlockMask slidingWindow blockSize 0
      (request.numPromptTokens / blockSize) alignmentTokens useEagle none
      (reachableBoundaries request) = .ok denseMask)
    (sparseMasked : slidingWindowBlockMask slidingWindow blockSize 0
      (request.numPromptTokens / blockSize) alignmentTokens useEagle (some interval)
      (reachableBoundaries request) = .ok sparseMask)
    (holdsDense : Holds dense groupIds dense.hashBlockSize blockSize request.blockHashes fun index =>
      index < request.numPromptTokens / blockSize ∧ maskedOut denseMask index = false)
    (holdsSparse : Holds sparse groupIds dense.hashBlockSize blockSize request.blockHashes
      fun index =>
        index < request.numPromptTokens / blockSize ∧ maskedOut sparseMask index = false) :
    (findLongestSlidingWindowHit sparse request.blockHashes (request.numPromptTokens - 1) groupIds
        blockSize slidingWindow useEagle alignmentTokens).map Prod.snd =
      (findLongestSlidingWindowHit dense request.blockHashes (request.numPromptTokens - 1) groupIds
        blockSize slidingWindow useEagle alignmentTokens).map Prod.snd ↔
    (useEagle = true → ReplayKept blockSize alignmentTokens
      (contiguousBlocksForHit slidingWindow blockSize true) interval (request.numPromptTokens - 1)
      (reachableBoundaries request)) := by
  have whole : blockSize ∣ alignmentTokens := by
    rcases bind_eq_ok.mp denseMasked with ⟨_, whole, _⟩
    exact Nat.dvd_of_mod_eq_zero (pyAssert_eq_ok.mp whole)
  have reaches : (request.numPromptTokens - 1) / dense.hashBlockSize ≤
      request.blockHashes.length := by
    rcases hashed with ⟨keys, hashes⟩
    rw [hashes, Request.hashList, List.length_map, List.length_range]
    exact Nat.div_le_div_right (by omega)
  rcases @resolveBlockHashes_aligned _ dense _ _ _ alignmentTokens false hash_pos block_pos divides
    (fun finer => Bool.false_ne_true finer.1) reaches with ⟨view, resolved, shown⟩
  rcases @resolveBlockHashes_aligned _ sparse _ _ _ alignmentTokens false (same ▸ hash_pos)
    block_pos (same ▸ divides) (fun finer => Bool.false_ne_true finer.1) (same ▸ reaches) with
    ⟨viewSparse, resolvedSparse, shownSparse⟩
  rcases findLongestSlidingWindowHit_top groupIds slidingWindow useEagle whole resolved shown with
    ⟨denseTop, denseEnd, denseLength⟩
  rcases findLongestSlidingWindowHit_top groupIds slidingWindow useEagle whole resolvedSparse
    shownSparse with ⟨sparseTop, sparseEnd, sparseLength⟩
  rw [fullRuns_eq_keptEnds injective hash_pos block_pos divides whole hashed prompt holdsDense
    fun index before => denseMask_keeps denseMasked (Nat.zero_le index) before] at denseEnd
  rw [fullRuns_eq_keptEnds injective (same ▸ hash_pos) block_pos (same ▸ divides) whole
    (same ▸ hashed) prompt (same ▸ holdsSparse)
    fun index before => sparseMask_keeps sparseMasked (Nat.zero_le index) before] at sparseEnd
  rw [denseLength, sparseLength, Except.ok.injEq, Nat.mul_left_inj (by omega)]
  have size_pos : 0 < alignmentTokens / blockSize :=
    Nat.div_pos (Nat.le_of_dvd alignment_pos whole) block_pos
  by_cases empty : request.numPromptTokens = 0
  · have none : (request.numPromptTokens - 1) / blockSize = 0 := by simp [empty]
    have denseZero := Nat.eq_zero_of_le_zero (none ▸ denseEnd.1.1)
    have sparseZero := Nat.eq_zero_of_le_zero (none ▸ sparseEnd.1.1)
    rw [denseZero, sparseZero]
    apply iff_of_true rfl
    intro _ _ two
    omega
  · have replayed : ((request.numPromptTokens - 1 : Nat) : Int) ∈ reachableBoundaries request := by
      rw [Nat.cast_sub (Nat.pos_of_ne_zero empty)]
      exact List.mem_cons_self
    cases useEagle with
    | false =>
        rw [replay_keeping block_pos alignment_pos whole spaced rfl replayed denseEnd sparseEnd]
        simp
    | true =>
        have some : 0 < contiguousBlocksForHit slidingWindow blockSize true := by
          simp [contiguousBlocksForHit]
        rw [replay_dropping block_pos alignment_pos whole some rfl replayed denseEnd sparseEnd]
        simp

/-- With a prompt of ten tokens the last boundary leaves room for the dropped block. -/
theorem hitLength_sparseMask_ten :
    ∃ dense sparse, (emptyPool 1).cacheFullBlocks (plainPrompt 1 [1, 2, 3, 4, 5, 6, 7, 8, 9, 10])
        [1, 2, 3, 4, 5, 6, 7, 8, 9, 10] 0 10 1 0
        (some [false, false, false, true, true, false, false, true, true, false]) = .ok dense ∧
      (emptyPool 1).cacheFullBlocks (plainPrompt 1 [1, 2, 3, 4, 5, 6, 7, 8, 9, 10])
        [1, 2, 3, 4, 5, 6, 7, 8, 9, 10] 0 10 1 0
        (some [false, false, false, false, false, false, false, true, true, false]) = .ok sparse ∧
      ((findLongestSlidingWindowHit sparse
          (plainPrompt 1 [1, 2, 3, 4, 5, 6, 7, 8, 9, 10]).blockHashes (10 - 1) [0] 1 2 true 4).map
          Prod.snd =
        (findLongestSlidingWindowHit dense
          (plainPrompt 1 [1, 2, 3, 4, 5, 6, 7, 8, 9, 10]).blockHashes (10 - 1) [0] 1 2 true 4).map
          Prod.snd ↔
        (true = true → ReplayKept 1 4 2 0 (10 - 1) [9])) := by
  refine ⟨_, _, rfl, rfl, ?_⟩
  apply @hitLength_sparseMask_iff SymbolicHash _ _ _ _ [0]
    (plainPrompt 1 [1, 2, 3, 4, 5, 6, 7, 8, 9, 10])
    (some [false, false, false, true, true, false, false, true, true, false])
    (some [false, false, false, false, false, false, false, true, true, false]) 1 4 2 0 true
    SymbolicHash.hashFunction_injective
  · decide
  · decide
  · decide
  · rfl
  · decide
  · decide
  · exact plainPrompt_hashed (by decide) _
  · decide
  · rfl
  · rfl
  · exact holds_cacheFullBlocks_fresh (by decide) (by decide) (by decide) (by decide) (by decide)
      (rfl : (emptyPool 1).cacheFullBlocks (plainPrompt 1 [1, 2, 3, 4, 5, 6, 7, 8, 9, 10])
        [1, 2, 3, 4, 5, 6, 7, 8, 9, 10] 0 10 1 0
        (some [false, false, false, true, true, false, false, true, true, false]) = .ok _)
  · exact holds_cacheFullBlocks_fresh (by decide) (by decide) (by decide) (by decide) (by decide)
      (rfl : (emptyPool 1).cacheFullBlocks (plainPrompt 1 [1, 2, 3, 4, 5, 6, 7, 8, 9, 10])
        [1, 2, 3, 4, 5, 6, 7, 8, 9, 10] 0 10 1 0
        (some [false, false, false, false, false, false, false, true, true, false]) = .ok _)

/-- A prompt of nine tokens ends one token behind a boundary: the lookup stops in front of the block
that EAGLE would drop there, and the sparse cache has nothing else. -/
theorem sparse_replay_lost :
    slidingWindowBlockMask 2 1 0 9 4 true none
        (reachableBoundaries (plainPrompt 1 [1, 2, 3, 4, 5, 6, 7, 8, 9])) =
      .ok (some [false, false, false, true, true, false, false, true, true]) ∧
    slidingWindowBlockMask 2 1 0 9 4 true (some 0)
        (reachableBoundaries (plainPrompt 1 [1, 2, 3, 4, 5, 6, 7, 8, 9])) =
      .ok (some [false, false, false, false, false, false, false, true, true]) ∧
    ∃ dense sparse, (emptyPool 1).cacheFullBlocks (plainPrompt 1 [1, 2, 3, 4, 5, 6, 7, 8, 9])
        [1, 2, 3, 4, 5, 6, 7, 8, 9] 0 9 1 0
        (some [false, false, false, true, true, false, false, true, true]) = .ok dense ∧
      (emptyPool 1).cacheFullBlocks (plainPrompt 1 [1, 2, 3, 4, 5, 6, 7, 8, 9])
        [1, 2, 3, 4, 5, 6, 7, 8, 9] 0 9 1 0
        (some [false, false, false, false, false, false, false, true, true]) = .ok sparse ∧
      (findLongestSlidingWindowHit dense (plainPrompt 1 [1, 2, 3, 4, 5, 6, 7, 8, 9]).blockHashes 8
        [0] 1 2 true 4).map Prod.snd = .ok 4 ∧
      (findLongestSlidingWindowHit sparse (plainPrompt 1 [1, 2, 3, 4, 5, 6, 7, 8, 9]).blockHashes 8
        [0] 1 2 true 4).map Prod.snd = .ok 0 := by
  refine ⟨rfl, rfl, _, _, rfl, rfl, rfl, rfl⟩

end Prompt

end Vllm.Core
