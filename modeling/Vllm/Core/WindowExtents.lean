import Vllm.Core.SingleTypeKVCacheManager
import Vllm.Core.WindowHits
import Mathlib.Order.Bounds.Basic
import Mathlib.Tactic.IntervalCases

/-!
# How far hits with gaps reach

The lookups of sliding windows and of local chunks for any hash list and any maximum length: which
blocks of the answer are cached blocks, and whether a longer answer was possible.
-/

namespace Vllm.Core

section Hits

variable {H : Type} [DecidableEq H] {pool : BlockPool H} {blockHashes : List H}
  {groupIds : List Nat} {blockSize : Nat}

/-! ## Cached blocks -/

variable {row : HitRow}

/-- What the cache returns is kept under some key. -/
theorem keyed_of_getCachedBlock {blockHash : H}
    (cached : pool.getCachedBlock blockHash groupIds = some row) {block : BlockId}
    (member : block ∈ row) : ∃ key, pool.cachedBlockHashToBlock.contain key block = true := by
  induction groupIds generalizing row with
  | nil =>
      simp only [BlockPool.getCachedBlock, Option.some.injEq] at cached
      simp [← cached] at member
  | cons groupId rest inductionHypothesis =>
      rw [BlockPool.getCachedBlock] at cached
      split at cached
      · cases cached
      · rename_i first found
        rcases Option.map_eq_some_iff.mp cached with ⟨others, cachedRest, rfl⟩
        rcases List.mem_cons.mp member with rfl | later
        · exact ⟨_, BlockHashToBlockMap.contain_of_getOneBlock found⟩
        · exact inductionHypothesis cachedRest later

/-- No cached block is the null block, if the null block is kept under no key. -/
theorem CachedAt.null_notMem {numTokens : Nat}
    (cached : CachedAt pool blockHashes groupIds numTokens row)
    (unkeyed : ∀ key, pool.cachedBlockHashToBlock.contain key nullBlock = false) :
    nullBlock ∉ row := by
  intro member
  rcases cached with ⟨_, _, found⟩
  rcases keyed_of_getCachedBlock found member with ⟨key, keyed⟩
  rw [unkeyed key] at keyed
  cases keyed

/-- A pool in which block `hash + 1` is cached under each of the given hashes, in group 0. -/
def cachingPool (hashBlockSize : Nat) (hashes : List Nat) : BlockPool Nat :=
  { BlockPool.fresh 16 true hashBlockSize false (FreeKVCacheBlockQueue.init []) with
    cachedBlockHashToBlock := hashes.foldl (fun map hash => map.insert ⟨hash, 0⟩ (hash + 1)) .empty }

/-- Block `index` of the request is cached in every group. -/
def BlockCached (pool : BlockPool H) (blockHashes : List H) (groupIds : List Nat)
    (blockSize index : Nat) : Prop :=
  ∃ row, CachedAt pool blockHashes groupIds ((index + 1) * blockSize) row

omit [DecidableEq H] in
/-- The view of a lookup without fine-grained hits lists the hashes of whole blocks. -/
theorem resolveBlockHashes_entry {alignmentTokens : Nat} {view : List H}
    (hash_pos : 0 < pool.hashBlockSize) (block_pos : 0 < blockSize)
    (resolved : resolveBlockHashes blockHashes pool.hashBlockSize blockSize false
      (some alignmentTokens) = .ok view) :
    pool.hashBlockSize ∣ blockSize ∧
      ∀ index, view[index]? = prefixHash pool blockHashes ((index + 1) * blockSize) := by
  rw [resolveBlockHashes] at resolved
  by_cases same : blockSize = pool.hashBlockSize
  · rw [if_pos same] at resolved
    cases resolved
    rw [same]
    refine ⟨Nat.dvd_refl _, ?_⟩
    intro index
    rw [prefixHash, Nat.mul_div_cancel _ hash_pos, Nat.add_sub_cancel]
  · rw [if_neg same, if_neg (fun finer => Bool.false_ne_true finer.1)] at resolved
    rcases bind_eq_ok.mp resolved with ⟨_, whole, rest⟩
    cases rest
    have divides := Nat.dvd_of_mod_eq_zero (pyAssert_eq_ok.mp whole)
    have scale : 0 < blockSize / pool.hashBlockSize :=
      Nat.div_pos (Nat.le_of_dvd block_pos divides) hash_pos
    refine ⟨divides, ?_⟩
    intro index
    rw [getElem?_blockHashListWithBlockSize _ scale, prefixHash, Nat.mul_div_assoc _ divides]

omit [DecidableEq H] in
/-- A view with an entry for each whole block. -/
theorem HashView.of_entry {maxLength : Nat} {view : List H} (positive : 0 < blockSize)
    (entry : ∀ index, view[index]? = prefixHash pool blockHashes ((index + 1) * blockSize))
    (inside : maxLength / blockSize ≤ view.length) :
    HashView pool blockHashes blockSize maxLength view := by
  constructor
  · exact entry
  · intro index le
    exact Nat.lt_of_lt_of_le ((Nat.le_div_iff_mul_le positive).mpr le) inside

/-! ## Sliding windows -/

section SlidingWindow

variable {alignmentTokens slidingWindow maxLength length : Nat} {dropEagleBlock : Bool}
  {rows : List HitRow}

variable {needed count : Nat} {result : Bool × Nat × List HitRow}

variable {view : List H}

/-- The search looks at the last block first. -/
theorem scanWindow_inside {contiguous : Nat}
    (ran : scanWindow pool groupIds view blockSize alignmentTokens needed dropEagleBlock count
      contiguous rows = .ok result) : count ≤ view.length := by
  cases count with
  | zero => exact Nat.zero_le _
  | succ i =>
      rcases bind_eq_ok.mp ran with ⟨_, indexed, _⟩
      exact (List.getElem?_eq_some_iff.mp (pyIndex_eq_ok.mp indexed)).1

/-- A lookup that returns read the hashes of all the blocks it searched. -/
theorem findLongestSlidingWindowHit_view {result : List HitRow × Nat}
    (hash_pos : 0 < pool.hashBlockSize) (block_pos : 0 < blockSize)
    (ran : findLongestSlidingWindowHit pool blockHashes maxLength groupIds blockSize slidingWindow
      dropEagleBlock alignmentTokens = .ok result) :
    blockSize ∣ alignmentTokens ∧ pool.hashBlockSize ∣ blockSize ∧
      ∃ view, resolveBlockHashes blockHashes pool.hashBlockSize blockSize false
          (some alignmentTokens) = .ok view ∧
        HashView pool blockHashes blockSize maxLength view := by
  rcases bind_eq_ok.mp ran with ⟨_, whole, ran⟩
  rcases bind_eq_ok.mp ran with ⟨view, resolved, ran⟩
  rcases bind_eq_ok.mp ran with ⟨_, scanned, _⟩
  rcases resolveBlockHashes_entry hash_pos block_pos resolved with ⟨divides, entry⟩
  exact ⟨Nat.dvd_of_mod_eq_zero (pyAssert_eq_ok.mp whole), divides, view, resolved,
    HashView.of_entry block_pos entry (scanWindow_inside scanned)⟩

/-- A hit is aligned, within the maximum, and holds a cached block at every position that a query
at its end attends to. -/
theorem findLongestSlidingWindowHit_sound (manager : SingleTypeKVCacheManager H)
    {extraRetainedTokens : Nat} (hash_pos : 0 < pool.hashBlockSize) (block_pos : 0 < blockSize)
    (alignment_pos : 0 < alignmentTokens)
    (kind : manager.kvCacheSpec.kind = .slidingWindow slidingWindow extraRetainedTokens)
    (ran : findLongestSlidingWindowHit pool blockHashes maxLength groupIds blockSize slidingWindow
      dropEagleBlock alignmentTokens = .ok (rows, length)) :
    length ≤ maxLength ∧ alignmentTokens ∣ length ∧ rows.length * blockSize = length ∧
      ∀ position, manager.getNumSkippedTokens length ≤ position → position < length →
        extraRetainedTokens = 0 ∨ length < position + slidingWindow →
        ∃ row, rows[position / blockSize]? = some row ∧
          CachedAt pool blockHashes groupIds ((position / blockSize + 1) * blockSize) row ∧
          ((∀ key, pool.cachedBlockHashToBlock.contain key nullBlock = false) →
            nullBlock ∉ row) := by
  rcases findLongestSlidingWindowHit_view hash_pos block_pos ran with
    ⟨whole, divides, view, resolved, shown⟩
  rcases @findLongestSlidingWindowHit_of_view _ _ _ _ _ groupIds _ _ slidingWindow _ block_pos whole
    resolved shown dropEagleBlock with ⟨found, again, hit⟩
  rw [again] at ran
  cases ran
  have fits : Fits pool.hashBlockSize alignmentTokens blockSize :=
    ⟨hash_pos, alignment_pos, block_pos, divides, .inl whole⟩
  have valid := hit.rowsHit fits kind
  refine ⟨(Nat.le_add_right ..).trans hit.within, hit.aligned.dvd, rfl, ?_⟩
  intro position after before attended
  have inside : position / blockSize < rows.length :=
    (Nat.div_lt_iff_lt_mul block_pos).mpr before
  have entry := List.getElem?_eq_getElem inside
  have upper := Nat.lt_div_mul_add block_pos (a := position)
  have whole : (position / blockSize + 1) * blockSize ≤ rows.length * blockSize :=
    Nat.mul_le_mul_right _ inside
  have reads : manager.kvCacheSpec.kind.Reads blockSize (rows.length * blockSize)
      (position / blockSize) := by
    rw [SingleTypeKVCacheManager.getNumSkippedTokens, kind] at after
    rw [kind, SpecKind.Reads, Nat.succ_mul]
    dsimp only at after
    omega
  rcases valid.cached _ _ entry reads with ⟨numTokens, _, covers, cached⟩
  have exact_ : numTokens = (position / blockSize + 1) * blockSize := by
    have reached := covers.reaches
    rw [Nat.min_eq_right whole] at reached
    exact Nat.le_antisymm covers.ends reached
  rw [exact_] at cached
  exact ⟨_, entry, cached, cached.null_notMem⟩

/-- The last of four blocks fills the window. -/
theorem findLongestSlidingWindowHit_sound_last :
    (8 ≤ 9 ∧ 4 ∣ 8 ∧ [[0], [0], [0], [5]].length * 2 = 8) ∧
      ∃ row, [[0], [0], [0], [5]][7 / 2]? = some row ∧
        CachedAt (cachingPool 2 [3, 4]) [1, 2, 3, 4] [0] ((7 / 2 + 1) * 2) row ∧
        ((∀ key, (cachingPool 2 [3, 4]).cachedBlockHashToBlock.contain key nullBlock = false) →
          nullBlock ∉ row) := by
  have ran : findLongestSlidingWindowHit (cachingPool 2 [3, 4]) [1, 2, 3, 4] 9 [0] 2 3 false 4 =
      .ok ([[0], [0], [0], [5]], 8) := by rfl
  rcases findLongestSlidingWindowHit_sound
      (SingleTypeKVCacheManager.init ⟨2, .slidingWindow 3 0, 0, by decide, by decide⟩
        true 0 4 1 false none) (by decide) (by decide) (by decide) rfl ran with ⟨within, aligned, size, covered⟩
  exact ⟨⟨within, aligned, size⟩, covered 7 (by decide) (by decide) (.inl rfl)⟩

/-- With a token retained below the window, a hit may hold the null block at a position that is
not skipped. -/
theorem retained_position_null :
    ∃ (manager : SingleTypeKVCacheManager Nat) (pool : BlockPool Nat) (blockHashes : List Nat)
      (rows : List HitRow) (length position : Nat),
      manager.kvCacheSpec.kind = .slidingWindow 2 1 ∧
      findLongestSlidingWindowHit pool blockHashes 2 [0] 1 2 false 1 = .ok (rows, length) ∧
      manager.getNumSkippedTokens length ≤ position ∧ position < length ∧
      rows[position / 1]? = some [nullBlock] := by
  refine ⟨SingleTypeKVCacheManager.init ⟨1, .slidingWindow 2 1, 0, by decide, by decide⟩ true 0 1 1
    false none, cachingPool 1 [2], [1, 2], [[0], [3]], 2, 0, rfl, rfl, ?_, ?_, rfl⟩
  · decide
  · decide

/-! ### The longest hit -/

/-- A hit of `length` tokens: the blocks that a query at its end attends to are cached and, with a
drop, the block after it. -/
structure WindowServed (pool : BlockPool H) (blockHashes : List H) (groupIds : List Nat)
    (blockSize slidingWindow alignmentTokens : Nat) (dropEagleBlock : Bool)
    (maxLength length : Nat) : Prop where
  aligned : alignmentTokens ∣ length
  within : length ≤ maxLength
  window : ∀ position, position < length → length < position + slidingWindow →
    BlockCached pool blockHashes groupIds blockSize (position / blockSize)
  following : dropEagleBlock = true → 0 < length → length + blockSize ≤ maxLength ∧
    BlockCached pool blockHashes groupIds blockSize (length / blockSize)

/-- A run of the needed length that ends after `top` blocks. -/
structure FullRun (pool : BlockPool H) (blockHashes : List H) (groupIds : List Nat)
    (blockSize alignmentTokens needed : Nat) (dropEagleBlock : Bool) (total top : Nat) : Prop where
  within : top ≤ total
  aligned : TopAligned blockSize alignmentTokens dropEagleBlock top
  cached : ∀ index, top ≤ index + max needed 1 → index < top →
    BlockCached pool blockHashes groupIds blockSize index

/-- The end of the run that the search returns. -/
def searchTop : Bool × Nat × List HitRow → Nat
  | (true, _, rows) => rows.length
  | (false, contiguous, _) => contiguous

/-- No run that ends after the returned one is long enough. -/
theorem scanWindow_last {view : List H} {needed count contiguous : Nat}
    {result : Bool × Nat × List HitRow}
    (shown : HashView pool blockHashes blockSize maxLength view) (total : Nat)
    (within : contiguous ≤ rows.length) (short : contiguous = 0 ∨ contiguous < needed)
    (none_ : ∀ top, count + contiguous < top →
      ¬ FullRun pool blockHashes groupIds blockSize alignmentTokens needed dropEagleBlock total top)
    (ran : scanWindow pool groupIds view blockSize alignmentTokens needed dropEagleBlock count
      contiguous rows = .ok result) {top : Nat} (later : searchTop result < top) :
    ¬ FullRun pool blockHashes groupIds blockSize alignmentTokens needed dropEagleBlock total
      top := by
  induction count generalizing contiguous rows with
  | zero =>
      cases ran
      exact none_ top (by simpa [searchTop] using later)
  | succ i inductionHypothesis =>
      rcases bind_eq_ok.mp ran with ⟨blockHash, indexed, ran⟩
      have entry : prefixHash pool blockHashes ((i + 1) * blockSize) = some blockHash := by
        rw [← shown.entry, pyIndex_eq_ok.mp indexed]
      split at ran
      · -- A run over a missing block is too short, wherever it ends.
        rename_i missed
        apply inductionHypothesis (Nat.zero_le _) (.inl rfl) _ ran
        intro other after run
        by_cases beyond : i + 1 + contiguous < other
        · exact none_ other beyond run
        · rcases run.cached i (by omega) (by omega) with ⟨row, otherHash, otherEntry, found⟩
          rw [entry, Option.some.injEq] at otherEntry
          rw [← otherEntry, missed] at found
          cases found
      · rename_i row found
        dsimp only at ran
        generalize postEq : (if dropEagleBlock then i else i + 1) = postPopBlocks at ran
        split at ran
        · rename_i misaligned
          rw [misaligned.1] at ran none_
          apply inductionHypothesis (Nat.zero_le _) (.inl rfl) _ ran
          intro other after run
          rcases Nat.lt_or_ge (i + 1 + 0) other with beyond | upTo
          · exact none_ other beyond run
          · have same : other = i + 1 := by omega
            apply misaligned.2.2
            have aligned := run.aligned misaligned.2.1
            rw [same] at aligned
            rw [← postEq]
            cases dropEagleBlock <;> simpa using aligned
        · split at ran
          · cases ran
            apply none_
            simp only [searchTop, List.length_append, List.length_replicate, List.length_take,
              List.length_cons] at later
            omega
          · apply inductionHypothesis (by simpa using within) (.inr (by omega)) _ ran
            intro other after
            exact none_ other (by omega)

/-- What the search found: an aligned end after cached blocks, and how many they are. -/
structure Topped (pool : BlockPool H) (blockHashes : List H) (groupIds : List Nat)
    (blockSize alignmentTokens needed : Nat) (dropEagleBlock : Bool) (total : Nat)
    (result : Bool × Nat × List HitRow) : Prop where
  within : searchTop result ≤ total
  aligned : 0 < searchTop result →
    TopAligned blockSize alignmentTokens dropEagleBlock (searchTop result)
  cached : ∀ index, searchTop result ≤ index + max needed 1 → index < searchTop result →
    BlockCached pool blockHashes groupIds blockSize index
  found : result.1 = true → max needed 1 ≤ searchTop result
  short : result.1 = false → searchTop result = 0 ∨ searchTop result < needed

theorem Scanned.topped {total : Nat}
    (scanned : Scanned pool blockHashes groupIds blockSize alignmentTokens needed dropEagleBlock
      total result) :
    Topped pool blockHashes groupIds blockSize alignmentTokens needed dropEagleBlock total
      result := by
  rcases result with ⟨matchFound, contiguous, found⟩
  cases matchFound with
  | true =>
      rcases scanned with ⟨first, run, rfl, size, exact_, inside, cached, top⟩
      have length_eq :
        (List.replicate first (List.replicate groupIds.length nullBlock) ++ run).length
          = first + contiguous := by
        simp [size]
      constructor
      · simpa only [searchTop, length_eq] using inside
      · intro _
        simpa only [searchTop, length_eq] using top
      · intro index least less
        simp only [searchTop, length_eq] at least less
        have at_ := cached (index - first) run[index - first] (List.getElem?_eq_getElem (by omega))
        rw [Nat.add_sub_cancel' (by omega)] at at_
        exact ⟨_, at_⟩
      · intro _
        simp only [searchTop, length_eq]
        omega
      · nofun
  | false =>
      rcases scanned with ⟨size, inside, short, cached, top⟩
      constructor
      · exact inside
      · exact top
      · intro index _ less
        have less : index < contiguous := less
        have entry : (found.take contiguous)[index]? = some found[index] := by
          rw [List.getElem?_take_of_lt less, List.getElem?_eq_getElem]
        have at_ := cached index _ entry
        rw [Nat.zero_add] at at_
        exact ⟨_, at_⟩
      · nofun
      · intro _
        exact short

/-- How many blocks are left of the found ones after the trims. -/
def keptBlocks (blockSize alignmentTokens : Nat) (dropEagleBlock : Bool)
    (result : Bool × Nat × List HitRow) : Nat :=
  let kept := if result.1 then searchTop result
    else alignedCount blockSize alignmentTokens (searchTop result)
  if dropEagleBlock ∧ kept ≠ 0 then alignedCount blockSize alignmentTokens (kept - 1) else kept

theorem length_rows_eq
    (ran : findLongestSlidingWindowHit pool blockHashes maxLength groupIds blockSize slidingWindow
      dropEagleBlock alignmentTokens = .ok (rows, length)) (whole : blockSize ∣ alignmentTokens)
    (resolved : resolveBlockHashes blockHashes pool.hashBlockSize blockSize false
      (some alignmentTokens) = .ok view)
    (scanRan : scanWindow pool groupIds view blockSize alignmentTokens
      (contiguousBlocksForHit slidingWindow blockSize dropEagleBlock) dropEagleBlock
      (maxLength / blockSize) 0 [] = .ok result)
    (scanned : Scanned pool blockHashes groupIds blockSize alignmentTokens
      (contiguousBlocksForHit slidingWindow blockSize dropEagleBlock) dropEagleBlock
      (maxLength / blockSize) result) :
    length = keptBlocks blockSize alignmentTokens dropEagleBlock result * blockSize := by
  rcases result with ⟨matchFound, contiguous, found⟩
  rw [findLongestSlidingWindowHit_of_scan whole resolved scanRan] at ran
  cases ran
  congr 1
  cases matchFound with
  | true =>
      have le := alignedCount_le blockSize alignmentTokens (found.length - 1)
      simp only [keptBlocks, searchTop, if_true, ← List.length_eq_zero_iff, ne_eq]
      split
      · rw [List.length_take]
        omega
      · rfl
  | false =>
      have size : (found.take contiguous).length = contiguous := by
        have inside := scanned.2.1
        rw [List.length_take, scanned.1]
        omega
      have bounded := alignedCount_le blockSize alignmentTokens contiguous
      have kept : (found.take (alignedCount blockSize alignmentTokens contiguous)).length =
          alignedCount blockSize alignmentTokens contiguous := by
        rw [List.length_take] at size ⊢
        omega
      simp only [keptBlocks, searchTop, Bool.false_eq_true, if_false, size, ne_eq,
        ← List.length_eq_zero_iff, kept]
      split
      · have le := alignedCount_le blockSize alignmentTokens
          (alignedCount blockSize alignmentTokens contiguous - 1)
        rw [List.length_take, kept]
        omega
      · exact kept

theorem topAligned_false_iff :
    TopAligned blockSize alignmentTokens false count ↔ alignmentTokens ∣ count * blockSize := by
  constructor
  · exact TopAligned.dvd
  · intro aligned _
    exact Nat.mod_eq_zero_of_dvd aligned

/-- The window of a query after `count` blocks lies in the blocks that a hit needs. -/
theorem window_blocks_iff {P : Nat → Prop} (block_pos : 0 < blockSize) :
    (∀ position, position < count * blockSize → count * blockSize < position + slidingWindow →
      P (position / blockSize)) ↔
    ∀ index, count ≤ index + cdiv (slidingWindow - 1) blockSize → index < count → P index := by
  have apart (index : Nat) (less : index < count) :
      count * blockSize = (count - (index + 1)) * blockSize + (index + 1) * blockSize := by
    rw [← Nat.add_mul, Nat.sub_add_cancel less]
  constructor
  · intro served index least less
    have near : (count - (index + 1)) * blockSize < slidingWindow - 1 :=
      (lt_cdiv_iff block_pos).mp (by omega)
    have nonempty : 0 < (index + 1) * blockSize := Nat.mul_pos (Nat.succ_pos index) block_pos
    have sum := apart index less
    have last : ((index + 1) * blockSize - 1) / blockSize = index := by
      apply Nat.div_eq_of_lt_le
      · rw [Nat.succ_mul]
        omega
      · omega
    have block := served ((index + 1) * blockSize - 1) (by omega) (by omega)
    rwa [last] at block
  · intro served position before attended
    have less : position / blockSize < count := (Nat.div_lt_iff_lt_mul block_pos).mpr before
    apply served _ _ less
    by_contra far
    have outside : slidingWindow - 1 ≤ (count - (position / blockSize + 1)) * blockSize := by
      rw [← Nat.not_lt, ← lt_cdiv_iff block_pos]
      omega
    have upper := Nat.lt_div_mul_add block_pos (a := position)
    have sum := apart _ less
    rw [Nat.succ_mul] at sum
    omega

/-- A valid hit in blocks. -/
theorem windowServed_iff (block_pos : 0 < blockSize) :
    WindowServed pool blockHashes groupIds blockSize slidingWindow alignmentTokens dropEagleBlock
        maxLength (count * blockSize) ↔
      TopAligned blockSize alignmentTokens false count ∧ count ≤ maxLength / blockSize ∧
      (∀ index, count ≤ index + cdiv (slidingWindow - 1) blockSize → index < count →
        BlockCached pool blockHashes groupIds blockSize index) ∧
      (dropEagleBlock = true → 0 < count → count + 1 ≤ maxLength / blockSize ∧
        BlockCached pool blockHashes groupIds blockSize count) := by
  rw [topAligned_false_iff, Nat.le_div_iff_mul_le block_pos, Nat.le_div_iff_mul_le block_pos,
    ← window_blocks_iff block_pos, Nat.succ_mul]
  constructor
  · intro served
    refine ⟨served.aligned, served.within, served.window, ?_⟩
    intro drop some
    have next := served.following drop (Nat.mul_pos some block_pos)
    rwa [Nat.mul_div_cancel _ block_pos] at next
  · rintro ⟨aligned, within, window, following⟩
    refine ⟨aligned, within, window, ?_⟩
    intro drop some
    rw [Nat.mul_div_cancel _ block_pos]
    exact following drop (Nat.pos_of_mul_pos_right some)

/-- Without a drop a valid hit is a long enough run. -/
theorem WindowServed.fullRun_keeping (block_pos : 0 < blockSize)
    (wide : 0 < cdiv (slidingWindow - 1) blockSize)
    (served : WindowServed pool blockHashes groupIds blockSize slidingWindow alignmentTokens false
      maxLength (count * blockSize)) :
    FullRun pool blockHashes groupIds blockSize alignmentTokens
      (contiguousBlocksForHit slidingWindow blockSize false) false (maxLength / blockSize) count := by
  rcases (windowServed_iff block_pos).mp served with ⟨aligned, within, window, _⟩
  constructor
  · exact within
  · exact aligned
  · intro index least less
    apply window index _ less
    simp only [contiguousBlocksForHit, Bool.false_eq_true, if_false, Nat.add_zero] at least
    rwa [Nat.max_eq_left wide] at least

/-- With a drop a valid hit and the block after it are a long enough run. -/
theorem WindowServed.fullRun_dropping (block_pos : 0 < blockSize) (some : 0 < count)
    (served : WindowServed pool blockHashes groupIds blockSize slidingWindow alignmentTokens true
      maxLength (count * blockSize)) :
    FullRun pool blockHashes groupIds blockSize alignmentTokens
      (contiguousBlocksForHit slidingWindow blockSize true) true (maxLength / blockSize)
      (count + 1) := by
  rcases (windowServed_iff block_pos).mp served with ⟨aligned, _, window, following⟩
  rcases following rfl some with ⟨within, next⟩
  constructor
  · exact within
  · exact aligned
  · intro index least less
    simp only [contiguousBlocksForHit, if_true] at least
    rcases Nat.lt_or_eq_of_le (Nat.le_of_lt_succ less) with before | rfl
    · exact window index (by omega) before
    · exact next

/-- Every valid hit is made of whole blocks. -/
theorem WindowServed.blocks {served : Nat} (whole : blockSize ∣ alignmentTokens)
    (valid : WindowServed pool blockHashes groupIds blockSize slidingWindow alignmentTokens
      dropEagleBlock maxLength served) : ∃ count, served = count * blockSize := by
  rcases whole.trans valid.aligned with ⟨count, rfl⟩
  exact ⟨count, Nat.mul_comm ..⟩

/-- The longest valid hit, counted in blocks. -/
theorem isGreatest_blocks (whole : blockSize ∣ alignmentTokens)
    (valid : WindowServed pool blockHashes groupIds blockSize slidingWindow alignmentTokens
      dropEagleBlock maxLength (count * blockSize))
    (most : ∀ other, WindowServed pool blockHashes groupIds blockSize slidingWindow
      alignmentTokens dropEagleBlock maxLength (other * blockSize) → other ≤ count) :
    IsGreatest {served | WindowServed pool blockHashes groupIds blockSize slidingWindow
      alignmentTokens dropEagleBlock maxLength served} (count * blockSize) := by
  constructor
  · exact valid
  · intro served other
    rcases WindowServed.blocks whole other with ⟨blocks, rfl⟩
    exact Nat.mul_le_mul_right _ (most blocks other)

/-- The answer of a search without a drop. -/
theorem Topped.isGreatest_keeping (block_pos : 0 < blockSize) (alignment_pos : 0 < alignmentTokens)
    (whole : blockSize ∣ alignmentTokens)
    (topped : Topped pool blockHashes groupIds blockSize alignmentTokens
      (contiguousBlocksForHit slidingWindow blockSize false) false (maxLength / blockSize) result)
    (last : ∀ top, searchTop result < top → ¬ FullRun pool blockHashes groupIds blockSize
      alignmentTokens (contiguousBlocksForHit slidingWindow blockSize false) false
      (maxLength / blockSize) top) :
    IsGreatest {served | WindowServed pool blockHashes groupIds blockSize slidingWindow
        alignmentTokens false maxLength served} (searchTop result * blockSize) ↔
      (slidingWindow ≤ 1 → maxLength / alignmentTokens = 0 ∨
        BlockCached pool blockHashes groupIds blockSize
          (maxLength / alignmentTokens * alignmentTokens / blockSize - 1)) := by
  have aligned : TopAligned blockSize alignmentTokens false (searchTop result) := by
    by_cases some : 0 < searchTop result
    · exact topped.aligned some
    · intro _
      simp [Nat.eq_zero_of_not_pos some]
  have cached := topped.cached
  simp only [contiguousBlocksForHit, Bool.false_eq_true, if_false, Nat.add_zero] at cached
  have valid : WindowServed pool blockHashes groupIds blockSize slidingWindow alignmentTokens false
      maxLength (searchTop result * blockSize) := by
    rw [windowServed_iff block_pos]
    refine ⟨aligned, topped.within, ?_, by rintro ⟨⟩⟩
    intro index least less
    exact cached index (by omega) less
  by_cases wide : 0 < cdiv (slidingWindow - 1) blockSize
  · have broad : ¬ slidingWindow ≤ 1 := by
      rw [lt_cdiv_iff block_pos] at wide
      omega
    apply iff_of_true
    · apply isGreatest_blocks whole valid
      intro other served
      by_contra longer
      exact last other (by omega) (served.fullRun_keeping block_pos wide)
    · intro narrow
      exact absurd narrow broad
  · -- Nothing is attended to, so only the alignment bounds a valid hit.
    have narrow : slidingWindow ≤ 1 := by
      rw [lt_cdiv_iff block_pos] at wide
      omega
    rcases whole.trans (Nat.dvd_mul_left alignmentTokens (maxLength / alignmentTokens)) with
      ⟨highest, top_eq⟩
    have within : blockSize * highest ≤ maxLength := top_eq ▸ Nat.div_mul_le_self ..
    have bounded {other : Nat} (divides : alignmentTokens ∣ other) (le : other ≤ maxLength) :
        other ≤ highest * blockSize := by
      rw [Nat.mul_comm, ← top_eq, ← Nat.div_mul_cancel divides]
      exact Nat.mul_le_mul_right _ (Nat.div_le_div_right le)
    have highest_valid : WindowServed pool blockHashes groupIds blockSize slidingWindow
        alignmentTokens false maxLength (highest * blockSize) := by
      constructor
      · rw [Nat.mul_comm, ← top_eq]
        exact Nat.dvd_mul_left ..
      · rwa [Nat.mul_comm]
      · intro position before attended
        omega
      · rintro ⟨⟩
    rw [top_eq, Nat.mul_div_cancel_left _ block_pos]
    constructor
    · intro greatest _
      have least := Nat.le_of_mul_le_mul_right (greatest.2 highest_valid) block_pos
      have most := Nat.le_of_mul_le_mul_right (bounded valid.aligned valid.within) block_pos
      by_cases some : 0 < highest
      · right
        apply cached
        · omega
        · omega
      · left
        have zero : maxLength / alignmentTokens * alignmentTokens = 0 := by
          rw [top_eq, Nat.eq_zero_of_not_pos some, Nat.mul_zero]
        rcases Nat.mul_eq_zero.mp zero with none_ | none_
        · exact none_
        · omega
    · intro reached
      apply isGreatest_blocks whole valid
      intro other served
      by_contra longer
      have le := Nat.le_of_mul_le_mul_right (bounded served.aligned served.within) block_pos
      rcases reached narrow with none_ | reached
      · rw [none_, Nat.zero_mul] at top_eq
        rcases Nat.mul_eq_zero.mp top_eq.symm with none_ | none_
        · omega
        · omega
      · apply last highest (by omega)
        constructor
        · rwa [Nat.le_div_iff_mul_le block_pos, Nat.mul_comm]
        · exact topAligned_false_iff.mpr highest_valid.aligned
        · intro index least less
          simp only [contiguousBlocksForHit, Bool.false_eq_true, if_false, Nat.add_zero] at least
          rwa [show index = highest - 1 by omega]

/-- The answer of a search with a drop. -/
theorem Topped.isGreatest_dropping (block_pos : 0 < blockSize) (whole : blockSize ∣ alignmentTokens)
    (topped : Topped pool blockHashes groupIds blockSize alignmentTokens
      (contiguousBlocksForHit slidingWindow blockSize true) true (maxLength / blockSize) result)
    (last : ∀ top, searchTop result < top → ¬ FullRun pool blockHashes groupIds blockSize
      alignmentTokens (contiguousBlocksForHit slidingWindow blockSize true) true
      (maxLength / blockSize) top) :
    IsGreatest {served | WindowServed pool blockHashes groupIds blockSize slidingWindow
        alignmentTokens true maxLength served}
        (keptBlocks blockSize alignmentTokens true result * blockSize) ↔
      (blockSize ≠ alignmentTokens → ∀ short, WindowServed pool blockHashes groupIds blockSize
        slidingWindow alignmentTokens true maxLength short → 0 < short → short + 1 < slidingWindow →
        ∃ longer, WindowServed pool blockHashes groupIds blockSize slidingWindow alignmentTokens
          true maxLength longer ∧ slidingWindow ≤ longer + 1) := by
  have needed : contiguousBlocksForHit slidingWindow blockSize true =
      cdiv (slidingWindow - 1) blockSize + 1 := by
    simp [contiguousBlocksForHit]
  have most {other : Nat} (served : WindowServed pool blockHashes groupIds blockSize slidingWindow
      alignmentTokens true maxLength (other * blockSize)) : other ≤ searchTop result - 1 := by
    by_contra longer
    have some : 0 < other := by omega
    exact last (other + 1) (by omega) (served.fullRun_dropping block_pos some)
  have cached := topped.cached
  -- The blocks before the dropped one are a valid hit.
  have valid : WindowServed pool blockHashes groupIds blockSize slidingWindow alignmentTokens true
      maxLength ((searchTop result - 1) * blockSize) := by
    have within := topped.within
    rw [windowServed_iff block_pos]
    refine ⟨?_, by omega, ?_, ?_⟩
    · by_cases some : 0 < searchTop result
      · exact topped.aligned some
      · intro _
        simp [Nat.eq_zero_of_not_pos some]
    · intro index least less
      exact cached index (by omega) (by omega)
    · intro _ some
      exact ⟨by omega, cached _ (by omega) (by omega)⟩
  have greatest := isGreatest_blocks whole valid fun other served => most served
  have aligned := ((windowServed_iff block_pos).mp valid).1
  have above {short : Nat} (served : WindowServed pool blockHashes groupIds blockSize
      slidingWindow alignmentTokens true maxLength short) :
      short ≤ (searchTop result - 1) * blockSize := greatest.2 served
  by_cases single : result.1 = true ∨ blockSize = alignmentTokens ∨ searchTop result ≤ 1
  · -- The drop is the only trim, or there is nothing to lose.
    have kept : keptBlocks blockSize alignmentTokens true result = searchTop result - 1 := by
      rw [keptBlocks]
      rcases single with found | same | few
      · have some := topped.found found
        rw [if_pos found, if_pos ⟨rfl, by omega⟩, alignedCount_eq aligned]
      · have all : alignedCount blockSize alignmentTokens (searchTop result) = searchTop result :=
          alignedCount_eq fun differ => absurd same differ
        rw [all, ite_self]
        split
        · exact alignedCount_eq aligned
        · rename_i zero
          simp only [true_and, ne_eq, not_not] at zero
          omega
      · have small : ∀ count ≤ 1, alignedCount blockSize alignmentTokens (count - 1) = 0 := by
          intro count le
          rw [show count - 1 = 0 by omega, alignedCount]
        have le := alignedCount_le blockSize alignmentTokens (searchTop result)
        have kept_le : (if result.1 = true then searchTop result
            else alignedCount blockSize alignmentTokens (searchTop result)) ≤ 1 := by
          split <;> omega
        generalize (if result.1 = true then searchTop result
          else alignedCount blockSize alignmentTokens (searchTop result)) = kept at kept_le ⊢
        rw [small _ kept_le]
        split
        · omega
        · rename_i zero
          simp only [true_and, ne_eq, not_not] at zero
          omega
    rw [kept]
    apply iff_of_true greatest
    intro differ short served some narrow
    refine ⟨_, valid, ?_⟩
    rcases single with found | same | few
    · have enough := topped.found found
      have filled : slidingWindow - 1 ≤ (searchTop result - 1) * blockSize :=
        (le_cdiv_mul block_pos _).trans (Nat.mul_le_mul_right _ (by omega))
      omega
    · exact absurd same differ
    · have le := above served
      rw [show searchTop result - 1 = 0 by omega, Nat.zero_mul] at le
      omega
  · simp only [not_or, Bool.not_eq_true] at single
    rcases single with ⟨unmatched, differ, several⟩
    have short_of_window : searchTop result - 1 < cdiv (slidingWindow - 1) blockSize := by
      rcases topped.short unmatched with none_ | short
      · omega
      · omega
    rw [lt_cdiv_iff block_pos] at short_of_window
    have misaligned : searchTop result * blockSize % alignmentTokens ≠ 0 := by
      intro divides
      have next : alignmentTokens ∣ (searchTop result - 1) * blockSize + blockSize := by
        rw [← Nat.succ_mul, Nat.succ_eq_add_one, Nat.sub_add_cancel (by omega)]
        exact Nat.dvd_of_mod_eq_zero divides
      exact differ (Nat.dvd_antisymm whole ((Nat.dvd_add_right aligned.dvd).mp next))
    have trimmed : alignedCount blockSize alignmentTokens (searchTop result) =
        searchTop result - 1 := by
      generalize searchTop result = top at several aligned misaligned ⊢
      cases top with
      | zero => rfl
      | succ top =>
          rw [alignedCount, if_pos ⟨differ, misaligned⟩]
          exact alignedCount_eq aligned
    -- The first trim already took the dropped block off; the drop takes another one.
    have kept : keptBlocks blockSize alignmentTokens true result < searchTop result - 1 := by
      have le := alignedCount_le blockSize alignmentTokens (searchTop result - 1 - 1)
      rw [keptBlocks]
      simp only [unmatched, Bool.false_eq_true, if_false, trimmed]
      rw [if_pos ⟨trivial, by omega⟩]
      omega
    apply iff_of_false
    · intro other
      have same := Nat.eq_of_mul_eq_mul_right block_pos (other.unique greatest)
      omega
    · intro longest
      rcases longest differ _ valid (Nat.mul_pos (by omega) block_pos) (by omega) with
        ⟨longer, served, fills⟩
      have le := above served
      omega

/-- The lookup returns the longest valid hit exactly when no hit shorter than the window is lost to
the second trim of a drop and, for a window of one token, when the last aligned block is cached. -/
theorem findLongestSlidingWindowHit_isGreatest_iff (hash_pos : 0 < pool.hashBlockSize)
    (block_pos : 0 < blockSize) (alignment_pos : 0 < alignmentTokens)
    (ran : findLongestSlidingWindowHit pool blockHashes maxLength groupIds blockSize slidingWindow
      dropEagleBlock alignmentTokens = .ok (rows, length)) :
    IsGreatest {served | WindowServed pool blockHashes groupIds blockSize slidingWindow
        alignmentTokens dropEagleBlock maxLength served} length ↔
      (dropEagleBlock = true → blockSize ≠ alignmentTokens → ∀ short, WindowServed pool
        blockHashes groupIds blockSize slidingWindow alignmentTokens true maxLength short →
        0 < short → short + 1 < slidingWindow → ∃ longer, WindowServed pool blockHashes groupIds
          blockSize slidingWindow alignmentTokens true maxLength longer ∧
            slidingWindow ≤ longer + 1) ∧
      (dropEagleBlock = false → slidingWindow ≤ 1 → maxLength / alignmentTokens = 0 ∨
        BlockCached pool blockHashes groupIds blockSize
          (maxLength / alignmentTokens * alignmentTokens / blockSize - 1)) := by
  rcases findLongestSlidingWindowHit_view hash_pos block_pos ran with
    ⟨whole, _, view, resolved, shown⟩
  rcases @scanWindow_scanned _ _ _ _ _ groupIds _ alignmentTokens
    (contiguousBlocksForHit slidingWindow blockSize dropEagleBlock) dropEagleBlock _ shown _ 0
    ([]) shown.blocks_le (Nat.zero_le _) (.inl rfl) (by simp [CachedRun])
    (fun some => absurd some (Nat.lt_irrefl 0)) with ⟨result, scanRan, scanned⟩
  have topped := scanned.topped
  have last (top : Nat) (later : searchTop result < top) :=
    @scanWindow_last _ _ _ _ groupIds _ alignmentTokens _ dropEagleBlock [] _ _ _ _ _ shown
      (maxLength / blockSize) (Nat.zero_le _) (.inl rfl)
      (fun top beyond run => absurd run.within (by omega)) scanRan top later
  rw [length_rows_eq ran whole resolved scanRan scanned]
  cases dropEagleBlock with
  | true =>
      rw [topped.isGreatest_dropping block_pos whole last]
      simp
  | false =>
      have kept : keptBlocks blockSize alignmentTokens false result = searchTop result := by
        have aligned : TopAligned blockSize alignmentTokens false (searchTop result) := by
          by_cases some : 0 < searchTop result
          · exact topped.aligned some
          · intro _
            simp [Nat.eq_zero_of_not_pos some]
        simp [keptBlocks, alignedCount_eq aligned]
      rw [kept, topped.isGreatest_keeping block_pos alignment_pos whole last]
      simp

/-- Without an alignment of its own, the drop takes one block off. -/
theorem findLongestSlidingWindowHit_isGreatest_dropped :
    IsGreatest {served | WindowServed (cachingPool 1 [1, 2, 3]) [1, 2, 3] [0] 1 2 1 true 3 served}
      2 := by
  have ran : findLongestSlidingWindowHit (cachingPool 1 [1, 2, 3]) [1, 2, 3] 3 [0] 1 2 true 1 =
      .ok ([[0], [3]], 2) := by rfl
  apply (findLongestSlidingWindowHit_isGreatest_iff (by decide) (by decide) (by decide) ran).mpr
  constructor
  · intro _ differ
    exact absurd rfl differ
  · nofun

/-- Three cached blocks at the start, with a drop and an alignment of two blocks: two blocks are a
valid hit, and nothing is returned. -/
theorem dropped_start_lost :
    ∃ (pool : BlockPool Nat) (blockHashes : List Nat) (rows : List HitRow) (length : Nat),
      findLongestSlidingWindowHit pool blockHashes 3 [0] 1 10 true 2 = .ok (rows, length) ∧
      ¬ IsGreatest {served | WindowServed pool blockHashes [0] 1 10 2 true 3 served} length := by
  refine ⟨cachingPool 1 [1, 2, 3], [1, 2, 3], [], 0, rfl, ?_⟩
  intro greatest
  have two : WindowServed (cachingPool 1 [1, 2, 3]) [1, 2, 3] [0] 1 10 2 true 3 2 := by
    constructor
    · decide
    · decide
    · intro position before _
      interval_cases position
      · exact ⟨[2], 1, rfl, rfl⟩
      · exact ⟨[3], 2, rfl, rfl⟩
    · intro _ _
      exact ⟨by decide, [4], 3, rfl, rfl⟩
  exact absurd (greatest.2 two) (by decide)

end SlidingWindow

/-! ## Chunked local attention -/

section ChunkedLocal

variable {attentionChunkSize alignmentTokens maxLength length : Nat} {dropEagleBlock : Bool}
  {rows : List HitRow}

/-- A run holds the cached blocks from `start` on, and the first one if that is cached. -/
theorem cachedRun_spec {view : List H} {start count : Nat} {run : List HitRow}
    (ran : cachedRun pool groupIds view start count = .ok run) :
    run.length ≤ count ∧
      (∀ index row, run[index]? = some row → ∃ blockHash, view[start + index]? = some blockHash ∧
        pool.getCachedBlock blockHash groupIds = some row) ∧
      (0 < count → ∀ blockHash row, view[start]? = some blockHash →
        pool.getCachedBlock blockHash groupIds = some row → run ≠ []) := by
  induction count generalizing start run with
  | zero =>
      cases ran
      exact ⟨Nat.le_refl 0, by simp, fun some => absurd some (Nat.lt_irrefl 0)⟩
  | succ count inductionHypothesis =>
      rcases bind_eq_ok.mp ran with ⟨blockHash, indexed, ran⟩
      have entry := pyIndex_eq_ok.mp indexed
      split at ran
      · rename_i missed
        cases ran
        refine ⟨Nat.zero_le _, by simp, ?_⟩
        intro _ other row shown cached
        rw [entry, Option.some.injEq] at shown
        rw [← shown, missed] at cached
        cases cached
      · rename_i first found
        rcases bind_eq_ok.mp ran with ⟨rest, restRan, done⟩
        cases done
        rcases inductionHypothesis restRan with ⟨size, cached, _⟩
        refine ⟨Nat.succ_le_succ size, ?_, by simp⟩
        intro index row at_
        cases index with
        | zero =>
            cases at_
            exact ⟨blockHash, entry, found⟩
        | succ index =>
            rw [show start + (index + 1) = start + 1 + index by omega]
            exact cached index row at_

/-- A hit holds a cached block at every position of the chunk at its end exactly when the chunk
that the lookup started from begins with a block, with a cached block, or at a block that begins
with a chunk itself. -/
theorem findLongestChunkedLocalHit_sound_iff (manager : SingleTypeKVCacheManager H)
    (hash_pos : 0 < pool.hashBlockSize) (block_pos : 0 < blockSize) (grouped : groupIds ≠ [])
    (unkeyed : ∀ key, pool.cachedBlockHashToBlock.contain key nullBlock = false)
    (kind : manager.kvCacheSpec.kind = .chunkedLocalAttention attentionChunkSize)
    (ran : findLongestChunkedLocalHit pool blockHashes maxLength groupIds blockSize
      attentionChunkSize dropEagleBlock alignmentTokens = .ok (rows, length)) :
    (∀ position, manager.getNumSkippedTokens length ≤ position → position < length →
      ∃ row, rows[position / blockSize]? = some row ∧
        CachedAt pool blockHashes groupIds ((position / blockSize + 1) * blockSize) row ∧
        nullBlock ∉ row) ↔
      blockSize ∣ maxLength / attentionChunkSize * attentionChunkSize ∨
      attentionChunkSize ∣ chunkStartBlock attentionChunkSize blockSize maxLength * blockSize ∨
      ((chunkStartBlock attentionChunkSize blockSize maxLength + 1) * blockSize ≤ maxLength ∧
        BlockCached pool blockHashes groupIds blockSize
          (chunkStartBlock attentionChunkSize blockSize maxLength)) := by
  have skipped : manager.getNumSkippedTokens length =
      length / attentionChunkSize * attentionChunkSize := by
    rw [SingleTypeKVCacheManager.getNumSkippedTokens, kind]
  rw [skipped]
  have unpacked := ran
  rcases bind_eq_ok.mp unpacked with ⟨_, kept, unpacked⟩
  rcases bind_eq_ok.mp unpacked with ⟨_, same, unpacked⟩
  rcases bind_eq_ok.mp unpacked with ⟨view, resolved, _⟩
  have kept := pyAssert_eq_ok.mp kept
  have same := pyAssert_eq_ok.mp same
  subst kept same
  rcases resolveBlockHashes_entry hash_pos block_pos resolved with ⟨_, entry⟩
  rw [findLongestChunkedLocalHit_eq resolved] at ran
  generalize startEq : chunkStartBlock attentionChunkSize blockSize maxLength = start at ran ⊢
  have start_le : start * blockSize ≤ maxLength / attentionChunkSize * attentionChunkSize := by
    rw [← startEq]
    exact Nat.div_mul_le_self _ _
  have start_lt : maxLength / attentionChunkSize * attentionChunkSize < (start + 1) * blockSize := by
    rw [← startEq, chunkStartBlock, Nat.succ_mul]
    exact Nat.lt_div_mul_add block_pos
  cases runEq : cachedRun pool groupIds view start (maxLength / blockSize - start) with
  | error raised =>
      rw [runEq] at ran
      cases ran
  | ok run =>
      rw [runEq] at ran
      rcases ran with ⟨rfl, rfl⟩
      rcases cachedRun_spec runEq with ⟨size, cached, first⟩
      have length_eq : (List.replicate start (List.replicate groupIds.length nullBlock) ++
          run).length = start + run.length := by
        simp
      rw [length_eq]
      -- A chunk that starts at or after block `start` is skipped as a whole up to there.
      have skips {boundary : Nat} (whole : attentionChunkSize ∣ boundary)
          (le : boundary ≤ (start + run.length) * blockSize) :
          boundary ≤ (start + run.length) * blockSize / attentionChunkSize * attentionChunkSize := by
        rw [← Nat.div_mul_cancel whole]
        exact Nat.mul_le_mul_right _ (Nat.div_le_div_right le)
      have start_le_length : start * blockSize ≤ (start + run.length) * blockSize :=
        Nat.mul_le_mul_right _ (Nat.le_add_right ..)
      constructor
      · intro covered
        by_contra uncovered
        simp only [not_or] at uncovered
        rcases uncovered with ⟨inside, off, missed⟩
        by_cases found : run = []
        · subst found
          simp only [List.length_nil, Nat.add_zero, List.append_nil] at covered
          have before : start * blockSize / attentionChunkSize * attentionChunkSize <
              start * blockSize := by
            apply Nat.lt_of_le_of_ne (Nat.div_mul_le_self _ _)
            intro exact_
            exact off (exact_ ▸ Nat.dvd_mul_left ..)
          rcases covered (start * blockSize - 1) (by omega) (by omega) with ⟨row, at_, _, kept⟩
          have null := List.mem_of_getElem? at_
          rw [(List.mem_replicate.mp null).2] at kept
          apply kept
          exact List.mem_replicate.mpr ⟨fun none_ => grouped (List.length_eq_zero_iff.mp none_), rfl⟩
        · have some : 0 < run.length := List.length_pos_iff.mpr found
          apply missed
          constructor
          · rw [← Nat.le_div_iff_mul_le block_pos]
            omega
          · rcases cached 0 run[0] (List.getElem?_eq_getElem some) with ⟨blockHash, shown, hit⟩
            exact ⟨_, blockHash, by rw [← entry, ← shown, Nat.add_zero], hit⟩
      · intro settled position after before
        have least : start * blockSize ≤
            (start + run.length) * blockSize / attentionChunkSize * attentionChunkSize := by
          rcases settled with whole | boundary | ⟨within, row, blockHash, shown, hit⟩
          · have exact_ : maxLength / attentionChunkSize * attentionChunkSize =
                start * blockSize := by
              rw [← startEq]
              exact (Nat.div_mul_cancel whole).symm
            rw [← exact_]
            apply skips (Nat.dvd_mul_left ..)
            rwa [exact_]
          · exact skips boundary start_le_length
          · have some : run ≠ [] := by
              apply first _ blockHash row _ hit
              · have inside := (Nat.le_div_iff_mul_le block_pos).mpr within
                omega
              · rw [entry, shown]
            have one := List.length_pos_iff.mpr some
            have reached : (start + 1) * blockSize ≤ (start + run.length) * blockSize :=
              Nat.mul_le_mul_right _ (by omega)
            exact start_le.trans (skips (Nat.dvd_mul_left ..) (start_lt.le.trans reached))
        have inside : position / blockSize < start + run.length :=
          (Nat.div_lt_iff_lt_mul block_pos).mpr before
        have beyond : start ≤ position / blockSize :=
          (Nat.le_div_iff_mul_le block_pos).mpr (least.trans after)
        have at_ := List.getElem?_eq_getElem (l := run) (i := position / blockSize - start) (by omega)
        rcases cached _ _ at_ with ⟨blockHash, shown, hit⟩
        rw [Nat.add_sub_cancel' beyond, entry] at shown
        have covered : CachedAt pool blockHashes groupIds ((position / blockSize + 1) * blockSize)
            run[position / blockSize - start] := ⟨blockHash, shown, hit⟩
        refine ⟨_, ?_, covered, covered.null_notMem unkeyed⟩
        rw [List.getElem?_append_right (by simpa using beyond), List.length_replicate, at_]

theorem cachingPool_unkeyed (hashBlockSize : Nat) (hashes : List Nat)
    (key : BlockHashWithGroupId Nat) :
    (cachingPool hashBlockSize hashes).cachedBlockHashToBlock.contain key nullBlock = false := by
  have folded (map : BlockHashToBlockMap Nat) (clear : map.contain key nullBlock = false) :
      (hashes.foldl (fun map hash => map.insert ⟨hash, 0⟩ (hash + 1)) map).contain key nullBlock =
        false := by
    induction hashes generalizing map with
    | nil => exact clear
    | cons hash rest inductionHypothesis =>
        apply inductionHypothesis
        rw [Bool.eq_false_iff, ne_eq, BlockHashToBlockMap.contain_insert]
        rintro (⟨_, same⟩ | kept)
        · exact absurd same (Nat.succ_ne_zero hash)
        · rw [clear] at kept
          cases kept
  exact folded _ (BlockHashToBlockMap.contain_empty key nullBlock)

/-- Chunks of two blocks. -/
theorem findLongestChunkedLocalHit_sound_whole :
    ∃ row, [[0], [0], [4]][9 / 4]? = some row ∧
      CachedAt (cachingPool 4 [3]) [1, 2, 3] [0] ((9 / 4 + 1) * 4) row ∧ nullBlock ∉ row := by
  have ran : findLongestChunkedLocalHit (cachingPool 4 [3]) [1, 2, 3] 15 [0] 4 8 false 4 =
      .ok ([[0], [0], [4]], 12) := by rfl
  have covered := (findLongestChunkedLocalHit_sound_iff
    (SingleTypeKVCacheManager.init ⟨4, .chunkedLocalAttention 8, 0, by decide, by decide⟩
      true 0 4 1 false none) (by decide) (by decide) (by decide) (cachingPool_unkeyed 4 [3]) rfl
    ran).mpr (.inl (by decide))
  exact covered 9 (by decide) (by decide)

/-- Chunks of one and a half blocks: the block in front of the chunk of the maximum length is null
and belongs to the chunk at the end of the hit. -/
theorem chunk_start_null :
    ∃ (manager : SingleTypeKVCacheManager Nat) (pool : BlockPool Nat) (blockHashes : List Nat)
      (rows : List HitRow) (length position : Nat),
      manager.kvCacheSpec.kind = .chunkedLocalAttention 6 ∧
      findLongestChunkedLocalHit pool blockHashes 7 [0] 4 6 false 4 = .ok (rows, length) ∧
      manager.getNumSkippedTokens length ≤ position ∧ position < length ∧
      rows[position / 4]? = some [nullBlock] := by
  refine ⟨SingleTypeKVCacheManager.init ⟨4, .chunkedLocalAttention 6, 0, by decide, by decide⟩
    true 0 4 1 false none, cachingPool 4 [1], [1], [[0]], 4, 0, rfl, rfl, ?_, ?_, rfl⟩
  · decide
  · decide

end ChunkedLocal

end Hits

end Vllm.Core
