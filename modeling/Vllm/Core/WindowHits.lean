import Vllm.Core.CacheHits

/-!
# Hits with gaps

Sliding windows, local chunks and recurrent states do not read the whole prefix, so
their lookups search from the right and leave null blocks in front.  Each section
says what one lookup returns, why that is a valid hit, and when looking up the
returned length again gives the same rows.
-/

namespace Vllm.Core

section Hits

variable {H : Type} {pool : BlockPool H} {blockHashes : List H} {maxLength : Nat}

/-! ## Sliding windows -/

section SlidingWindow

variable [DecidableEq H] {groupIds : List Nat} {spec : KVCacheSpec}
  {blockSize alignmentTokens needed : Nat} {dropEagleBlock : Bool}

/-- The rows of consecutive cached blocks from index `first` on. -/
def CachedRun (pool : BlockPool H) (blockHashes : List H) (groupIds : List Nat)
    (blockSize first : Nat) (run : List HitRow) : Prop :=
  ∀ index row, run[index]? = some row →
    CachedAt pool blockHashes groupIds ((first + index + 1) * blockSize) row

theorem CachedRun.cons {first : Nat} {row : HitRow} {run : List HitRow}
    (head : CachedAt pool blockHashes groupIds ((first + 1) * blockSize) row)
    (tail : CachedRun pool blockHashes groupIds blockSize (first + 1) run) :
    CachedRun pool blockHashes groupIds blockSize first (row :: run) := by
  intro index other entry
  cases index with
  | zero =>
      simp only [List.getElem?_cons_zero, Option.some.injEq] at entry
      exact entry ▸ head
  | succ index =>
      have later := tail index other (by simpa using entry)
      rwa [show first + (index + 1) + 1 = first + 1 + index + 1 by omega]

variable {first slidingWindow contiguous : Nat} {rows : List HitRow}

theorem CachedRun.take {run : List HitRow}
    (cached : CachedRun pool blockHashes groupIds blockSize first run) (count : Nat) :
    CachedRun pool blockHashes groupIds blockSize first (run.take count) := by
  intro index row entry
  rw [List.getElem?_take] at entry
  split at entry
  · exact cached index row entry
  · simp at entry

/-- A run may end after `top` blocks: what is left after the drop is aligned. -/
def TopAligned (blockSize alignmentTokens : Nat) (dropEagleBlock : Bool) (top : Nat) : Prop :=
  blockSize ≠ alignmentTokens →
    (if dropEagleBlock then top - 1 else top) * blockSize % alignmentTokens = 0

/-- What the right-to-left search over `total` blocks returns: the last aligned run of
the needed length, or the run at the start. -/
def Scanned (pool : BlockPool H) (blockHashes : List H) (groupIds : List Nat)
    (blockSize alignmentTokens needed : Nat) (dropEagleBlock : Bool) (total : Nat) :
    Bool × Nat × List HitRow → Prop
  | (true, contiguous, rows) => ∃ first run,
      rows = List.replicate first (List.replicate groupIds.length nullBlock) ++ run ∧
      run.length = contiguous ∧ contiguous = max needed 1 ∧ first + contiguous ≤ total ∧
      CachedRun pool blockHashes groupIds blockSize first run ∧
      TopAligned blockSize alignmentTokens dropEagleBlock (first + contiguous)
  | (false, contiguous, rows) =>
      rows.length = total ∧ contiguous ≤ total ∧ (contiguous = 0 ∨ contiguous < needed) ∧
      CachedRun pool blockHashes groupIds blockSize 0 (rows.take contiguous) ∧
      (0 < contiguous → TopAligned blockSize alignmentTokens dropEagleBlock contiguous)

theorem scanWindow_scanned {view : List H}
    (shown : HashView pool blockHashes blockSize maxLength view) {count contiguous : Nat}
    {rows : List HitRow} (inside : count ≤ view.length) (within : contiguous ≤ rows.length)
    (short : contiguous = 0 ∨ contiguous < needed)
    (cached : CachedRun pool blockHashes groupIds blockSize count (rows.take contiguous))
    (top : 0 < contiguous →
      TopAligned blockSize alignmentTokens dropEagleBlock (count + contiguous)) :
    ∃ result, scanWindow pool groupIds view blockSize alignmentTokens needed dropEagleBlock
        count contiguous rows = .ok result ∧
      Scanned pool blockHashes groupIds blockSize alignmentTokens needed dropEagleBlock
        (count + rows.length) result := by
  induction count generalizing contiguous rows with
  | zero =>
      refine ⟨(false, contiguous, rows), rfl, by simp, by omega, short, cached, ?_⟩
      simpa using top
  | succ i ih =>
      have total : i + (rows.length + 1) = i + 1 + rows.length := by omega
      have entry : prefixHash pool blockHashes ((i + 1) * blockSize) = some view[i] := by
        rw [← shown.entry, List.getElem?_eq_getElem inside]
      rw [scanWindow, pyIndex, List.getElem?_eq_getElem inside]
      simp only [bind, Except.bind]
      cases found : pool.getCachedBlock view[i] groupIds with
      | none =>
          rw [← total]
          exact ih (by omega) (Nat.zero_le _) (.inl rfl) (by simp [CachedRun])
            fun some => absurd some (Nat.lt_irrefl 0)
      | some row =>
          have extended : CachedRun pool blockHashes groupIds blockSize i
              ((row :: rows).take (contiguous + 1)) :=
            CachedRun.cons ⟨_, entry, found⟩ cached
          dsimp only
          generalize postEq : (if dropEagleBlock then i else i + 1) = postPopBlocks
          split
          · -- An unaligned block cannot end a run.
            rename_i misaligned
            rw [← total, misaligned.1]
            exact ih (by omega) (Nat.zero_le _) (.inl rfl) (by simp [CachedRun])
              fun some => absurd some (Nat.lt_irrefl 0)
          · rename_i proper
            have topNext : TopAligned blockSize alignmentTokens dropEagleBlock
                (i + (contiguous + 1)) := by
              by_cases starts : contiguous = 0
              · intro differ
                subst starts
                by_contra misaligned
                refine proper ⟨rfl, differ, ?_⟩
                rw [← postEq]
                cases dropEagleBlock <;> simpa using misaligned
              · rw [show i + (contiguous + 1) = i + 1 + contiguous by omega]
                exact top (Nat.pos_of_ne_zero starts)
            split
            · rename_i enough
              refine ⟨_, rfl, i, (row :: rows).take (contiguous + 1), rfl, ?_, ?_, by omega,
                extended, topNext⟩
              · rw [List.length_take, List.length_cons]
                omega
              · omega
            · rename_i more
              rw [← total]
              exact ih (by omega) (by simpa using within) (.inr (by omega)) extended
                fun _ => topNext

/-- A run that the search may stop at: long enough, or at the start. -/
def Stops (needed first size : Nat) : Prop :=
  size = max needed 1 ∨ (first = 0 ∧ size < needed)

variable {view : List H}

/-- Searching down a cached run that ends at an aligned boundary returns that run. -/
theorem scanWindow_run (shown : HashView pool blockHashes blockSize maxLength view)
    (inside : first + rows.length ≤ view.length)
    (cached : CachedRun pool blockHashes groupIds blockSize first rows)
    (top : TopAligned blockSize alignmentTokens false (first + rows.length))
    (stops : Stops needed first rows.length) {left : Nat} (le : left ≤ rows.length)
    (unfinished : left = 0 → first = 0 ∧ rows.length < needed) :
    scanWindow pool groupIds view blockSize alignmentTokens needed false (first + left)
        (rows.length - left) (rows.drop left) =
      .ok (if needed ≤ rows.length then
          (true, rows.length,
            List.replicate first (List.replicate groupIds.length nullBlock) ++ rows)
        else (false, rows.length, rows)) := by
  induction left with
  | zero =>
      rcases unfinished rfl with ⟨start, short⟩
      rw [if_neg (by omega), start]
      rfl
  | succ left ih =>
      have below : first + left < view.length := by omega
      have drop := List.drop_eq_getElem_cons (l := rows) (i := left) (by omega)
      rcases cached left rows[left] (List.getElem?_eq_getElem (by omega)) with
        ⟨blockHash, entry, found⟩
      rw [← shown.entry, List.getElem?_eq_getElem below, Option.some.injEq] at entry
      rw [← Nat.add_assoc, scanWindow, pyIndex, List.getElem?_eq_getElem below]
      simp only [bind, Except.bind]
      rw [entry, found]
      simp only [Bool.false_eq_true, if_false]
      rw [if_neg, ← drop]
      · have size : rows.length - (left + 1) + 1 = rows.length - left := by omega
        rw [size]
        split
        · rename_i enough
          have last : left = 0 := by
            rcases stops with exact | ⟨_, short⟩
            · omega
            · omega
          subst last
          rw [if_pos (by omega)]
          simp [pure, Except.pure]
        · rename_i more
          refine ih (by omega) fun last => ?_
          rcases stops with exact | start
          · omega
          · exact start
      · intro misaligned
        have last : left + 1 = rows.length := by omega
        refine misaligned.2.2 ?_
        have aligned := top misaligned.2.1
        rw [← last] at aligned
        simpa [Nat.add_assoc] using aligned

theorem alignedCount_le (blockSize alignmentTokens count : Nat) :
    alignedCount blockSize alignmentTokens count ≤ count := by
  induction count with
  | zero => exact Nat.le_refl 0
  | succ count ih =>
      rw [alignedCount]
      split <;> omega

theorem alignedCount_eq {count : Nat} (aligned : TopAligned blockSize alignmentTokens false count) :
    alignedCount blockSize alignmentTokens count = count := by
  cases count with
  | zero => rfl
  | succ count =>
      rw [alignedCount, if_neg]
      intro misaligned
      exact misaligned.2 (aligned misaligned.1)

theorem topAligned_alignedCount (blockSize alignmentTokens count : Nat) :
    TopAligned blockSize alignmentTokens false (alignedCount blockSize alignmentTokens count) := by
  induction count with
  | zero =>
      intro _
      simp [alignedCount]
  | succ count ih =>
      rw [alignedCount]
      split
      · exact ih
      · rename_i aligned
        intro differ
        by_contra misaligned
        exact aligned ⟨differ, misaligned⟩

theorem TopAligned.dvd {top : Nat} (aligned : TopAligned blockSize alignmentTokens false top) :
    alignmentTokens ∣ top * blockSize := by
  by_cases same : blockSize = alignmentTokens
  · exact same ▸ Nat.dvd_mul_left ..
  · exact Nat.dvd_of_mod_eq_zero (aligned same)

/-- What the sliding-window lookup returns: unread blocks, then a cached run that fills
the window or starts the request. -/
structure WindowHit (pool : BlockPool H) (blockHashes : List H) (groupIds : List Nat)
    (blockSize slidingWindow alignmentTokens : Nat) (dropEagleBlock : Bool) (maxLength : Nat)
    (rows : List HitRow) : Prop where
  aligned : TopAligned blockSize alignmentTokens false rows.length
  run : ∃ first run, rows =
      List.replicate first (List.replicate groupIds.length nullBlock) ++ run ∧
    CachedRun pool blockHashes groupIds blockSize first run ∧
    (first = 0 ∨ cdiv (slidingWindow - 1) blockSize ≤ run.length) ∧
    (Stops (cdiv (slidingWindow - 1) blockSize) first run.length ∨ rows = [] ∨
      (dropEagleBlock = true ∧ slidingWindow ≤ 1))
  within : rows.length * blockSize +
    (if dropEagleBlock ∧ rows ≠ [] then blockSize else 0) ≤ maxLength
  following : dropEagleBlock = true → rows ≠ [] →
    ∃ row, CachedAt pool blockHashes groupIds ((rows.length + 1) * blockSize) row

/-- The lookup of a search that found a long enough run. -/
theorem WindowHit.of_found (positive : 0 < blockSize)
    (scanned : Scanned pool blockHashes groupIds blockSize alignmentTokens
      (contiguousBlocksForHit slidingWindow blockSize dropEagleBlock) dropEagleBlock
      (maxLength / blockSize) (true, contiguous, rows)) :
    WindowHit pool blockHashes groupIds blockSize slidingWindow alignmentTokens dropEagleBlock
      maxLength (if dropEagleBlock ∧ rows ≠ [] then
        rows.take (alignedCount blockSize alignmentTokens (rows.length - 1)) else rows) := by
  rcases scanned with ⟨first, run, rfl, size, exact, inside, cached, top⟩
  have whole : (first + contiguous) * blockSize ≤ maxLength :=
    (Nat.mul_le_mul_right _ inside).trans (Nat.div_mul_le_self _ _)
  cases dropEagleBlock with
  | false =>
      simp only [contiguousBlocksForHit, Bool.false_eq_true, if_false, Nat.add_zero] at exact
      constructor
      · simpa [size] using top
      · exact ⟨first, run, rfl, cached, .inr (by omega), .inl (.inl (by omega))⟩
      · simpa [size] using whole
      · nofun
  | true =>
      simp only [contiguousBlocksForHit, if_true] at exact
      have nonempty : List.replicate first (List.replicate groupIds.length nullBlock) ++ run ≠ [] := by
        intro empty
        have none := congrArg List.length empty
        simp only [List.length_append, List.length_replicate, List.length_nil] at none
        omega
      have counted : contiguous = cdiv (slidingWindow - 1) blockSize + 1 := by omega
      generalize neededEq : cdiv (slidingWindow - 1) blockSize = needed at counted
      subst counted
      have kept : alignedCount blockSize alignmentTokens (first + needed) = first + needed :=
        alignedCount_eq (by simpa [TopAligned] using top)
      have cut : (List.replicate first (List.replicate groupIds.length nullBlock) ++ run).take
          (first + needed) =
          List.replicate first (List.replicate groupIds.length nullBlock) ++ run.take needed := by
        rw [List.take_append, List.length_replicate, Nat.add_sub_cancel_left,
          List.take_of_length_le (by simp)]
      have shorter : (run.take needed).length = needed := by
        rw [List.length_take]
        omega
      rw [if_pos ⟨rfl, nonempty⟩, List.length_append, List.length_replicate, size,
        show first + (needed + 1) - 1 = first + needed by omega, kept, cut]
      constructor
      · simpa [shorter, TopAligned] using top
      · refine ⟨first, run.take needed, rfl, cached.take needed, .inr (by omega), ?_⟩
        by_cases nonzero : 0 < needed
        · exact .inl (.inl (by omega))
        · have narrow : ¬ 0 < slidingWindow - 1 := by
            rw [← Nat.zero_mul blockSize, ← lt_cdiv_iff positive, neededEq]
            exact nonzero
          exact .inr (.inr ⟨rfl, by omega⟩)
      · split
        · simpa [shorter, Nat.add_mul, Nat.add_assoc] using whole
        · simp only [List.length_append, List.length_replicate, shorter]
          exact (Nat.mul_le_mul_right _ (by omega)).trans whole
      · intro _ _
        have last : run[needed]? = some run[needed] := List.getElem?_eq_getElem (by omega)
        refine ⟨run[needed], ?_⟩
        simpa [shorter] using cached needed _ last

/-- The lookup of a search that reached the start. -/
theorem WindowHit.of_start (scanned : Scanned pool blockHashes groupIds blockSize alignmentTokens
      (contiguousBlocksForHit slidingWindow blockSize dropEagleBlock) dropEagleBlock
      (maxLength / blockSize) (false, contiguous, rows)) {kept : List HitRow} (keptEq : kept =
      rows.take (alignedCount blockSize alignmentTokens (rows.take contiguous).length)) :
    WindowHit pool blockHashes groupIds blockSize slidingWindow alignmentTokens dropEagleBlock
      maxLength (if dropEagleBlock ∧ kept ≠ [] then
        kept.take (alignedCount blockSize alignmentTokens (kept.length - 1)) else kept) := by
  rcases scanned with ⟨total, within, short, cached, top⟩
  have bounded := alignedCount_le blockSize alignmentTokens contiguous
  have size : (rows.take contiguous).length = contiguous := by
    rw [List.length_take]
    omega
  rw [size] at keptEq
  generalize countEq : alignedCount blockSize alignmentTokens contiguous = count at bounded keptEq
  have keptSize : kept.length = count := by
    rw [keptEq, List.length_take]
    omega
  have keptCached : CachedRun pool blockHashes groupIds blockSize 0 kept := by
    have restricted := cached.take count
    rwa [List.take_take, Nat.min_eq_left bounded, ← keptEq] at restricted
  have whole : contiguous * blockSize ≤ maxLength :=
    (Nat.mul_le_mul_right _ within).trans (Nat.div_mul_le_self _ _)
  split
  · rename_i dropped
    have fewer := alignedCount_le blockSize alignmentTokens (count - 1)
    have aligned := topAligned_alignedCount blockSize alignmentTokens (count - 1)
    have positive : 0 < count := keptSize ▸ List.length_pos_iff.mpr dropped.2
    rw [keptSize]
    generalize alignedCount blockSize alignmentTokens (count - 1) = final at fewer aligned
    have finalSize : (kept.take final).length = final := by
      rw [List.length_take]
      omega
    constructor
    · rwa [finalSize]
    · refine ⟨0, kept.take final, by simp, keptCached.take final, .inl rfl, .inl (.inr ⟨rfl, ?_⟩)⟩
      rw [dropped.1] at short
      simp only [contiguousBlocksForHit, if_true] at short
      omega
    · rw [finalSize]
      have le : (final + 1) * blockSize ≤ maxLength :=
        (Nat.mul_le_mul_right _ (by omega)).trans whole
      rw [Nat.succ_mul] at le
      split <;> omega
    · intro _ _
      have next : kept[final]? = some kept[final] := List.getElem?_eq_getElem (by omega)
      refine ⟨kept[final], ?_⟩
      simpa [finalSize] using keptCached final _ next
  · rename_i settled
    constructor
    · rw [keptSize, ← countEq]
      exact topAligned_alignedCount blockSize alignmentTokens contiguous
    · refine ⟨0, kept, by simp, keptCached, .inl rfl, ?_⟩
      cases dropEagleBlock with
      | true =>
          refine .inr (.inl ?_)
          by_contra nonempty
          exact settled ⟨rfl, nonempty⟩
      | false =>
          simp only [contiguousBlocksForHit, Bool.false_eq_true, if_false, Nat.add_zero] at short
          rcases short with none | short
          · refine .inr (.inl (List.eq_nil_of_length_eq_zero ?_))
            omega
          · exact .inl (.inr ⟨rfl, by omega⟩)
    · rw [keptSize, if_neg settled]
      exact (Nat.mul_le_mul_right _ bounded).trans whole
    · intro dropped nonempty
      exact absurd ⟨dropped, nonempty⟩ settled

/-- The lookup trims what the search returns. -/
theorem findLongestSlidingWindowHit_of_scan {matchFound : Bool}
    (whole : blockSize ∣ alignmentTokens)
    (resolved : resolveBlockHashes blockHashes pool.hashBlockSize blockSize false
      (some alignmentTokens) = .ok view)
    (ran : scanWindow pool groupIds view blockSize alignmentTokens
      (contiguousBlocksForHit slidingWindow blockSize dropEagleBlock) dropEagleBlock
      (maxLength / blockSize) 0 [] = .ok (matchFound, contiguous, rows)) :
    findLongestSlidingWindowHit pool blockHashes maxLength groupIds blockSize
      slidingWindow dropEagleBlock alignmentTokens = (do
        let rows := if matchFound then rows
          else rows.take (alignedCount blockSize alignmentTokens (rows.take contiguous).length)
        let rows := if dropEagleBlock ∧ rows ≠ [] then
          rows.take (alignedCount blockSize alignmentTokens (rows.length - 1)) else rows
        pure (rows, rows.length * blockSize)) := by
  simp only [findLongestSlidingWindowHit, pyAssert, Nat.mod_eq_zero_of_dvd whole, if_true,
    resolved, bind, Except.bind, ran]

/-- The lookup answers with an aligned run, within the searched length. -/
theorem findLongestSlidingWindowHit_of_view {slidingWindow : Nat} {view : List H}
    (positive : 0 < blockSize) (whole : blockSize ∣ alignmentTokens)
    (resolved : resolveBlockHashes blockHashes pool.hashBlockSize blockSize false
      (some alignmentTokens) = .ok view)
    (shown : HashView pool blockHashes blockSize maxLength view) (dropEagleBlock : Bool) :
    ∃ rows, findLongestSlidingWindowHit pool blockHashes maxLength groupIds blockSize slidingWindow
        dropEagleBlock alignmentTokens = .ok (rows, rows.length * blockSize) ∧
      WindowHit pool blockHashes groupIds blockSize slidingWindow alignmentTokens dropEagleBlock
        maxLength rows := by
  have inside := shown.blocks_le
  rcases @scanWindow_scanned _ _ _ _ _ groupIds _ alignmentTokens
    (contiguousBlocksForHit slidingWindow blockSize dropEagleBlock) dropEagleBlock _ shown _ 0
    ([]) inside (Nat.zero_le _) (.inl rfl) (by simp [CachedRun])
    (fun some => absurd some (Nat.lt_irrefl 0)) with
    ⟨⟨matchFound, contiguous, rows⟩, ran, scanned⟩
  refine ⟨_, findLongestSlidingWindowHit_of_scan whole resolved ran, ?_⟩
  cases matchFound with
  | true => exact WindowHit.of_found positive scanned
  | false => exact WindowHit.of_start scanned rfl

/-- The lookup of a length that the hashes reach. -/
theorem findLongestSlidingWindowHit_spec {slidingWindow : Nat}
    (fits : Fits pool.hashBlockSize alignmentTokens blockSize) (whole : blockSize ∣ alignmentTokens)
    (reaches : maxLength / pool.hashBlockSize ≤ blockHashes.length) (dropEagleBlock : Bool) :
    ∃ rows, findLongestSlidingWindowHit pool blockHashes maxLength groupIds blockSize slidingWindow
        dropEagleBlock alignmentTokens = .ok (rows, rows.length * blockSize) ∧
      WindowHit pool blockHashes groupIds blockSize slidingWindow alignmentTokens dropEagleBlock
        maxLength rows := by
  rcases @resolveBlockHashes_aligned _ _ _ _ _ alignmentTokens false fits.hash_pos fits.block_pos
    fits.hash_dvd (fun finer => nomatch finer.1) reaches with
    ⟨view, resolved, shown⟩
  exact findLongestSlidingWindowHit_of_view fits.block_pos whole resolved shown dropEagleBlock

/-- The blocks before the run lie outside the window of the next query. -/
theorem WindowHit.rowsHit {extraRetainedTokens : Nat}
    (fits : Fits pool.hashBlockSize alignmentTokens blockSize)
    (kind : spec.kind = .slidingWindow slidingWindow extraRetainedTokens)
    (hit : WindowHit pool blockHashes groupIds blockSize slidingWindow alignmentTokens
      dropEagleBlock maxLength rows) :
    RowsHit pool blockHashes groupIds spec blockSize (rows.length * blockSize) rows := by
  have notMamba : spec.isMamba = false := by simp [KVCacheSpec.isMamba, kind]
  rcases hit.run with ⟨first, run, rowsEq, cached, fills, _⟩
  constructor
  · exact (cdiv_mul fits.block_pos _).symm
  · intro index row entry reads
    rw [kind, SpecKind.Reads] at reads
    have size : rows.length = first + run.length := by simp [rowsEq]
    have inside : first ≤ index := by
      by_contra outside
      rcases fills with start | fills
      · omega
      · have before : (index + 1) * blockSize ≤ first * blockSize :=
          Nat.mul_le_mul_right _ (by omega)
        have window : slidingWindow - 1 ≤ run.length * blockSize :=
          (le_cdiv_mul fits.block_pos _).trans (Nat.mul_le_mul_right _ fills)
        rw [size, Nat.add_mul] at reads
        omega
    rw [rowsEq, List.getElem?_append_right (by simpa using inside), List.length_replicate] at entry
    have at_ := cached _ row entry
    rw [Nat.add_sub_cancel' inside] at at_
    refine ⟨(index + 1) * blockSize, fits.hash_dvd.mul_left _, ?_, at_⟩
    constructor
    · exact Nat.mul_lt_mul_of_pos_right (Nat.lt_succ_self _) fits.block_pos
    · exact Nat.le_refl _
    · exact Nat.min_le_right ..
    · simp [notMamba]

/-- Looking up the returned length again, without a drop, gives the same rows. -/
theorem WindowHit.again (fits : Fits pool.hashBlockSize alignmentTokens blockSize)
    (whole : blockSize ∣ alignmentTokens)
    (reaches : maxLength / pool.hashBlockSize ≤ blockHashes.length)
    (wide : dropEagleBlock = true → 1 < slidingWindow)
    (hit : WindowHit pool blockHashes groupIds blockSize slidingWindow alignmentTokens
      dropEagleBlock maxLength rows) :
    findLongestSlidingWindowHit pool blockHashes (rows.length * blockSize) groupIds blockSize
      slidingWindow false alignmentTokens = .ok (rows, rows.length * blockSize) := by
  have shorter : rows.length * blockSize ≤ maxLength := by
    have within := hit.within
    omega
  rcases @resolveBlockHashes_aligned _ _ _ (rows.length * blockSize) _ alignmentTokens false
    fits.hash_pos fits.block_pos fits.hash_dvd (fun finer => nomatch finer.1)
    ((Nat.div_le_div_right shorter).trans reaches) with ⟨view, resolved, shown⟩
  have inside := shown.blocks_le
  have top := hit.aligned
  rw [Nat.mul_div_cancel _ fits.block_pos] at inside
  rcases hit.run with ⟨first, run, rowsEq, cached, _, stops⟩
  have size : rows.length = first + run.length := by simp [rowsEq]
  simp only [findLongestSlidingWindowHit, pyAssert, Nat.mod_eq_zero_of_dvd whole, if_true,
    resolved, bind, Except.bind, contiguousBlocksForHit, Bool.false_eq_true, if_false,
    Nat.add_zero, false_and]
  rw [Nat.mul_div_cancel _ fits.block_pos]
  by_cases empty : rows = []
  · rw [empty]
    rfl
  · have settled : Stops (cdiv (slidingWindow - 1) blockSize) first run.length := by
      rcases stops with stops | none | ⟨dropped, narrow⟩
      · exact stops
      · exact absurd none empty
      · have wider := wide dropped
        omega
    have ran := scanWindow_run shown (by omega) cached (size ▸ top) settled (Nat.le_refl _) (by
        intro none
        rcases settled with exact | start
        · omega
        · exact start)
    rw [← size, Nat.sub_self, List.drop_length] at ran
    by_cases long : cdiv (slidingWindow - 1) blockSize ≤ run.length
    · rw [ran, if_pos long, ← rowsEq]
      rfl
    · have start : first = 0 := by
        rcases settled with exact | start
        · omega
        · exact start.1
      subst start
      subst rowsEq
      rw [ran, if_neg long]
      simp only [List.take_length, alignedCount_eq top, pure, Except.pure, Bool.false_eq_true,
        if_false]

end SlidingWindow

/-! ## Chunked local attention -/

section ChunkedLocal

variable [DecidableEq H] {groupIds : List Nat} {spec : KVCacheSpec}
  {blockSize attentionChunkSize : Nat}

/-- A run is cached, and looking up its own length gives it again. -/
theorem cachedRun_cached {view : List H}
    (shown : HashView pool blockHashes blockSize maxLength view) {start count : Nat}
    (inside : 0 < count → start + count ≤ view.length) :
    ∃ run, cachedRun pool groupIds view start count = .ok run ∧ run.length ≤ count ∧
      CachedRun pool blockHashes groupIds blockSize start run ∧
      cachedRun pool groupIds view start run.length = .ok run := by
  induction count generalizing start with
  | zero => exact ⟨[], rfl, Nat.le_refl 0, by simp [CachedRun], rfl⟩
  | succ count ih =>
      have below : start < view.length := by
        omega
      have entry : prefixHash pool blockHashes ((start + 1) * blockSize) = some view[start] := by
        rw [← shown.entry, List.getElem?_eq_getElem below]
      have indexed : pyIndex view start = .ok view[start] :=
        pyIndex_eq_ok.mpr (List.getElem?_eq_getElem below)
      cases found : pool.getCachedBlock view[start] groupIds with
      | none =>
          refine ⟨[], ?_, Nat.zero_le _, by simp [CachedRun], rfl⟩
          simp only [cachedRun, indexed, bind, Except.bind, found]
          rfl
      | some row =>
          rcases @ih (start + 1) fun _ => by have := inside (Nat.succ_pos count); omega
            with ⟨run, ran, size, cached, again⟩
          refine ⟨row :: run, ?_, by simpa using size, CachedRun.cons ⟨_, entry, found⟩ cached, ?_⟩
          · simp only [cachedRun, indexed, bind, Except.bind, found, ran]
            rfl
          · simp only [List.length_cons, cachedRun, indexed, bind, Except.bind, found, again]
            rfl

/-- The block with the first token of the chunk that a query at `length` attends to. -/
def chunkStartBlock (attentionChunkSize blockSize length : Nat) : Nat :=
  length / attentionChunkSize * attentionChunkSize / blockSize

theorem chunkStartBlock_le (attentionChunkSize blockSize length : Nat) :
    chunkStartBlock attentionChunkSize blockSize length ≤ length / blockSize :=
  Nat.div_le_div_right (Nat.div_mul_le_self _ _)

theorem chunkStartBlock_mono {length longer : Nat} (le : length ≤ longer) :
    chunkStartBlock attentionChunkSize blockSize length ≤
      chunkStartBlock attentionChunkSize blockSize longer :=
  Nat.div_le_div_right (Nat.mul_le_mul_right _ (Nat.div_le_div_right le))

/-- What the lookup of `maxLength` tokens returns: the blocks before the chunk of that
length, then a cached run. -/
structure ChunkHit (pool : BlockPool H) (blockHashes : List H) (groupIds : List Nat)
    (blockSize attentionChunkSize maxLength : Nat) (rows : List HitRow) : Prop where
  run : ∃ run, rows = List.replicate (chunkStartBlock attentionChunkSize blockSize maxLength)
      (List.replicate groupIds.length nullBlock) ++ run ∧
    CachedRun pool blockHashes groupIds blockSize
      (chunkStartBlock attentionChunkSize blockSize maxLength) run
  within : rows.length * blockSize ≤ maxLength

/-- The lookup computes the start of the chunk. -/
theorem findLongestChunkedLocalHit_eq {view : List H}
    (resolved : resolveBlockHashes blockHashes pool.hashBlockSize blockSize false
      (some blockSize) = .ok view) :
    findLongestChunkedLocalHit pool blockHashes maxLength groupIds blockSize attentionChunkSize
        false blockSize =
      (cachedRun pool groupIds view (chunkStartBlock attentionChunkSize blockSize maxLength)
        (maxLength / blockSize - chunkStartBlock attentionChunkSize blockSize maxLength)).map
        fun run => (List.replicate (chunkStartBlock attentionChunkSize blockSize maxLength)
            (List.replicate groupIds.length nullBlock) ++ run,
          (List.replicate (chunkStartBlock attentionChunkSize blockSize maxLength)
            (List.replicate groupIds.length nullBlock) ++ run).length * blockSize) := by
  have start : (if maxLength > 0 then maxLength / attentionChunkSize * attentionChunkSize else 0) =
      maxLength / attentionChunkSize * attentionChunkSize := by
    split
    · rfl
    · rename_i none
      rw [show maxLength = 0 by omega, Nat.zero_div, Nat.zero_mul]
  simp only [findLongestChunkedLocalHit, pyAssert, if_true, resolved, bind, Except.bind, start]
  rfl

theorem findLongestChunkedLocalHit_spec (fits : Fits pool.hashBlockSize blockSize blockSize)
    (reaches : maxLength / pool.hashBlockSize ≤ blockHashes.length) :
    ∃ rows, findLongestChunkedLocalHit pool blockHashes maxLength groupIds blockSize
        attentionChunkSize false blockSize = .ok (rows, rows.length * blockSize) ∧
      ChunkHit pool blockHashes groupIds blockSize attentionChunkSize maxLength rows ∧
      (chunkStartBlock attentionChunkSize blockSize maxLength ≤
        chunkStartBlock attentionChunkSize blockSize (rows.length * blockSize) →
        findLongestChunkedLocalHit pool blockHashes (rows.length * blockSize) groupIds blockSize
          attentionChunkSize false blockSize = .ok (rows, rows.length * blockSize)) := by
  rcases @resolveBlockHashes_aligned _ _ _ _ _ blockSize false fits.hash_pos fits.block_pos
    fits.hash_dvd (fun finer => nomatch finer.1) reaches with
    ⟨view, resolved, shown⟩
  have inside := shown.blocks_le
  have begins := chunkStartBlock_le attentionChunkSize blockSize maxLength
  rcases @cachedRun_cached _ _ _ _ _ groupIds _ _ shown
    (chunkStartBlock attentionChunkSize blockSize maxLength)
    (maxLength / blockSize - chunkStartBlock attentionChunkSize blockSize maxLength)
    (fun _ => by omega) with ⟨run, ran, size, cached, again⟩
  have within : (chunkStartBlock attentionChunkSize blockSize maxLength + run.length) * blockSize ≤
      maxLength :=
    (Nat.mul_le_mul_right _ (by omega)).trans (Nat.div_mul_le_self _ _)
  refine ⟨_, ?_, ⟨⟨run, rfl, cached⟩, by simpa using within⟩, ?_⟩
  · rw [findLongestChunkedLocalHit_eq resolved, ran]
    rfl
  · intro settled
    have same := Nat.le_antisymm
      (chunkStartBlock_mono (by simpa using within)) settled
    rw [findLongestChunkedLocalHit_eq resolved, same, Nat.mul_div_cancel _ fits.block_pos,
      List.length_append, List.length_replicate, Nat.add_sub_cancel_left, again]
    simp [Except.map]

variable {rows : List HitRow}

/-- The answer is a valid hit if its own chunk starts in the block that the lookup
started from. -/
theorem ChunkHit.rowsHit {alignmentTokens : Nat}
    (fits : Fits pool.hashBlockSize alignmentTokens blockSize)
    (kind : spec.kind = .chunkedLocalAttention attentionChunkSize)
    (hit : ChunkHit pool blockHashes groupIds blockSize attentionChunkSize maxLength rows)
    (settled : chunkStartBlock attentionChunkSize blockSize maxLength ≤
      chunkStartBlock attentionChunkSize blockSize (rows.length * blockSize)) :
    RowsHit pool blockHashes groupIds spec blockSize (rows.length * blockSize) rows := by
  have notMamba : spec.isMamba = false := by simp [KVCacheSpec.isMamba, kind]
  rcases hit.run with ⟨run, rowsEq, cached⟩
  constructor
  · exact (cdiv_mul fits.block_pos _).symm
  · intro index row entry reads
    rw [kind, SpecKind.Reads, ← Nat.div_lt_iff_lt_mul fits.block_pos] at reads
    have inside : chunkStartBlock attentionChunkSize blockSize maxLength ≤ index :=
      settled.trans (Nat.le_of_lt_succ reads)
    rw [rowsEq, List.getElem?_append_right (by simpa using inside), List.length_replicate] at entry
    have at_ := cached _ row entry
    rw [Nat.add_sub_cancel' inside] at at_
    refine ⟨(index + 1) * blockSize, fits.hash_dvd.mul_left _, ?_, at_⟩
    constructor
    · exact Nat.mul_lt_mul_of_pos_right (Nat.lt_succ_self _) fits.block_pos
    · exact Nat.le_refl _
    · exact Nat.min_le_right ..
    · simp [notMamba]

/-- Chunks of whole blocks: the answer lies in the chunk of the lookup or at its start. -/
theorem ChunkHit.settled_of_dvd (whole : blockSize ∣ attentionChunkSize)
    (hit : ChunkHit pool blockHashes groupIds blockSize attentionChunkSize maxLength rows) :
    chunkStartBlock attentionChunkSize blockSize maxLength ≤
      chunkStartBlock attentionChunkSize blockSize (rows.length * blockSize) := by
  rcases hit.run with ⟨run, rowsEq, _⟩
  have least : chunkStartBlock attentionChunkSize blockSize maxLength ≤ rows.length := by
    rw [rowsEq, List.length_append, List.length_replicate]
    exact Nat.le_add_right ..
  have starts : maxLength / attentionChunkSize * attentionChunkSize ≤ rows.length * blockSize := by
    calc maxLength / attentionChunkSize * attentionChunkSize
        = chunkStartBlock attentionChunkSize blockSize maxLength * blockSize :=
          (Nat.div_mul_cancel (whole.mul_left _)).symm
      _ ≤ rows.length * blockSize := Nat.mul_le_mul_right _ least
  by_cases none : attentionChunkSize = 0
  · simp [chunkStartBlock, none]
  · have chunks : maxLength / attentionChunkSize ≤ rows.length * blockSize / attentionChunkSize :=
      (Nat.le_div_iff_mul_le (Nat.pos_of_ne_zero none)).mpr starts
    exact Nat.div_le_div_right (Nat.mul_le_mul_right _ chunks)

/-- Blocks of whole chunks: no chunk starts inside a block, so the answer is the lookup. -/
theorem ChunkHit.settled_of_chunk_dvd (whole : attentionChunkSize ∣ blockSize)
    (aligned : blockSize ∣ maxLength)
    (hit : ChunkHit pool blockHashes groupIds blockSize attentionChunkSize maxLength rows) :
    chunkStartBlock attentionChunkSize blockSize maxLength ≤
      chunkStartBlock attentionChunkSize blockSize (rows.length * blockSize) := by
  rcases hit.run with ⟨run, rowsEq, _⟩
  have starts : chunkStartBlock attentionChunkSize blockSize maxLength = maxLength / blockSize := by
    rw [chunkStartBlock, Nat.div_mul_cancel (whole.trans aligned)]
  have least : maxLength / blockSize ≤ rows.length := by
    rw [← starts, rowsEq, List.length_append, List.length_replicate]
    exact Nat.le_add_right ..
  have same : rows.length * blockSize = maxLength := by
    apply Nat.le_antisymm hit.within
    calc maxLength = maxLength / blockSize * blockSize := (Nat.div_mul_cancel aligned).symm
      _ ≤ rows.length * blockSize := Nat.mul_le_mul_right _ least
  rw [same]

end ChunkedLocal

/-! ## Mamba -/

section Mamba

variable [DecidableEq H] {groupIds : List Nat} {spec : KVCacheSpec}
  {blockSize alignmentTokens : Nat}

/-- What the Mamba lookup returns: the state after `length` tokens, or nothing. -/
structure StateHit (pool : BlockPool H) (blockHashes : List H) (groupIds : List Nat)
    (blockSize length : Nat) (rows : List HitRow) : Prop where
  divides : pool.hashBlockSize ∣ length
  rows_eq : (rows = [] ∧ length = 0) ∨ ∃ before row,
    rows = List.replicate before (List.replicate groupIds.length nullBlock) ++ [row] ∧
      before * blockSize < length ∧ length ≤ (before + 1) * blockSize ∧
      CachedAt pool blockHashes groupIds length row

theorem StateHit.rowsHit {length : Nat} {rows : List HitRow} (positive : 0 < blockSize)
    (mamba : spec.isMamba = true) (hit : StateHit pool blockHashes groupIds blockSize length rows) :
    RowsHit pool blockHashes groupIds spec blockSize length rows := by
  have reads : ∀ index, spec.kind.Reads blockSize length index →
      index + 1 = cdiv length blockSize := by
    intro index reads
    unfold KVCacheSpec.isMamba at mamba
    split at mamba
    · rename_i kind
      rwa [kind, SpecKind.Reads] at reads
    · cases mamba
  rcases hit.rows_eq with ⟨rfl, rfl⟩ | ⟨before, row, rfl, starts, ends, cached⟩
  · constructor
    · have zero := cdiv_mul positive 0
      rw [Nat.zero_mul] at zero
      rw [zero, List.length_nil]
    · simp
  · have size : cdiv length blockSize = before + 1 := by
      apply Nat.le_antisymm
      · calc cdiv length blockSize ≤ cdiv ((before + 1) * blockSize) blockSize :=
              cdiv_mono ends blockSize
          _ = before + 1 := cdiv_mul positive _
      · exact (lt_cdiv_iff positive).mpr starts
    constructor
    · simp [size]
    · intro index other entry read
      have last : index = before := by
        have counted := reads index read
        omega
      subst last
      rw [List.getElem?_append_right (by simp), List.length_replicate, Nat.sub_self,
        List.getElem?_cons_zero, Option.some.injEq] at entry
      exact ⟨length, hit.divides, ⟨starts, ends, Nat.min_le_left .., fun _ => rfl⟩, entry ▸ cached⟩

/-- The rows and the length for the boundary that the probing found. -/
def stateRows (groupIds : List Nat) (blockSize unit : Nat) :
    Option (Nat × HitRow) → List HitRow × Nat
  | some (index, row) =>
      (List.replicate (index / (blockSize / unit)) (List.replicate groupIds.length nullBlock) ++
        [row], (index + 1) * unit)
  | none => ([], 0)

/-- Probing the boundaries at multiples of `unit` finds a state, and finds it again
below its own length. -/
theorem probeDown_state {view : List H} {unit : Nat} {accept : Nat → Bool}
    (shown : HashView pool blockHashes unit maxLength view) (positive : 0 < unit)
    (hash_dvd : pool.hashBlockSize ∣ unit) (unit_dvd : unit ∣ blockSize) (proper : 0 < blockSize)
    (aligned : ∀ index, accept index = true → alignmentTokens ∣ (index + 1) * unit) :
    ∃ found, probeDown pool groupIds view accept 0 (maxLength / unit) = .ok found ∧
      StateHit pool blockHashes groupIds blockSize (stateRows groupIds blockSize unit found).2
        (stateRows groupIds blockSize unit found).1 ∧
      alignmentTokens ∣ (stateRows groupIds blockSize unit found).2 ∧
      (stateRows groupIds blockSize unit found).2 ≤ maxLength ∧
      probeDown pool groupIds view accept 0 ((stateRows groupIds blockSize unit found).2 / unit) =
        .ok found := by
  rcases @probeDown_ok _ pool _ groupIds _ accept 0 (maxLength / unit)
    (fun _ => by simpa using shown.blocks_le) with ⟨found, ran⟩
  refine ⟨found, ran, ?_⟩
  cases found with
  | none =>
      refine ⟨⟨Nat.dvd_zero _, .inl ⟨rfl, rfl⟩⟩, Nat.dvd_zero _, Nat.zero_le _, ?_⟩
      simp [stateRows, probeDown]
  | some entry =>
      rcases entry with ⟨index, row⟩
      rcases probeDown_found ran with ⟨_, inside, accepted, blockHash, entry, cached⟩
      have scale : blockSize / unit * unit = blockSize := Nat.div_mul_cancel unit_dvd
      have factor : 0 < blockSize / unit := Nat.div_pos (Nat.le_of_dvd proper unit_dvd) positive
      have before : index / (blockSize / unit) * blockSize < (index + 1) * unit := by
        calc index / (blockSize / unit) * blockSize
            = index / (blockSize / unit) * (blockSize / unit) * unit := by
              rw [Nat.mul_assoc, scale]
          _ < (index + 1) * unit := Nat.mul_lt_mul_of_pos_right
              (Nat.lt_succ_of_le (Nat.div_mul_le_self _ _)) positive
      have after : (index + 1) * unit ≤ (index / (blockSize / unit) + 1) * blockSize := by
        calc (index + 1) * unit
            ≤ (index / (blockSize / unit) + 1) * (blockSize / unit) * unit := by
              apply Nat.mul_le_mul_right
              rw [Nat.succ_mul]
              exact Nat.lt_div_mul_add factor
          _ = (index / (blockSize / unit) + 1) * blockSize := by rw [Nat.mul_assoc, scale]
      have boundary : CachedAt pool blockHashes groupIds ((index + 1) * unit) row :=
        ⟨blockHash, by rw [← shown.entry, entry], cached⟩
      refine ⟨⟨hash_dvd.mul_left _, .inr ⟨_, row, rfl, before, after, boundary⟩⟩,
        aligned index accepted, ?_, ?_⟩
      · exact (Nat.mul_le_mul_right _ (by omega)).trans (Nat.div_mul_le_self _ _)
      · change probeDown pool groupIds view accept 0 ((index + 1) * unit / unit) = _
        rw [Nat.mul_div_cancel _ positive]
        have last := @probeDown_last _ pool _ groupIds view accept 0 index _ _
          (by simpa using entry) cached (by simpa using accepted)
        simpa using last

theorem findLongestMambaHit_eq {view : List H}
    (resolved : resolveBlockHashes blockHashes pool.hashBlockSize blockSize true
      (some alignmentTokens) = .ok view) {fine : Bool}
    (fineEq : decide (alignmentTokens < blockSize ∧ blockSize % alignmentTokens = 0) = fine) :
    findLongestMambaHit pool blockHashes maxLength groupIds blockSize alignmentTokens =
      (probeDown pool groupIds view
        (fun i => fine || blockSize = alignmentTokens || (i + 1) * blockSize % alignmentTokens = 0)
        0 (if fine then min (maxLength / alignmentTokens) view.length
          else maxLength / blockSize)).map
        (stateRows groupIds blockSize (if fine then alignmentTokens else blockSize)) := by
  simp only [findLongestMambaHit, resolved, bind, Except.bind, fineEq]
  cases probeDown pool groupIds view
    (fun i => fine || blockSize = alignmentTokens || (i + 1) * blockSize % alignmentTokens = 0)
    0 (if fine then min (maxLength / alignmentTokens) view.length else maxLength / blockSize) with
  | error failure => rfl
  | ok found => cases found <;> rfl

/-- The lookup answers with the last cached state, and gives the same answer at its own
length. -/
theorem findLongestMambaHit_spec (fits : Fits pool.hashBlockSize alignmentTokens blockSize)
    (reaches : maxLength / pool.hashBlockSize ≤ blockHashes.length) :
    ∃ rows length, findLongestMambaHit pool blockHashes maxLength groupIds blockSize
        alignmentTokens = .ok (rows, length) ∧
      StateHit pool blockHashes groupIds blockSize length rows ∧ alignmentTokens ∣ length ∧
      length ≤ maxLength ∧
      findLongestMambaHit pool blockHashes length groupIds blockSize alignmentTokens =
        .ok (rows, length) := by
  by_cases fine : alignmentTokens < blockSize ∧ blockSize % alignmentTokens = 0
  · have unit : alignmentTokens = pool.hashBlockSize := by
      rcases fits.aligned with whole | ⟨same, _⟩
      · have le := Nat.le_of_dvd fits.alignment_pos whole
        omega
      · exact same
    subst unit
    have resolved := @resolveBlockHashes_fine _ _ blockHashes _ fine.1 fits.hash_dvd
    have computed {length : Nat} (le : length ≤ maxLength) :
        findLongestMambaHit pool blockHashes length groupIds blockSize pool.hashBlockSize =
          (probeDown pool groupIds blockHashes (fun _ => true) 0
            (length / pool.hashBlockSize)).map (stateRows groupIds blockSize pool.hashBlockSize) := by
      rw [findLongestMambaHit_eq resolved (decide_eq_true fine), if_pos rfl, if_pos rfl,
        Nat.min_eq_left ((Nat.div_le_div_right le).trans reaches)]
      simp only [Bool.true_or]
    rcases probeDown_state (HashView.raw fits.hash_pos reaches) fits.hash_pos (Nat.dvd_refl _)
      fits.hash_dvd fits.block_pos (fun index _ => Nat.dvd_mul_left ..) with
      ⟨found, ran, hit, aligned, within, again⟩
    refine ⟨_, _, ?_, hit, aligned, within, ?_⟩
    · rw [computed (Nat.le_refl _), ran]
      rfl
    · rw [computed within, again]
      rfl
  · rcases resolveBlockHashes_aligned fits.hash_pos fits.block_pos fits.hash_dvd
        (fun finer => fine finer.2) reaches with ⟨view, resolved, shown⟩
    rcases @probeDown_state _ _ _ _ _ groupIds blockSize alignmentTokens _ _ (fun i => false ||
      blockSize = alignmentTokens || (i + 1) * blockSize % alignmentTokens = 0) shown
      fits.block_pos fits.hash_dvd (Nat.dvd_refl _) fits.block_pos (by
        intro index accepted
        simp only [Bool.false_or, Bool.or_eq_true, decide_eq_true_eq] at accepted
        rcases accepted with same | whole
        · exact same ▸ Nat.dvd_mul_left ..
        · exact Nat.dvd_of_mod_eq_zero whole) with ⟨found, ran, hit, aligned, within, again⟩
    refine ⟨_, _, ?_, hit, aligned, within, ?_⟩
    · rw [findLongestMambaHit_eq resolved (decide_eq_false fine)]
      exact congrArg (Except.map _) ran
    · rw [findLongestMambaHit_eq resolved (decide_eq_false fine)]
      exact congrArg (Except.map _) again

end Mamba

end Hits

end Vllm.Core
