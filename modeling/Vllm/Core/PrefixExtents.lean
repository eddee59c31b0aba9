import Vllm.Core.WindowExtents

/-!
# How far hits of full attention reach

The lookup of full attention finds the longest cached prefix: whole blocks, then the boundary inside
the next block that covers most of it.  What it returns is that prefix after the drop and the
alignment.
-/

namespace Vllm.Core

section Hits

variable {H : Type} [DecidableEq H] {pool : BlockPool H} {blockHashes : List H}
  {groupIds : List Nat} {blockSize alignmentTokens maxLength : Nat}

/-- The first `length` tokens are cached: their whole blocks, and the block that they end in under
the hash of its last covered part. -/
structure PrefixCached (pool : BlockPool H) (blockHashes : List H) (groupIds : List Nat)
    (blockSize alignmentTokens maxLength length : Nat) : Prop where
  within : length ≤ maxLength
  full : ∀ index, (index + 1) * blockSize ≤ length →
    BlockCached pool blockHashes groupIds blockSize index
  tail : blockSize ∣ length ∨ (alignmentTokens < blockSize ∧ pool.hashBlockSize ∣ length ∧
    ∃ row, CachedAt pool blockHashes groupIds length row)

/-! ## Whole blocks -/

variable {blockHash : H}

/-- The prefix ends at a miss or at the last hash. -/
theorem cachedPrefix_stops {hashes : List H}
    (next : hashes[(cachedPrefix pool groupIds hashes).length]? = some blockHash) :
    pool.getCachedBlock blockHash groupIds = none := by
  induction hashes with
  | nil => cases next
  | cons first rest inductionHypothesis =>
      rw [cachedPrefix] at next
      split at next
      · rename_i missed
        cases next
        exact missed
      · exact inductionHypothesis (by simpa using next)

/-- The rows of the whole blocks: cached at their own boundaries, up to the first miss. -/
structure FullRows (pool : BlockPool H) (blockHashes : List H) (groupIds : List Nat)
    (blockSize maxLength : Nat) (rows : List HitRow) : Prop where
  cached : ∀ index row, rows[index]? = some row →
    CachedAt pool blockHashes groupIds ((index + 1) * blockSize) row
  within : rows.length ≤ maxLength / blockSize
  missed : rows.length < maxLength / blockSize →
    ¬ BlockCached pool blockHashes groupIds blockSize rows.length

theorem fullRows_cachedPrefix {view : List H}
    (entry : ∀ index, view[index]? = prefixHash pool blockHashes ((index + 1) * blockSize)) :
    FullRows pool blockHashes groupIds blockSize maxLength
      (cachedPrefix pool groupIds (view.take (maxLength / blockSize))) := by
  constructor
  · intro index row found
    rcases getElem?_cachedPrefix found with ⟨blockHash, at_, cached⟩
    rw [List.getElem?_take] at at_
    split at at_
    · exact ⟨blockHash, by rw [← entry, at_], cached⟩
    · cases at_
  · exact (length_cachedPrefix_le _).trans (List.length_take_le _ _)
  · rintro inside ⟨row, blockHash, shown, cached⟩
    rw [← entry, ← List.getElem?_take_of_lt inside] at shown
    rw [cachedPrefix_stops shown] at cached
    cases cached

omit [DecidableEq H] in
/-- The view at whole blocks of a raw hash list. -/
theorem getElem?_wholeBlocks (hash_pos : 0 < pool.hashBlockSize) (block_pos : 0 < blockSize)
    (divides : pool.hashBlockSize ∣ blockSize) (index : Nat) :
    (blockHashListWithBlockSize blockHashes (blockSize / pool.hashBlockSize))[index]? =
      prefixHash pool blockHashes ((index + 1) * blockSize) := by
  have scale : 0 < blockSize / pool.hashBlockSize :=
    Nat.div_pos (Nat.le_of_dvd block_pos divides) hash_pos
  rw [getElem?_blockHashListWithBlockSize _ scale, prefixHash, Nat.mul_div_assoc _ divides]

/-! ## The boundary inside the next block -/

/-- Probing passes over misses only. -/
theorem probeDown_missed {view : List H} {first count : Nat} {result : Option (Nat × HitRow)}
    (ran : probeDown pool groupIds view (fun _ => true) first count = .ok result) {index : Nat}
    (above : ∀ found row, result = some (found, row) → found < index) (least : first ≤ index)
    (most : index < first + count) (shown : view[index]? = some blockHash) :
    pool.getCachedBlock blockHash groupIds = none := by
  induction count with
  | zero => omega
  | succ count inductionHypothesis =>
      rcases bind_eq_ok.mp ran with ⟨lastHash, indexed, ran⟩
      have last := pyIndex_eq_ok.mp indexed
      split at ran
      · rename_i row cached
        cases ran
        have less := above _ _ rfl
        omega
      · rename_i missed
        rcases Nat.lt_or_eq_of_le (Nat.le_of_lt_succ most) with before | same
        · exact inductionHypothesis ran before
        · rw [same] at shown
          have both := last.symm.trans shown
          cases both
          exact missed

/-! ## The longest prefix -/

/-- What the two phases find. -/
structure LongestPrefix (pool : BlockPool H) (blockHashes : List H) (groupIds : List Nat)
    (blockSize alignmentTokens maxLength : Nat) (rows : List HitRow) (found : Nat) : Prop where
  greatest : IsGreatest {length | PrefixCached pool blockHashes groupIds blockSize alignmentTokens
    maxLength length} found
  size : rows.length = cdiv found blockSize
  cached : ∀ index row, rows[index]? = some row →
    CachedAt pool blockHashes groupIds (min found ((index + 1) * blockSize)) row

variable {length found : Nat} {rows : List HitRow}

/-- No cached prefix ends in a block after the first miss. -/
theorem PrefixCached.lt_next (block_pos : 0 < blockSize)
    (full : FullRows pool blockHashes groupIds blockSize maxLength rows)
    (cached : PrefixCached pool blockHashes groupIds blockSize alignmentTokens maxLength length) :
    length < (rows.length + 1) * blockSize := by
  by_contra beyond
  have le : (rows.length + 1) * blockSize ≤ length := Nat.le_of_not_lt beyond
  apply full.missed _ (cached.full rows.length le)
  exact (Nat.le_div_iff_mul_le block_pos).mpr (le.trans cached.within)

theorem LongestPrefix.of_blocks {rows : List HitRow} (block_pos : 0 < blockSize)
    (full : FullRows pool blockHashes groupIds blockSize maxLength rows)
    (tails : ∀ length, rows.length * blockSize < length → length < (rows.length + 1) * blockSize →
      ¬ PrefixCached pool blockHashes groupIds blockSize alignmentTokens maxLength length) :
    LongestPrefix pool blockHashes groupIds blockSize alignmentTokens maxLength rows
      (rows.length * blockSize) := by
  constructor
  · constructor
    · constructor
      · exact (Nat.le_div_iff_mul_le block_pos).mp full.within
      · intro index le
        have inside : index < rows.length := Nat.le_of_mul_le_mul_right le block_pos
        exact ⟨_, full.cached index _ (List.getElem?_eq_getElem inside)⟩
      · exact .inl (Nat.dvd_mul_left ..)
    · intro length cached
      by_contra longer
      exact tails length (Nat.lt_of_not_le longer) (cached.lt_next block_pos full) cached
  · exact (cdiv_mul block_pos _).symm
  · intro index row entry
    have inside := (List.getElem?_eq_some_iff.mp entry).1
    rw [Nat.min_eq_right (Nat.mul_le_mul_right _ inside)]
    exact full.cached index row entry

theorem LongestPrefix.of_tail {row : HitRow} (block_pos : 0 < blockSize)
    (full : FullRows pool blockHashes groupIds blockSize maxLength rows)
    (finer : alignmentTokens < blockSize) (divides : pool.hashBlockSize ∣ found)
    (starts : rows.length * blockSize < found) (ends : found < (rows.length + 1) * blockSize)
    (within : found ≤ maxLength) (cached : CachedAt pool blockHashes groupIds found row)
    (tails : ∀ length, found < length → length < (rows.length + 1) * blockSize →
      ¬ PrefixCached pool blockHashes groupIds blockSize alignmentTokens maxLength length) :
    LongestPrefix pool blockHashes groupIds blockSize alignmentTokens maxLength (rows ++ [row])
      found := by
  constructor
  · constructor
    · constructor
      · exact within
      · intro index le
        have inside : index < rows.length := by
          have less := Nat.lt_of_mul_lt_mul_right (le.trans_lt ends)
          omega
        exact ⟨_, full.cached index _ (List.getElem?_eq_getElem inside)⟩
      · exact .inr ⟨finer, divides, row, cached⟩
    · intro length other
      by_contra longer
      exact tails length (Nat.lt_of_not_le longer) (other.lt_next block_pos full) other
  · rw [List.length_append, List.length_singleton]
    apply Nat.le_antisymm
    · exact (lt_cdiv_iff block_pos).mpr starts
    · calc cdiv found blockSize ≤ cdiv ((rows.length + 1) * blockSize) blockSize :=
            cdiv_mono ends.le blockSize
        _ = rows.length + 1 := cdiv_mul block_pos _
  · intro index other entry
    rw [List.getElem?_append] at entry
    split at entry
    · rename_i inside
      have le : (index + 1) * blockSize ≤ rows.length * blockSize := Nat.mul_le_mul_right _ inside
      rw [Nat.min_eq_right (le.trans starts.le)]
      exact full.cached index other entry
    · rename_i outside
      have below := (List.getElem?_eq_some_iff.mp entry).1
      simp only [List.length_singleton] at below
      have last : index = rows.length := by omega
      subst last
      rw [Nat.sub_self, List.getElem?_cons_zero, Option.some.injEq] at entry
      rw [Nat.min_eq_left ends.le, ← entry]
      exact cached

/-- The length after the drop and the alignment. -/
def trimmedLength (blockSize alignmentTokens : Nat) (dropEagleBlock : Bool) (found : Nat) : Nat :=
  let kept := if dropEagleBlock ∧ 0 < found then found - min alignmentTokens blockSize else found
  kept - kept % alignmentTokens

theorem trimmedLength_le (found : Nat) (dropEagleBlock : Bool) :
    trimmedLength blockSize alignmentTokens dropEagleBlock found ≤ found := by
  unfold trimmedLength
  dsimp only
  split <;> omega

/-- Cutting the longest prefix to its trimmed length. -/
theorem LongestPrefix.trimmed
    (longest : LongestPrefix pool blockHashes groupIds blockSize alignmentTokens maxLength rows
      found) (dropEagleBlock : Bool)
    (trim : length = trimmedLength blockSize alignmentTokens dropEagleBlock found) :
    length ≤ maxLength ∧ (rows.take (cdiv length blockSize)).length = cdiv length blockSize ∧
      ∀ index row, (rows.take (cdiv length blockSize))[index]? = some row →
        CachedAt pool blockHashes groupIds (min found ((index + 1) * blockSize)) row := by
  have le : length ≤ found := trim ▸ trimmedLength_le found dropEagleBlock
  refine ⟨le.trans longest.greatest.1.within, ?_, ?_⟩
  · rw [List.length_take, longest.size]
    exact Nat.min_eq_left (cdiv_mono le blockSize)
  · intro index row entry
    rw [List.getElem?_take] at entry
    split at entry
    · exact longest.cached index row entry
    · cases entry

/-- A boundary inside the block after the whole ones is one of the probed ones. -/
theorem PrefixCached.probed (fits : Fits pool.hashBlockSize pool.hashBlockSize blockSize)
    (starts : rows.length * blockSize < length) (ends : length < (rows.length + 1) * blockSize)
    (cached : PrefixCached pool blockHashes groupIds blockSize pool.hashBlockSize maxLength
      length) :
    ∃ index blockHash row, length = (index + 1) * pool.hashBlockSize ∧
      rows.length * (blockSize / pool.hashBlockSize) ≤ index ∧
      index < min (min (rows.length * (blockSize / pool.hashBlockSize) +
        blockSize / pool.hashBlockSize - 1) (maxLength / pool.hashBlockSize))
        blockHashes.length ∧
      blockHashes[index]? = some blockHash ∧ pool.getCachedBlock blockHash groupIds = some row := by
  have split : blockSize / pool.hashBlockSize * pool.hashBlockSize = blockSize :=
    Nat.div_mul_cancel fits.hash_dvd
  rcases cached.tail with whole | ⟨_, ⟨parts, rfl⟩, row, blockHash, shown, hit⟩
  · rcases whole with ⟨blocks, rfl⟩
    rw [Nat.mul_comm blockSize] at starts ends
    have more := Nat.lt_of_mul_lt_mul_right starts
    have fewer := Nat.lt_of_mul_lt_mul_right ends
    omega
  · have first : rows.length * (blockSize / pool.hashBlockSize) < parts := by
      apply Nat.lt_of_mul_lt_mul_right (a := pool.hashBlockSize)
      rw [Nat.mul_assoc, split, Nat.mul_comm parts]
      exact starts
    have last : parts < rows.length * (blockSize / pool.hashBlockSize) +
        blockSize / pool.hashBlockSize := by
      apply Nat.lt_of_mul_lt_mul_right (a := pool.hashBlockSize)
      rw [← Nat.succ_mul, Nat.mul_assoc, split, Nat.mul_comm parts]
      exact ends
    rw [prefixHash, Nat.mul_div_cancel_left _ fits.hash_pos] at shown
    have within : parts ≤ maxLength / pool.hashBlockSize := by
      rw [Nat.le_div_iff_mul_le fits.hash_pos, Nat.mul_comm]
      exact cached.within
    have inside := (List.getElem?_eq_some_iff.mp shown).1
    refine ⟨parts - 1, blockHash, row, ?_, by omega, ?_, shown, hit⟩
    · rw [Nat.sub_add_cancel (by omega), Nat.mul_comm]
    · simp only [Nat.lt_min]
      omega

/-- Full attention returns the longest cached prefix, less the drop and rounded down to the
alignment, with one block for each block that it starts. -/
theorem findLongestFullAttentionHit_exact (hash_pos : 0 < pool.hashBlockSize)
    (block_pos : 0 < blockSize) (divides : pool.hashBlockSize ∣ blockSize)
    (aligned : alignmentTokens = pool.hashBlockSize ∨ blockSize ≤ alignmentTokens)
    (dropEagleBlock : Bool) :
    ∃ rows found length,
      findLongestFullAttentionHit pool blockHashes maxLength groupIds blockSize dropEagleBlock
        alignmentTokens = .ok (rows, length) ∧
      IsGreatest {length | PrefixCached pool blockHashes groupIds blockSize alignmentTokens
        maxLength length} found ∧
      length = trimmedLength blockSize alignmentTokens dropEagleBlock found ∧
      length ≤ maxLength ∧ rows.length = cdiv length blockSize ∧
      ∀ index row, rows[index]? = some row →
        CachedAt pool blockHashes groupIds (min found ((index + 1) * blockSize)) row := by
  by_cases fine : alignmentTokens < blockSize
  · have unit : alignmentTokens = pool.hashBlockSize := by
      rcases aligned with same | coarse
      · exact same
      · omega
    subst unit
    have fits : Fits pool.hashBlockSize pool.hashBlockSize blockSize :=
      ⟨hash_pos, hash_pos, block_pos, divides, .inr ⟨rfl, fine⟩⟩
    have whole := Nat.mod_eq_zero_of_dvd divides
    have resolved := @resolveBlockHashes_fine _ _ blockHashes _ fine divides
    have full := @fullRows_cachedPrefix _ _ _ _ groupIds _ maxLength _
      (@getElem?_wholeBlocks _ _ blockHashes _ hash_pos block_pos divides)
    generalize rowsEq : cachedPrefix pool groupIds ((blockHashListWithBlockSize blockHashes
      (blockSize / pool.hashBlockSize)).take (maxLength / blockSize)) = fullRows at full
    rcases @probeDown_ok _ pool _ groupIds blockHashes (fun _ => true)
      (fullRows.length * (blockSize / pool.hashBlockSize))
      (min (min (fullRows.length * (blockSize / pool.hashBlockSize) +
        blockSize / pool.hashBlockSize - 1) (maxLength / pool.hashBlockSize)) blockHashes.length -
        fullRows.length * (blockSize / pool.hashBlockSize)) (fun _ => by omega) with ⟨tail, probed⟩
    -- A longer prefix in the same block would have been probed before.
    have none_longer {length : Nat} (starts : fullRows.length * blockSize < length)
        (ends : length < (fullRows.length + 1) * blockSize)
        (above : ∀ index row, tail = some (index, row) →
          (index + 1) * pool.hashBlockSize < length) :
        ¬ PrefixCached pool blockHashes groupIds blockSize pool.hashBlockSize maxLength length := by
      intro cached
      rcases cached.probed fits starts ends with
        ⟨index, blockHash, row, rfl, least, most, shown, hit⟩
      have missed := probeDown_missed probed (fun found row same =>
        Nat.lt_of_succ_lt_succ (Nat.lt_of_mul_lt_mul_right (above found row same))) least
        (by omega) shown
      rw [missed] at hit
      cases hit
    cases tail with
    | none =>
        have longest := LongestPrefix.of_blocks block_pos full fun length starts ends =>
          none_longer starts ends nofun
        have trimmed := longest.trimmed dropEagleBlock rfl
        refine ⟨_, _, _, ?_, longest.greatest, rfl, trimmed⟩
        simp only [findLongestFullAttentionHit, resolved, fine, whole, and_self, decide_true,
          if_true, bind, Except.bind, rowsEq, probed]
        rfl
    | some entry =>
        rcases entry with ⟨index, row⟩
        rcases probeDown_found probed with ⟨least, most, _, blockHash, shown, hit⟩
        have split : blockSize / pool.hashBlockSize * pool.hashBlockSize = blockSize :=
          Nat.div_mul_cancel divides
        have starts : fullRows.length * blockSize < (index + 1) * pool.hashBlockSize := by
          calc fullRows.length * blockSize
              = fullRows.length * (blockSize / pool.hashBlockSize) * pool.hashBlockSize := by
                rw [Nat.mul_assoc, split]
            _ < (index + 1) * pool.hashBlockSize :=
                Nat.mul_lt_mul_of_pos_right (Nat.lt_succ_of_le least) hash_pos
        have ends : (index + 1) * pool.hashBlockSize < (fullRows.length + 1) * blockSize := by
          calc (index + 1) * pool.hashBlockSize
              < (fullRows.length + 1) * (blockSize / pool.hashBlockSize) * pool.hashBlockSize := by
                apply Nat.mul_lt_mul_of_pos_right _ hash_pos
                rw [Nat.succ_mul]
                omega
            _ = (fullRows.length + 1) * blockSize := by rw [Nat.mul_assoc, split]
        have within : (index + 1) * pool.hashBlockSize ≤ maxLength :=
          (Nat.le_div_iff_mul_le hash_pos).mp (by omega)
        have cached : CachedAt pool blockHashes groupIds ((index + 1) * pool.hashBlockSize) row := by
          refine ⟨blockHash, ?_, hit⟩
          rw [prefixHash, Nat.mul_div_cancel _ hash_pos, Nat.add_sub_cancel, shown]
        have longest := LongestPrefix.of_tail block_pos full fine (Nat.dvd_mul_left ..) starts ends
          within cached fun length longer ends => none_longer (starts.trans longer) ends (by
            rintro other otherRow same
            cases same
            exact longer)
        have trimmed := longest.trimmed dropEagleBlock rfl
        refine ⟨_, _, _, ?_, longest.greatest, rfl, trimmed⟩
        simp only [findLongestFullAttentionHit, resolved, fine, whole, and_self, decide_true,
          if_true, bind, Except.bind, rowsEq, probed]
        rfl
  · have resolves : ∃ view, resolveBlockHashes blockHashes pool.hashBlockSize blockSize true
        (some alignmentTokens) = .ok view ∧
        ∀ index, view[index]? = prefixHash pool blockHashes ((index + 1) * blockSize) := by
      rw [resolveBlockHashes]
      by_cases same : blockSize = pool.hashBlockSize
      · rw [if_pos same]
        refine ⟨_, rfl, ?_⟩
        intro index
        rw [prefixHash, same, Nat.mul_div_cancel _ hash_pos, Nat.add_sub_cancel]
      · rw [if_neg same, if_neg (fun finer => fine finer.2.1), pyAssert,
          if_pos (Nat.mod_eq_zero_of_dvd divides)]
        exact ⟨_, rfl, getElem?_wholeBlocks hash_pos block_pos divides⟩
    rcases resolves with ⟨view, resolved, entry⟩
    have full := @fullRows_cachedPrefix _ _ _ _ groupIds _ maxLength _ entry
    have longest := @LongestPrefix.of_blocks _ _ _ _ _ _ alignmentTokens _ _ block_pos full
      fun length starts ends cached => by
        rcases cached.tail with ⟨blocks, rfl⟩ | ⟨finer, _⟩
        · rw [Nat.mul_comm blockSize] at starts ends
          have more := Nat.lt_of_mul_lt_mul_right starts
          have fewer := Nat.lt_of_mul_lt_mul_right ends
          omega
        · exact fine finer
    have trimmed := longest.trimmed dropEagleBlock rfl
    refine ⟨_, _, _, ?_, longest.greatest, rfl, trimmed⟩
    simp only [findLongestFullAttentionHit, resolved, fine, false_and, decide_false]
    rfl

/-- A whole block and half of the next one. -/
theorem findLongestFullAttentionHit_exact_half :
    ∃ rows found length,
      findLongestFullAttentionHit (cachingPool 2 [2, 3]) [1, 2, 3] 7 [0] 4 false 2 =
        .ok (rows, length) ∧
      IsGreatest {length | PrefixCached (cachingPool 2 [2, 3]) [1, 2, 3] [0] 4 2 7 length} found ∧
      length = trimmedLength 4 2 false found ∧ length ≤ 7 ∧ rows.length = cdiv length 4 ∧
      ∀ index row, rows[index]? = some row →
        CachedAt (cachingPool 2 [2, 3]) [1, 2, 3] [0] (min found ((index + 1) * 4)) row :=
  findLongestFullAttentionHit_exact (by decide) (by decide) (by decide) (.inl rfl) false

/-- With a drop the returned length is not the longest cached prefix. -/
theorem dropped_prefix_shorter :
    ∃ (pool : BlockPool Nat) (blockHashes : List Nat) (rows : List HitRow) (length : Nat),
      findLongestFullAttentionHit pool blockHashes 1 [0] 1 true 1 = .ok (rows, length) ∧
      ¬ IsGreatest {length | PrefixCached pool blockHashes [0] 1 1 1 length} length := by
  refine ⟨cachingPool 1 [1], [1], [], 0, rfl, ?_⟩
  intro greatest
  have one : PrefixCached (cachingPool 1 [1]) [1] [0] 1 1 1 1 := by
    constructor
    · decide
    · intro index le
      have first : index = 0 := by omega
      subst first
      exact ⟨[2], 1, rfl, rfl⟩
    · exact .inl (Nat.dvd_refl 1)
  exact absurd (greatest.2 one) (by decide)

end Hits

end Vllm.Core
