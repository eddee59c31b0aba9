import Vllm.Core.KVCacheSpec

/-!
# What a cache hit is

A lookup claims that the first `length` tokens of a request need not be computed
again.  It is right about one attention type if every block that a query at
position `length` reads is a cached block under a hash of the request.  This file
says so for the rows of a lookup, relates the views of the hash list that lookups
use, and specifies the full-attention lookup.
-/

namespace Vllm.Core

section Hits

variable {H : Type}

/-- The hash of the first `numTokens` tokens, which end at a hash boundary. -/
def prefixHash (pool : BlockPool H) (blockHashes : List H) (numTokens : Nat) : Option H :=
  blockHashes[numTokens / pool.hashBlockSize - 1]?

/-- `row` is what the cache holds under the hash of the first `numTokens` tokens. -/
def CachedAt [DecidableEq H] (pool : BlockPool H) (blockHashes : List H) (groupIds : List Nat)
    (numTokens : Nat) (row : HitRow) : Prop :=
  ∃ blockHash, prefixHash pool blockHashes numTokens = some blockHash ∧
    pool.getCachedBlock blockHash groupIds = some row

/-- A query at position `length` reads block `index`. -/
def SpecKind.Reads (kind : SpecKind) (blockSize length index : Nat) : Prop :=
  match kind with
  | .slidingWindow window _ => length < (index + 1) * blockSize + (window - 1)
  | .chunkedLocalAttention chunk => length / chunk * chunk < (index + 1) * blockSize
  | .mamba .. => index + 1 = cdiv length blockSize
  | _ => True

/-- A block cached after its first `numTokens` tokens can stand at `index` of a hit
of `length` tokens: keys and values may cover more than the hit, a recurrent state
is that of one position. -/
structure Covers (spec : KVCacheSpec) (blockSize length index numTokens : Nat) : Prop where
  starts : index * blockSize < numTokens
  ends : numTokens ≤ (index + 1) * blockSize
  reaches : min length ((index + 1) * blockSize) ≤ numTokens
  exact : spec.isMamba = true → numTokens = length

/-- The rows of a valid hit of `length` tokens. -/
structure RowsHit [DecidableEq H] (pool : BlockPool H) (blockHashes : List H)
    (groupIds : List Nat) (spec : KVCacheSpec) (blockSize length : Nat) (rows : List HitRow) :
    Prop where
  size : rows.length = cdiv length blockSize
  cached : ∀ index row, rows[index]? = some row → spec.kind.Reads blockSize length index →
    ∃ numTokens, pool.hashBlockSize ∣ numTokens ∧ Covers spec blockSize length index numTokens ∧
      CachedAt pool blockHashes groupIds numTokens row

/-! ## Hash views -/

/-- `view` lists the hashes of a request at every multiple of `unit` tokens, and
reaches to `maxLength`. -/
structure HashView (pool : BlockPool H) (blockHashes : List H) (unit maxLength : Nat)
    (view : List H) : Prop where
  entry : ∀ index, view[index]? = prefixHash pool blockHashes ((index + 1) * unit)
  reaches : ∀ index, (index + 1) * unit ≤ maxLength → index < view.length

theorem getElem?_filterMap_of_isSome {α β : Type} {entry : α → Option β} {entries : List α}
    (present : ∀ value ∈ entries, (entry value).isSome) (index : Nat) :
    (entries.filterMap entry)[index]? = entries[index]?.bind entry := by
  induction entries generalizing index with
  | nil => simp
  | cons value rest ih =>
      rcases Option.isSome_iff_exists.mp (present value List.mem_cons_self) with ⟨found, first⟩
      rw [List.filterMap_cons_some first]
      cases index with
      | zero => simp [first]
      | succ index =>
          have later := ih (fun value member => present value (List.mem_cons_of_mem _ member)) index
          simpa using later

/-- Entry `index` of the coarser view is the last hash inside block `index`. -/
theorem getElem?_blockHashListWithBlockSize (blockHashes : List H) {scaleFactor : Nat}
    (positive : 0 < scaleFactor) (index : Nat) :
    (blockHashListWithBlockSize blockHashes scaleFactor)[index]? =
      blockHashes[(index + 1) * scaleFactor - 1]? := by
  have present : ∀ i ∈ List.range (blockHashes.length / scaleFactor),
      (blockHashes[(i + 1) * scaleFactor - 1]?).isSome := by
    intro i member
    have below : (i + 1) * scaleFactor ≤ blockHashes.length :=
      (Nat.le_div_iff_mul_le positive).mp (List.mem_range.mp member)
    have some : 0 < (i + 1) * scaleFactor := Nat.mul_pos (Nat.succ_pos i) positive
    rw [List.getElem?_eq_getElem (by omega)]
    rfl
  rw [blockHashListWithBlockSize, getElem?_filterMap_of_isSome present]
  by_cases below : index < blockHashes.length / scaleFactor
  · rw [List.getElem?_range below, Option.bind_some]
  · have outside : blockHashes.length < (index + 1) * scaleFactor := by
      rw [← Nat.div_lt_iff_lt_mul positive]
      omega
    rw [List.getElem?_eq_none (by simpa using Nat.le_of_not_lt below), Option.bind_none,
      List.getElem?_eq_none (by omega)]

/-- The hashes reach to `maxLength`. -/
theorem prefix_inRange {blockHashes : List H} {hashBlockSize maxLength numTokens : Nat}
    (positive : 0 < hashBlockSize) (reaches : maxLength / hashBlockSize ≤ blockHashes.length)
    (some : hashBlockSize ≤ numTokens) (le : numTokens ≤ maxLength) :
    numTokens / hashBlockSize - 1 < blockHashes.length := by
  have least : 0 < numTokens / hashBlockSize := Nat.div_pos some positive
  have most : numTokens / hashBlockSize ≤ maxLength / hashBlockSize := Nat.div_le_div_right le
  omega

variable {pool : BlockPool H} {blockHashes : List H} {maxLength : Nat}

variable {unit : Nat}

theorem HashView.blocks_le {view : List H} (shown : HashView pool blockHashes unit maxLength view) :
    maxLength / unit ≤ view.length := by
  cases blocks : maxLength / unit with
  | zero => exact Nat.zero_le _
  | succ count =>
      apply shown.reaches count
      rw [← blocks]
      exact Nat.div_mul_le_self ..

/-- The hashes themselves are the view at the hash block size. -/
theorem HashView.raw (positive : 0 < pool.hashBlockSize)
    (reaches : maxLength / pool.hashBlockSize ≤ blockHashes.length) :
    HashView pool blockHashes pool.hashBlockSize maxLength blockHashes := by
  constructor
  · intro index
    rw [prefixHash, Nat.mul_div_cancel _ positive, Nat.add_sub_cancel]
  · intro index le
    have inRange := prefix_inRange positive reaches
      (Nat.le_mul_of_pos_left _ (Nat.succ_pos index)) le
    rwa [Nat.mul_div_cancel _ positive, Nat.succ_sub_one] at inRange

/-- The coarser view at a multiple of the hash block size. -/
theorem HashView.scaled (positive : 0 < pool.hashBlockSize) (proper : 0 < unit)
    (divides : pool.hashBlockSize ∣ unit)
    (reaches : maxLength / pool.hashBlockSize ≤ blockHashes.length) :
    HashView pool blockHashes unit maxLength
      (blockHashListWithBlockSize blockHashes (unit / pool.hashBlockSize)) := by
  have scale : 0 < unit / pool.hashBlockSize := Nat.div_pos (Nat.le_of_dvd proper divides) positive
  have entries := getElem?_blockHashListWithBlockSize blockHashes scale
  constructor
  · intro index
    rw [entries, prefixHash, Nat.mul_div_assoc _ divides]
  · intro index le
    have inRange := prefix_inRange positive reaches ((Nat.le_of_dvd proper divides).trans
      (Nat.le_mul_of_pos_left _ (Nat.succ_pos index))) le
    rw [Nat.mul_div_assoc _ divides] at inRange
    have found := List.getElem?_eq_getElem inRange
    rw [← entries] at found
    exact (List.getElem?_eq_some_iff.mp found).1

/-- `resolve_block_hashes` gives the view at the block size, unless the lookup is
fine-grained. -/
theorem resolveBlockHashes_aligned {blockSize alignmentTokens : Nat} {fine : Bool}
    (positive : 0 < pool.hashBlockSize) (proper : 0 < blockSize)
    (divides : pool.hashBlockSize ∣ blockSize)
    (aligned : ¬ (fine = true ∧ alignmentTokens < blockSize ∧ blockSize % alignmentTokens = 0))
    (reaches : maxLength / pool.hashBlockSize ≤ blockHashes.length) :
    ∃ view, resolveBlockHashes blockHashes pool.hashBlockSize blockSize fine
        (some alignmentTokens) = .ok view ∧ HashView pool blockHashes blockSize maxLength view := by
  rw [resolveBlockHashes]
  by_cases same : blockSize = pool.hashBlockSize
  · rw [if_pos same]
    exact ⟨blockHashes, rfl, by rw [same]; exact HashView.raw positive reaches⟩
  · rw [if_neg same, if_neg aligned, pyAssert, if_pos (Nat.mod_eq_zero_of_dvd divides)]
    exact ⟨_, rfl, HashView.scaled positive proper divides reaches⟩

/-- Fine-grained lookup keeps the hashes themselves. -/
theorem resolveBlockHashes_fine {blockSize : Nat} (finer : pool.hashBlockSize < blockSize)
    (divides : pool.hashBlockSize ∣ blockSize) :
    resolveBlockHashes blockHashes pool.hashBlockSize blockSize true (some pool.hashBlockSize) =
      .ok blockHashes := by
  rw [resolveBlockHashes, if_neg (by omega), if_pos ⟨rfl, finer, Nat.mod_eq_zero_of_dvd divides⟩]

/-! ## Probing the cache -/

section Probing

variable [DecidableEq H] {groupIds : List Nat} {view : List H} {unit : Nat}

variable {row : HitRow}

/-- Every row of the cached prefix is cached at its own boundary. -/
theorem getElem?_cachedPrefix {hashes : List H} {index : Nat}
    (found : (cachedPrefix pool groupIds hashes)[index]? = some row) :
    ∃ blockHash, hashes[index]? = some blockHash ∧
      pool.getCachedBlock blockHash groupIds = some row := by
  induction hashes generalizing index with
  | nil => simp [cachedPrefix] at found
  | cons blockHash rest ih =>
      rw [cachedPrefix] at found
      split at found
      · simp at found
      · rename_i first cached
        cases index with
        | zero =>
            simp only [List.getElem?_cons_zero, Option.some.injEq] at found
            exact ⟨blockHash, rfl, by rw [cached, found]⟩
        | succ index => simpa using ih (by simpa using found)

theorem length_cachedPrefix_le (hashes : List H) :
    (cachedPrefix pool groupIds hashes).length ≤ hashes.length := by
  induction hashes with
  | nil => simp [cachedPrefix]
  | cons blockHash rest ih =>
      rw [cachedPrefix]
      split <;> simp [ih]

/-- Probing inside the view succeeds. -/
theorem probeDown_ok {accept : Nat → Bool} {first count : Nat}
    (inside : 0 < count → first + count ≤ view.length) :
    ∃ result, probeDown pool groupIds view accept first count = .ok result := by
  induction count with
  | zero => exact ⟨none, rfl⟩
  | succ count ih =>
      have below : first + count < view.length := by
        omega
      rcases ih (fun _ => by omega) with ⟨result, rest⟩
      rw [probeDown, pyIndex, List.getElem?_eq_getElem below, rest]
      dsimp only [bind, Except.bind]
      split
      · split
        · exact ⟨_, rfl⟩
        · exact ⟨_, rfl⟩
      · exact ⟨_, rfl⟩

/-- What probing finds is accepted and cached, at an index of the probed range. -/
theorem probeDown_found {accept : Nat → Bool} {first count index : Nat}
    (ran : probeDown pool groupIds view accept first count = .ok (some (index, row))) :
    first ≤ index ∧ index < first + count ∧ accept index = true ∧
      ∃ blockHash, view[index]? = some blockHash ∧
        pool.getCachedBlock blockHash groupIds = some row := by
  induction count with
  | zero => simp [probeDown] at ran
  | succ count ih =>
      have later (rest : probeDown pool groupIds view accept first count =
          .ok (some (index, row))) : first ≤ index ∧ index < first + (count + 1) ∧
          accept index = true ∧ ∃ blockHash, view[index]? = some blockHash ∧
            pool.getCachedBlock blockHash groupIds = some row := by
        rcases ih rest with ⟨least, most, facts⟩
        exact ⟨least, by omega, facts⟩
      rcases bind_eq_ok.mp ran with ⟨blockHash, indexed, ran⟩
      have entry := pyIndex_eq_ok.mp indexed
      split at ran
      · rename_i found cached
        split at ran
        · rename_i accepted
          cases ran
          exact ⟨by omega, by omega, accepted, blockHash, entry, cached⟩
        · exact later ran
      · exact later ran

/-- Probing starts at the end of its range: an accepted cached entry there is the
result. -/
theorem probeDown_last {accept : Nat → Bool} {first count : Nat} {blockHash : H} {row : HitRow}
    (entry : view[first + count]? = some blockHash)
    (cached : pool.getCachedBlock blockHash groupIds = some row)
    (accepted : accept (first + count) = true) :
    probeDown pool groupIds view accept first (count + 1) = .ok (some (first + count, row)) := by
  simp [probeDown, pyIndex, entry, bind, Except.bind, cached, accepted, pure, Except.pure]

end Probing

/-! ## The alignment -/

/-- How a block size relates to the alignment of hits: whole blocks fill it, or
fine-grained hits end at hash boundaries inside blocks. -/
structure Fits (hashBlockSize alignmentTokens blockSize : Nat) : Prop where
  hash_pos : 0 < hashBlockSize
  alignment_pos : 0 < alignmentTokens
  block_pos : 0 < blockSize
  hash_dvd : hashBlockSize ∣ blockSize
  aligned : blockSize ∣ alignmentTokens ∨
    (alignmentTokens = hashBlockSize ∧ hashBlockSize < blockSize)

/-- The length that an EAGLE drop takes off a hit. -/
def dropUnit (alignmentTokens blockSize : Nat) : Nat :=
  min alignmentTokens blockSize

/-- A hit is shortened to the alignment after the drop. -/
theorem shortened_le {found alignmentTokens : Nat} {dropEagleBlock : Bool}
    (least : 0 < found → unit ≤ found) {length : Nat}
    (shortened : length = (if dropEagleBlock ∧ found > 0 then found - unit else found) -
      (if dropEagleBlock ∧ found > 0 then found - unit else found) % alignmentTokens) :
    alignmentTokens ∣ length ∧
      length + (if dropEagleBlock ∧ 0 < found then unit else 0) ≤ found := by
  constructor
  · rw [shortened]
    exact Nat.dvd_sub_mod _
  · rw [shortened]
    split
    · rename_i dropped
      omega
    · omega

/-! ## Full attention -/

section FullAttention

variable [DecidableEq H] {groupIds : List Nat} {spec : KVCacheSpec}
  {blockSize alignmentTokens : Nat}

/-- Rows that are all cached at their own boundaries form a hit of whole blocks. -/
theorem RowsHit.of_blocks (fits : Fits pool.hashBlockSize alignmentTokens blockSize)
    (notMamba : spec.isMamba = false) {rows : List HitRow}
    (cached : ∀ index row, rows[index]? = some row →
      CachedAt pool blockHashes groupIds ((index + 1) * blockSize) row) :
    RowsHit pool blockHashes groupIds spec blockSize (rows.length * blockSize) rows := by
  constructor
  · exact (cdiv_mul fits.block_pos _).symm
  · intro index row found _
    refine ⟨(index + 1) * blockSize, fits.hash_dvd.mul_left _, ?_, cached index row found⟩
    constructor
    · exact Nat.mul_lt_mul_of_pos_right (Nat.lt_succ_self _) fits.block_pos
    · exact Nat.le_refl _
    · exact Nat.min_le_right ..
    · simp [notMamba]

/-- Phase 1: the rows of the full blocks. -/
theorem fullRows_cached {unitView : List H} {limit : Nat}
    (view : HashView pool blockHashes blockSize maxLength unitView) {index : Nat} {row : HitRow}
    (found : (cachedPrefix pool groupIds (unitView.take limit))[index]? = some row) :
    CachedAt pool blockHashes groupIds ((index + 1) * blockSize) row := by
  rcases getElem?_cachedPrefix found with ⟨blockHash, entry, cached⟩
  have shown : unitView[index]? = some blockHash := by
    rw [List.getElem?_take] at entry
    split at entry
    · exact entry
    · simp at entry
  exact ⟨blockHash, by rw [← view.entry, shown], cached⟩

theorem fullRows_length_le (unitView : List H) :
    (cachedPrefix pool groupIds (unitView.take (maxLength / blockSize))).length * blockSize ≤
      maxLength := by
  have counted := (@length_cachedPrefix_le _ pool _ groupIds
    (unitView.take (maxLength / blockSize))).trans (List.length_take_le _ _)
  exact (Nat.mul_le_mul_right _ counted).trans (Nat.div_mul_le_self _ _)

variable {rows : List HitRow} {row : HitRow}

/-- Phase 2 adds a block whose last cached boundary lies inside it. -/
theorem RowsHit.extend {found : Nat} (fits : Fits pool.hashBlockSize alignmentTokens blockSize)
    (notMamba : spec.isMamba = false)
    (full : RowsHit pool blockHashes groupIds spec blockSize (rows.length * blockSize) rows)
    (reads : ∀ length index, spec.kind.Reads blockSize length index)
    (divides : pool.hashBlockSize ∣ found) (starts : rows.length * blockSize < found)
    (ends : found ≤ (rows.length + 1) * blockSize)
    (cached : CachedAt pool blockHashes groupIds found row) :
    RowsHit pool blockHashes groupIds spec blockSize found (rows ++ [row]) := by
  constructor
  · rw [List.length_append, List.length_singleton]
    apply Nat.le_antisymm
    · exact (lt_cdiv_iff fits.block_pos).mpr starts
    · calc cdiv found blockSize ≤ cdiv ((rows.length + 1) * blockSize) blockSize :=
            cdiv_mono ends blockSize
        _ = rows.length + 1 := cdiv_mul fits.block_pos _
  · intro index other entry _
    rw [List.getElem?_append] at entry
    split at entry
    · rename_i inside
      rcases full.cached index other entry (reads _ _) with ⟨numTokens, dvd, covers, at_⟩
      refine ⟨numTokens, dvd, ⟨covers.starts, covers.ends, ?_, by simp [notMamba]⟩, at_⟩
      have whole : (index + 1) * blockSize ≤ rows.length * blockSize :=
        Nat.mul_le_mul_right _ inside
      have reached := covers.reaches
      rw [Nat.min_eq_right whole] at reached
      exact (Nat.min_le_right ..).trans reached
    · rename_i outside
      have last : index = rows.length := by
        have below := (List.getElem?_eq_some_iff.mp entry).1
        simp only [List.length_singleton] at below
        omega
      subst last
      rw [Nat.sub_self, List.getElem?_cons_zero, Option.some.injEq] at entry
      exact ⟨found, divides, ⟨starts, ends, Nat.min_le_left .., by simp [notMamba]⟩, entry ▸ cached⟩

omit [DecidableEq H] in
theorem KVCacheSpec.reads_of_isFullAttention (full : spec.isFullAttention = true)
    (length index : Nat) : spec.kind.Reads blockSize length index := by
  unfold KVCacheSpec.isFullAttention at full
  split at full
  · rename_i kind
    rw [kind]
    trivial
  · rename_i kind
    rw [kind]
    trivial
  · cases full

omit [DecidableEq H] in
theorem KVCacheSpec.isMamba_of_isFullAttention (full : spec.isFullAttention = true) :
    spec.isMamba = false := by
  unfold KVCacheSpec.isFullAttention at full
  unfold KVCacheSpec.isMamba
  split at full <;> simp_all

/-- Phase 2 probes the boundaries inside block `count`. -/
theorem partialTail_found {count index : Nat}
    (fits : Fits pool.hashBlockSize pool.hashBlockSize blockSize)
    (reaches : maxLength / pool.hashBlockSize ≤ blockHashes.length)
    (probed : probeDown pool groupIds blockHashes (fun _ => true)
      (count * (blockSize / pool.hashBlockSize))
      (min (min (count * (blockSize / pool.hashBlockSize) + blockSize / pool.hashBlockSize - 1)
        (maxLength / pool.hashBlockSize)) blockHashes.length -
        count * (blockSize / pool.hashBlockSize)) = .ok (some (index, row))) :
    count * blockSize < (index + 1) * pool.hashBlockSize ∧
      (index + 1) * pool.hashBlockSize ≤ (count + 1) * blockSize ∧
      (index + 1) * pool.hashBlockSize ≤ maxLength ∧
      CachedAt pool blockHashes groupIds ((index + 1) * pool.hashBlockSize) row := by
  rcases probeDown_found probed with ⟨least, most, _, blockHash, entry, cached⟩
  have split : blockSize / pool.hashBlockSize * pool.hashBlockSize = blockSize :=
    Nat.div_mul_cancel fits.hash_dvd
  have inside : index + 1 ≤ maxLength / pool.hashBlockSize := by omega
  have within : index + 1 ≤ (count + 1) * (blockSize / pool.hashBlockSize) := by
    rw [Nat.succ_mul]
    omega
  refine ⟨?_, ?_, ?_, blockHash, ?_, cached⟩
  · calc count * blockSize
        = count * (blockSize / pool.hashBlockSize) * pool.hashBlockSize := by
          rw [Nat.mul_assoc, split]
      _ < (index + 1) * pool.hashBlockSize :=
          Nat.mul_lt_mul_of_pos_right (Nat.lt_succ_of_le least) fits.hash_pos
  · calc (index + 1) * pool.hashBlockSize
        ≤ (count + 1) * (blockSize / pool.hashBlockSize) * pool.hashBlockSize :=
          Nat.mul_le_mul_right _ within
      _ = (count + 1) * blockSize := by rw [Nat.mul_assoc, split]
  · exact (Nat.mul_le_mul_right _ inside).trans (Nat.div_mul_le_self _ _)
  · rw [← (HashView.raw fits.hash_pos reaches).entry index, entry]

/-- What full attention finds is a hit of `found` tokens, cut to the returned length. -/
theorem findLongestFullAttentionHit_spec (full : spec.isFullAttention = true)
    (fits : Fits pool.hashBlockSize alignmentTokens blockSize)
    (reaches : maxLength / pool.hashBlockSize ≤ blockHashes.length) (dropEagleBlock : Bool) :
    ∃ rows found length,
      findLongestFullAttentionHit pool blockHashes maxLength groupIds blockSize dropEagleBlock
          alignmentTokens = .ok (rows.take (cdiv length blockSize), length) ∧
        RowsHit pool blockHashes groupIds spec blockSize found rows ∧
        pool.hashBlockSize ∣ found ∧ found ≤ maxLength ∧ alignmentTokens ∣ length ∧
        length + (if dropEagleBlock ∧ 0 < found then dropUnit alignmentTokens blockSize else 0) ≤
          found := by
  have notMamba := KVCacheSpec.isMamba_of_isFullAttention full
  by_cases fine : alignmentTokens < blockSize ∧ blockSize % alignmentTokens = 0
  · have unit : alignmentTokens = pool.hashBlockSize := by
      rcases fits.aligned with whole | ⟨same, _⟩
      · have le := Nat.le_of_dvd fits.alignment_pos whole
        omega
      · exact same
    subst unit
    have view := HashView.scaled fits.hash_pos fits.block_pos fits.hash_dvd reaches
    have resolved := @resolveBlockHashes_fine _ _ blockHashes _ fine.1 fits.hash_dvd
    have hit := @RowsHit.of_blocks _ _ _ _ _ spec _ _ fits notMamba _
      (@fullRows_cached _ _ _ _ _ groupIds _ _ (maxLength / blockSize) view)
    generalize rowsEq : cachedPrefix pool groupIds ((blockHashListWithBlockSize blockHashes
      (blockSize / pool.hashBlockSize)).take (maxLength / blockSize)) = fullRows at hit
    have whole : fullRows.length * blockSize ≤ maxLength := rowsEq ▸ fullRows_length_le _
    rcases @probeDown_ok _ pool _ groupIds blockHashes (fun _ => true)
      (fullRows.length * (blockSize / pool.hashBlockSize))
      (min (min (fullRows.length * (blockSize / pool.hashBlockSize) +
        blockSize / pool.hashBlockSize - 1) (maxLength / pool.hashBlockSize)) blockHashes.length -
        fullRows.length * (blockSize / pool.hashBlockSize)) (fun _ => by omega) with ⟨tail, probed⟩
    cases tail with
    | none =>
        refine ⟨fullRows, _, _, ?_, hit, fits.hash_dvd.mul_left _, whole, shortened_le ?_ rfl⟩
        · simp only [findLongestFullAttentionHit, resolved, fine, and_self, decide_true, if_true,
            bind, Except.bind, rowsEq, probed]
          rfl
        · intro some
          have least : blockSize ≤ fullRows.length * blockSize :=
            Nat.le_mul_of_pos_left _ (Nat.pos_of_mul_pos_right some)
          exact (Nat.min_le_right ..).trans least
    | some entry =>
        rcases partialTail_found fits reaches probed with ⟨starts, ends, within, cached⟩
        refine ⟨fullRows ++ [entry.2], _, _, ?_, hit.extend fits notMamba
          (KVCacheSpec.reads_of_isFullAttention full) (Nat.dvd_mul_left ..) starts ends cached,
          Nat.dvd_mul_left .., within, shortened_le ?_ rfl⟩
        · simp only [findLongestFullAttentionHit, resolved, fine, and_self, decide_true, if_true,
            bind, Except.bind, rowsEq, probed]
          rfl
        · intro _
          exact (Nat.min_le_left ..).trans (Nat.le_mul_of_pos_left _ (Nat.succ_pos _))
  · rcases @resolveBlockHashes_aligned _ _ _ _ _ _ true fits.hash_pos fits.block_pos fits.hash_dvd
      (fun finer => fine finer.2) reaches with ⟨view, resolved, shown⟩
    have hit := @RowsHit.of_blocks _ _ _ _ _ spec _ _ fits notMamba _
      (@fullRows_cached _ _ _ _ _ groupIds _ _ (maxLength / blockSize) shown)
    refine ⟨_, _, _, ?_, hit, fits.hash_dvd.mul_left _, fullRows_length_le view,
      shortened_le ?_ rfl⟩
    · simp only [findLongestFullAttentionHit, resolved, fine, decide_false]
      rfl
    · intro some
      have least : blockSize ≤ _ * blockSize := Nat.le_mul_of_pos_left _
        (Nat.pos_of_mul_pos_right some)
      exact (Nat.min_le_right ..).trans least

/-- Keys and values are downward closed: a shorter hit keeps the first blocks. -/
theorem RowsHit.shorten (full : spec.isFullAttention = true) {found length : Nat}
    (hit : RowsHit pool blockHashes groupIds spec blockSize found rows) (le : length ≤ found) :
    RowsHit pool blockHashes groupIds spec blockSize length (rows.take (cdiv length blockSize)) := by
  constructor
  · rw [List.length_take, hit.size]
    exact Nat.min_eq_left (cdiv_mono le blockSize)
  · intro index row entry _
    rw [List.getElem?_take] at entry
    split at entry
    · have reads := @KVCacheSpec.reads_of_isFullAttention _ blockSize full found index
      rcases hit.cached index row entry reads with ⟨numTokens, divides, covers, cached⟩
      have reached : min length ((index + 1) * blockSize) ≤ numTokens :=
        (Nat.le_min.mpr ⟨(Nat.min_le_left ..).trans le, Nat.min_le_right ..⟩).trans covers.reaches
      exact ⟨numTokens, divides, ⟨covers.starts, covers.ends, reached,
        by simp [KVCacheSpec.isMamba_of_isFullAttention full]⟩, cached⟩
    · simp at entry

end FullAttention

end Hits

end Vllm.Core
