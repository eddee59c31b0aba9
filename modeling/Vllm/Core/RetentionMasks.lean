import Vllm.Core.BlockPoolHashes
import Vllm.Core.HashIncrements
import Vllm.Core.WindowExtents

/-!
# Retention masks

`reachable_block_mask` leaves blocks of a sliding-window group out of the cache that no later lookup
should ask for.  The length of a hit depends on the cache only through the ends of its long enough
runs; the dense mask keeps every end that matters, and the sparse one those that lie in its tails.
-/

namespace Vllm.Core

/-! ## The length of a hit -/

section Lengths

variable {H : Type} [DecidableEq H] {pool : BlockPool H} {blockHashes : List H}
  {groupIds : List Nat} {blockSize alignmentTokens slidingWindow needed maxLength total : Nat}
  {dropEagleBlock : Bool}

/-- How many of the blocks in front of `top` are left after the trims. -/
def blocksLeft (blockSize alignmentTokens needed : Nat) (dropEagleBlock : Bool) (top : Nat) : Nat :=
  let kept := if max needed 1 ≤ top then top else alignedCount blockSize alignmentTokens top
  if dropEagleBlock ∧ kept ≠ 0 then alignedCount blockSize alignmentTokens (kept - 1) else kept

variable {result : Bool × Nat × List HitRow}

theorem Topped.keptBlocks_eq
    (topped : Topped pool blockHashes groupIds blockSize alignmentTokens needed dropEagleBlock total
      result) :
    keptBlocks blockSize alignmentTokens dropEagleBlock result =
      blocksLeft blockSize alignmentTokens needed dropEagleBlock (searchTop result) := by
  unfold keptBlocks blocksLeft
  cases matched : result.1 with
  | true => simp only [if_true, if_pos (topped.found matched)]
  | false =>
      have below : ¬ max needed 1 ≤ searchTop result := by
        rcases topped.short matched with none | short <;> omega
      simp only [Bool.false_eq_true, if_false, if_neg below]

/-- The search stops at the last end of a long enough run. -/
theorem Topped.isGreatest
    (topped : Topped pool blockHashes groupIds blockSize alignmentTokens needed dropEagleBlock total
      result) (last : ∀ top, searchTop result < top → ¬ FullRun pool blockHashes groupIds blockSize
      alignmentTokens needed dropEagleBlock total top) :
    IsGreatest {top | FullRun pool blockHashes groupIds blockSize alignmentTokens needed
      dropEagleBlock total top} (searchTop result) := by
  constructor
  · constructor
    · exact topped.within
    · by_cases some : 0 < searchTop result
      · exact topped.aligned some
      · intro _
        simp [Nat.eq_zero_of_not_pos some]
    · exact topped.cached
  · intro top run
    by_contra later
    exact last top (Nat.lt_of_not_le later) run

variable {view : List H}

/-- A lookup whose hashes reach far enough answers, and how long the answer is depends on where the
long enough runs end. -/
theorem findLongestSlidingWindowHit_top (groupIds : List Nat) (slidingWindow : Nat)
    (dropEagleBlock : Bool) (whole : blockSize ∣ alignmentTokens)
    (resolved : resolveBlockHashes blockHashes pool.hashBlockSize blockSize false
      (some alignmentTokens) = .ok view)
    (shown : HashView pool blockHashes blockSize maxLength view) :
    ∃ top, IsGreatest {top | FullRun pool blockHashes groupIds blockSize alignmentTokens
        (contiguousBlocksForHit slidingWindow blockSize dropEagleBlock) dropEagleBlock
        (maxLength / blockSize) top} top ∧
      (findLongestSlidingWindowHit pool blockHashes maxLength groupIds blockSize slidingWindow
        dropEagleBlock alignmentTokens).map Prod.snd =
        .ok (blocksLeft blockSize alignmentTokens
          (contiguousBlocksForHit slidingWindow blockSize dropEagleBlock) dropEagleBlock top *
            blockSize) := by
  rcases @scanWindow_scanned _ _ _ _ _ groupIds _ alignmentTokens
    (contiguousBlocksForHit slidingWindow blockSize dropEagleBlock) dropEagleBlock _ shown _ 0
    ([]) shown.blocks_le (Nat.zero_le _) (.inl rfl) (by simp [CachedRun])
    (fun some => absurd some (Nat.lt_irrefl 0)) with ⟨result, scanRan, scanned⟩
  have topped := scanned.topped
  have last (top : Nat) (later : searchTop result < top) :=
    @scanWindow_last _ _ _ _ groupIds _ alignmentTokens _ dropEagleBlock [] _ _ _ _ _ shown
      (maxLength / blockSize) (Nat.zero_le _) (.inl rfl)
      (fun top beyond run => absurd run.within (by omega)) scanRan top later
  refine ⟨searchTop result, topped.isGreatest last, ?_⟩
  have ran := findLongestSlidingWindowHit_of_scan whole resolved scanRan
  have length_eq := length_rows_eq ran whole resolved scanRan scanned
  rw [ran, ← topped.keptBlocks_eq, ← length_eq]
  rfl

/-- A search that starts past the last hash fails. -/
theorem scanWindow_outside {count : Nat} (outside : view.length < count) :
    scanWindow pool groupIds view blockSize alignmentTokens needed dropEagleBlock count 0 [] =
      .error .indexError := by
  cases count with
  | zero => omega
  | succ i =>
      have missing : pyIndex view i = .error .indexError := by
        rw [pyIndex, List.getElem?_eq_none (by omega)]
      rw [scanWindow, missing]
      rfl

/-- Two caches answer alike if their long enough runs end alike, up to the trims. -/
theorem hitLength_congr {first second : BlockPool H} (hash_pos : 0 < first.hashBlockSize)
    (block_pos : 0 < blockSize) (same : second.hashBlockSize = first.hashBlockSize)
    (agree : first.hashBlockSize ∣ blockSize → blockSize ∣ alignmentTokens → ∀ top other,
      IsGreatest {top | FullRun first blockHashes groupIds blockSize alignmentTokens
        (contiguousBlocksForHit slidingWindow blockSize dropEagleBlock) dropEagleBlock
        (maxLength / blockSize) top} top →
      IsGreatest {top | FullRun second blockHashes groupIds blockSize alignmentTokens
        (contiguousBlocksForHit slidingWindow blockSize dropEagleBlock) dropEagleBlock
        (maxLength / blockSize) top} other →
      blocksLeft blockSize alignmentTokens
          (contiguousBlocksForHit slidingWindow blockSize dropEagleBlock) dropEagleBlock top =
        blocksLeft blockSize alignmentTokens
          (contiguousBlocksForHit slidingWindow blockSize dropEagleBlock) dropEagleBlock other) :
    (findLongestSlidingWindowHit first blockHashes maxLength groupIds blockSize slidingWindow
      dropEagleBlock alignmentTokens).map Prod.snd =
    (findLongestSlidingWindowHit second blockHashes maxLength groupIds blockSize slidingWindow
      dropEagleBlock alignmentTokens).map Prod.snd := by
  by_cases whole : blockSize ∣ alignmentTokens
  · cases resolved : resolveBlockHashes blockHashes first.hashBlockSize blockSize false
        (some alignmentTokens) with
    | error failure =>
        have again := same ▸ resolved
        simp only [findLongestSlidingWindowHit, pyAssert, Nat.mod_eq_zero_of_dvd whole, if_true,
          resolved, again, bind, Except.bind]
    | ok view =>
        have again : resolveBlockHashes blockHashes second.hashBlockSize blockSize false
          (some alignmentTokens) = .ok view := same ▸ resolved
        rcases resolveBlockHashes_entry hash_pos block_pos resolved with ⟨divides, entry⟩
        rcases resolveBlockHashes_entry (same ▸ hash_pos) block_pos again with ⟨_, entryAgain⟩
        by_cases inside : maxLength / blockSize ≤ view.length
        · rcases findLongestSlidingWindowHit_top groupIds slidingWindow dropEagleBlock whole
            resolved (HashView.of_entry block_pos entry inside) with ⟨top, greatest, length_eq⟩
          rcases findLongestSlidingWindowHit_top groupIds slidingWindow dropEagleBlock whole
            again (HashView.of_entry block_pos entryAgain inside) with
              ⟨other, greatestOther, otherEq⟩
          rw [length_eq, otherEq, agree divides whole top other greatest greatestOther]
        · have outside := Nat.lt_of_not_le inside
          simp only [findLongestSlidingWindowHit, pyAssert, Nat.mod_eq_zero_of_dvd whole, if_true,
            resolved, again, bind, Except.bind, scanWindow_outside outside]
  · have failing : ¬ alignmentTokens % blockSize = 0 :=
      fun zero => whole (Nat.dvd_of_mod_eq_zero zero)
    simp only [findLongestSlidingWindowHit, pyAssert, if_neg failing, bind, Except.bind]

end Lengths

/-! ## What a cache holds -/

section Holding

variable {H : Type} {hashBlockSize blockSize : Nat}

/-- Two hash lists give block `index` the same hash. -/
def Shared (hashBlockSize blockSize : Nat) (stored query : List H) (index : Nat) : Prop :=
  ∃ hash, stored[(index + 1) * blockSize / hashBlockSize - 1]? = some hash ∧
    query[(index + 1) * blockSize / hashBlockSize - 1]? = some hash

/-- The cache holds exactly the selected blocks of a request. -/
def Holds [DecidableEq H] (pool : BlockPool H) (groupIds : List Nat) (hashBlockSize blockSize : Nat)
    (blockHashes : List H) (selected : Nat → Prop) : Prop :=
  ∀ hash, (∃ row, pool.getCachedBlock hash groupIds = some row) ↔ ∃ index, selected index ∧
    blockHashes[(index + 1) * blockSize / hashBlockSize - 1]? = some hash

section Hashed

variable [BlockHashing H]

namespace Request

/-- The block hashes of a request are those of its tokens. -/
def Hashed (hashBlockSize : Nat) (request : Request H) : Prop :=
  ∃ extraKeys, request.blockHashes =
    request.hashList hashBlockSize extraKeys (request.numTokens / hashBlockSize)

variable {extraKeys : Nat → Option (List ExtraKey)}

variable {request : Request H} {count i : Nat} {hash : H}

omit [BlockHashing H] in
theorem take_hashParts {size : Nat} (le : size ≤ count) :
    (request.hashParts hashBlockSize extraKeys count).take size =
      request.hashParts hashBlockSize extraKeys size := by
  unfold hashParts
  rw [← List.map_take, List.take_range, Nat.min_eq_left le]

omit [BlockHashing H] in
theorem length_hashParts (request : Request H) (extraKeys : Nat → Option (List ExtraKey))
    (count : Nat) : (request.hashParts hashBlockSize extraKeys count).length = count := by
  simp [hashParts]

theorem getElem?_hashList_eq_some :
    (request.hashList hashBlockSize extraKeys count)[i]? = some hash ↔
      i < count ∧ chainHash (request.hashParts hashBlockSize extraKeys (i + 1)) = hash := by
  rw [hashList, List.getElem?_map]
  by_cases inside : i < count
  · simp [inside]
  · simp [inside]

/-- A hash stands at one position only, behind the hashes of the same tokens. -/
theorem Hashed.agree (injective : Function.Injective (BlockHashing.hashFunction : HashInput H → H))
    {stored query : Request H} (first : stored.Hashed hashBlockSize)
    (second : query.Hashed hashBlockSize) {j : Nat} (storedAt : stored.blockHashes[i]? = some hash)
    (queryAt : query.blockHashes[j]? = some hash) :
    i = j ∧ ∀ k ≤ i, ∃ earlier, stored.blockHashes[k]? = some earlier ∧
      query.blockHashes[k]? = some earlier := by
  rcases first with ⟨keys, hashes⟩
  rcases second with ⟨others, otherHashes⟩
  rw [hashes, getElem?_hashList_eq_some] at storedAt
  rw [otherHashes, getElem?_hashList_eq_some] at queryAt
  have parts := chainHash_injective injective (storedAt.2.trans queryAt.2.symm)
  have same : i = j := by
    have lengths := congrArg List.length parts
    simp only [length_hashParts] at lengths
    omega
  subst same
  refine ⟨rfl, ?_⟩
  intro k le
  refine ⟨chainHash (stored.hashParts hashBlockSize keys (k + 1)), ?_, ?_⟩
  · rw [hashes, getElem?_hashList_eq_some]
    exact ⟨by omega, rfl⟩
  · rw [otherHashes, getElem?_hashList_eq_some]
    refine ⟨by omega, ?_⟩
    have earlier := congrArg (List.take (k + 1)) parts
    rw [take_hashParts (by omega), take_hashParts (by omega)] at earlier
    rw [earlier]

end Request

variable {stored query : Request H}

/-- A lookup finds the selected blocks among the shared ones. -/
theorem Holds.blockCached_iff [DecidableEq H] {pool : BlockPool H} {groupIds : List Nat}
    {selected : Nat → Prop}
    (injective : Function.Injective (BlockHashing.hashFunction : HashInput H → H))
    (hash_pos : 0 < pool.hashBlockSize) (block_pos : 0 < blockSize)
    (divides : pool.hashBlockSize ∣ blockSize) (first : stored.Hashed pool.hashBlockSize)
    (second : query.Hashed pool.hashBlockSize)
    (holds : Holds pool groupIds pool.hashBlockSize blockSize stored.blockHashes selected)
    {index : Nat} :
    BlockCached pool query.blockHashes groupIds blockSize index ↔
      selected index ∧
        Shared pool.hashBlockSize blockSize stored.blockHashes query.blockHashes index := by
  constructor
  · rintro ⟨row, hash, queryAt, found⟩
    rcases (holds hash).mp ⟨row, found⟩ with ⟨other, chosen, storedAt⟩
    have position := (first.agree injective second storedAt queryAt).1
    rcases divides with ⟨scale, rfl⟩
    have scale_pos : 0 < scale := Nat.pos_of_mul_pos_left block_pos
    have quotient (i : Nat) : (i + 1) * (pool.hashBlockSize * scale) / pool.hashBlockSize =
        (i + 1) * scale := by
      rw [Nat.mul_left_comm, Nat.mul_div_cancel_left _ hash_pos]
    rw [quotient, quotient] at position
    have some (i : Nat) : 0 < (i + 1) * scale := Nat.mul_pos (Nat.succ_pos i) scale_pos
    have same : (other + 1) * scale = (index + 1) * scale := by
      have left := some other
      have right := some index
      omega
    have equal := Nat.eq_of_mul_eq_mul_right scale_pos same
    have index_eq : other = index := by omega
    subst index_eq
    exact ⟨chosen, hash, storedAt, queryAt⟩
  · rintro ⟨chosen, hash, storedAt, queryAt⟩
    rcases (holds hash).mpr ⟨index, chosen, storedAt⟩ with ⟨row, found⟩
    exact ⟨row, hash, queryAt, found⟩

end Hashed

/-! ### Caching the blocks of a request -/

section Caching

open BlockPool

variable [DecidableEq H] {pool pool' : BlockPool H} {groupId : Nat}

theorem exists_getCachedBlock_iff {hash : H} :
    (∃ row, pool.getCachedBlock hash [groupId] = some row) ↔
      ∃ block, pool.Keyed (makeBlockHashWithGroupId hash groupId) block := by
  simp only [getCachedBlock]
  constructor
  · rintro ⟨row, found⟩
    split at found
    · cases found
    · rename_i block one
      exact ⟨block, BlockHashToBlockMap.contain_of_getOneBlock one⟩
  · rintro ⟨block, keyed⟩
    unfold Keyed BlockHashToBlockMap.contain at keyed
    cases stored : pool.cachedBlockHashToBlock.cache.get?
        (makeBlockHashWithGroupId hash groupId) with
    | none => simp [stored] at keyed
    | some blocks => simp [BlockHashToBlockMap.getOneBlock, stored]

theorem Holds.congr {groupIds : List Nat} {blockHashes : List H} {selected chosen : Nat → Prop}
    (holds : Holds pool groupIds hashBlockSize blockSize blockHashes selected)
    (same : ∀ index, selected index ↔ chosen index) :
    Holds pool groupIds hashBlockSize blockSize blockHashes chosen := by
  intro hash
  rw [holds hash]
  simp only [same]

variable [BlockHashing H]

variable {blockMask : Option (List Bool)}

variable {blocks : List BlockId}

/-- The loop adds the key of each unhashed block that the mask keeps. -/
theorem cacheFullBlocksLoop_keyed {newBlockHashes newHashes : List H} {numCachedBlocks : Nat}
    {i : Nat} (index : HashIndex pool)
    (fresh : ∀ block ∈ blocks, block ≠ nullBlock ∧ (pool.blocks block).blockHash = none)
    (distinct : blocks.Nodup)
    (cached : cacheFullBlocksLoop newBlockHashes numCachedBlocks blockSize groupId blockMask blocks
      i pool = .ok (newHashes, pool')) (key : BlockHashWithGroupId H) :
    (∃ block, pool'.Keyed key block) ↔ (∃ block, pool.Keyed key block) ∨
      ∃ offset hash, offset < blocks.length ∧ maskedOut blockMask (i + offset) = false ∧
        newBlockHashes[i + offset]? = some hash ∧ key = makeBlockHashWithGroupId hash groupId := by
  induction blocks generalizing i pool newHashes with
  | nil =>
      cases cached
      simp
  | cons block rest inductionHypothesis =>
      rcases List.nodup_cons.mp distinct with ⟨apart, distinctRest⟩
      rcases fresh block List.mem_cons_self with ⟨nonNull, unhashed⟩
      have freshRest (other : BlockId) (member : other ∈ rest) :=
        fresh other (List.mem_cons_of_mem block member)
      have shift (found : ∃ offset hash, offset < rest.length ∧
          maskedOut blockMask (i + 1 + offset) = false ∧
          newBlockHashes[i + 1 + offset]? = some hash ∧
          key = makeBlockHashWithGroupId hash groupId) :
          ∃ offset hash, offset < (block :: rest).length ∧
            maskedOut blockMask (i + offset) = false ∧
            newBlockHashes[i + offset]? = some hash ∧
            key = makeBlockHashWithGroupId hash groupId := by
        rcases found with ⟨offset, hash, less, unmasked, at_, key_eq⟩
        rw [show i + 1 + offset = i + (offset + 1) by omega] at unmasked at_
        exact ⟨offset + 1, hash, Nat.succ_lt_succ less, unmasked, at_, key_eq⟩
      rw [cacheFullBlocksLoop] at cached
      by_cases masked : maskedOut blockMask i = true
      · rw [if_pos (.inr masked)] at cached
        rw [inductionHypothesis index freshRest distinctRest cached]
        constructor
        · exact Or.imp_right shift
        · rintro (old | ⟨offset, hash, less, unmasked, at_, key_eq⟩)
          · exact .inl old
          · cases offset with
            | zero =>
                rw [Nat.add_zero, masked] at unmasked
                cases unmasked
            | succ offset =>
                rw [show i + (offset + 1) = i + 1 + offset by omega] at unmasked at_
                exact .inr ⟨offset, hash, Nat.lt_of_succ_lt_succ less, unmasked, at_, key_eq⟩
      · rw [if_neg (not_or.mpr ⟨nonNull, masked⟩)] at cached
        rcases bind_eq_ok.mp cached with ⟨blockHash, found, cached⟩
        rcases bind_eq_ok.mp cached with ⟨middle, first, cached⟩
        rcases bind_eq_ok.mp cached with ⟨⟨others, final⟩, loop, finished⟩
        cases finished
        rcases bind_eq_ok.mp first with ⟨unpromoted, promoted, inserted⟩
        rw [promoteBlock, unhashed] at promoted
        cases promoted
        have step := insertBlockHash_spec index nonNull inserted
        have unchanged (other : BlockId) (member : other ∈ rest) :
            other ≠ nullBlock ∧ (middle.blocks other).blockHash = none := by
          rw [step.frame other fun same => apart (same ▸ member)]
          exact freshRest other member
        rw [inductionHypothesis step.index unchanged distinctRest loop]
        simp only [step.keyed_iff]
        constructor
        · rintro (⟨target, old | ⟨rfl, rfl⟩⟩ | new)
          · exact .inl ⟨target, old⟩
          · exact .inr ⟨0, blockHash, Nat.succ_pos _, by simpa using masked,
              pyIndex_eq_ok.mp found, rfl⟩
          · exact .inr (shift new)
        · rintro (⟨target, old⟩ | ⟨offset, hash, less, unmasked, at_, key_eq⟩)
          · exact .inl ⟨target, .inl old⟩
          · cases offset with
            | zero =>
                rw [Nat.add_zero, pyIndex_eq_ok.mp found, Option.some.injEq] at at_
                subst at_
                exact .inl ⟨block, .inr ⟨key_eq, rfl⟩⟩
            | succ offset =>
                rw [show i + (offset + 1) = i + 1 + offset by omega] at unmasked at_
                exact .inr ⟨offset, hash, Nat.lt_of_succ_lt_succ less, unmasked, at_, key_eq⟩

/-- `cache_full_blocks` adds the blocks that the mask keeps. -/
theorem Holds.cacheFullBlocks {request : Request H} {blocks : List BlockId}
    {numCachedBlocks numFullBlocks : Nat} {blockMask : Option (List Bool)}
    {selected : Nat → Prop} (hash_pos : 0 < pool.hashBlockSize) (block_pos : 0 < blockSize)
    (index : HashIndex pool) (covered : numFullBlocks ≤ blocks.length)
    (fresh : ∀ block ∈ blocks.drop numCachedBlocks,
      block ≠ nullBlock ∧ (pool.blocks block).blockHash = none) (distinct : blocks.Nodup)
    (holds : Holds pool [groupId] pool.hashBlockSize blockSize request.blockHashes selected)
    (cached : pool.cacheFullBlocks request blocks numCachedBlocks numFullBlocks blockSize groupId
      blockMask = .ok pool') :
    Holds pool' [groupId] pool.hashBlockSize blockSize request.blockHashes fun index =>
      selected index ∨ (numCachedBlocks ≤ index ∧ index < numFullBlocks ∧
        maskedOut blockMask (index - numCachedBlocks) = false) := by
  intro hash
  rw [exists_getCachedBlock_iff]
  have before := holds hash
  rw [exists_getCachedBlock_iff] at before
  unfold BlockPool.cacheFullBlocks at cached
  split at cached
  · rename_i none
    cases cached
    rw [before]
    constructor
    · rintro ⟨index, chosen, at_⟩
      exact ⟨index, .inl chosen, at_⟩
    · rintro ⟨index, chosen | ⟨after, less, _⟩, at_⟩
      · exact ⟨index, chosen, at_⟩
      · omega
  rcases bind_eq_ok.mp cached with ⟨_, _, cached⟩
  rcases bind_eq_ok.mp cached with ⟨view, resolved, cached⟩
  rcases bind_eq_ok.mp cached with ⟨⟨newHashes, middle⟩, loop, cached⟩
  have entry : ∀ index, view[index]? =
      request.blockHashes[(index + 1) * blockSize / pool.hashBlockSize - 1]? := by
    apply (@resolveBlockHashes_entry _ pool _ _ 0 _ hash_pos block_pos _).2
    simpa [resolveBlockHashes] using resolved
  have keyed : ∀ key block, pool'.Keyed key block ↔ middle.Keyed key block := by
    dsimp only at cached
    split at cached
    · exact (emitBlockStoredEvent_sameHashes cached).1.keyed_iff
    · cases cached
      exact fun _ _ => Iff.rfl
  have sublist : (blocks.take numFullBlocks).drop numCachedBlocks =
      (blocks.drop numCachedBlocks).take (numFullBlocks - numCachedBlocks) := by
    rw [List.drop_take]
  have looped := cacheFullBlocksLoop_keyed index
    (fun block member => fresh block (by
      rw [sublist] at member
      exact List.mem_of_mem_take member))
    ((distinct.sublist (List.take_sublist _ _)).sublist (List.drop_sublist _ _)) loop
    (makeBlockHashWithGroupId hash groupId)
  simp only [keyed, looped, before]
  constructor
  · rintro (⟨index, chosen, at_⟩ | ⟨offset, found, less, unmasked, at_, key_eq⟩)
    · exact ⟨index, .inl chosen, at_⟩
    · cases key_eq
      simp only [List.length_drop, List.length_take] at less
      rw [Nat.zero_add] at unmasked at_
      rw [List.getElem?_drop, entry] at at_
      exact ⟨numCachedBlocks + offset, .inr ⟨Nat.le_add_right .., by omega,
        by rwa [Nat.add_sub_cancel_left]⟩, at_⟩
  · rintro ⟨index, chosen | ⟨after, less, unmasked⟩, at_⟩
    · exact .inl ⟨index, chosen, at_⟩
    · refine .inr ⟨index - numCachedBlocks, hash, ?_, by rwa [Nat.zero_add], ?_, rfl⟩
      · simp only [List.length_drop, List.length_take]
        omega
      · rw [Nat.zero_add, List.getElem?_drop, entry, Nat.add_sub_cancel' after]
        exact at_

/-- After `cache_full_blocks` an empty cache holds the first blocks that the mask keeps. -/
theorem holds_cacheFullBlocks_fresh {request : Request H} {numGpuBlocks numFullBlocks : Nat}
    {enableCaching enableKvCacheEvents : Bool} {queue : FreeKVCacheBlockQueue}
    (hash_pos : 0 < hashBlockSize) (block_pos : 0 < blockSize)
    (covered : numFullBlocks ≤ blocks.length) (nonNull : nullBlock ∉ blocks)
    (distinct : blocks.Nodup)
    (cached : (BlockPool.fresh numGpuBlocks enableCaching hashBlockSize enableKvCacheEvents
      queue).cacheFullBlocks request blocks 0 numFullBlocks blockSize groupId blockMask =
        .ok pool') :
    Holds pool' [groupId] hashBlockSize blockSize request.blockHashes fun index =>
      index < numFullBlocks ∧ maskedOut blockMask index = false := by
  have holds := @Holds.cacheFullBlocks _ _ _ _ pool' groupId _ request blocks 0 numFullBlocks
    blockMask (fun _ => False) hash_pos block_pos (fresh_hashIndex ..) covered
    (fun block member => ⟨fun null => nonNull (null ▸ member), rfl⟩) distinct
    (by
      intro hash
      rw [exists_getCachedBlock_iff]
      simp [Keyed, BlockPool.fresh]) cached
  exact holds.congr fun index => by simp

end Caching

end Holding

/-! ## The masks, block by block -/

section Masks

open BlockPool SingleTypeKVCacheManager

variable {blockSize alignmentTokens slidingWindow startBlock endBlock : Nat} {useEagle : Bool}
  {boundaries : List Int} {mask : Option (List Bool)}

/-- Block `index` is one of the last `needed` blocks of a segment of `size` blocks; segments begin
at block `shift`. -/
def InSegmentTail (needed shift size index : Nat) : Prop :=
  shift ≤ index ∧ size - needed ≤ (index - shift) % size

/-- Block `index` is one of the `needed` blocks in front of the end of an aligned boundary. -/
def InBoundaryTail (blockSize alignmentTokens needed shift : Nat) (boundaryTokens : Int)
    (index : Nat) : Prop :=
  let tailEnd := boundaryTokens / alignmentTokens * alignmentTokens / blockSize + (shift : Int)
  tailEnd - needed ≤ index ∧ (index : Int) < tailEnd

/-- The blocks that dense retention keeps: all, or the tails of the segments between aligned
boundaries. -/
def DenselyKept (size needed shift index : Nat) : Prop :=
  size ≤ needed ∨ InSegmentTail needed shift size index

/-- The blocks that sparse retention keeps: tails of longer segments, and those in front of the
boundaries of the request. -/
def SparselyKept (blockSize alignmentTokens needed shift interval : Nat) (boundaries : List Int)
    (index : Nat) : Prop :=
  (interval ≠ 0 ∧ DenselyKept (interval / blockSize) needed shift index) ∨
    ∃ boundaryTokens ∈ boundaries,
      InBoundaryTail blockSize alignmentTokens needed shift boundaryTokens index

/-- How far the run of a hit reaches past its end: the block that EAGLE drops. -/
def peekBlocks (useEagle : Bool) : Nat :=
  if useEagle then 1 else 0

variable {index : Nat}

theorem maskedOut_map_range {keep : Nat → Bool} {size : Nat} (inside : index < size) :
    maskedOut (some ((List.range size).map keep)) index = false ↔ keep index = true := by
  simp [maskedOut, inside]

/-- The blocks that dense retention caches. -/
theorem denseMask_keeps
    (masked : slidingWindowBlockMask slidingWindow blockSize startBlock endBlock alignmentTokens
      useEagle none boundaries = .ok mask) (after : startBlock ≤ index) (before : index < endBlock) :
    maskedOut mask (index - startBlock) = false ↔ DenselyKept (alignmentTokens / blockSize)
        (contiguousBlocksForHit slidingWindow blockSize useEagle) (peekBlocks useEagle) index := by
  have inside : index - startBlock < endBlock - startBlock := by omega
  rcases bind_eq_ok.mp masked with ⟨_, _, masked⟩
  simp only [Option.map_some, Option.any_some, decide_eq_true_eq, Option.isSome_none,
    Bool.false_and, Bool.or_false] at masked
  split at masked
  · rename_i all
    cases masked
    simp [maskedOut, DenselyKept, all]
  · rename_i some_
    cases masked
    rw [maskedOut_map_range inside]
    simp [DenselyKept, InSegmentTail, peekBlocks, some_, Nat.add_sub_cancel' after]

/-- The blocks that sparse retention caches. -/
theorem sparseMask_keeps {interval : Nat}
    (masked : slidingWindowBlockMask slidingWindow blockSize startBlock endBlock alignmentTokens
      useEagle (some interval) boundaries = .ok mask) (after : startBlock ≤ index)
    (before : index < endBlock) :
    maskedOut mask (index - startBlock) = false ↔
      SparselyKept blockSize alignmentTokens
        (contiguousBlocksForHit slidingWindow blockSize useEagle) (peekBlocks useEagle) interval
        boundaries index := by
  have inside : index - startBlock < endBlock - startBlock := by omega
  cases interval with
  | zero =>
      rcases bind_eq_ok.mp masked with ⟨_, _, masked⟩
      cases masked
      rw [maskedOut_map_range inside]
      simp [SparselyKept, InBoundaryTail, peekBlocks, Nat.add_sub_cancel' after]
  | succ interval =>
      rw [slidingWindowBlockMask] at masked
      · rcases bind_eq_ok.mp masked with ⟨_, _, masked⟩
        simp only [Option.map_some, Option.any_some, decide_eq_true_eq, Option.isSome_some,
          Bool.true_and] at masked
        split at masked
        · rename_i all
          cases masked
          simp [maskedOut, SparselyKept, DenselyKept, all]
        · rename_i some_
          cases masked
          rw [maskedOut_map_range inside]
          simp [SparselyKept, DenselyKept, InSegmentTail, InBoundaryTail, peekBlocks, some_,
            Nat.add_sub_cancel' after]
      · exact Nat.succ_ne_zero interval

end Masks

/-! ## Dense retention -/

section Dense

open BlockPool SingleTypeKVCacheManager

variable {blockSize alignmentTokens slidingWindow needed shift size top index : Nat}
  {useEagle : Bool}

theorem topAligned_iff (block_pos : 0 < blockSize) (whole : blockSize ∣ alignmentTokens) :
    TopAligned blockSize alignmentTokens useEagle top ↔
      alignmentTokens / blockSize ∣ top - peekBlocks useEagle := by
  have kept : TopAligned blockSize alignmentTokens useEagle top ↔
      TopAligned blockSize alignmentTokens false (top - peekBlocks useEagle) := by
    cases useEagle <;> simp [TopAligned, peekBlocks]
  rw [kept, topAligned_false_iff, Nat.div_dvd_iff_dvd_mul whole block_pos, Nat.mul_comm]

/-- The blocks in front of the end of a segment are its tail. -/
theorem InSegmentTail.of_end (short : needed < size) (aligned : size ∣ top - shift)
    (after : shift < top) (least : top ≤ index + needed) (less : index < top) :
    InSegmentTail needed shift size index := by
  rcases aligned with ⟨segments, sum⟩
  cases segments with
  | zero => omega
  | succ segments =>
      rw [Nat.mul_succ] at sum
      have split : index - shift = index - shift - size * segments + size * segments := by omega
      constructor
      · omega
      · rw [split, Nat.add_mul_mod_self_left, Nat.mod_eq_of_lt (by omega)]
        omega

/-- A window of two tokens or more needs a block behind the one that EAGLE drops. -/
theorem peekBlocks_lt_contiguousBlocksForHit (block_pos : 0 < blockSize)
    (wide : 2 ≤ slidingWindow) :
    peekBlocks useEagle < contiguousBlocksForHit slidingWindow blockSize useEagle := by
  have some : 0 < cdiv (slidingWindow - 1) blockSize := by
    rw [lt_cdiv_iff block_pos]
    omega
  unfold contiguousBlocksForHit peekBlocks
  omega

/-- Nothing is left of the block that EAGLE drops. -/
theorem blocksLeft_peek (block_pos : 0 < blockSize) (short : peekBlocks useEagle < needed)
    (large : blockSize < alignmentTokens) (le : top ≤ peekBlocks useEagle) :
    blocksLeft blockSize alignmentTokens needed useEagle top = 0 := by
  have below : ¬ max needed 1 ≤ top := by omega
  have one : top ≤ 1 := by
    unfold peekBlocks at le
    split at le <;> omega
  have none : alignedCount blockSize alignmentTokens top = 0 := by
    rcases Nat.le_one_iff_eq_zero_or_eq_one.mp one with rfl | rfl
    · rfl
    · have misaligned : ¬ blockSize % alignmentTokens = 0 := by
        rw [Nat.mod_eq_of_lt large]
        omega
      simp [alignedCount, Nat.ne_of_lt large, misaligned]
  simp only [blocksLeft, if_neg below, none]
  simp

variable {H : Type} [DecidableEq H] [BlockHashing H] {full kept : BlockPool H}
  {groupIds : List Nat} {stored query : Request H} {numTokens maxLength : Nat}
  {boundaries : List Int} {mask : Option (List Bool)}

/-- A cache of the blocks that dense retention selects answers every lookup like a cache of all full
blocks. -/
theorem hitLength_denseMask
    (injective : Function.Injective (BlockHashing.hashFunction : HashInput H → H))
    (hash_pos : 0 < full.hashBlockSize) (block_pos : 0 < blockSize)
    (same : kept.hashBlockSize = full.hashBlockSize) (wide : 2 ≤ slidingWindow)
    (storedHashed : stored.Hashed full.hashBlockSize)
    (queryHashed : query.Hashed full.hashBlockSize)
    (masked : slidingWindowBlockMask slidingWindow blockSize 0 (numTokens / blockSize)
      alignmentTokens useEagle none boundaries = .ok mask)
    (holdsFull : Holds full groupIds full.hashBlockSize blockSize stored.blockHashes
      (· < numTokens / blockSize))
    (holdsKept : Holds kept groupIds full.hashBlockSize blockSize stored.blockHashes fun index =>
      index < numTokens / blockSize ∧ maskedOut mask index = false) :
    (findLongestSlidingWindowHit kept query.blockHashes maxLength groupIds blockSize slidingWindow
      useEagle alignmentTokens).map Prod.snd =
    (findLongestSlidingWindowHit full query.blockHashes maxLength groupIds blockSize slidingWindow
      useEagle alignmentTokens).map Prod.snd := by
  apply hitLength_congr (same ▸ hash_pos) block_pos same.symm
  intro divides whole top other greatest greatestOther
  have cachedFull (index : Nat) := @Holds.blockCached_iff _ _ _ stored query _ full groupIds _
    injective hash_pos block_pos (same ▸ divides) storedHashed queryHashed holdsFull index
  have cachedKept (index : Nat) := @Holds.blockCached_iff _ _ _ stored query _ kept groupIds _
    injective (same ▸ hash_pos) block_pos divides (same ▸ storedHashed) (same ▸ queryHashed)
    (same ▸ holdsKept) index
  rw [same] at cachedKept
  have keeps (index : Nat) (before : index < numTokens / blockSize) :=
    denseMask_keeps masked (Nat.zero_le index) before
  have peek := @peekBlocks_lt_contiguousBlocksForHit blockSize slidingWindow useEagle block_pos wide
  generalize contiguousBlocksForHit slidingWindow blockSize useEagle = needed at *
  have widened {end_ : Nat} (run : FullRun kept query.blockHashes groupIds blockSize
      alignmentTokens needed useEagle (maxLength / blockSize) end_) :
      FullRun full query.blockHashes groupIds blockSize alignmentTokens needed useEagle
        (maxLength / blockSize) end_ := by
    constructor
    · exact run.within
    · exact run.aligned
    · intro index least less
      rcases (cachedKept index).mp (run.cached index least less) with ⟨⟨before, _⟩, shared⟩
      exact (cachedFull index).mpr ⟨before, shared⟩
  have narrowed {end_ : Nat} (run : FullRun full query.blockHashes groupIds blockSize
      alignmentTokens needed useEagle (maxLength / blockSize) end_)
      (reaches : alignmentTokens / blockSize ≤ needed ∨ peekBlocks useEagle < end_) :
      FullRun kept query.blockHashes groupIds blockSize alignmentTokens needed useEagle
        (maxLength / blockSize) end_ := by
    constructor
    · exact run.within
    · exact run.aligned
    · intro index least less
      rcases (cachedFull index).mp (run.cached index least less) with ⟨before, shared⟩
      apply (cachedKept index).mpr
      refine ⟨⟨before, (keeps index before).mpr ?_⟩, shared⟩
      by_cases all : alignmentTokens / blockSize ≤ needed
      · exact .inl all
      · have after := reaches.resolve_left all
        exact .inr (.of_end (Nat.lt_of_not_le all)
          ((topAligned_iff block_pos whole).mp run.aligned) after (by omega) less)
  have le := greatestOther.2 (widened greatest.1)
  by_cases reaches : alignmentTokens / blockSize ≤ needed ∨ peekBlocks useEagle < other
  · have ge := greatest.2 (narrowed greatestOther.1 reaches)
    rw [Nat.le_antisymm le ge]
  · have large : blockSize < alignmentTokens := by
      have two : 2 ≤ alignmentTokens / blockSize := by omega
      rw [Nat.le_div_iff_mul_le block_pos] at two
      omega
    rw [blocksLeft_peek block_pos peek large (by omega),
      blocksLeft_peek block_pos peek large (by omega)]

/-- A prompt of the given tokens in an empty conversation. -/
def plainPrompt (hashBlockSize : Nat) (promptTokenIds : List TokenId) : Request SymbolicHash :=
  Request.rehashed hashBlockSize
    { requestId := "plain"
      maxTokens := 4
      promptTokenIds := some promptTokenIds
      numPromptTokens := promptTokenIds.length
      allTokenIds := promptTokenIds }

theorem plainPrompt_hashed {hashBlockSize : Nat} (hash_pos : 0 < hashBlockSize)
    (promptTokenIds : List TokenId) :
    (plainPrompt hashBlockSize promptTokenIds).Hashed hashBlockSize :=
  ⟨_, Request.rehashed_blockHashes hash_pos _⟩

/-- A pool without cached blocks. -/
def emptyPool (hashBlockSize : Nat) : BlockPool SymbolicHash :=
  .fresh 16 true hashBlockSize false (FreeKVCacheBlockQueue.init [])

/-- The mask keeps two of seven blocks, and a prompt that shares five tokens gets the four tokens of
the dense cache. -/
theorem hitLength_denseMask_shared :
    ∃ full kept, (emptyPool 1).cacheFullBlocks (plainPrompt 1 [1, 2, 3, 4, 5, 6, 7])
        [1, 2, 3, 4, 5, 6, 7] 0 7 1 0 none = .ok full ∧
      (emptyPool 1).cacheFullBlocks (plainPrompt 1 [1, 2, 3, 4, 5, 6, 7])
        [1, 2, 3, 4, 5, 6, 7] 0 7 1 0
        (some [false, false, false, true, true, false, false]) = .ok kept ∧
      (findLongestSlidingWindowHit kept (plainPrompt 1 [1, 2, 3, 4, 5, 8]).blockHashes 5 [0] 1 2 true
        4).map Prod.snd =
      (findLongestSlidingWindowHit full (plainPrompt 1 [1, 2, 3, 4, 5, 8]).blockHashes 5 [0] 1 2 true
        4).map Prod.snd := by
  refine ⟨_, _, rfl, rfl, ?_⟩
  apply @hitLength_denseMask 1 4 2 true SymbolicHash _ _ _ _ [0]
    (plainPrompt 1 [1, 2, 3, 4, 5, 6, 7]) (plainPrompt 1 [1, 2, 3, 4, 5, 8]) 7 5 []
    (some [false, false, false, true, true, false, false]) SymbolicHash.hashFunction_injective
  · decide
  · decide
  · rfl
  · decide
  · exact plainPrompt_hashed (by decide) _
  · exact plainPrompt_hashed (by decide) _
  · rfl
  · apply (holds_cacheFullBlocks_fresh (by decide) (by decide) (by decide) (by decide) (by decide)
      (rfl : (emptyPool 1).cacheFullBlocks (plainPrompt 1 [1, 2, 3, 4, 5, 6, 7])
        [1, 2, 3, 4, 5, 6, 7] 0 7 1 0 none = .ok _)).congr
    simp [maskedOut]
  · exact holds_cacheFullBlocks_fresh (by decide) (by decide) (by decide) (by decide) (by decide)
      (rfl : (emptyPool 1).cacheFullBlocks (plainPrompt 1 [1, 2, 3, 4, 5, 6, 7])
        [1, 2, 3, 4, 5, 6, 7] 0 7 1 0
        (some [false, false, false, true, true, false, false]) = .ok _)

end Dense

end Vllm.Core
