import Vllm.Core.BlockPool

/-!
# References and the free list

`FreeList` ties the free queue to the reference counts: the queue represents
exactly the non-null blocks without references.  Each pool operation is
specified by its effect on the represented list and on the counts, together
with a frame: hash operations leave references alone (`SameRefs`), reference
operations leave hashes alone (`SameHashes`).
-/

namespace Vllm.Core.BlockPool

open Vllm.Library

variable {H : Type}

/-- The configuration of a pool never changes. -/
structure SameConfig (pool pool' : BlockPool H) : Prop where
  numGpuBlocks : pool'.numGpuBlocks = pool.numGpuBlocks
  enableCaching : pool'.enableCaching = pool.enableCaching
  hashBlockSize : pool'.hashBlockSize = pool.hashBlockSize
  enableKvCacheEvents : pool'.enableKvCacheEvents = pool.enableKvCacheEvents

/-- Agreement on the queue and on every reference count. -/
structure SameRefs (pool pool' : BlockPool H) : Prop extends SameConfig pool pool' where
  freeBlockQueue : pool'.freeBlockQueue = pool.freeBlockQueue
  refCnt : ∀ block, (pool'.blocks block).refCnt = (pool.blocks block).refCnt

/-- Agreement on the index and on every block's hashes. -/
structure SameHashes (pool pool' : BlockPool H) : Prop extends SameConfig pool pool' where
  index : pool'.cachedBlockHashToBlock = pool.cachedBlockHashToBlock
  additional : pool'.cachedBlockHashesByBlock = pool.cachedBlockHashesByBlock
  blockHash : ∀ block, (pool'.blocks block).blockHash = (pool.blocks block).blockHash
  numTokens : ∀ block,
    (pool'.blocks block).blockHashNumTokens = (pool.blocks block).blockHashNumTokens

theorem SameConfig.refl (pool : BlockPool H) : SameConfig pool pool :=
  ⟨rfl, rfl, rfl, rfl⟩

theorem SameConfig.symm {pool pool' : BlockPool H} (same : SameConfig pool pool') :
    SameConfig pool' pool :=
  ⟨same.numGpuBlocks.symm, same.enableCaching.symm, same.hashBlockSize.symm,
    same.enableKvCacheEvents.symm⟩

variable {first second third : BlockPool H}

theorem SameConfig.trans (left : SameConfig first second) (right : SameConfig second third) :
    SameConfig first third :=
  ⟨right.numGpuBlocks.trans left.numGpuBlocks, right.enableCaching.trans left.enableCaching,
    right.hashBlockSize.trans left.hashBlockSize,
    right.enableKvCacheEvents.trans left.enableKvCacheEvents⟩

theorem SameRefs.refl (pool : BlockPool H) : SameRefs pool pool :=
  ⟨.refl pool, rfl, fun _ => rfl⟩

theorem SameRefs.trans (left : SameRefs first second) (right : SameRefs second third) :
    SameRefs first third :=
  ⟨left.toSameConfig.trans right.toSameConfig, right.freeBlockQueue.trans left.freeBlockQueue,
    fun block => (right.refCnt block).trans (left.refCnt block)⟩

theorem SameHashes.refl (pool : BlockPool H) : SameHashes pool pool :=
  ⟨.refl pool, rfl, rfl, fun _ => rfl, fun _ => rfl⟩

theorem SameHashes.trans (left : SameHashes first second) (right : SameHashes second third) :
    SameHashes first third :=
  ⟨left.toSameConfig.trans right.toSameConfig, right.index.trans left.index,
    right.additional.trans left.additional,
    fun block => (right.blockHash block).trans (left.blockHash block),
    fun block => (right.numTokens block).trans (left.numTokens block)⟩

/-- Changing one block's reference count is not a hash operation. -/
theorem SameHashes.setRefCnt (pool : BlockPool H) (block : BlockId) (count : Int)
    (queue : FreeKVCacheBlockQueue) :
    SameHashes pool ({ pool with freeBlockQueue := queue }.setBlock block
      { pool.blocks block with refCnt := count }) := by
  refine ⟨⟨rfl, rfl, rfl, rfl⟩, rfl, rfl, fun other => ?_, fun other => ?_⟩ <;>
    · by_cases same : other = block
      · subst same
        simp [setBlock]
      · simp [setBlock, same]

/-- The queue represents `free`, the non-null blocks without references. -/
structure FreeList (pool : BlockPool H) (free : List BlockId) : Prop where
  queue : pool.freeBlockQueue.Represents free
  mem_iff : ∀ block, block ∈ free ↔
    block < pool.numGpuBlocks ∧ block ≠ nullBlock ∧ (pool.blocks block).refCnt = 0
  nonneg : ∀ block, block ≠ nullBlock → 0 ≤ (pool.blocks block).refCnt

namespace FreeList

variable {pool : BlockPool H} {free : List BlockId}

theorem nodup (list : FreeList pool free) : free.Nodup :=
  list.queue.links.nodup

theorem null_notMem (list : FreeList pool free) : nullBlock ∉ free :=
  fun member => ((list.mem_iff nullBlock).mp member).2.1 rfl

theorem getNumFreeBlocks_eq (list : FreeList pool free) : pool.getNumFreeBlocks = free.length :=
  list.queue.count

/-- The free list is shorter than the pool: it misses the null block. -/
theorem length_lt (list : FreeList pool free) (positive : 0 < pool.numGpuBlocks) :
    free.length < pool.numGpuBlocks := by
  have nodup : (nullBlock :: free).Nodup := List.nodup_cons.mpr ⟨list.null_notMem, list.nodup⟩
  have within : nullBlock :: free ⊆ List.range pool.numGpuBlocks := by
    intro block member
    rw [List.mem_range]
    rcases List.mem_cons.mp member with rfl | queued
    · exact positive
    · exact ((list.mem_iff block).mp queued).1
  have bound := (List.subperm_of_subset nodup within).length_le
  rw [List.length_cons, List.length_range] at bound
  exact bound

/-- Hash operations keep the free list. -/
theorem sameRefs {pool' : BlockPool H} (list : FreeList pool free) (same : SameRefs pool pool') :
    FreeList pool' free where
  queue := same.freeBlockQueue ▸ list.queue
  mem_iff block := by rw [list.mem_iff, same.numGpuBlocks, same.refCnt]
  nonneg block nonNull := by
    rw [same.refCnt]
    exact list.nonneg block nonNull

end FreeList

/-! ## Hash operations leave references alone -/

section HashFrames

variable [DecidableEq H]

theorem removeCachedBlockHashes_sameRefs (pool : BlockPool H) (block : BlockId) :
    SameRefs pool (pool.removeCachedBlockHashes block).2 := by
  unfold removeCachedBlockHashes
  dsimp only
  split
  · exact ⟨⟨rfl, rfl, rfl, rfl⟩, rfl, fun _ => rfl⟩
  · refine ⟨⟨rfl, rfl, rfl, rfl⟩, rfl, fun other => ?_⟩
    by_cases same : other = block
    · subst same
      simp [setBlock, KVCacheBlock.resetHash]
    · simp [setBlock, same]

variable {pool pool' : BlockPool H} {key : BlockHashWithGroupId H} {block : BlockId}
  {numTokens : Option Nat} {numHashTokens numCachedBlocks blockSize groupId numFullBlocks : Nat}
  {blockMask : Option (List Bool)} {blocks : List BlockId} {request : Request H}

theorem recordBlockHash_sameRefs (recorded : pool.recordBlockHash key block numTokens = .ok pool') :
    SameRefs pool pool' := by
  unfold recordBlockHash at recorded
  split at recorded
  · obtain ⟨record, written, stored⟩ := bind_eq_ok.mp recorded
    cases stored
    obtain ⟨_, _, hashed⟩ := bind_eq_ok.mp written
    cases hashed
    refine ⟨⟨rfl, rfl, rfl, rfl⟩, rfl, fun other => ?_⟩
    by_cases same : other = block
    · subst same
      simp [setBlock]
    · simp [setBlock, same]
  · cases recorded
    exact ⟨⟨rfl, rfl, rfl, rfl⟩, rfl, fun _ => rfl⟩

theorem insertBlockHash_sameRefs (inserted : pool.insertBlockHash key block numTokens = .ok pool') :
    SameRefs pool pool' := by
  unfold insertBlockHash at inserted
  split at inserted
  · cases inserted
    exact .refl pool
  split at inserted
  · cases inserted
    exact .refl pool
  obtain ⟨middle, recorded, finished⟩ := bind_eq_ok.mp inserted
  cases finished
  exact (recordBlockHash_sameRefs recorded).trans ⟨⟨rfl, rfl, rfl, rfl⟩, rfl, fun _ => rfl⟩

theorem insertBlockHashes_sameRefs {keys : List (BlockHashWithGroupId H)}
    (inserted : insertBlockHashes block numTokens keys pool = .ok pool') : SameRefs pool pool' := by
  induction keys generalizing pool with
  | nil =>
      cases inserted
      exact .refl _
  | cons key rest ih =>
      obtain ⟨middle, first, others⟩ := bind_eq_ok.mp inserted
      exact (insertBlockHash_sameRefs first).trans (ih others)

theorem moveBlockHashes_sameRefs {srcBlock dstBlock : BlockId}
    (moved : pool.moveBlockHashes srcBlock dstBlock = .ok pool') : SameRefs pool pool' := by
  obtain ⟨_, _, moved⟩ := bind_eq_ok.mp moved
  obtain ⟨_, _, moved⟩ := bind_eq_ok.mp moved
  exact (removeCachedBlockHashes_sameRefs pool srcBlock).trans
    (insertBlockHashes_sameRefs moved)

omit [DecidableEq H] in
theorem resetPrefixCache_sameRefs (pool : BlockPool H) : SameRefs pool pool.resetPrefixCache.2 := by
  unfold resetPrefixCache
  dsimp only
  split
  · exact .refl pool
  · split <;> exact ⟨⟨rfl, rfl, rfl, rfl⟩, rfl, fun _ => rfl⟩

variable [BlockHashing H]

omit [DecidableEq H] in
theorem emitBlockRemovedEvents_sameRefs (pool : BlockPool H)
    (keys : List (BlockHashWithGroupId H)) : SameRefs pool (pool.emitBlockRemovedEvents keys) := by
  unfold emitBlockRemovedEvents
  split
  · exact ⟨⟨rfl, rfl, rfl, rfl⟩, rfl, fun _ => rfl⟩
  · exact .refl pool

/-- Removing a block's keys and announcing it. -/
theorem removeAndEmit_sameRefs (pool : BlockPool H) (block : BlockId) :
    SameRefs pool ((pool.removeCachedBlockHashes block).2.emitBlockRemovedEvents
      (pool.removeCachedBlockHashes block).1) :=
  (removeCachedBlockHashes_sameRefs pool block).trans (emitBlockRemovedEvents_sameRefs _ _)

theorem promoteBlock_sameRefs (promoted : pool.promoteBlock block numHashTokens = .ok pool') :
    SameRefs pool pool' := by
  unfold promoteBlock at promoted
  split at promoted
  · obtain ⟨_, _, promoted⟩ := bind_eq_ok.mp promoted
    cases promoted
    exact removeAndEmit_sameRefs pool block
  · cases promoted
    exact .refl pool

theorem cacheFullBlock_sameRefs (cached : pool.cacheFullBlock block key numHashTokens = .ok pool') :
    SameRefs pool pool' := by
  obtain ⟨middle, promoted, inserted⟩ := bind_eq_ok.mp cached
  exact (promoteBlock_sameRefs promoted).trans (insertBlockHash_sameRefs inserted)

variable {newHashes : List H}

theorem cacheFullBlocksLoop_sameRefs {newBlockHashes : List H} {index : Nat}
    (cached : cacheFullBlocksLoop newBlockHashes numCachedBlocks blockSize groupId blockMask
      blocks index pool = .ok (newHashes, pool')) : SameRefs pool pool' := by
  induction blocks generalizing index pool newHashes with
  | nil =>
      cases cached
      exact .refl _
  | cons block rest ih =>
      unfold cacheFullBlocksLoop at cached
      split at cached
      · exact ih cached
      · obtain ⟨blockHash, _, cached⟩ := bind_eq_ok.mp cached
        obtain ⟨middle, first, cached⟩ := bind_eq_ok.mp cached
        obtain ⟨⟨others, final⟩, loop, finished⟩ := bind_eq_ok.mp cached
        cases finished
        exact (cacheFullBlock_sameRefs first).trans (ih loop)

omit [DecidableEq H] in
theorem emitBlockStoredEvent_sameRefs {blockHashes : List H}
    (emitted : pool.emitBlockStoredEvent request blocks blockHashes newHashes numCachedBlocks
      numFullBlocks blockSize groupId blockMask = .ok pool') : SameRefs pool pool' := by
  obtain ⟨_, _, emitted⟩ := bind_eq_ok.mp emitted
  obtain ⟨_, _, emitted⟩ := bind_eq_ok.mp emitted
  cases emitted
  exact ⟨⟨rfl, rfl, rfl, rfl⟩, rfl, fun _ => rfl⟩

theorem cacheFullBlocks_sameRefs
    (cached : pool.cacheFullBlocks request blocks numCachedBlocks numFullBlocks blockSize
      groupId blockMask = .ok pool') : SameRefs pool pool' := by
  unfold cacheFullBlocks at cached
  split at cached
  · cases cached
    exact .refl pool
  obtain ⟨_, _, cached⟩ := bind_eq_ok.mp cached
  obtain ⟨blockHashes, _, cached⟩ := bind_eq_ok.mp cached
  obtain ⟨⟨newHashes, middle⟩, loop, cached⟩ := bind_eq_ok.mp cached
  refine (cacheFullBlocksLoop_sameRefs loop).trans ?_
  dsimp only at cached
  split at cached
  · exact emitBlockStoredEvent_sameRefs cached
  · cases cached
    exact .refl _

omit [DecidableEq H] in
theorem emitCachedBlockEvents_sameRefs
    (emitted : pool.emitCachedBlockEvents request numCachedBlocks blockSize groupId =
      .ok pool') : SameRefs pool pool' := by
  unfold emitCachedBlockEvents at emitted
  split at emitted
  · cases emitted
    exact .refl pool
  obtain ⟨_, _, emitted⟩ := bind_eq_ok.mp emitted
  obtain ⟨_, _, emitted⟩ := bind_eq_ok.mp emitted
  cases emitted
  exact ⟨⟨rfl, rfl, rfl, rfl⟩, rfl, fun _ => rfl⟩

omit [DecidableEq H] in
theorem emitPartialBlockEvent_sameRefs {blockHash : H} {numTokens : Nat}
    (emitted : pool.emitPartialBlockEvent request blockHash numTokens groupId = .ok pool') :
    SameRefs pool pool' := by
  obtain ⟨_, _, emitted⟩ := bind_eq_ok.mp emitted
  cases emitted
  exact ⟨⟨rfl, rfl, rfl, rfl⟩, rfl, fun _ => rfl⟩

theorem cachePartialBlock_sameRefs {numTokens : Nat} {key : Option (BlockHashWithGroupId H)}
    (cached : pool.cachePartialBlock request block numTokens groupId blockSize =
      .ok (key, pool')) : SameRefs pool pool' := by
  unfold cachePartialBlock at cached
  split at cached
  · cases cached
    exact .refl pool
  obtain ⟨_, _, cached⟩ := bind_eq_ok.mp cached
  obtain ⟨_, _, cached⟩ := bind_eq_ok.mp cached
  obtain ⟨_, _, cached⟩ := bind_eq_ok.mp cached
  obtain ⟨blockHash, _, cached⟩ := bind_eq_ok.mp cached
  obtain ⟨middle, inserted, cached⟩ := bind_eq_ok.mp cached
  obtain ⟨final, emitted, finished⟩ := bind_eq_ok.mp cached
  cases finished
  refine SameRefs.trans (SameRefs.trans ?_ (insertBlockHash_sameRefs inserted)) ?_
  · split
    · exact removeAndEmit_sameRefs pool block
    · exact .refl pool
  · split at emitted
    · exact emitPartialBlockEvent_sameRefs emitted
    · cases emitted
      exact .refl _

theorem maybeEvictCachedBlock_sameRefs (pool : BlockPool H) (block : BlockId) :
    SameRefs pool (pool.maybeEvictCachedBlock block).2 := by
  unfold maybeEvictCachedBlock
  dsimp only
  split
  · exact removeCachedBlockHashes_sameRefs pool block
  · exact removeAndEmit_sameRefs pool block

theorem evictBlocks_sameRefs (evicted : evictBlocks blocks pool = .ok pool') :
    SameRefs pool pool' := by
  induction blocks generalizing pool with
  | nil =>
      cases evicted
      exact .refl _
  | cons block rest ih =>
      obtain ⟨_, _, evicted⟩ := bind_eq_ok.mp evicted
      exact (maybeEvictCachedBlock_sameRefs pool block).trans (ih evicted)

end HashFrames

/-! ## Reference operations -/

section References

variable {blocks free : List BlockId} {pool pool' : BlockPool H}

/-- `touch` takes one reference per listed occurrence and pulls the blocks out
of the free list. -/
theorem touch_spec (list : FreeList pool free)
    (valid : ∀ block ∈ blocks, block < pool.numGpuBlocks) :
    ∃ pool', touch blocks pool = .ok pool' ∧
      FreeList pool' (free.filter (· ∉ blocks)) ∧ SameHashes pool pool' ∧
      ∀ block, (pool'.blocks block).refCnt = (pool.blocks block).refCnt + blocks.count block := by
  induction blocks generalizing pool free with
  | nil => exact ⟨pool, rfl, by simpa using list, .refl pool, by simp⟩
  | cons block rest ih =>
      obtain ⟨here, restValid⟩ := List.forall_mem_cons.mp valid
      -- Whether or not the block is queued, one step keeps the free list.
      obtain ⟨queue, removed, represents⟩ : ∃ queue,
          (if (pool.blocks block).refCnt = 0 ∧ block ≠ nullBlock then
            pool.freeBlockQueue.remove block else .ok pool.freeBlockQueue) = .ok queue ∧
          queue.Represents (free.filter (· ≠ block)) := by
        split
        · rename_i idle
          have member : block ∈ free := (list.mem_iff block).mpr ⟨here, idle.2, idle.1⟩
          obtain ⟨queue, removed, represents⟩ := FreeKVCacheBlockQueue.remove_spec list.queue member
          rw [list.nodup.erase_eq_filter] at represents
          refine ⟨queue, removed, ?_⟩
          rwa [List.filter_congr (q := (· != block)) fun other _ => by
            by_cases same : other = block <;> simp [same]]
        · rename_i busy
          refine ⟨_, rfl, ?_⟩
          rw [List.filter_eq_self.mpr]
          · exact list.queue
          · intro other member
            simp only [decide_eq_true_eq]
            rintro rfl
            exact busy ⟨((list.mem_iff other).mp member).2.2, ((list.mem_iff other).mp member).2.1⟩
      set next := ({ pool with freeBlockQueue := queue } : BlockPool H).setBlock block
        { pool.blocks block with refCnt := (pool.blocks block).refCnt + 1 } with nextEq
      have counts : ∀ other, (next.blocks other).refCnt =
          (pool.blocks other).refCnt + if other = block then 1 else 0 := by
        intro other
        by_cases same : other = block
        · subst same
          simp [nextEq, setBlock]
        · simp [nextEq, setBlock, same]
      have nextList : FreeList next (free.filter (· ≠ block)) := by
        refine ⟨represents, fun other => ?_, fun other nonNull => ?_⟩
        · rw [List.mem_filter, list.mem_iff, counts]
          by_cases same : other = block
          · subst same
            simp only [decide_eq_true_eq, ne_eq, not_true, and_false, false_iff, not_and, if_true]
            intro _ nonNull
            have := list.nonneg other nonNull
            omega
          · simp [same, nextEq, setBlock]
        · rw [counts]
          have := list.nonneg other nonNull
          split <;> omega
      obtain ⟨pool', touched, final, hashes, finalCounts⟩ := ih nextList restValid
      refine ⟨pool', ?_, ?_, (SameHashes.setRefCnt pool block _ queue).trans hashes, ?_⟩
      · rw [touch, removed]
        exact touched
      · rw [List.filter_filter] at final
        simpa [Bool.and_comm] using final
      · intro other
        rw [finalCounts, counts, List.count_cons]
        by_cases same : other = block
        · subst same
          simp
          omega
        · have differ : block ≠ other := fun equal => same equal.symm
          simp [same, differ]

/-- The blocks that `releaseBlocks` collects are those whose last reference goes,
each once. -/
theorem releaseBlocks_spec (held : ∀ block, block ≠ nullBlock →
      (blocks.count block : Int) ≤ (pool.blocks block).refCnt) :
    let released := releaseBlocks blocks pool
    released.2.2.freeBlockQueue = pool.freeBlockQueue ∧ SameHashes pool released.2.2 ∧
      (∀ block, (released.2.2.blocks block).refCnt =
        (pool.blocks block).refCnt - blocks.count block) ∧
      (released.1 ++ released.2.1).Nodup ∧
      ∀ block, block ∈ released.1 ++ released.2.1 ↔
        block ∈ blocks ∧ block ≠ nullBlock ∧ (pool.blocks block).refCnt = blocks.count block := by
  induction blocks generalizing pool with
  | nil => exact ⟨rfl, .refl pool, by simp [releaseBlocks], by simp [releaseBlocks],
      by simp [releaseBlocks]⟩
  | cons block rest ih =>
      intro released
      set next := pool.setBlock block
        { pool.blocks block with refCnt := (pool.blocks block).refCnt - 1 } with nextEq
      have counts : ∀ other, (next.blocks other).refCnt =
          (pool.blocks other).refCnt - if block = other then 1 else 0 := by
        intro other
        by_cases same : block = other
        · subst same
          simp [nextEq, setBlock]
        · have differ : other ≠ block := fun equal => same equal.symm
          simp [nextEq, setBlock, same, differ]
      have countCons : ∀ other, ((block :: rest).count other : Int) =
          rest.count other + if block = other then 1 else 0 := by
        intro other
        by_cases same : block = other <;> simp [same]
      have restHeld : ∀ other, other ≠ nullBlock →
          (rest.count other : Int) ≤ (next.blocks other).refCnt := by
        intro other nonNull
        have := held other nonNull
        rw [countCons] at this
        rw [counts]
        omega
      obtain ⟨queueEq, hashes, finalCounts, nodup, memIff⟩ := ih restHeld
      have split : (released.1 ++ released.2.1).Perm
            (if (pool.blocks block).refCnt - 1 = 0 ∧ block ≠ nullBlock then
              block :: ((releaseBlocks rest next).1 ++ (releaseBlocks rest next).2.1)
            else (releaseBlocks rest next).1 ++ (releaseBlocks rest next).2.1) ∧
          released.2.2 = (releaseBlocks rest next).2.2 := by
        simp only [released, releaseBlocks]
        split
        · split
          · exact ⟨.refl _, rfl⟩
          · exact ⟨List.perm_middle, rfl⟩
        · exact ⟨.refl _, rfl⟩
      refine ⟨by rw [split.2, queueEq]; rfl, ?_, ?_, ?_, ?_⟩
      · rw [split.2]
        exact (SameHashes.setRefCnt pool block _ pool.freeBlockQueue).trans hashes
      · intro other
        rw [split.2, finalCounts, counts, countCons]
        omega
      · rw [split.1.nodup_iff]
        split
        · rename_i last
          refine List.nodup_cons.mpr ⟨fun member => ?_, nodup⟩
          have again := (memIff block).mp member
          have := held block last.2
          have positive : 0 < rest.count block := List.count_pos_iff.mpr again.1
          rw [countCons, if_pos rfl] at this
          omega
        · exact nodup
      · intro other
        have bound := held other
        rw [countCons] at bound
        rw [split.1.mem_iff, countCons]
        have memRest := memIff other
        rw [counts] at memRest
        by_cases same : block = other
        · subst same
          simp only [if_true] at *
          split
          · rename_i last
            simp only [List.mem_cons, true_or, true_iff, last.2, ne_eq, not_false_eq_true, true_and]
            have := bound last.2
            omega
          · rename_i keep
            rw [memRest]
            by_cases nonNull : block = nullBlock
            · simp [nonNull]
            · have nonzero : (pool.blocks block).refCnt - 1 ≠ 0 := fun zero => keep ⟨zero, nonNull⟩
              simp only [List.mem_cons, true_or, true_and, ne_eq, nonNull, not_false_eq_true]
              constructor
              · rintro ⟨-, equal⟩
                omega
              · intro equal
                have positive : 0 < rest.count block := by omega
                exact ⟨List.count_pos_iff.mp positive, by omega⟩
        · have differ : other ≠ block := fun equal => same equal.symm
          simp only [same, if_false, Int.sub_zero] at memRest
          split <;> simp [differ, memRest]

/-- `free_blocks` gives back one reference per listed occurrence, and the blocks whose last
reference goes are queued at the front or at the back. -/
theorem freeBlocks_list (list : FreeList pool free)
    (valid : ∀ block ∈ blocks, block < pool.numGpuBlocks) (held : ∀ block, block ≠ nullBlock →
      (blocks.count block : Int) ≤ (pool.blocks block).refCnt) :
    ∃ pool', pool.freeBlocks blocks = .ok pool' ∧
      FreeList pool' ((releaseBlocks blocks pool).1 ++ free ++ (releaseBlocks blocks pool).2.1) ∧
      SameHashes pool pool' ∧
      ∀ block, (pool'.blocks block).refCnt = (pool.blocks block).refCnt - blocks.count block := by
  obtain ⟨queueEq, hashes, counts, nodup, memIff⟩ := releaseBlocks_spec held
  set released := releaseBlocks blocks pool
  -- A released block had references, so it was not queued.
  have fresh : ∀ block ∈ released.1 ++ released.2.1, block ∉ free := by
    intro block member queued
    obtain ⟨listed, nonNull, equal⟩ := (memIff block).mp member
    have zero := ((list.mem_iff block).mp queued).2.2
    have positive : 0 < blocks.count block := List.count_pos_iff.mpr listed
    omega
  have whole : ((released.1 ++ free) ++ released.2.1).Nodup := by
    have shape : ((released.1 ++ free) ++ released.2.1).Perm
        ((released.1 ++ released.2.1) ++ free) := by
      rw [List.append_assoc, List.append_assoc]
      exact List.Perm.append_left _ List.perm_append_comm
    rw [shape.nodup_iff, List.nodup_append]
    refine ⟨nodup, list.nodup, ?_⟩
    rintro block member _ queued rfl
    exact fresh block member queued
  obtain ⟨queue, prepended, represents⟩ :=
    FreeKVCacheBlockQueue.prependN_spec (queueEq ▸ list.queue) (List.nodup_append.mp whole).1
  obtain ⟨final, appended, finalRepresents⟩ :=
    FreeKVCacheBlockQueue.appendN_spec represents whole
  refine ⟨{ released.2.2 with freeBlockQueue := final }, ?_, ⟨finalRepresents, ?_, ?_⟩,
    ⟨⟨hashes.numGpuBlocks, hashes.enableCaching, hashes.hashBlockSize,
      hashes.enableKvCacheEvents⟩, hashes.index, hashes.additional, hashes.blockHash,
      hashes.numTokens⟩, counts⟩
  · change (do
      let queue ← released.2.2.freeBlockQueue.prependN released.1
      let queue ← queue.appendN released.2.1
      pure { released.2.2 with freeBlockQueue := queue }) = _
    rw [prepended]
    change (queue.appendN released.2.1 >>= fun queue =>
      pure { released.2.2 with freeBlockQueue := queue }) = _
    rw [appended]
    rfl
  · intro block
    have collected := memIff block
    rw [List.mem_append] at collected
    simp only [List.mem_append, hashes.numGpuBlocks, counts, list.mem_iff]
    by_cases listed : block ∈ blocks
    · have positive : 0 < blocks.count block := List.count_pos_iff.mpr listed
      have bound := valid block listed
      by_cases nonNull : block = nullBlock
      · simp [nonNull] at collected ⊢
        tauto
      · have := held block nonNull
        constructor
        · intro membership
          have equal : (pool.blocks block).refCnt = blocks.count block := by
            by_contra differ
            have zero : (pool.blocks block).refCnt = 0 := by tauto
            omega
          exact ⟨bound, nonNull, by omega⟩
        · rintro ⟨-, -, zero⟩
          have := collected.mpr ⟨listed, nonNull, by omega⟩
          tauto
    · have zero : blocks.count block = 0 := List.count_eq_zero.mpr listed
      simp only [listed, false_and, iff_false, not_or] at collected
      simp [collected.1, collected.2, zero]
  · intro block nonNull
    have := held block nonNull
    rw [counts]
    omega

theorem freeBlocks_spec (list : FreeList pool free)
    (valid : ∀ block ∈ blocks, block < pool.numGpuBlocks) (held : ∀ block, block ≠ nullBlock →
      (blocks.count block : Int) ≤ (pool.blocks block).refCnt) :
    ∃ pool' free', pool.freeBlocks blocks = .ok pool' ∧ FreeList pool' free' ∧
      SameHashes pool pool' ∧
      ∀ block, (pool'.blocks block).refCnt = (pool.blocks block).refCnt - blocks.count block :=
  (freeBlocks_list list valid held).imp fun _ freed => ⟨_, freed⟩

variable [DecidableEq H] [BlockHashing H]

/-- Claiming popped blocks succeeds when none of them is referenced. -/
theorem claimBlocks_spec (nodup : blocks.Nodup)
    (idle : ∀ block ∈ blocks, (pool.blocks block).refCnt = 0) :
    ∃ pool', claimBlocks blocks pool = .ok pool' ∧ SameConfig pool pool' ∧
      pool'.freeBlockQueue = pool.freeBlockQueue ∧
      ∀ block, (pool'.blocks block).refCnt =
        (pool.blocks block).refCnt + if block ∈ blocks then 1 else 0 := by
  induction blocks generalizing pool with
  | nil => exact ⟨pool, rfl, .refl pool, rfl, by simp⟩
  | cons block rest ih =>
      obtain ⟨outside, restNodup⟩ := List.nodup_cons.mp nodup
      set evicted := if pool.enableCaching then (pool.maybeEvictCachedBlock block).2 else pool
        with evictedEq
      have frame : SameRefs pool evicted := by
        rw [evictedEq]
        split
        · exact maybeEvictCachedBlock_sameRefs pool block
        · exact .refl pool
      set next := evicted.setBlock block
        { evicted.blocks block with refCnt := (evicted.blocks block).refCnt + 1 } with nextEq
      have counts : ∀ other, (next.blocks other).refCnt =
          (pool.blocks other).refCnt + if other = block then 1 else 0 := by
        intro other
        rw [← frame.refCnt]
        by_cases same : other = block
        · subst same
          simp [nextEq, setBlock]
        · simp [nextEq, setBlock, same]
      have restIdle : ∀ other ∈ rest, (next.blocks other).refCnt = 0 := by
        intro other member
        have differ : other ≠ block := by
          rintro rfl
          exact outside member
        rw [counts, idle other (List.mem_cons_of_mem _ member), if_neg differ, Int.add_zero]
      obtain ⟨pool', claimed, config, queueEq, finalCounts⟩ := ih restNodup restIdle
      have sameConfig : SameConfig evicted next := ⟨rfl, rfl, rfl, rfl⟩
      refine ⟨pool', ?_, (frame.toSameConfig.trans sameConfig).trans config,
        queueEq.trans frame.freeBlockQueue, ?_⟩
      · have zero : (evicted.blocks block).refCnt = 0 := by
          rw [frame.refCnt]
          exact idle block (by simp)
        rw [claimBlocks]
        rw [← evictedEq, pyAssert, if_pos zero]
        exact claimed
      · intro other
        rw [finalCounts, counts]
        by_cases same : other = block
        · subst same
          simp [outside]
        · simp [same]

variable {numBlocks : Nat}

/-- `get_new_blocks` hands out the front of the free list. -/
theorem getNewBlocks_spec (list : FreeList pool free) (enough : numBlocks ≤ free.length) :
    ∃ pool', pool.getNewBlocks numBlocks = .ok (free.take numBlocks, pool') ∧
      FreeList pool' (free.drop numBlocks) ∧ SameConfig pool pool' ∧
      ∀ block, (pool'.blocks block).refCnt =
        (pool.blocks block).refCnt + if block ∈ free.take numBlocks then 1 else 0 := by
  obtain ⟨queue, popped, represents⟩ := FreeKVCacheBlockQueue.popleftN_spec list.queue enough
  have parts : (free.take numBlocks ++ free.drop numBlocks).Nodup := by
    rw [List.take_append_drop]
    exact list.nodup
  have idle : ∀ block ∈ free.take numBlocks,
      ((({ pool with freeBlockQueue := queue } : BlockPool H)).blocks block).refCnt = 0 :=
    fun block member => ((list.mem_iff block).mp (List.mem_of_mem_take member)).2.2
  obtain ⟨pool', claimed, config, queueEq, counts⟩ :=
    claimBlocks_spec (List.nodup_append.mp parts).1 idle
  have within : ¬ (numBlocks : Int) > pool.getNumFreeBlocks := by
    rw [list.getNumFreeBlocks_eq]
    omega
  refine ⟨pool', ?_, ⟨by rw [queueEq]; exact represents, ?_, ?_⟩,
    ⟨config.numGpuBlocks, config.enableCaching, config.hashBlockSize,
      config.enableKvCacheEvents⟩, counts⟩
  · rw [getNewBlocks, if_neg within, popped]
    change (claimBlocks _ _ >>= fun pool => pure (free.take numBlocks, pool)) = _
    rw [claimed]
    rfl
  · intro block
    have whole : block ∈ free ↔ block ∈ free.take numBlocks ∨ block ∈ free.drop numBlocks := by
      rw [← List.mem_append, List.take_append_drop]
    have apart : block ∈ free.take numBlocks → block ∉ free.drop numBlocks :=
      fun taken left => (List.nodup_append.mp parts).2.2 block taken block left rfl
    have known := list.mem_iff block
    rw [counts, config.numGpuBlocks]
    by_cases taken : block ∈ free.take numBlocks
    · have zero := (known.mp (whole.mpr (.inl taken))).2.2
      simp [taken, apart taken, zero]
    · rw [if_neg taken, Int.add_zero, ← known, whole]
      simp [taken]
  · intro block nonNull
    have := list.nonneg block nonNull
    rw [counts]
    change 0 ≤ (pool.blocks block).refCnt + _
    split <;> omega

/-- Whatever `get_new_blocks` returns, the configuration stays. -/
theorem claimBlocks_sameConfig (claimed : claimBlocks blocks pool = .ok pool') :
    SameConfig pool pool' := by
  induction blocks generalizing pool with
  | nil =>
      cases claimed
      exact .refl _
  | cons block rest ih =>
      obtain ⟨_, _, claimed⟩ := bind_eq_ok.mp claimed
      refine SameConfig.trans ?_ (ih claimed)
      split
      · have frame := (maybeEvictCachedBlock_sameRefs pool block).toSameConfig
        exact ⟨frame.numGpuBlocks, frame.enableCaching, frame.hashBlockSize,
          frame.enableKvCacheEvents⟩
      · exact ⟨rfl, rfl, rfl, rfl⟩

theorem getNewBlocks_sameConfig {ret : List BlockId}
    (got : pool.getNewBlocks numBlocks = .ok (ret, pool')) : SameConfig pool pool' := by
  unfold getNewBlocks at got
  split at got
  · contradiction
  obtain ⟨⟨popped, queue⟩, _, got⟩ := bind_eq_ok.mp got
  obtain ⟨claimed, claims, finished⟩ := bind_eq_ok.mp got
  cases finished
  have config := claimBlocks_sameConfig claims
  exact ⟨config.numGpuBlocks, config.enableCaching, config.hashBlockSize,
    config.enableKvCacheEvents⟩

/-- A larger request raises before anything changes. -/
theorem getNewBlocks_error (list : FreeList pool free) (short : free.length < numBlocks) :
    pool.getNewBlocks numBlocks = .error
      (.valueError ("Cannot get " ++ toString numBlocks ++ " free blocks from the pool")) := by
  have beyond : (numBlocks : Int) > pool.getNumFreeBlocks := by
    rw [list.getNumFreeBlocks_eq]
    omega
  rw [getNewBlocks, if_pos beyond]

/-- Blocks are handed out from the front of the free queue. -/
theorem taken_of_getNewBlocks {got : List BlockId} (list : FreeList pool free)
    (ran : pool.getNewBlocks numBlocks = .ok (got, pool')) :
    got = free.take numBlocks ∧ FreeList pool' (free.drop numBlocks) := by
  by_cases enough : numBlocks ≤ free.length
  · rcases getNewBlocks_spec list enough with ⟨_, gotEq, gotList, -⟩
    rw [gotEq] at ran
    cases ran
    exact ⟨rfl, gotList⟩
  · rw [getNewBlocks_error list (Nat.lt_of_not_le enough)] at ran
    cases ran

omit [DecidableEq H] [BlockHashing H] in
/-- The first block of the fresh queue is the null block; all the others are
on the free list. -/
theorem init_spec {numGpuBlocks : Nat} (positive : 0 < numGpuBlocks) (enableCaching : Bool)
    (hashBlockSize : Nat) (enableKvCacheEvents : Bool) :
    ∃ queue,
      (FreeKVCacheBlockQueue.init (List.range numGpuBlocks)).popleft = .ok (nullBlock, queue) ∧
      init (H := H) numGpuBlocks enableCaching hashBlockSize enableKvCacheEvents =
        .ok (fresh numGpuBlocks enableCaching hashBlockSize enableKvCacheEvents queue) ∧
      FreeList (H := H)
        (fresh numGpuBlocks enableCaching hashBlockSize enableKvCacheEvents queue)
        (List.range numGpuBlocks).tail := by
  obtain ⟨n, rfl⟩ := Nat.exists_eq_succ_of_ne_zero positive.ne'
  have whole := FreeKVCacheBlockQueue.init_represents (List.nodup_range (n := n + 1))
  rw [List.range_succ_eq_map] at whole ⊢
  obtain ⟨queue, popped, represents⟩ := FreeKVCacheBlockQueue.popleft_spec whole
  refine ⟨queue, popped, ?_, represents, fun block => ?_, fun _ _ => by simp [fresh]⟩
  · rw [init, List.range_succ_eq_map, popped, pyAssert, if_pos positive]
    rfl
  · simp only [List.tail_cons, List.mem_map, List.mem_range, nullBlock, fresh]
    constructor
    · rintro ⟨index, bound, rfl⟩
      exact ⟨Nat.succ_lt_succ bound, Nat.succ_ne_zero index, trivial⟩
    · rintro ⟨bound, nonNull, -⟩
      exact ⟨block - 1, Nat.sub_one_lt_of_le (Nat.pos_of_ne_zero nonNull) (Nat.lt_succ_iff.mp bound),
        Nat.succ_pred_eq_of_pos (Nat.pos_of_ne_zero nonNull)⟩

end References

/-! ## Consistent pools -/

/-- What the managers rely on: the free list is right, and only blocks of the
pool carry references. -/
structure Consistent (pool : BlockPool H) : Prop where
  positive : 0 < pool.numGpuBlocks
  free : ∃ free, FreeList pool free
  valid : ∀ block, block ≠ nullBlock → (pool.blocks block).refCnt ≠ 0 →
    block < pool.numGpuBlocks

/-- The pool that takes one more reference to each listed occurrence. -/
structure Referenced (pool pool' : BlockPool H) (blocks : List BlockId) : Prop
    extends SameConfig pool pool' where
  consistent : Consistent pool'
  refCnt : ∀ block, (pool'.blocks block).refCnt =
    (pool.blocks block).refCnt + blocks.count block

namespace Consistent

variable {pool pool' : BlockPool H}

theorem nonneg (consistent : Consistent pool) {block : BlockId} (nonNull : block ≠ nullBlock) :
    0 ≤ (pool.blocks block).refCnt := by
  rcases consistent.free with ⟨free, list⟩
  exact list.nonneg block nonNull

theorem sameRefs (consistent : Consistent pool) (same : SameRefs pool pool') :
    Consistent pool' where
  positive := same.numGpuBlocks ▸ consistent.positive
  free := consistent.free.imp fun _ list => list.sameRefs same
  valid block nonNull referenced := by
    rw [same.refCnt] at referenced
    rw [same.numGpuBlocks]
    exact consistent.valid block nonNull referenced

theorem getNumFreeBlocks_bounds (consistent : Consistent pool) :
    0 ≤ pool.getNumFreeBlocks ∧ pool.getNumFreeBlocks < pool.numGpuBlocks := by
  rcases consistent.free with ⟨free, list⟩
  have := list.length_lt consistent.positive
  rw [list.getNumFreeBlocks_eq]
  omega

/-- If every free block stays free or is listed in `lost`, the free list shrinks
by at most `lost.length`. -/
theorem getNumFreeBlocks_le (consistent : Consistent pool) (after : Consistent pool')
    (config : SameConfig pool pool') {lost : List BlockId}
    (kept : ∀ block, block ≠ nullBlock → (pool.blocks block).refCnt = 0 →
      (pool'.blocks block).refCnt = 0 ∨ block ∈ lost) :
    pool.getNumFreeBlocks ≤ pool'.getNumFreeBlocks + lost.length := by
  rcases consistent.free with ⟨free, list⟩
  rcases after.free with ⟨free', list'⟩
  have covered : free ⊆ free' ++ lost := by
    intro block member
    rcases (list.mem_iff block).mp member with ⟨bound, nonNull, idle⟩
    rcases kept block nonNull idle with still | listed
    · apply List.mem_append_left
      exact (list'.mem_iff block).mpr ⟨config.numGpuBlocks ▸ bound, nonNull, still⟩
    · exact List.mem_append_right _ listed
  have lengths := (List.subperm_of_subset list.nodup covered).length_le
  rw [list.getNumFreeBlocks_eq, list'.getNumFreeBlocks_eq]
  rw [List.length_append] at lengths
  exact_mod_cast lengths

variable {blocks : List BlockId}

/-- Touching blocks of the pool. -/
theorem touch (consistent : Consistent pool) (valid : ∀ block ∈ blocks, block < pool.numGpuBlocks)
    (touched : BlockPool.touch blocks pool = .ok pool') : Referenced pool pool' blocks := by
  rcases consistent.free with ⟨free, list⟩
  rcases touch_spec list valid with ⟨result, equal, list', hashes, counts⟩
  cases touched.symm.trans equal
  refine ⟨hashes.toSameConfig, ⟨hashes.numGpuBlocks ▸ consistent.positive, ⟨_, list'⟩, ?_⟩, counts⟩
  intro block nonNull referenced
  rw [hashes.numGpuBlocks]
  rw [counts] at referenced
  by_cases listed : block ∈ blocks
  · exact valid block listed
  · rw [List.count_eq_zero.mpr listed, Int.natCast_zero, Int.add_zero] at referenced
    exact consistent.valid block nonNull referenced

/-- Adding a reference to a block that already has one, or to the null block. -/
theorem addReference (consistent : Consistent pool) {block : BlockId}
    (referenced : block ≠ nullBlock → 0 < (pool.blocks block).refCnt) :
    Referenced pool
      (pool.setBlock block { pool.blocks block with refCnt := (pool.blocks block).refCnt + 1 })
      [block] := by
  rcases consistent.free with ⟨free, list⟩
  have counts : ∀ other, ((pool.setBlock block
      { pool.blocks block with refCnt := (pool.blocks block).refCnt + 1 }).blocks other).refCnt =
        (pool.blocks other).refCnt + [block].count other := by
    intro other
    by_cases same : other = block
    · subst same
      simp [setBlock]
    · simp [setBlock, same, Ne.symm same]
  refine ⟨⟨rfl, rfl, rfl, rfl⟩, ⟨consistent.positive, ⟨free, list.queue, ?_, ?_⟩, ?_⟩, counts⟩
  · intro other
    rw [counts, list.mem_iff]
    by_cases same : other = block
    · subst same
      constructor
      · rintro ⟨_, nonNull, zero⟩
        have := referenced nonNull
        omega
      · rintro ⟨_, nonNull, zero⟩
        have := referenced nonNull
        omega
    · rw [List.count_eq_zero.mpr (by simpa using same), Int.natCast_zero, Int.add_zero]
      rfl
  · intro other otherNonNull
    rw [counts]
    have := list.nonneg other otherNonNull
    omega
  · intro other otherNonNull counted
    by_cases same : other = block
    · subst same
      have := referenced otherNonNull
      exact consistent.valid other otherNonNull (by omega)
    · rw [counts, List.count_eq_zero.mpr (by simpa using same), Int.natCast_zero,
        Int.add_zero] at counted
      exact consistent.valid other otherNonNull counted

/-- Freeing held references. -/
theorem freeBlocks (consistent : Consistent pool)
    (held : ∀ block, block ≠ nullBlock → (blocks.count block : Int) ≤ (pool.blocks block).refCnt)
    (freed : pool.freeBlocks blocks = .ok pool') :
    Consistent pool' ∧ SameHashes pool pool' ∧
      ∀ block, (pool'.blocks block).refCnt = (pool.blocks block).refCnt - blocks.count block := by
  rcases consistent.free with ⟨free, list⟩
  have valid : ∀ block ∈ blocks, block < pool.numGpuBlocks := by
    intro block member
    by_cases null : block = nullBlock
    · rw [null]
      exact consistent.positive
    · have positive := List.count_pos_iff.mpr member
      have := held block null
      exact consistent.valid block null (by omega)
  rcases freeBlocks_spec list valid held with ⟨result, free', equal, list', hashes, counts⟩
  cases freed.symm.trans equal
  refine ⟨⟨hashes.numGpuBlocks ▸ consistent.positive, ⟨free', list'⟩, ?_⟩, hashes, counts⟩
  intro block nonNull referenced
  rw [hashes.numGpuBlocks]
  rw [counts] at referenced
  have := held block nonNull
  exact consistent.valid block nonNull (by omega)

variable [DecidableEq H] [BlockHashing H]

/-- Blocks taken from the free list: they were idle, and carry one reference
now. -/
theorem getNewBlocks (consistent : Consistent pool) {numBlocks : Nat} {ret : List BlockId}
    (got : pool.getNewBlocks numBlocks = .ok (ret, pool')) :
    Referenced pool pool' ret ∧ ret.length = numBlocks ∧ ret.Nodup ∧
      ∀ block ∈ ret, block ≠ nullBlock ∧ block < pool.numGpuBlocks ∧
        (pool.blocks block).refCnt = 0 := by
  rcases consistent.free with ⟨free, list⟩
  have enough : numBlocks ≤ free.length := by
    by_contra short
    rw [getNewBlocks_error list (Nat.not_le.mp short)] at got
    contradiction
  rcases getNewBlocks_spec list enough with ⟨result, equal, list', config, counts⟩
  cases got.symm.trans equal
  have nodup : (free.take numBlocks).Nodup := list.nodup.sublist (List.take_sublist _ _)
  have idle : ∀ block ∈ free.take numBlocks, block ≠ nullBlock ∧ block < pool.numGpuBlocks ∧
      (pool.blocks block).refCnt = 0 := by
    intro block member
    rcases (list.mem_iff block).mp (List.mem_of_mem_take member) with ⟨bound, nonNull, zero⟩
    exact ⟨nonNull, bound, zero⟩
  refine ⟨⟨config, ⟨config.numGpuBlocks ▸ consistent.positive, ⟨_, list'⟩, ?_⟩, ?_⟩,
    List.length_take_of_le enough, nodup, idle⟩
  · intro block nonNull referenced
    rw [config.numGpuBlocks]
    rw [counts] at referenced
    by_cases taken : block ∈ free.take numBlocks
    · exact (idle block taken).2.1
    · rw [if_neg taken, Int.add_zero] at referenced
      exact consistent.valid block nonNull referenced
  · intro block
    rw [counts, nodup.count]
    split <;> rfl

end Consistent

end Vllm.Core.BlockPool
