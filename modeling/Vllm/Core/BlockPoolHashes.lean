import Vllm.Core.BlockPoolRefs

/-!
# The hash index

`HashIndex` says that the index and the keys stored with the blocks agree, and
that the null block has no key.  Each operation is specified by how it changes
`Keyed`, the relation between keys and the blocks cached under them.
-/

namespace Vllm.Core.BlockPool

open Vllm.Library

variable {H : Type} [DecidableEq H]

/-- `block` is reachable in the index under `key`. -/
def Keyed (pool : BlockPool H) (key : BlockHashWithGroupId H) (block : BlockId) : Prop :=
  pool.cachedBlockHashToBlock.contain key block = true

/-- The index agrees with the keys of the blocks. -/
structure HashIndex (pool : BlockPool H) : Prop where
  keyed_iff : ∀ key block, pool.Keyed key block ↔
    (pool.blocks block).blockHash = some key ∨
      key ∈ pool.cachedBlockHashesByBlock.getD block []
  null_unkeyed : ∀ key, ¬ pool.Keyed key nullBlock
  numTokens_none : ∀ block, (pool.blocks block).blockHash = none →
    (pool.blocks block).blockHashNumTokens = none

namespace HashIndex

variable {pool : BlockPool H} {block : BlockId}

theorem mem_blockKeys (index : HashIndex pool) {key : BlockHashWithGroupId H} :
    key ∈ pool.blockKeys block ↔ pool.Keyed key block := by
  rw [index.keyed_iff, blockKeys, List.mem_append, Option.mem_toList]

/-- A block without keys carries no hash. -/
theorem blockHash_eq_none (index : HashIndex pool) (unkeyed : ∀ key, ¬ pool.Keyed key block) :
    (pool.blocks block).blockHash = none := by
  cases hash : (pool.blocks block).blockHash with
  | none => rfl
  | some key => exact absurd ((index.keyed_iff key block).mpr (.inl hash)) (unkeyed key)

end HashIndex

variable {pool pool' : BlockPool H} {blocks : List BlockId} {key : BlockHashWithGroupId H}
  {block : BlockId} {numTokens : Option Nat}

theorem SameHashes.keyed_iff (same : SameHashes pool pool') (key : BlockHashWithGroupId H)
    (block : BlockId) : pool'.Keyed key block ↔ pool.Keyed key block := by
  rw [Keyed, Keyed, same.index]

section

omit [DecidableEq H]

theorem touch_sameHashes (touched : touch blocks pool = .ok pool') : SameHashes pool pool' := by
  induction blocks generalizing pool with
  | nil =>
      cases touched
      exact .refl _
  | cons block rest ih =>
      obtain ⟨queue, _, touched⟩ := bind_eq_ok.mp touched
      exact (SameHashes.setRefCnt pool block _ queue).trans (ih touched)

theorem releaseBlocks_sameHashes (blocks : List BlockId) (pool : BlockPool H) :
    SameHashes pool (releaseBlocks blocks pool).2.2 := by
  induction blocks generalizing pool with
  | nil => exact .refl pool
  | cons block rest ih =>
      have step := (SameHashes.setRefCnt pool block ((pool.blocks block).refCnt - 1)
        pool.freeBlockQueue).trans (ih _)
      rw [releaseBlocks]
      dsimp only
      split
      · split <;> exact step
      · exact step

theorem freeBlocks_sameHashes (freed : pool.freeBlocks blocks = .ok pool') :
    SameHashes pool pool' := by
  have released := releaseBlocks_sameHashes blocks pool
  obtain ⟨first, _, freed⟩ := bind_eq_ok.mp freed
  obtain ⟨queue, _, freed⟩ := bind_eq_ok.mp freed
  cases freed
  exact released.trans ⟨⟨rfl, rfl, rfl, rfl⟩, rfl, rfl, fun _ => rfl, fun _ => rfl⟩

end

/-- Reference operations keep the index. -/
theorem HashIndex.sameHashes (index : HashIndex pool) (same : SameHashes pool pool') :
    HashIndex pool' where
  keyed_iff key block := by
    rw [same.keyed_iff, same.blockHash, same.additional]
    exact index.keyed_iff key block
  null_unkeyed key := by
    rw [same.keyed_iff]
    exact index.null_unkeyed key
  numTokens_none block unhashed := by
    rw [same.blockHash] at unhashed
    rw [same.numTokens]
    exact index.numTokens_none block unhashed

/-- The index is consistent, and empty when caching is off. -/
structure Indexed (pool : BlockPool H) : Prop where
  index : HashIndex pool
  disabled : pool.enableCaching = false → ∀ key block, ¬ pool.Keyed key block

theorem Indexed.sameHashes (indexed : Indexed pool) (same : SameHashes pool pool') :
    Indexed pool' where
  index := indexed.index.sameHashes same
  disabled off key block := by
    rw [same.keyed_iff]
    exact indexed.disabled (same.enableCaching.symm.trans off) key block

theorem fresh_hashIndex (numGpuBlocks : Nat) (enableCaching : Bool) (hashBlockSize : Nat)
    (enableKvCacheEvents : Bool) (queue : FreeKVCacheBlockQueue) :
    HashIndex (H := H)
      (fresh numGpuBlocks enableCaching hashBlockSize enableKvCacheEvents queue) where
  keyed_iff key block := by simp [Keyed, fresh]
  null_unkeyed key := by simp [Keyed, fresh]
  numTokens_none _ _ := rfl

/-! ## Removing and inserting keys -/

theorem popBlockHashes_contain (block : BlockId) (keys : List (BlockHashWithGroupId H))
    (map : BlockHashToBlockMap H) (key : BlockHashWithGroupId H) (target : BlockId) :
    (popBlockHashes block keys map).2.contain key target = true ↔
      map.contain key target = true ∧ ¬ (key ∈ keys ∧ block = target) := by
  induction keys generalizing map with
  | nil => simp [popBlockHashes]
  | cons first rest ih =>
      rw [popBlockHashes]
      rw [ih, BlockHashToBlockMap.contain_pop, List.mem_cons]
      constructor
      · rintro ⟨⟨present, notFirst⟩, notRest⟩
        refine ⟨present, ?_⟩
        rintro ⟨rfl | member, same⟩
        · exact notFirst ⟨rfl, same⟩
        · exact notRest ⟨member, same⟩
      · rintro ⟨present, outside⟩
        refine ⟨⟨present, ?_⟩, fun both => outside ⟨.inr both.1, both.2⟩⟩
        rintro ⟨rfl, same⟩
        exact outside ⟨.inl rfl, same⟩

theorem mem_popBlockHashes (block : BlockId) (keys : List (BlockHashWithGroupId H))
    (map : BlockHashToBlockMap H) (key : BlockHashWithGroupId H) :
    key ∈ (popBlockHashes block keys map).1 ↔ key ∈ keys ∧ map.contain key block = true := by
  induction keys generalizing map with
  | nil => simp [popBlockHashes]
  | cons first rest ih =>
      rw [popBlockHashes]
      have others := ih (map.pop first block).2
      rw [BlockHashToBlockMap.contain_pop] at others
      rw [BlockHashToBlockMap.pop_fst, List.mem_cons]
      by_cases present : map.contain first block = true
      · rw [if_pos present, Option.isSome_some, if_pos rfl, List.mem_cons, others]
        by_cases same : key = first
        · subst same
          simp [present]
        · have differ : first ≠ key := fun equal => same equal.symm
          simp [same, differ]
      · rw [if_neg present]
        simp only [Option.isSome_none, Bool.false_eq_true, if_false]
        rw [others]
        by_cases same : key = first
        · subst same
          simp [present]
        · have differ : first ≠ key := fun equal => same equal.symm
          simp [same, differ]

/-- `_remove_cached_block_hashes` drops every key of the block and returns them. -/
structure Removed (pool : BlockPool H) (block : BlockId)
    (removed : List (BlockHashWithGroupId H)) (pool' : BlockPool H) : Prop where
  index : HashIndex pool'
  keyed_iff : ∀ key target, pool'.Keyed key target ↔ pool.Keyed key target ∧ target ≠ block
  mem_removed : ∀ key, key ∈ removed ↔ pool.Keyed key block
  unhashed : (pool'.blocks block).blockHash = none
  frame : ∀ target, target ≠ block → pool'.blocks target = pool.blocks target

theorem removeCachedBlockHashes_spec (index : HashIndex pool) (block : BlockId) :
    Removed pool block (pool.removeCachedBlockHashes block).1
      (pool.removeCachedBlockHashes block).2 := by
  unfold removeCachedBlockHashes
  dsimp only
  split
  · -- No key at all: only an absent entry of the additional keys is erased.
    rename_i noKeys
    have unkeyed : ∀ key, ¬ pool.Keyed key block := by
      intro key keyed
      rw [← index.mem_blockKeys, List.isEmpty_iff.mp noKeys] at keyed
      exact absurd keyed (by simp)
    have keyed_iff : ∀ key target, pool.Keyed key target ↔
        pool.Keyed key target ∧ target ≠ block := by
      intro key target
      refine ⟨fun keyed => ⟨keyed, ?_⟩, fun both => both.1⟩
      rintro rfl
      exact unkeyed key keyed
    refine ⟨⟨fun key target => ?_, index.null_unkeyed, index.numTokens_none⟩, keyed_iff,
      fun key => by simp [unkeyed key], index.blockHash_eq_none unkeyed, fun _ _ => rfl⟩
    refine (index.keyed_iff key target).trans ?_
    by_cases same : block = target
    · subst same
      have known := (index.keyed_iff key block).not.mp (unkeyed key)
      simp only [not_or] at known
      simp [known.1, known.2]
    · simp [Dict.getD_erase_of_ne _ _ same]
  · set popped := popBlockHashes block (pool.blockKeys block) pool.cachedBlockHashToBlock
    have keyed_iff : ∀ key target, popped.2.contain key target = true ↔
        pool.Keyed key target ∧ target ≠ block := by
      intro key target
      rw [popBlockHashes_contain, index.mem_blockKeys]
      refine and_congr_right fun keyed => ?_
      constructor
      · rintro outside rfl
        exact outside ⟨keyed, rfl⟩
      · rintro differ ⟨-, same⟩
        exact differ same.symm
    refine ⟨⟨fun key target => ?_, fun key => ?_, fun target => ?_⟩, keyed_iff, fun key => ?_,
      ?_, fun target differ => ?_⟩
    · refine (keyed_iff key target).trans ?_
      by_cases same : target = block
      · subst same
        simp [setBlock, KVCacheBlock.resetHash]
      · have differ : block ≠ target := fun equal => same equal.symm
        rw [index.keyed_iff]
        simp [setBlock, same, Dict.getD_erase_of_ne _ _ differ]
    · exact fun keyed => index.null_unkeyed key ((keyed_iff key nullBlock).mp keyed).1
    · by_cases same : target = block
      · subst same
        simp [setBlock, KVCacheBlock.resetHash]
      · simpa [setBlock, same] using index.numTokens_none target
    · rw [mem_popBlockHashes, index.mem_blockKeys]
      exact and_self_iff
    · simp [setBlock, KVCacheBlock.resetHash]
    · simp [setBlock, differ]

/-- The effect of registering `key` for `block`. -/
structure Inserted (pool : BlockPool H) (key : BlockHashWithGroupId H) (block : BlockId)
    (pool' : BlockPool H) : Prop where
  index : HashIndex pool'
  keyed_iff : ∀ other target, pool'.Keyed other target ↔
    pool.Keyed other target ∨ (other = key ∧ target = block)
  frame : ∀ target, target ≠ block → pool'.blocks target = pool.blocks target

/-- A recorded key shows up among the keys of its block and nowhere else. -/
theorem recordBlockHash_spec (recorded : pool.recordBlockHash key block numTokens = .ok pool') :
    pool'.cachedBlockHashToBlock = pool.cachedBlockHashToBlock ∧
      (∀ target, target ≠ block → pool'.blocks target = pool.blocks target) ∧
      ((pool'.blocks block).blockHash ≠ none) ∧
      ∀ other target, ((pool'.blocks target).blockHash = some other ∨
          other ∈ pool'.cachedBlockHashesByBlock.getD target []) ↔
        ((pool.blocks target).blockHash = some other ∨
          other ∈ pool.cachedBlockHashesByBlock.getD target []) ∨
          (other = key ∧ target = block) := by
  unfold recordBlockHash at recorded
  split at recorded
  · rename_i unhashed
    obtain ⟨record, written, stored⟩ := bind_eq_ok.mp recorded
    cases stored
    obtain ⟨_, _, hashed⟩ := bind_eq_ok.mp written
    cases hashed
    refine ⟨rfl, fun target differ => by simp [setBlock, differ], by simp [setBlock],
      fun other target => ?_⟩
    rw [Option.isNone_iff_eq_none] at unhashed
    by_cases same : target = block
    · subst same
      simp only [setBlock, Function.update_self, unhashed, and_true, Option.some.injEq,
        reduceCtorEq, false_or]
      tauto
    · simp [setBlock, same]
  · rename_i hashed
    cases recorded
    rw [Option.isNone_iff_eq_none] at hashed
    refine ⟨rfl, fun _ _ => rfl, hashed, fun other target => ?_⟩
    by_cases same : target = block
    · subst same
      simp only [Dict.getD_insert_self, and_true]
      by_cases known : key ∈ pool.cachedBlockHashesByBlock.getD target []
      · rw [if_pos known]
        constructor
        · exact fun old => .inl old
        · rintro (old | rfl)
          · exact old
          · exact .inr known
      · rw [if_neg known, List.mem_append, List.mem_singleton]
        tauto
    · have differ : block ≠ target := fun equal => same equal.symm
      simp [Dict.getD_insert_of_ne _ _ _ differ, same]

theorem insertBlockHash_spec (index : HashIndex pool) (nonNull : block ≠ nullBlock)
    (inserted : pool.insertBlockHash key block numTokens = .ok pool') :
    Inserted pool key block pool' := by
  -- In the two early returns the key is already there.
  have present : pool.Keyed key block → Inserted pool key block pool := by
    intro keyed
    refine ⟨index, fun other target => ⟨.inl, ?_⟩, fun _ _ => rfl⟩
    rintro (old | ⟨rfl, rfl⟩)
    · exact old
    · exact keyed
  unfold insertBlockHash at inserted
  split at inserted
  · rename_i primary
    cases inserted
    exact present ((index.keyed_iff key block).mpr (.inl primary))
  split at inserted
  · rename_i contained
    cases inserted
    exact present contained
  obtain ⟨middle, recorded, finished⟩ := bind_eq_ok.mp inserted
  cases finished
  obtain ⟨sameIndex, frame, hashed, keys⟩ := recordBlockHash_spec recorded
  have keyed_iff : ∀ other target,
      (middle.cachedBlockHashToBlock.insert key block).contain other target = true ↔
        pool.Keyed other target ∨ (other = key ∧ target = block) := by
    intro other target
    rw [sameIndex, BlockHashToBlockMap.contain_insert, Keyed, or_comm, eq_comm (a := key),
      eq_comm (a := block)]
  refine ⟨⟨fun other target => ?_, fun other => ?_, fun target unhashed => ?_⟩, keyed_iff, frame⟩
  · refine (keyed_iff other target).trans ?_
    rw [index.keyed_iff]
    exact (keys other target).symm
  · intro keyed
    rcases (keyed_iff other nullBlock).mp keyed with old | ⟨-, null⟩
    · exact index.null_unkeyed other old
    · exact nonNull null.symm
  · by_cases same : target = block
    · subst same
      exact absurd unhashed hashed
    · simp only [frame target same] at unhashed ⊢
      exact index.numTokens_none target unhashed

theorem insertBlockHashes_spec (nonNull : block ≠ nullBlock) {keys : List (BlockHashWithGroupId H)}
    (index : HashIndex pool) (inserted : insertBlockHashes block numTokens keys pool = .ok pool') :
    HashIndex pool' ∧
      (∀ key target, pool'.Keyed key target ↔
        pool.Keyed key target ∨ (key ∈ keys ∧ target = block)) ∧
      ∀ target, target ≠ block → pool'.blocks target = pool.blocks target := by
  induction keys generalizing pool with
  | nil =>
      cases inserted
      exact ⟨index, by simp, fun _ _ => rfl⟩
  | cons key rest ih =>
      obtain ⟨middle, first, others⟩ := bind_eq_ok.mp inserted
      have step := insertBlockHash_spec index nonNull first
      obtain ⟨final, keyed_iff, frame⟩ := ih step.index others
      refine ⟨final, fun other target => ?_, fun target differ => ?_⟩
      · rw [keyed_iff, step.keyed_iff, List.mem_cons]
        tauto
      · rw [frame target differ, step.frame target differ]

/-- `move_block_hashes` re-points the keys of the source to the destination. -/
theorem moveBlockHashes_spec (index : HashIndex pool) {srcBlock dstBlock : BlockId}
    (nonNull : dstBlock ≠ nullBlock) (moved : pool.moveBlockHashes srcBlock dstBlock = .ok pool') :
    HashIndex pool' ∧
      (∀ key target, pool'.Keyed key target ↔
        (pool.Keyed key target ∧ target ≠ srcBlock) ∨
          (pool.Keyed key srcBlock ∧ target = dstBlock)) ∧
      ∀ target, target ≠ srcBlock → target ≠ dstBlock →
        pool'.blocks target = pool.blocks target := by
  obtain ⟨_, _, moved⟩ := bind_eq_ok.mp moved
  obtain ⟨_, _, moved⟩ := bind_eq_ok.mp moved
  have removed := removeCachedBlockHashes_spec index srcBlock
  obtain ⟨final, keyed_iff, frame⟩ := insertBlockHashes_spec nonNull removed.index moved
  refine ⟨final, fun key target => ?_, fun target notSrc notDst => ?_⟩
  · rw [keyed_iff, removed.keyed_iff, removed.mem_removed]
  · rw [frame target notDst, removed.frame target notSrc]

/-! ## Cached pairs -/

/-- The effect of caching some blocks: keys appear only for the listed pairs, and
blocks that are not listed keep theirs. -/
structure CachedPairs (pool : BlockPool H) (pairs : List (BlockId × BlockHashWithGroupId H))
    (pool' : BlockPool H) : Prop where
  index : HashIndex pool'
  keyed_of : ∀ key target, pool'.Keyed key target →
    pool.Keyed key target ∨ (target, key) ∈ pairs
  keyed_frame : ∀ key target, (∀ pair ∈ pairs, pair.1 ≠ target) →
    (pool'.Keyed key target ↔ pool.Keyed key target)
  frame : ∀ target, (∀ pair ∈ pairs, pair.1 ≠ target) →
    pool'.blocks target = pool.blocks target

theorem CachedPairs.refl (index : HashIndex pool) : CachedPairs pool [] pool :=
  ⟨index, fun _ _ => .inl, fun _ _ _ => Iff.rfl, fun _ _ => rfl⟩

theorem CachedPairs.trans {first second third : BlockPool H}
    {left right : List (BlockId × BlockHashWithGroupId H)}
    (before : CachedPairs first left second) (after : CachedPairs second right third) :
    CachedPairs first (left ++ right) third where
  index := after.index
  keyed_of key target keyed := by
    rw [List.mem_append]
    rcases after.keyed_of key target keyed with old | new
    · exact (before.keyed_of key target old).imp_right .inl
    · exact .inr (.inr new)
  keyed_frame key target outside := by
    rw [List.forall_mem_append] at outside
    exact (after.keyed_frame key target outside.2).trans
      (before.keyed_frame key target outside.1)
  frame target outside := by
    rw [List.forall_mem_append] at outside
    rw [after.frame target outside.2, before.frame target outside.1]

theorem CachedPairs.sameHashes {pool'' : BlockPool H}
    {pairs : List (BlockId × BlockHashWithGroupId H)} (step : CachedPairs pool pairs pool')
    (same : SameHashes pool' pool'') (blocksEq : pool''.blocks = pool'.blocks) :
    CachedPairs pool pairs pool'' where
  index := step.index.sameHashes same
  keyed_of key target keyed := step.keyed_of key target ((same.keyed_iff key target).mp keyed)
  keyed_frame key target outside :=
    (same.keyed_iff key target).trans (step.keyed_frame key target outside)
  frame target outside := by rw [blocksEq, step.frame target outside]

/-- Registering a key after possibly dropping the old keys of the block. -/
private theorem cachedPair_of_inserted {middle : BlockPool H}
    (dropped : middle = pool ∨ ∃ removed, Removed pool block removed middle)
    (step : Inserted middle key block pool') : CachedPairs pool [(block, key)] pool' where
  index := step.index
  keyed_of other target keyed := by
    rcases (step.keyed_iff other target).mp keyed with old | ⟨rfl, rfl⟩
    · rcases dropped with rfl | ⟨removed, removal⟩
      · exact .inl old
      · exact .inl ((removal.keyed_iff other target).mp old).1
    · exact .inr (by simp)
  keyed_frame other target outside := by
    have differ : target ≠ block := fun same => outside (block, key) (by simp) same.symm
    rw [step.keyed_iff]
    rcases dropped with rfl | ⟨removed, removal⟩
    · simp [differ]
    · simp [differ, removal.keyed_iff]
  frame target outside := by
    have differ : target ≠ block := fun same => outside (block, key) (by simp) same.symm
    rw [step.frame target differ]
    rcases dropped with rfl | ⟨removed, removal⟩
    · rfl
    · exact removal.frame target differ

/-- The blocks that the loop caches, with their keys. -/
def fullBlockPairs (newBlockHashes : List H) (groupId : Nat) (blockMask : Option (List Bool)) :
    List BlockId → Nat → List (BlockId × BlockHashWithGroupId H)
  | [], _ => []
  | block :: rest, i =>
      if block = nullBlock ∨ maskedOut blockMask i then
        fullBlockPairs newBlockHashes groupId blockMask rest (i + 1)
      else
        match newBlockHashes[i]? with
        | none => []
        | some blockHash =>
            (block, makeBlockHashWithGroupId blockHash groupId) ::
              fullBlockPairs newBlockHashes groupId blockMask rest (i + 1)

omit [DecidableEq H] in
/-- A pair of the loop comes from a non-null block and the hash at its index. -/
theorem mem_fullBlockPairs {newBlockHashes : List H} {groupId : Nat}
    {blockMask : Option (List Bool)} {i : Nat}
    (member : (block, key) ∈ fullBlockPairs newBlockHashes groupId blockMask blocks i) :
    block ≠ nullBlock ∧ ∃ offset hash, blocks[offset]? = some block ∧
      newBlockHashes[i + offset]? = some hash ∧ key = makeBlockHashWithGroupId hash groupId := by
  induction blocks generalizing i with
  | nil => simp [fullBlockPairs] at member
  | cons first rest ih =>
      rw [fullBlockPairs] at member
      have fromRest : (block, key) ∈ fullBlockPairs newBlockHashes groupId blockMask rest (i + 1) →
          block ≠ nullBlock ∧ ∃ offset hash, (first :: rest)[offset]? = some block ∧
            newBlockHashes[i + offset]? = some hash ∧
            key = makeBlockHashWithGroupId hash groupId := by
        intro inRest
        obtain ⟨nonNull, offset, hash, at_, hashAt, keyEq⟩ := ih inRest
        exact ⟨nonNull, offset + 1, hash, by simpa using at_,
          by rw [← hashAt]; congr 1; omega, keyEq⟩
      split at member
      · exact fromRest member
      · rename_i kept
        rw [not_or] at kept
        split at member
        · simp at member
        · rename_i hash found
          rcases List.mem_cons.mp member with same | inRest
          · cases same
            exact ⟨kept.1, 0, hash, rfl, found, rfl⟩
          · exact fromRest inRest

/-! ## Events leave hashes alone -/

section Events

variable [BlockHashing H]

omit [DecidableEq H] in
theorem emitBlockRemovedEvents_sameHashes (pool : BlockPool H)
    (keys : List (BlockHashWithGroupId H)) :
    SameHashes pool (pool.emitBlockRemovedEvents keys) := by
  unfold emitBlockRemovedEvents
  split
  · exact ⟨⟨rfl, rfl, rfl, rfl⟩, rfl, rfl, fun _ => rfl, fun _ => rfl⟩
  · exact .refl pool

omit [DecidableEq H] in
theorem emitBlockRemovedEvents_blocks (pool : BlockPool H) (keys : List (BlockHashWithGroupId H)) :
    (pool.emitBlockRemovedEvents keys).blocks = pool.blocks := by
  unfold emitBlockRemovedEvents
  split <;> rfl

variable {pool pool' : BlockPool H} {request : Request H} {blocks : List BlockId}
  {numCachedBlocks numFullBlocks blockSize groupId numTokens : Nat} {blockMask : Option (List Bool)}

/-- Removing the keys of a block and announcing it is still a removal. -/
theorem Removed.emit {removed : List (BlockHashWithGroupId H)}
    (step : Removed pool block removed pool') (keys : List (BlockHashWithGroupId H)) :
    Removed pool block removed (pool'.emitBlockRemovedEvents keys) where
  index := step.index.sameHashes (emitBlockRemovedEvents_sameHashes pool' keys)
  keyed_iff key target :=
    ((emitBlockRemovedEvents_sameHashes pool' keys).keyed_iff key target).trans
      (step.keyed_iff key target)
  mem_removed := step.mem_removed
  unhashed := by rw [emitBlockRemovedEvents_blocks]; exact step.unhashed
  frame := by rw [emitBlockRemovedEvents_blocks]; exact step.frame

variable {newHashes : List H}

omit [DecidableEq H] in
theorem emitBlockStoredEvent_sameHashes {blockHashes : List H}
    (emitted : pool.emitBlockStoredEvent request blocks blockHashes newHashes numCachedBlocks
      numFullBlocks blockSize groupId blockMask = .ok pool') :
    SameHashes pool pool' ∧ pool'.blocks = pool.blocks := by
  obtain ⟨_, _, emitted⟩ := bind_eq_ok.mp emitted
  obtain ⟨_, _, emitted⟩ := bind_eq_ok.mp emitted
  cases emitted
  exact ⟨⟨⟨rfl, rfl, rfl, rfl⟩, rfl, rfl, fun _ => rfl, fun _ => rfl⟩, rfl⟩

omit [DecidableEq H] in
theorem emitPartialBlockEvent_sameHashes {blockHash : H}
    (emitted : pool.emitPartialBlockEvent request blockHash numTokens groupId = .ok pool') :
    SameHashes pool pool' ∧ pool'.blocks = pool.blocks := by
  obtain ⟨_, _, emitted⟩ := bind_eq_ok.mp emitted
  cases emitted
  exact ⟨⟨⟨rfl, rfl, rfl, rfl⟩, rfl, rfl, fun _ => rfl, fun _ => rfl⟩, rfl⟩

/-! ## Caching -/

theorem cacheFullBlock_spec (index : HashIndex pool) (nonNull : block ≠ nullBlock)
    {numHashTokens : Nat} (cached : pool.cacheFullBlock block key numHashTokens = .ok pool') :
    CachedPairs pool [(block, key)] pool' := by
  obtain ⟨middle, promoted, inserted⟩ := bind_eq_ok.mp cached
  unfold promoteBlock at promoted
  split at promoted
  · obtain ⟨_, _, promoted⟩ := bind_eq_ok.mp promoted
    cases promoted
    have removal := (removeCachedBlockHashes_spec index block).emit
      (pool.removeCachedBlockHashes block).1
    exact cachedPair_of_inserted (.inr ⟨_, removal⟩)
      (insertBlockHash_spec removal.index nonNull inserted)
  · cases promoted
    exact cachedPair_of_inserted (.inl rfl) (insertBlockHash_spec index nonNull inserted)

theorem cacheFullBlocksLoop_spec {newBlockHashes : List H} {i : Nat} (index : HashIndex pool)
    (cached : cacheFullBlocksLoop newBlockHashes numCachedBlocks blockSize groupId blockMask
      blocks i pool = .ok (newHashes, pool')) :
    CachedPairs pool (fullBlockPairs newBlockHashes groupId blockMask blocks i) pool' := by
  induction blocks generalizing i pool newHashes with
  | nil =>
      cases cached
      exact .refl index
  | cons block rest ih =>
      unfold cacheFullBlocksLoop at cached
      rw [fullBlockPairs]
      split at cached
      · rename_i skipped
        rw [if_pos skipped]
        exact ih index cached
      · rename_i kept
        rw [if_neg kept]
        rw [not_or] at kept
        obtain ⟨blockHash, found, cached⟩ := bind_eq_ok.mp cached
        obtain ⟨middle, first, cached⟩ := bind_eq_ok.mp cached
        obtain ⟨⟨others, final⟩, loop, finished⟩ := bind_eq_ok.mp cached
        cases finished
        have step := cacheFullBlock_spec index kept.1 first
        rw [pyIndex_eq_ok.mp found]
        exact step.trans (ih step.index loop)

/-- `cache_full_blocks` adds keys only for the new full blocks, each under the
hash of its index. -/
theorem cacheFullBlocks_spec (index : HashIndex pool)
    (cached : pool.cacheFullBlocks request blocks numCachedBlocks numFullBlocks blockSize
      groupId blockMask = .ok pool') :
    ∃ pairs, CachedPairs pool pairs pool' ∧
      ∀ pair ∈ pairs, pair.1 ≠ nullBlock ∧
        ∃ i blockHashes hash, numCachedBlocks ≤ i ∧ i < numFullBlocks ∧
          blocks[i]? = some pair.1 ∧
          resolveBlockHashes request.blockHashes pool.hashBlockSize blockSize false none =
            .ok blockHashes ∧
          blockHashes[i]? = some hash ∧ pair.2 = makeBlockHashWithGroupId hash groupId := by
  unfold cacheFullBlocks at cached
  split at cached
  · cases cached
    exact ⟨[], .refl index, by simp⟩
  obtain ⟨_, _, cached⟩ := bind_eq_ok.mp cached
  obtain ⟨blockHashes, resolved, cached⟩ := bind_eq_ok.mp cached
  obtain ⟨⟨newHashes, middle⟩, loop, cached⟩ := bind_eq_ok.mp cached
  have step := cacheFullBlocksLoop_spec index loop
  refine ⟨fullBlockPairs (blockHashes.drop numCachedBlocks) groupId blockMask
    ((blocks.take numFullBlocks).drop numCachedBlocks) 0, ?_, ?_⟩
  · dsimp only at cached
    split at cached
    · obtain ⟨same, blocksEq⟩ := emitBlockStoredEvent_sameHashes cached
      exact step.sameHashes same blocksEq
    · cases cached
      exact step
  · rintro ⟨block, key⟩ member
    obtain ⟨nonNull, offset, hash, at_, hashAt, keyEq⟩ := mem_fullBlockPairs member
    rw [List.getElem?_drop, List.getElem?_take] at at_
    have bound : numCachedBlocks + offset < numFullBlocks := by
      by_contra beyond
      simp [beyond] at at_
    rw [if_pos bound] at at_
    refine ⟨nonNull, numCachedBlocks + offset, blockHashes, hash, Nat.le_add_right _ _, bound,
      at_, resolved, ?_, keyEq⟩
    rw [Nat.zero_add, List.getElem?_drop] at hashAt
    exact hashAt

/-- `cache_partial_block` adds at most the key of the boundary. -/
theorem cachePartialBlock_spec (index : HashIndex pool) {result : Option (BlockHashWithGroupId H)}
    (cached : pool.cachePartialBlock request block numTokens groupId blockSize =
      .ok (result, pool')) :
    ∃ pairs, CachedPairs pool pairs pool' ∧
      ∀ pair ∈ pairs, pair.1 = block ∧ block ≠ nullBlock ∧ numTokens % pool.hashBlockSize = 0 ∧
        0 < numTokens / pool.hashBlockSize ∧ numTokens % blockSize ≠ 0 ∧
        ∃ hash, request.blockHashes[numTokens / pool.hashBlockSize - 1]? = some hash ∧
          pair.2 = makeBlockHashWithGroupId hash groupId := by
  unfold cachePartialBlock at cached
  split at cached
  · cases cached
    exact ⟨[], .refl index, by simp⟩
  rename_i nonNull
  obtain ⟨_, _, cached⟩ := bind_eq_ok.mp cached
  obtain ⟨_, _, cached⟩ := bind_eq_ok.mp cached
  obtain ⟨_, partialEnd, cached⟩ := bind_eq_ok.mp cached
  obtain ⟨blockHash, hashed, cached⟩ := bind_eq_ok.mp cached
  obtain ⟨_, aligned, hashed⟩ := bind_eq_ok.mp hashed
  obtain ⟨_, bounds, hashed⟩ := bind_eq_ok.mp hashed
  obtain ⟨middle, inserted, cached⟩ := bind_eq_ok.mp cached
  obtain ⟨final, emitted, finished⟩ := bind_eq_ok.mp cached
  cases finished
  have step : CachedPairs pool [(block, makeBlockHashWithGroupId blockHash groupId)] middle := by
    split at inserted
    · have removal := (removeCachedBlockHashes_spec index block).emit
        (pool.removeCachedBlockHashes block).1
      exact cachedPair_of_inserted (.inr ⟨_, removal⟩)
        (insertBlockHash_spec removal.index nonNull inserted)
    · exact cachedPair_of_inserted (.inl rfl) (insertBlockHash_spec index nonNull inserted)
  refine ⟨[(block, makeBlockHashWithGroupId blockHash groupId)], ?_, ?_⟩
  · split at emitted
    · obtain ⟨same, blocksEq⟩ := emitPartialBlockEvent_sameHashes emitted
      exact step.sameHashes same blocksEq
    · cases emitted
      exact step
  · rintro pair member
    obtain rfl := List.mem_singleton.mp member
    exact ⟨rfl, nonNull, pyAssert_eq_ok.mp aligned, (pyAssert_eq_ok.mp bounds).1,
      pyAssert_eq_ok.mp partialEnd, blockHash, pyIndex_eq_ok.mp hashed, rfl⟩

/-! ## Eviction and allocation -/

theorem maybeEvictCachedBlock_spec (index : HashIndex pool) (block : BlockId) :
    ∃ removed, Removed pool block removed (pool.maybeEvictCachedBlock block).2 := by
  have removal := removeCachedBlockHashes_spec index block
  unfold maybeEvictCachedBlock
  dsimp only
  split
  · exact ⟨_, removal⟩
  · exact ⟨_, removal.emit _⟩

theorem evictBlocks_spec (index : HashIndex pool) (evicted : evictBlocks blocks pool = .ok pool') :
    HashIndex pool' ∧ ∀ key target, pool'.Keyed key target ↔
      pool.Keyed key target ∧ target ∉ blocks := by
  induction blocks generalizing pool with
  | nil =>
      cases evicted
      exact ⟨index, by simp⟩
  | cons block rest ih =>
      obtain ⟨_, _, evicted⟩ := bind_eq_ok.mp evicted
      obtain ⟨removed, removal⟩ := maybeEvictCachedBlock_spec index block
      obtain ⟨final, keyed_iff⟩ := ih removal.index evicted
      refine ⟨final, fun key target => ?_⟩
      rw [keyed_iff, removal.keyed_iff, List.mem_cons, not_or, and_assoc]

/-- With caching on, claimed blocks lose their keys; without it nothing changes. -/
theorem claimBlocks_hashes (index : HashIndex pool)
    (claimed : claimBlocks blocks pool = .ok pool') :
    HashIndex pool' ∧
      (∀ key target, pool'.Keyed key target ↔
        pool.Keyed key target ∧ ¬ (pool.enableCaching ∧ target ∈ blocks)) ∧
      ∀ target, ¬ (pool.enableCaching ∧ target ∈ blocks) →
        (pool'.blocks target).blockHash = (pool.blocks target).blockHash ∧
          (pool'.blocks target).blockHashNumTokens = (pool.blocks target).blockHashNumTokens := by
  induction blocks generalizing pool with
  | nil =>
      cases claimed
      exact ⟨index, by simp, fun _ _ => ⟨rfl, rfl⟩⟩
  | cons block rest ih =>
      obtain ⟨_, _, claimed⟩ := bind_eq_ok.mp claimed
      set evicted := if pool.enableCaching then (pool.maybeEvictCachedBlock block).2 else pool
        with evictedEq
      have same := SameHashes.setRefCnt evicted block ((evicted.blocks block).refCnt + 1)
        evicted.freeBlockQueue
      have config : evicted.enableCaching = pool.enableCaching := by
        rw [evictedEq]
        split
        · exact (maybeEvictCachedBlock_sameRefs pool block).enableCaching
        · rfl
      obtain ⟨evictedIndex, evictedKeyed, evictedFrame⟩ : HashIndex evicted ∧
          (∀ key target, evicted.Keyed key target ↔
            pool.Keyed key target ∧ ¬ (pool.enableCaching ∧ target = block)) ∧
          ∀ target, ¬ (pool.enableCaching ∧ target = block) →
            evicted.blocks target = pool.blocks target := by
        rw [evictedEq]
        split
        · rename_i caching
          obtain ⟨removed, removal⟩ := maybeEvictCachedBlock_spec index block
          refine ⟨removal.index, fun key target => ?_, fun target outside => ?_⟩
          · rw [removal.keyed_iff]
            simp [caching]
          · exact removal.frame target fun equal => outside ⟨caching, equal⟩
        · rename_i disabled
          exact ⟨index, by simp [disabled], fun _ _ => rfl⟩
      obtain ⟨final, keyed_iff, frame⟩ := ih (evictedIndex.sameHashes same) claimed
      have nextCaching := same.enableCaching.trans config
      refine ⟨final, fun key target => ?_, fun target outside => ?_⟩
      · rw [keyed_iff, same.keyed_iff, evictedKeyed, nextCaching, List.mem_cons]
        tauto
      · rw [List.mem_cons] at outside
        have restOut : ¬ (pool.enableCaching ∧ target ∈ rest) := fun both =>
          outside ⟨both.1, .inr both.2⟩
        have hereOut : ¬ (pool.enableCaching ∧ target = block) := fun both =>
          outside ⟨both.1, .inl both.2⟩
        have step := frame target (by rw [nextCaching]; exact restOut)
        rw [step.1, step.2, same.blockHash, same.numTokens, evictedFrame target hereOut]
        exact ⟨rfl, rfl⟩

/-- The hash side of `get_new_blocks`. -/
theorem getNewBlocks_hashes (index : HashIndex pool) {numBlocks : Nat} {ret : List BlockId}
    (got : pool.getNewBlocks numBlocks = .ok (ret, pool')) :
    HashIndex pool' ∧
      (∀ key target, pool'.Keyed key target ↔
        pool.Keyed key target ∧ ¬ (pool.enableCaching ∧ target ∈ ret)) ∧
      ∀ target, ¬ (pool.enableCaching ∧ target ∈ ret) →
        (pool'.blocks target).blockHash = (pool.blocks target).blockHash ∧
          (pool'.blocks target).blockHashNumTokens = (pool.blocks target).blockHashNumTokens := by
  unfold getNewBlocks at got
  split at got
  · contradiction
  obtain ⟨⟨popped, queue⟩, _, got⟩ := bind_eq_ok.mp got
  obtain ⟨claimed, claims, finished⟩ := bind_eq_ok.mp got
  cases finished
  have requeued : SameHashes pool { pool with freeBlockQueue := queue } :=
    ⟨⟨rfl, rfl, rfl, rfl⟩, rfl, rfl, fun _ => rfl, fun _ => rfl⟩
  have step := claimBlocks_hashes (index.sameHashes requeued) claims
  exact step

omit [BlockHashing H] in
/-- `reset_prefix_cache` drops every key or does nothing. -/
theorem resetPrefixCache_spec (index : HashIndex pool) :
    HashIndex pool.resetPrefixCache.2 ∧
      (pool.resetPrefixCache.2 = pool ∨
        ∀ key target, ¬ pool.resetPrefixCache.2.Keyed key target) := by
  unfold resetPrefixCache
  dsimp only
  split
  · exact ⟨index, .inl rfl⟩
  · have cleared : ∀ (events : List (KVCacheEvent H)), HashIndex ({ pool with
          cachedBlockHashToBlock := .empty
          cachedBlockHashesByBlock := .empty
          blocks := fun block => (pool.blocks block).resetHash
          kvEventQueue := events } : BlockPool H) := fun events =>
      ⟨fun key block => by simp [Keyed, KVCacheBlock.resetHash],
        fun key => by simp [Keyed], fun _ _ => rfl⟩
    split
    · exact ⟨cleared _, .inr fun key target => by simp [Keyed]⟩
    · exact ⟨cleared pool.kvEventQueue, .inr fun key target => by simp [Keyed]⟩

end Events

end Vllm.Core.BlockPool
