import Vllm.Core.BlockHashToBlockMap
import Mathlib.Logic.Function.Basic

/-!
# The block pool

`BlockPool` owns the block records, the free queue, the prefix-cache index and
the queue of KV events.  Blocks are identified with their ids.  Metrics and log
lines are left out; they never influence the pool.
-/

namespace Vllm.Core

open Vllm.Library

/-- Block metadata.  The two queue pointers live in the free queue and
`is_null` is `block = nullBlock`. -/
structure KVCacheBlock (H : Type) where
  refCnt : Int := 0
  blockHash : Option (BlockHashWithGroupId H) := none
  blockHashNumTokens : Option Nat := none
  deriving DecidableEq, Repr

namespace KVCacheBlock

variable {H : Type}

/-- `set_block_hash`. -/
def setBlockHash (block : KVCacheBlock H) (key : BlockHashWithGroupId H)
    (numTokens : Option Nat) : Except PyError (KVCacheBlock H) := do
  pyAssert (block.blockHash.isNone ∧ block.blockHashNumTokens.isNone)
  pure { block with blockHash := some key, blockHashNumTokens := numTokens }

/-- `reset_hash`. -/
def resetHash (block : KVCacheBlock H) : KVCacheBlock H :=
  { block with blockHash := none, blockHashNumTokens := none }

end KVCacheBlock

/-- The placeholder block: the first block popped from the fresh queue, which
has id 0 (`BlockPool.init_spec`). -/
def nullBlock : BlockId :=
  0

/-- The events published to external consumers.  All blocks are on the GPU
medium, so the medium is not repeated. -/
inductive KVCacheEvent (H : Type) where
  | blockStored (blockHashes : List (ExternalBlockHash H))
      (parentBlockHash : Option (ExternalBlockHash H)) (tokenIds : List TokenId)
      (blockSize : Nat) (loraId : Option Nat) (loraName : Option String)
      (extraKeys : Option (List (Option (List ExtraKey)))) (groupIdx : Nat)
  | blockRemoved (blockHashes : List (ExternalBlockHash H)) (groupIdx : Nat)
  | allBlocksCleared
  deriving DecidableEq, Repr

/-- `BlockPool`.  A set of additional keys is a duplicate-free list. -/
structure BlockPool (H : Type) where
  numGpuBlocks : Nat
  enableCaching : Bool
  hashBlockSize : Nat
  enableKvCacheEvents : Bool
  blocks : BlockId → KVCacheBlock H
  freeBlockQueue : FreeKVCacheBlockQueue
  cachedBlockHashToBlock : BlockHashToBlockMap H
  cachedBlockHashesByBlock : Dict BlockId (List (BlockHashWithGroupId H))
  kvEventQueue : List (KVCacheEvent H)

namespace BlockPool

variable {H : Type} [DecidableEq H]

/-- A pool over the given free queue in which no block is used or cached. -/
def fresh (numGpuBlocks : Nat) (enableCaching : Bool) (hashBlockSize : Nat)
    (enableKvCacheEvents : Bool) (queue : FreeKVCacheBlockQueue) : BlockPool H where
  numGpuBlocks := numGpuBlocks
  enableCaching := enableCaching
  hashBlockSize := hashBlockSize
  enableKvCacheEvents := enableKvCacheEvents
  blocks := fun _ => {}
  freeBlockQueue := queue
  cachedBlockHashToBlock := .empty
  cachedBlockHashesByBlock := .empty
  kvEventQueue := []

/-- `__init__`: all blocks are queued by id and the first becomes the null
block. -/
def init (numGpuBlocks : Nat) (enableCaching : Bool) (hashBlockSize : Nat)
    (enableKvCacheEvents : Bool) : Except PyError (BlockPool H) := do
  pyAssert (0 < numGpuBlocks)
  let (_, queue) ← (FreeKVCacheBlockQueue.init (List.range numGpuBlocks)).popleft
  pure (fresh numGpuBlocks enableCaching hashBlockSize enableKvCacheEvents queue)

/-- Replace one block record. -/
def setBlock (pool : BlockPool H) (block : BlockId) (record : KVCacheBlock H) : BlockPool H :=
  { pool with blocks := Function.update pool.blocks block record }

/-- `get_num_free_blocks`. -/
def getNumFreeBlocks (pool : BlockPool H) : Int :=
  pool.freeBlockQueue.numFreeBlocks

/-- `get_cached_block`: one cached block per group, or a miss. -/
def getCachedBlock (pool : BlockPool H) (blockHash : H) : List Nat → Option (List BlockId)
  | [] => some []
  | groupId :: rest =>
      match pool.cachedBlockHashToBlock.getOneBlock
          (makeBlockHashWithGroupId blockHash groupId) with
      | none => none
      | some block => (getCachedBlock pool blockHash rest).map (block :: ·)

/-! ## Hash bookkeeping -/

/-- Pop every listed key of `block`; the keys that were present are returned. -/
def popBlockHashes (block : BlockId) :
    List (BlockHashWithGroupId H) → BlockHashToBlockMap H →
      List (BlockHashWithGroupId H) × BlockHashToBlockMap H
  | [], map => ([], map)
  | key :: rest, map =>
      let popped := map.pop key block
      let others := popBlockHashes block rest popped.2
      (if popped.1.isSome then key :: others.1 else others.1, others.2)

/-- The keys of a block: the primary one first, then the additional ones. -/
def blockKeys (pool : BlockPool H) (block : BlockId) : List (BlockHashWithGroupId H) :=
  (pool.blocks block).blockHash.toList ++ pool.cachedBlockHashesByBlock.getD block []

/-- `_remove_cached_block_hashes`. -/
def removeCachedBlockHashes (pool : BlockPool H) (block : BlockId) :
    List (BlockHashWithGroupId H) × BlockPool H :=
  let blockHashes := pool.blockKeys block
  let pool :=
    { pool with cachedBlockHashesByBlock := pool.cachedBlockHashesByBlock.erase block }
  if blockHashes.isEmpty then
    ([], pool)
  else
    let popped := popBlockHashes block blockHashes pool.cachedBlockHashToBlock
    (popped.1, { pool with cachedBlockHashToBlock := popped.2 }.setBlock block
        (pool.blocks block).resetHash)

/-- Record a new key with its block: as the primary hash of a block without one,
else among the additional keys. -/
def recordBlockHash (pool : BlockPool H) (key : BlockHashWithGroupId H) (block : BlockId)
    (numTokens : Option Nat) : Except PyError (BlockPool H) :=
  if (pool.blocks block).blockHash.isNone then do
    let record ← (pool.blocks block).setBlockHash key numTokens
    pure (pool.setBlock block record)
  else
    let known := pool.cachedBlockHashesByBlock.getD block []
    .ok { pool with
      cachedBlockHashesByBlock := pool.cachedBlockHashesByBlock.insert block
        (if key ∈ known then known else known ++ [key]) }

/-- `_insert_block_hash`. -/
def insertBlockHash (pool : BlockPool H) (key : BlockHashWithGroupId H) (block : BlockId)
    (numTokens : Option Nat) : Except PyError (BlockPool H) :=
  if (pool.blocks block).blockHash = some key then
    .ok pool
  else if pool.cachedBlockHashToBlock.contain key block then
    .ok pool
  else do
    let pool ← pool.recordBlockHash key block numTokens
    pure { pool with
      cachedBlockHashToBlock := pool.cachedBlockHashToBlock.insert key block }

section Events

variable [BlockHashing H]

/-- `_emit_block_removed_events`: one event per removed key. -/
def emitBlockRemovedEvents (pool : BlockPool H) (keys : List (BlockHashWithGroupId H)) :
    BlockPool H :=
  if pool.enableKvCacheEvents then
    { pool with
      kvEventQueue := pool.kvEventQueue ++ keys.map fun key =>
        .blockRemoved [BlockHashing.maybeConvertBlockHash key.blockHash] key.groupId }
  else
    pool

/-- `_build_block_stored_event`. -/
def buildBlockStoredEvent (request : Request H) (blockHashes : List (ExternalBlockHash H))
    (parentBlockHash : Option (ExternalBlockHash H)) (startTokenIdx endTokenIdx blockSize : Nat)
    (kvCacheGroupId : Nat) (extraKeysList : List (Option (List ExtraKey))) :
    KVCacheEvent H :=
  .blockStored blockHashes parentBlockHash
    ((request.allTokenIds.take endTokenIdx).drop startTokenIdx) blockSize
    (request.loraRequest.map LoRARequest.loraIntId)
    (request.loraRequest.map LoRARequest.loraName)
    (if extraKeysList.isEmpty then none else some extraKeysList) kvCacheGroupId

/-! ## Caching blocks -/

/-- A block is left out of the cache when the mask says so. -/
def maskedOut (blockMask : Option (List Bool)) (index : Nat) : Bool :=
  match blockMask with
  | none => false
  | some mask => !mask.getD index true

/-- A new full block that already has a hash is promoted from a partial entry:
its old keys go. -/
def promoteBlock (pool : BlockPool H) (block : BlockId) (numHashTokens : Nat) :
    Except PyError (BlockPool H) :=
  if (pool.blocks block).blockHash.isSome then do
    pyAssert ((pool.blocks block).blockHashNumTokens.any (· < numHashTokens))
    let removed := pool.removeCachedBlockHashes block
    pure (removed.2.emitBlockRemovedEvents removed.1)
  else
    .ok pool

/-- Register one full block. -/
def cacheFullBlock (pool : BlockPool H) (block : BlockId) (key : BlockHashWithGroupId H)
    (numHashTokens : Nat) : Except PyError (BlockPool H) := do
  let pool ← pool.promoteBlock block numHashTokens
  pool.insertBlockHash key block (some numHashTokens)

/-- The loop of `cache_full_blocks`, from index `i` of the new full blocks on. -/
def cacheFullBlocksLoop (newBlockHashes : List H) (numCachedBlocks blockSize groupId : Nat)
    (blockMask : Option (List Bool)) :
    List BlockId → Nat → BlockPool H → Except PyError (List H × BlockPool H)
  | [], _, pool => .ok ([], pool)
  | block :: rest, i, pool =>
      if block = nullBlock ∨ maskedOut blockMask i then
        cacheFullBlocksLoop newBlockHashes numCachedBlocks blockSize groupId blockMask rest
          (i + 1) pool
      else do
        let blockHash ← pyIndex newBlockHashes i
        let pool ← pool.cacheFullBlock block (makeBlockHashWithGroupId blockHash groupId)
          ((numCachedBlocks + i + 1) * blockSize)
        let (newHashes, pool) ←
          cacheFullBlocksLoop newBlockHashes numCachedBlocks blockSize groupId blockMask rest
            (i + 1) pool
        pure (blockHash :: newHashes, pool)

/-- The extra keys of the stored blocks with the given indices. -/
def collectExtraKeys (request : Request H) (blocks : List BlockId)
    (blockMask : Option (List Bool)) (numCachedBlocks blockSize : Nat) :
    List Nat → Int → Except PyError (List (Option (List ExtraKey)))
  | [], _ => .ok []
  | i :: rest, currMmIdx => do
      let block ← pyIndex blocks i
      if block = nullBlock ∨ maskedOut blockMask (i - numCachedBlocks) then
        collectExtraKeys request blocks blockMask numCachedBlocks blockSize rest currMmIdx
      else
        let extra :=
          generateBlockHashExtraKeys request (i * blockSize) (i * blockSize + blockSize) currMmIdx
        let others ←
          collectExtraKeys request blocks blockMask numCachedBlocks blockSize rest extra.2
        pure (extra.1 :: others)

/-- The external hash at `index`, for the parent of a stored run of blocks. -/
def externalHashAt (blockHashes : List H) (index : Nat) :
    Except PyError (Option (ExternalBlockHash H)) := do
  let parent ← pyIndex blockHashes index
  pure (some (BlockHashing.maybeConvertBlockHash parent))

/-- The stored event at the end of `cache_full_blocks`. -/
def emitBlockStoredEvent (pool : BlockPool H) (request : Request H) (blocks : List BlockId)
    (blockHashes newHashes : List H) (numCachedBlocks numFullBlocks blockSize groupId : Nat)
    (blockMask : Option (List Bool)) : Except PyError (BlockPool H) := do
  let parentBlockHash ←
    (if numCachedBlocks = 0 then .ok none else externalHashAt blockHashes (numCachedBlocks - 1))
  let extraKeysList ← collectExtraKeys request blocks blockMask numCachedBlocks blockSize
    ((List.range numFullBlocks).drop numCachedBlocks) 0
  pure { pool with
    kvEventQueue := pool.kvEventQueue ++
      [buildBlockStoredEvent request (newHashes.map BlockHashing.maybeConvertBlockHash)
        parentBlockHash (numCachedBlocks * blockSize) (numFullBlocks * blockSize) blockSize
        groupId extraKeysList] }

/-- `cache_full_blocks`. -/
def cacheFullBlocks (pool : BlockPool H) (request : Request H) (blocks : List BlockId)
    (numCachedBlocks numFullBlocks blockSize kvCacheGroupId : Nat)
    (blockMask : Option (List Bool)) : Except PyError (BlockPool H) :=
  if numCachedBlocks ≥ numFullBlocks then
    .ok pool
  else do
    let newFullBlocks := (blocks.take numFullBlocks).drop numCachedBlocks
    pyAssert (∀ mask, blockMask = some mask → mask.length = newFullBlocks.length)
    let blockHashes ←
      resolveBlockHashes request.blockHashes pool.hashBlockSize blockSize false none
    let (newHashes, pool) ←
      cacheFullBlocksLoop (blockHashes.drop numCachedBlocks) numCachedBlocks blockSize
        kvCacheGroupId blockMask newFullBlocks 0 pool
    if pool.enableKvCacheEvents then
      pool.emitBlockStoredEvent request blocks blockHashes newHashes numCachedBlocks
        numFullBlocks blockSize kvCacheGroupId blockMask
    else
      pure pool

/-- The hashes and extra keys that `emit_cached_block_events` collects for the
first `num_cached_blocks` blocks. -/
def collectCachedBlocks (request : Request H) (blockHashes : List H) (blockSize : Nat) :
    List Nat → Int → Except PyError (List (ExternalBlockHash H × Option (List ExtraKey)))
  | [], _ => .ok []
  | i :: rest, currMmIdx => do
      let blockHash ← pyIndex blockHashes i
      let extra :=
        generateBlockHashExtraKeys request (i * blockSize) (i * blockSize + blockSize) currMmIdx
      let others ← collectCachedBlocks request blockHashes blockSize rest extra.2
      pure ((BlockHashing.maybeConvertBlockHash blockHash, extra.1) :: others)

/-- `emit_cached_block_events`: events for reused blocks; no block changes. -/
def emitCachedBlockEvents (pool : BlockPool H) (request : Request H)
    (numCachedBlocks blockSize kvCacheGroupId : Nat) : Except PyError (BlockPool H) :=
  if ¬ pool.enableKvCacheEvents ∨ numCachedBlocks = 0 then
    .ok pool
  else do
    let blockHashes ←
      resolveBlockHashes request.blockHashes pool.hashBlockSize blockSize false none
    let collected ←
      collectCachedBlocks request blockHashes blockSize (List.range numCachedBlocks) 0
    pure { pool with
      kvEventQueue := pool.kvEventQueue ++
        [buildBlockStoredEvent request (collected.map Prod.fst) none 0
          (numCachedBlocks * blockSize) blockSize kvCacheGroupId (collected.map Prod.snd)] }

/-- `_get_partial_block_hash`. -/
def getPartialBlockHash (pool : BlockPool H) (request : Request H) (numTokens : Nat) :
    Except PyError H := do
  pyAssert (numTokens % pool.hashBlockSize = 0)
  let numHashBlocks := numTokens / pool.hashBlockSize
  pyAssert (0 < numHashBlocks ∧ numHashBlocks ≤ request.blockHashes.length)
  pyIndex request.blockHashes (numHashBlocks - 1)

/-- The stored event of `cache_partial_block`, whose parent and start come from
`_get_partial_block_parent_hash_and_start`. -/
def emitPartialBlockEvent (pool : BlockPool H) (request : Request H) (blockHash : H)
    (numTokens kvCacheGroupId : Nat) : Except PyError (BlockPool H) := do
  let numHashBlocks := numTokens / pool.hashBlockSize
  let parentHash ←
    (if numHashBlocks > 1 then externalHashAt request.blockHashes (numHashBlocks - 2)
    else .ok none)
  let blockStart := (numHashBlocks - 1) * pool.hashBlockSize
  let currMmIdx : Int := if blockStart > 0 then -1 else 0
  let extra := generateBlockHashExtraKeys request blockStart numTokens currMmIdx
  pure { pool with
    kvEventQueue := pool.kvEventQueue ++
      [.blockStored [BlockHashing.maybeConvertBlockHash blockHash] parentHash
        ((request.allTokenIds.take numTokens).drop blockStart) (numTokens - blockStart)
        (request.loraRequest.map LoRARequest.loraIntId)
        (request.loraRequest.map LoRARequest.loraName) (some [extra.1]) kvCacheGroupId] }

/-- `cache_partial_block`: make an existing block reachable from a prefix
boundary inside it. -/
def cachePartialBlock (pool : BlockPool H) (request : Request H) (block : BlockId)
    (numTokens kvCacheGroupId blockSize : Nat) :
    Except PyError (Option (BlockHashWithGroupId H) × BlockPool H) :=
  if block = nullBlock then
    .ok (none, pool)
  else do
    pyAssert (blockSize > pool.hashBlockSize)
    pyAssert (blockSize % pool.hashBlockSize = 0)
    pyAssert (numTokens % blockSize ≠ 0)
    let blockHash ← pool.getPartialBlockHash request numTokens
    let coveredTokens := numTokens / pool.hashBlockSize * pool.hashBlockSize
    let key := makeBlockHashWithGroupId blockHash kvCacheGroupId
    let record := pool.blocks block
    let alreadyCached := decide (record.blockHash = some key) ||
      pool.cachedBlockHashToBlock.contain key block
    let pool :=
      if ¬ alreadyCached ∧ record.blockHash.isSome ∧
          record.blockHashNumTokens.any (· < coveredTokens) then
        let removed := pool.removeCachedBlockHashes block
        removed.2.emitBlockRemovedEvents removed.1
      else
        pool
    let pool ← pool.insertBlockHash key block (some coveredTokens)
    let pool ←
      (if pool.enableKvCacheEvents ∧ ¬ alreadyCached then
        pool.emitPartialBlockEvent request blockHash numTokens kvCacheGroupId
      else
        .ok pool)
    pure (some key, pool)

end Events

/-- Insert every key for the destination of a move. -/
def insertBlockHashes (block : BlockId) (numTokens : Option Nat) :
    List (BlockHashWithGroupId H) → BlockPool H → Except PyError (BlockPool H)
  | [], pool => .ok pool
  | key :: rest, pool => do
      let pool ← pool.insertBlockHash key block numTokens
      insertBlockHashes block numTokens rest pool

/-- `move_block_hashes`: re-point the entries of `srcBlock` to `dstBlock`. -/
def moveBlockHashes (pool : BlockPool H) (srcBlock dstBlock : BlockId) :
    Except PyError (BlockPool H) := do
  pyAssert ((pool.blocks dstBlock).blockHash.isNone)
  pyAssert (¬ pool.cachedBlockHashesByBlock.contains dstBlock)
  let numTokens := (pool.blocks srcBlock).blockHashNumTokens
  let removed := pool.removeCachedBlockHashes srcBlock
  insertBlockHashes dstBlock numTokens removed.1 removed.2

/-! ## Allocation, references and eviction -/

section Allocation

variable [BlockHashing H]

/-- `_maybe_evict_cached_block`. -/
def maybeEvictCachedBlock (pool : BlockPool H) (block : BlockId) : Bool × BlockPool H :=
  let evicted := pool.removeCachedBlockHashes block
  if evicted.1.isEmpty then (false, evicted.2)
  else (true, evicted.2.emitBlockRemovedEvents evicted.1)

/-- The loop of `get_new_blocks` over the popped blocks. -/
def claimBlocks : List BlockId → BlockPool H → Except PyError (BlockPool H)
  | [], pool => .ok pool
  | block :: rest, pool => do
      let pool := if pool.enableCaching then (pool.maybeEvictCachedBlock block).2 else pool
      pyAssert ((pool.blocks block).refCnt = 0)
      claimBlocks rest
        (pool.setBlock block { pool.blocks block with refCnt := (pool.blocks block).refCnt + 1 })

/-- `get_new_blocks`. -/
def getNewBlocks (pool : BlockPool H) (numBlocks : Nat) :
    Except PyError (List BlockId × BlockPool H) :=
  if (numBlocks : Int) > pool.getNumFreeBlocks then
    .error (.valueError ("Cannot get " ++ toString numBlocks ++ " free blocks from the pool"))
  else do
    let (ret, queue) ← pool.freeBlockQueue.popleftN numBlocks
    let pool ← claimBlocks ret { pool with freeBlockQueue := queue }
    pure (ret, pool)

/-- `evict_blocks`. -/
def evictBlocks : List BlockId → BlockPool H → Except PyError (BlockPool H)
  | [], pool => .ok pool
  | block :: rest, pool => do
      pyAssert (block < pool.numGpuBlocks)
      evictBlocks rest (pool.maybeEvictCachedBlock block).2

end Allocation

/-- `touch`. -/
def touch : List BlockId → BlockPool H → Except PyError (BlockPool H)
  | [], pool => .ok pool
  | block :: rest, pool => do
      let queue ←
        (if (pool.blocks block).refCnt = 0 ∧ block ≠ nullBlock then
          pool.freeBlockQueue.remove block
        else
          .ok pool.freeBlockQueue)
      touch rest
        ({ pool with freeBlockQueue := queue }.setBlock block
          { pool.blocks block with refCnt := (pool.blocks block).refCnt + 1 })

/-- `is_block_writable`. -/
def isBlockWritable (pool : BlockPool H) (block : BlockId) : Bool :=
  block ≠ nullBlock ∧ (pool.blocks block).refCnt = 1 ∧ (pool.blocks block).blockHash.isNone

/-- The loop of `free_blocks`: the released pool with the blocks to evict first
and the blocks to evict last. -/
def releaseBlocks : List BlockId → BlockPool H → List BlockId × List BlockId × BlockPool H
  | [], pool => ([], [], pool)
  | block :: rest, pool =>
      let record :=
        { pool.blocks block with refCnt := (pool.blocks block).refCnt - 1 }
      let others := releaseBlocks rest (pool.setBlock block record)
      if record.refCnt = 0 ∧ block ≠ nullBlock then
        if record.blockHash.isNone ∨ ¬ pool.enableCaching then
          (block :: others.1, others.2.1, others.2.2)
        else
          (others.1, block :: others.2.1, others.2.2)
      else
        others

/-- `free_blocks`. -/
def freeBlocks (pool : BlockPool H) (orderedBlocks : List BlockId) :
    Except PyError (BlockPool H) := do
  let (evictFirst, evictLast, pool) := releaseBlocks orderedBlocks pool
  let queue ← pool.freeBlockQueue.prependN evictFirst
  let queue ← queue.appendN evictLast
  pure { pool with freeBlockQueue := queue }

/-- `reset_prefix_cache`: succeeds only when no block but the null block is in
use. -/
def resetPrefixCache (pool : BlockPool H) : Bool × BlockPool H :=
  let numUsedBlocks := (pool.numGpuBlocks : Int) - pool.getNumFreeBlocks
  if numUsedBlocks ≠ 1 then
    (false, pool)
  else
    let pool :=
      { pool with
        cachedBlockHashToBlock := .empty
        cachedBlockHashesByBlock := .empty
        blocks := fun block => (pool.blocks block).resetHash }
    (true, if pool.enableKvCacheEvents then
        { pool with kvEventQueue := pool.kvEventQueue ++ [.allBlocksCleared] }
      else
        pool)

end BlockPool

end Vllm.Core
