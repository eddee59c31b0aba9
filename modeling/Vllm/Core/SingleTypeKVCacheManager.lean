import Vllm.Core.KVCacheSpec

/-!
# Managers of one KV cache group

One record serves all manager classes: the class is the kind of the
specification, and a method that a subclass overrides branches on it.  The
block pool is shared between the managers, so every method takes it and returns
it next to the manager.
-/

namespace Vllm.Core

open Vllm.Library

/-- `SingleTypeKVCacheManager` and its subclasses.  Sets are duplicate-free
lists; the fields from `cachedBlocksThisStep` on belong to Mamba managers. -/
structure SingleTypeKVCacheManager (H : Type) where
  kvCacheSpec : KVCacheSpec
  blockSize : Nat
  blockSize_pos : 0 < blockSize
  dcpWorldSize : Nat
  enableCaching : Bool
  kvCacheGroupId : Nat
  cacheHitAlignmentTokens : Nat
  maxAdmissionBlocksPerRequest : Option Nat
  recordNewBlockIds : Bool
  useEagle : Bool := false
  newBlockIds : List BlockId := []
  reqToBlocks : Dict RequestId (List BlockId) := .empty
  numCachedBlock : Dict RequestId Nat := .empty
  partialHitReqs : Dict RequestId (Nat × BlockId) := .empty
  pendingCowCopies : List (BlockId × BlockId) := []
  pendingBoundaryStateOffloads : List (RequestId × Nat × BlockId × Nat) := []
  cachedBlocksThisStep : List (BlockHashWithGroupId H) := []
  lastStateBlockIdx : Dict RequestId Int := .empty
  allocatedBlockReqs : List RequestId := []
  numCheckpointBlocks : Dict RequestId Nat := .empty
  producerPartialTailReqs : Dict RequestId Nat := .empty

namespace SingleTypeKVCacheManager

variable {H : Type}

/-- `__init__`, with the block-size scaling that the subclasses settle on. -/
def init (kvCacheSpec : KVCacheSpec) (enableCaching : Bool) (kvCacheGroupId : Nat)
    (schedulerBlockSize dcpWorldSize : Nat) (needsKvCacheZeroing : Bool)
    (maxAdmissionBlocksPerRequest : Option Nat) : SingleTypeKVCacheManager H where
  kvCacheSpec := kvCacheSpec
  blockSize :=
    if dcpWorldSize > 1 then kvCacheSpec.blockSize * dcpWorldSize else kvCacheSpec.blockSize
  blockSize_pos := by
    split
    · exact Nat.mul_pos kvCacheSpec.blockSize_pos (by omega)
    · exact kvCacheSpec.blockSize_pos
  dcpWorldSize := dcpWorldSize
  enableCaching := enableCaching
  kvCacheGroupId := kvCacheGroupId
  cacheHitAlignmentTokens := schedulerBlockSize
  maxAdmissionBlocksPerRequest := maxAdmissionBlocksPerRequest
  recordNewBlockIds := needsKvCacheZeroing && !kvCacheSpec.isMamba && kvCacheSpec.prefixCacheable

/-- The table of a request; a missing entry reads as the empty table. -/
def blocksOf (manager : SingleTypeKVCacheManager H) (requestId : RequestId) : List BlockId :=
  manager.reqToBlocks.getD requestId []

/-- Write the table of a request. -/
def setBlocks (manager : SingleTypeKVCacheManager H) (requestId : RequestId)
    (blocks : List BlockId) : SingleTypeKVCacheManager H :=
  { manager with reqToBlocks := manager.reqToBlocks.insert requestId blocks }

/-- Reading `req_to_blocks[request_id]` creates a missing entry. -/
def ensureBlocks (manager : SingleTypeKVCacheManager H) (requestId : RequestId) :
    SingleTypeKVCacheManager H :=
  manager.setBlocks requestId (manager.blocksOf requestId)

/-- Whether `request_id in num_cached_block`. -/
def isTracked (manager : SingleTypeKVCacheManager H) (requestId : RequestId) : Bool :=
  manager.numCachedBlock.contains requestId

/-- Record new blocks for zeroing by the worker. -/
def recordBlocks (manager : SingleTypeKVCacheManager H) (blocks : List BlockId) :
    SingleTypeKVCacheManager H :=
  if manager.recordNewBlockIds then
    { manager with newBlockIds := manager.newBlockIds ++ blocks }
  else
    manager

/-- `_get_num_evictable_blocks`. -/
def getNumEvictableBlocks (pool : BlockPool H) (blocks : List BlockId) : Nat :=
  blocks.countP fun block => (pool.blocks block).refCnt = 0 ∧ block ≠ nullBlock

/-- `_has_partial_local_hit`. -/
def hasPartialLocalHit (manager : SingleTypeKVCacheManager H)
    (newComputedBlocks : List BlockId) (numLocalComputedTokens : Nat) : Bool :=
  newComputedBlocks ≠ [] ∧ numLocalComputedTokens % manager.blockSize ≠ 0

/-- `get_num_skipped_tokens`.  The Mamba value for zero tokens is `-1` in the
source; all its uses treat it as zero. -/
def getNumSkippedTokens (manager : SingleTypeKVCacheManager H) (numComputedTokens : Nat) : Nat :=
  match manager.kvCacheSpec.kind with
  | .slidingWindow slidingWindow extraRetainedTokens =>
      numComputedTokens + 1 - (slidingWindow + extraRetainedTokens)
  | .chunkedLocalAttention attentionChunkSize =>
      numComputedTokens / attentionChunkSize * attentionChunkSize
  | .mamba .. => numComputedTokens - 1
  | _ => 0

/-- The number of whole blocks before the attention window. -/
def getNumSkippedBlocks (manager : SingleTypeKVCacheManager H) (numComputedTokens : Nat) : Nat :=
  manager.getNumSkippedTokens numComputedTokens / manager.blockSize

/-! ## Predicting an allocation -/

/-- `num_required_blocks`, under the admission cap of recycling managers if it
applies. -/
def numRequiredBlocks (manager : SingleTypeKVCacheManager H) (numTokens : Nat)
    (applyAdmissionCap : Bool) : Nat :=
  let numRequiredBlocks := cdiv numTokens manager.blockSize
  if applyAdmissionCap then
    match manager.maxAdmissionBlocksPerRequest with
    | some cap => min numRequiredBlocks cap
    | none => numRequiredBlocks
  else
    numRequiredBlocks

/-- `SingleTypeKVCacheManager.get_num_blocks_to_allocate`. -/
def baseNumBlocksToAllocate (pool : BlockPool H) (manager : SingleTypeKVCacheManager H)
    (requestId : RequestId) (numTokens : Nat) (newComputedBlocks : List BlockId)
    (totalComputedTokens numLocalComputedTokens : Nat) (applyAdmissionCap : Bool) :
    Except PyError Nat :=
  let numRequiredBlocks := manager.numRequiredBlocks numTokens applyAdmissionCap
  let numReqBlocks := (manager.blocksOf requestId).length
  if manager.isTracked requestId then do
    pyAssert (newComputedBlocks.length = 0)
    pure (numRequiredBlocks - numReqBlocks)
  else
    let numLocalComputedBlocks := newComputedBlocks.length + numReqBlocks
    let numSkippedBlocks := manager.getNumSkippedBlocks totalComputedTokens
    let numNewBlocks := numRequiredBlocks - max numSkippedBlocks numLocalComputedBlocks
    let numSkippedNewComputedBlocks := numSkippedBlocks - numReqBlocks
    let numEvictableBlocks :=
      getNumEvictableBlocks pool (newComputedBlocks.drop numSkippedNewComputedBlocks)
    -- The copy-on-write redirect of a partial hit takes one more block.
    let numNewBlocks :=
      if manager.hasPartialLocalHit newComputedBlocks numLocalComputedTokens then
        numNewBlocks + 1
      else
        numNewBlocks
    .ok (numNewBlocks + numEvictableBlocks)

/-- `_needs_internal_checkpoint`. -/
def needsInternalCheckpoint (manager : SingleTypeKVCacheManager H) (requestId : RequestId)
    (numPrefillCheckpointBlocks numTokens numComputedTokens : Nat) : Bool :=
  let numBlocks := cdiv numTokens manager.blockSize
  let blocks := manager.blocksOf requestId
  decide (numPrefillCheckpointBlocks > 0) && decide (numTokens % manager.blockSize ≠ 0) &&
    decide (numComputedTokens % manager.blockSize = 0) && decide (2 ≤ numBlocks) &&
    blocks.getD (numBlocks - 2) nullBlock = nullBlock

variable [DecidableEq H]

/-- `MambaManager.get_num_blocks_to_allocate` in align mode.  Unlike the base
method, the number of missing blocks is not cut off at zero. -/
def alignNumBlocksToAllocate (pool : BlockPool H) (manager : SingleTypeKVCacheManager H)
    (requestId : RequestId) (newComputedBlocks : List BlockId)
    (totalComputedTokens numLocalComputedTokens numTokensMainModel : Nat)
    (numSpeculativeBlocks numPrefillCheckpointBlocks : Nat) (applyAdmissionCap : Bool) :
    Int × SingleTypeKVCacheManager H :=
  let numTokens := numTokensMainModel
  let numRequiredBlocks := cdiv numTokens manager.blockSize + numSpeculativeBlocks
  let manager := manager.ensureBlocks requestId
  let numNewBlocks : Int := numRequiredBlocks - newComputedBlocks.length -
    (manager.blocksOf requestId).length
  let hasPartialHit := manager.hasPartialLocalHit newComputedBlocks numLocalComputedTokens ||
    manager.partialHitReqs.contains requestId
  let numNewBlocks := if hasPartialHit then max numNewBlocks 0 + 1 else numNewBlocks
  let checkpointBlock :=
    (manager.needsInternalCheckpoint requestId numPrefillCheckpointBlocks numTokens
      totalComputedTokens).toNat
  let manager :=
    if applyAdmissionCap then manager
    else { manager with
      numCheckpointBlocks := manager.numCheckpointBlocks.insert requestId checkpointBlock }
  let numFreshBlocks := 1 + hasPartialHit.toNat + checkpointBlock +
    if requestId ∈ manager.allocatedBlockReqs then 0 else numSpeculativeBlocks
  let numNewBlocks : Int := if numNewBlocks > 0 then numFreshBlocks else numNewBlocks
  (numNewBlocks + getNumEvictableBlocks pool newComputedBlocks, manager)

/-- The last hit was cached by another request in the current step. -/
def hitCachedThisStep (pool : BlockPool H) (manager : SingleTypeKVCacheManager H)
    (newComputedBlocks : List BlockId) : Bool :=
  match newComputedBlocks.getLast? with
  | none => false
  | some last =>
      match (pool.blocks last).blockHash with
      | none => false
      | some key => key ∈ manager.cachedBlocksThisStep

/-- `get_num_blocks_to_allocate` of the manager's class. -/
def getNumBlocksToAllocate (pool : BlockPool H) (manager : SingleTypeKVCacheManager H)
    (requestId : RequestId) (numTokens : Nat) (newComputedBlocks : List BlockId)
    (totalComputedTokens numLocalComputedTokens numTokensMainModel : Nat)
    (applyAdmissionCap : Bool) : Except PyError (Int × SingleTypeKVCacheManager H) :=
  let base (numTokens : Nat) : Except PyError (Int × SingleTypeKVCacheManager H) :=
    (baseNumBlocksToAllocate pool manager requestId numTokens newComputedBlocks
      totalComputedTokens numLocalComputedTokens applyAdmissionCap).map
      fun (count : Nat) => ((count : Int), manager)
  match manager.kvCacheSpec.kind with
  | .circularBuffer => .ok (if manager.blocksOf requestId ≠ [] then 0 else 1, manager)
  | .mamba mode numSpeculativeBlocks numPrefillCheckpointBlocks =>
      if hitCachedThisStep pool manager newComputedBlocks then
        -- More than the pool has: the request waits for the next step.
        .ok (pool.numGpuBlocks + 1, manager)
      else if mode = .align then
        .ok (alignNumBlocksToAllocate pool manager requestId newComputedBlocks
          totalComputedTokens numLocalComputedTokens numTokensMainModel numSpeculativeBlocks
          numPrefillCheckpointBlocks applyAdmissionCap)
      else
        base (numTokens + manager.kvCacheSpec.blockSize * numSpeculativeBlocks)
  | _ => base numTokens

/-! ## Adding computed blocks -/

/-- `SingleTypeKVCacheManager.add_local_computed_blocks`. -/
def addLocalHits (pool : BlockPool H) (manager : SingleTypeKVCacheManager H)
    (requestId : RequestId) (newComputedBlocks : List BlockId)
    (numLocalComputedTokens numExternalComputedTokens : Nat) :
    Except PyError (BlockPool H × SingleTypeKVCacheManager H) := do
  pyAssert ((manager.blocksOf requestId).length = 0)
  let numSkippedBlocks :=
    manager.getNumSkippedBlocks (numLocalComputedTokens + numExternalComputedTokens)
  let newComputedBlocks := newComputedBlocks.drop numSkippedBlocks
  let pool ←
    (if manager.enableCaching then BlockPool.touch newComputedBlocks pool
    else (pyAssert (newComputedBlocks = [])).map fun _ => pool)
  let reqBlocks := List.replicate numSkippedBlocks nullBlock ++ newComputedBlocks
  let manager := manager.setBlocks requestId reqBlocks
  match newComputedBlocks.getLast? with
  | some tail =>
      if numLocalComputedTokens % manager.blockSize ≠ 0 then
        -- The shared tail is redirected by `allocate_new_blocks`.
        let blockIdx := numLocalComputedTokens / manager.blockSize
        pure (pool, { manager with
          partialHitReqs := manager.partialHitReqs.insert requestId (blockIdx, tail)
          numCachedBlock := manager.numCachedBlock.insert requestId blockIdx })
      else
        pure (pool, { manager with
          numCachedBlock := manager.numCachedBlock.insert requestId reqBlocks.length })
  | none =>
      pure (pool, { manager with
        numCachedBlock := manager.numCachedBlock.insert requestId reqBlocks.length })

/-- `add_local_computed_blocks` of the manager's class. -/
def addLocalComputedBlocks (pool : BlockPool H) (manager : SingleTypeKVCacheManager H)
    (requestId : RequestId) (newComputedBlocks : List BlockId)
    (numLocalComputedTokens numExternalComputedTokens : Nat) :
    Except PyError (BlockPool H × SingleTypeKVCacheManager H) :=
  match manager.kvCacheSpec.kind with
  | .circularBuffer => .ok (pool, manager)
  | .crossAttention => do
      pyAssert (newComputedBlocks.length = 0)
      pure (pool, manager)
  | _ =>
      addLocalHits pool manager requestId newComputedBlocks numLocalComputedTokens
        numExternalComputedTokens

section Allocation

variable [BlockHashing H]

/-- Take `count` new blocks and append them to the table. -/
def extendBlocks (pool : BlockPool H) (manager : SingleTypeKVCacheManager H)
    (requestId : RequestId) (count : Nat) :
    Except PyError (List BlockId × BlockPool H × SingleTypeKVCacheManager H) := do
  let (newBlocks, pool) ← pool.getNewBlocks count
  pure (newBlocks, pool,
    (manager.setBlocks requestId (manager.blocksOf requestId ++ newBlocks)).recordBlocks newBlocks)

/-- `CircularBufferManager._claim_ring_block`. -/
def claimRingBlock (pool : BlockPool H) (manager : SingleTypeKVCacheManager H)
    (requestId : RequestId) :
    Except PyError (List BlockId × BlockPool H × SingleTypeKVCacheManager H) :=
  if manager.blocksOf requestId ≠ [] then .ok ([], pool, manager)
  else extendBlocks pool manager requestId 1

section

omit [DecidableEq H] [BlockHashing H]

/-- The external tokens that are not skipped by the attention window. -/
def numExternalInWindow (manager : SingleTypeKVCacheManager H)
    (numLocalComputedTokens numExternalComputedTokens : Nat) : Nat :=
  let numTotalComputedTokens := numLocalComputedTokens + numExternalComputedTokens
  let numSkippedTokens := manager.getNumSkippedTokens numTotalComputedTokens
  if numSkippedTokens > 0 then
    min (numTotalComputedTokens - numSkippedTokens) numExternalComputedTokens
  else
    numExternalComputedTokens

/-- `SingleTypeKVCacheManager.allocate_external_computed_blocks`. -/
def allocateExternalHits (pool : BlockPool H) (manager : SingleTypeKVCacheManager H)
    (requestId : RequestId) (numLocalComputedTokens numExternalComputedTokens : Nat) :
    Except PyError (BlockPool H × SingleTypeKVCacheManager H) :=
  let numTotalComputedTokens := numLocalComputedTokens + numExternalComputedTokens
  if manager.numExternalInWindow numLocalComputedTokens numExternalComputedTokens = 0 then
    .ok (pool, manager)
  else do
    let numNewBlocks := cdiv numTotalComputedTokens manager.blockSize -
      (manager.blocksOf requestId).length
    let (_, pool, manager) ← extendBlocks pool manager requestId numNewBlocks
    pure (pool, manager)

/-- `allocate_external_computed_blocks` of the manager's class. -/
def allocateExternalComputedBlocks (pool : BlockPool H) (manager : SingleTypeKVCacheManager H)
    (requestId : RequestId) (numLocalComputedTokens numExternalComputedTokens : Nat) :
    Except PyError (BlockPool H × SingleTypeKVCacheManager H) :=
  match manager.kvCacheSpec.kind with
  | .circularBuffer => do
      let (_, pool, manager) ← claimRingBlock pool manager requestId
      pure (pool, manager)
  | .crossAttention => .ok (pool, manager)
  | _ =>
      allocateExternalHits pool manager requestId numLocalComputedTokens
        numExternalComputedTokens

/-! ## Allocating new blocks -/

/-- Both ends of a copy stay referenced until it has run. -/
def pinCopy (manager : SingleTypeKVCacheManager H) (sourceBlock cowBlock : BlockId) :
    SingleTypeKVCacheManager H :=
  { manager with pendingCowCopies := manager.pendingCowCopies ++ [(sourceBlock, cowBlock)] }

omit [BlockHashing H] in
/-- `_apply_cow`: the table gets the private copy. -/
def applyCow (pool : BlockPool H) (manager : SingleTypeKVCacheManager H)
    (requestId : RequestId) (blockIdx : Nat) (sourceBlock cowBlock : BlockId) :
    Except PyError (BlockPool H × SingleTypeKVCacheManager H) := do
  let reqBlocks := manager.blocksOf requestId
  pyAssert (reqBlocks[blockIdx]? = some sourceBlock)
  pyAssert (sourceBlock ≠ nullBlock ∧ (pool.blocks sourceBlock).refCnt > 0)
  let cowRecord := pool.blocks cowBlock
  pure (pool.setBlock cowBlock { cowRecord with refCnt := cowRecord.refCnt + 1 },
    (manager.setBlocks requestId (reqBlocks.set blockIdx cowBlock)).pinCopy sourceBlock cowBlock)

/-- The copy-on-write redirect at the start of `allocate_new_blocks`. -/
def redirectPartialHit (pool : BlockPool H) (manager : SingleTypeKVCacheManager H)
    (requestId : RequestId) :
    Except PyError (List BlockId × BlockPool H × SingleTypeKVCacheManager H) :=
  match manager.partialHitReqs.get? requestId with
  | none => .ok ([], pool, manager)
  | some (blockIdx, sourceBlock) => do
      let manager :=
        { manager with partialHitReqs := manager.partialHitReqs.erase requestId }
      let (cowBlocks, pool) ← pool.getNewBlocks 1
      let cowBlock ← pyIndex cowBlocks 0
      let (pool, manager) ← applyCow pool manager requestId blockIdx sourceBlock cowBlock
      pure ([cowBlock], pool, { manager with newBlockIds := manager.newBlockIds ++ [cowBlock] })

/-- `SingleTypeKVCacheManager.allocate_new_blocks`. -/
def baseAllocateNewBlocks (pool : BlockPool H) (manager : SingleTypeKVCacheManager H)
    (requestId : RequestId) (numTokens : Nat) :
    Except PyError (List BlockId × BlockPool H × SingleTypeKVCacheManager H) := do
  let (cowBlocks, pool, manager) ← redirectPartialHit pool manager requestId
  let manager := manager.ensureBlocks requestId
  let numRequiredBlocks := cdiv numTokens manager.blockSize
  let numNewBlocks := numRequiredBlocks - (manager.blocksOf requestId).length
  if numNewBlocks = 0 then
    pure (cowBlocks, pool, manager)
  else do
    let (newBlocks, pool, manager) ← extendBlocks pool manager requestId numNewBlocks
    pure (cowBlocks ++ newBlocks, pool, manager)

omit [BlockHashing H] in
/-- `_relocate_speculative_block` for each index of a range: an exclusively owned
scratch block moves to the end of the table. -/
def relocateSpeculativeBlocks (pool : BlockPool H) :
    List Nat → List BlockId → Except PyError (List BlockId)
  | [], reqBlocks => .ok reqBlocks
  | blockIdx :: rest, reqBlocks => do
      let block ← pyIndex reqBlocks blockIdx
      pyAssert (pool.isBlockWritable block = true)
      relocateSpeculativeBlocks pool rest ((reqBlocks ++ [block]).set blockIdx nullBlock)

/-- The partial-hit part of the align-mode allocation: the hit state goes to the
private copy `cowBlock`, which a new request takes into its table while a
running one hands it to the prefix cache. -/
def privatizePartialHit (pool : BlockPool H) (manager : SingleTypeKVCacheManager H)
    (requestId : RequestId) (blocksAllocated : Bool) (blockIdx : Nat)
    (sourceBlock cowBlock : BlockId) :
    Except PyError (BlockPool H × SingleTypeKVCacheManager H) :=
  if blocksAllocated then do
    pyAssert ((manager.blocksOf requestId)[blockIdx]? = some sourceBlock)
    let pool ← pool.moveBlockHashes sourceBlock cowBlock
    let sourceRecord := pool.blocks sourceBlock
    let pool := pool.setBlock sourceBlock { sourceRecord with refCnt := sourceRecord.refCnt + 1 }
    let offloads :=
      match manager.producerPartialTailReqs.get? requestId with
      | none => manager.pendingBoundaryStateOffloads
      | some boundaryTokens => manager.pendingBoundaryStateOffloads ++
          [(requestId, manager.kvCacheGroupId, cowBlock, boundaryTokens)]
    let cachedThisStep :=
      match (pool.blocks cowBlock).blockHash with
      | none => manager.cachedBlocksThisStep
      | some key => manager.cachedBlocksThisStep ++ [key]
    pure (pool, { manager.pinCopy sourceBlock cowBlock with
      producerPartialTailReqs := manager.producerPartialTailReqs.erase requestId
      pendingBoundaryStateOffloads := offloads
      cachedBlocksThisStep := cachedThisStep })
  else
    applyCow pool manager requestId blockIdx sourceBlock cowBlock

/-- The index of the last state block before an allocation, where one exists. -/
def recordLastStateBlock (manager : SingleTypeKVCacheManager H) (requestId : RequestId)
    (numSpeculativeBlocks : Nat) : SingleTypeKVCacheManager H :=
  let prevBlockLen := (manager.blocksOf requestId).length
  if requestId ∈ manager.allocatedBlockReqs then
    { manager with
      lastStateBlockIdx := manager.lastStateBlockIdx.insert requestId
        ((prevBlockLen : Int) - 1 - numSpeculativeBlocks) }
  else if prevBlockLen > 0 then
    { manager with
      lastStateBlockIdx := manager.lastStateBlockIdx.insert requestId
        ((prevBlockLen : Int) - 1) }
  else
    manager

omit [BlockHashing H] in
/-- The table before new blocks are taken in align mode: null blocks up to the
last state (less the internal checkpoint), then the relocated scratch blocks. -/
def alignTable (pool : BlockPool H) (manager : SingleTypeKVCacheManager H)
    (requestId : RequestId) (numSkippedBlocks checkpointBlock numSpeculativeBlocks : Nat) :
    Except PyError (List BlockId) :=
  let reqBlocks := manager.blocksOf requestId
  let prevBlockLen := reqBlocks.length
  let padded :=
    if prevBlockLen < numSkippedBlocks then
      reqBlocks ++
        List.replicate (numSkippedBlocks - checkpointBlock - prevBlockLen) nullBlock
    else
      reqBlocks
  if requestId ∈ manager.allocatedBlockReqs then
    let scratch := (List.range prevBlockLen).drop (prevBlockLen - numSpeculativeBlocks)
    relocateSpeculativeBlocks pool (scratch.filter (· < numSkippedBlocks)) padded
  else
    .ok padded

/-- `_allocated_block_reqs.add`. -/
def markAllocated (manager : SingleTypeKVCacheManager H) (requestId : RequestId) :
    SingleTypeKVCacheManager H :=
  if requestId ∈ manager.allocatedBlockReqs then manager
  else { manager with allocatedBlockReqs := manager.allocatedBlockReqs ++ [requestId] }

/-- `MambaManager.allocate_new_blocks` in align mode. -/
def alignAllocateNewBlocks (pool : BlockPool H) (manager : SingleTypeKVCacheManager H)
    (requestId : RequestId) (numTokensMainModel numSpeculativeBlocks : Nat) :
    Except PyError (List BlockId × BlockPool H × SingleTypeKVCacheManager H) := do
  let manager := manager.ensureBlocks requestId
  let prevBlockLen := (manager.blocksOf requestId).length
  let numRequiredBlocks := cdiv numTokensMainModel manager.blockSize + numSpeculativeBlocks
  let checkpointBlock := manager.numCheckpointBlocks.getD requestId 0
  let partialHit := manager.partialHitReqs.get? requestId
  let blocksAllocated : Bool := requestId ∈ manager.allocatedBlockReqs
  if numRequiredBlocks ≤ prevBlockLen ∧ partialHit.isNone then
    pure ([], pool, manager.markAllocated requestId)
  else do
    let manager := manager.recordLastStateBlock requestId numSpeculativeBlocks
    let numSkippedBlocks := numRequiredBlocks - numSpeculativeBlocks - 1
    let reqBlocks ← alignTable pool manager requestId numSkippedBlocks checkpointBlock
      numSpeculativeBlocks
    let manager := manager.setBlocks requestId reqBlocks
    let numNewBlocks : Int := numRequiredBlocks - reqBlocks.length
    let numNewBlocks := if partialHit.isSome then max numNewBlocks 0 + 1 else numNewBlocks
    let maxNewBlocks := 1 + partialHit.isSome.toNat + checkpointBlock +
      if blocksAllocated then 0 else numSpeculativeBlocks
    pyAssert (numNewBlocks ≤ maxNewBlocks)
    -- Never negative here: the table is not longer than required.
    let (newBlocks, pool) ← pool.getNewBlocks numNewBlocks.toNat
    let appended := reqBlocks.drop prevBlockLen
    let (returned, newBlocks, pool, manager) ←
      (match partialHit with
      | none => .ok (appended, newBlocks, pool, manager)
      | some (blockIdx, sourceBlock) => do
          let cowBlock ← pyIndex newBlocks 0
          let (pool, manager) ← privatizePartialHit pool manager requestId blocksAllocated
            blockIdx sourceBlock cowBlock
          pure (if blocksAllocated then appended else cowBlock :: appended,
            newBlocks.drop 1, pool, manager))
    pure (returned ++ newBlocks, pool, { (manager.setBlocks requestId
          (manager.blocksOf requestId ++ newBlocks)).markAllocated requestId with
        partialHitReqs := manager.partialHitReqs.erase requestId })

/-- `allocate_new_blocks` of the manager's class. -/
def allocateNewBlocks (pool : BlockPool H) (manager : SingleTypeKVCacheManager H)
    (requestId : RequestId) (numTokens numTokensMainModel : Nat) :
    Except PyError (List BlockId × BlockPool H × SingleTypeKVCacheManager H) :=
  match manager.kvCacheSpec.kind with
  | .circularBuffer => claimRingBlock pool manager requestId
  | .mamba mode numSpeculativeBlocks _ =>
      if mode = .align then
        alignAllocateNewBlocks pool manager requestId numTokensMainModel numSpeculativeBlocks
      else
        baseAllocateNewBlocks pool manager requestId
          (numTokens + manager.blockSize * numSpeculativeBlocks)
  | _ => baseAllocateNewBlocks pool manager requestId numTokens

/-! ## Caching blocks -/

/-- The token positions whose tail must stay cached under sparse retention. -/
def reachableBoundaries (request : Request H) : List Int :=
  ((request.numPromptTokens : Int) - 1) ::
    if request.sharedPrefixBoundary ≠ 0 then [(request.sharedPrefixBoundary : Int)] else []

/-- `SlidingWindowManager.reachable_block_mask`, read off block by block. -/
def slidingWindowBlockMask (slidingWindow blockSize startBlock endBlock alignmentTokens : Nat)
    (useEagle : Bool) (retentionInterval : Option Nat) (boundaries : List Int) :
    Except PyError (Option (List Bool)) := do
  pyAssert (alignmentTokens % blockSize = 0)
  let need := contiguousBlocksForHit slidingWindow blockSize useEagle
  let shift := if useEagle then 1 else 0
  let segmentTokens :=
    match retentionInterval with
    | none => some alignmentTokens
    | some 0 => none
    | some interval => some interval
  let perSegment := segmentTokens.map (· / blockSize)
  if perSegment.any (need ≥ ·) then
    pure none
  else
    let inSegmentTail (block : Nat) : Bool :=
      perSegment.any fun size => shift ≤ block ∧ (block - shift) % size ≥ size - need
    let inBoundaryTail (block : Nat) : Bool :=
      retentionInterval.isSome && boundaries.any fun boundaryTokens =>
        let tailEnd := boundaryTokens / alignmentTokens * alignmentTokens / blockSize + shift
        tailEnd - need ≤ block ∧ (block : Int) < tailEnd
    pure (some ((List.range (endBlock - startBlock)).map fun i =>
      inSegmentTail (startBlock + i) || inBoundaryTail (startBlock + i)))

/-- `MambaManager.reachable_block_mask`, read off block by block. -/
def mambaBlockMask (blockSize startBlock endBlock alignmentTokens : Nat)
    (retentionInterval : Option Nat) (boundaries : List Int) : Option (List Bool) :=
  match retentionInterval with
  | none => none
  | some interval =>
      let perSegment := interval / blockSize
      if interval ≠ 0 ∧ perSegment ≤ 1 then
        none
      else
        let firstBoundary := (startBlock + perSegment) / perSegment * perSegment - 1
        let onSegment (i : Nat) : Bool :=
          interval ≠ 0 ∧ firstBoundary - startBlock ≤ i ∧
            (i - (firstBoundary - startBlock)) % perSegment = 0
        let onBoundary (block : Nat) : Bool :=
          boundaries.any fun boundaryTokens =>
            boundaryTokens / alignmentTokens * alignmentTokens / blockSize - 1 = (block : Int)
        some ((List.range (endBlock - startBlock)).map fun i =>
          onSegment i || onBoundary (startBlock + i))

/-- `reachable_block_mask` of the manager's class. -/
def reachableBlockMask (manager : SingleTypeKVCacheManager H) (request : Request H)
    (startBlock endBlock : Nat) (retentionInterval : Option Nat) :
    Except PyError (Option (List Bool)) :=
  match manager.kvCacheSpec.kind with
  | .slidingWindow slidingWindow _ =>
      slidingWindowBlockMask slidingWindow manager.kvCacheSpec.blockSize startBlock endBlock
        manager.cacheHitAlignmentTokens manager.useEagle retentionInterval
        (reachableBoundaries request)
  | .mamba .. =>
      .ok (mambaBlockMask manager.kvCacheSpec.blockSize startBlock endBlock
        manager.cacheHitAlignmentTokens retentionInterval (reachableBoundaries request))
  | _ => .ok none

/-- `SingleTypeKVCacheManager.cache_blocks`. -/
def baseCacheBlocks (pool : BlockPool H) (manager : SingleTypeKVCacheManager H)
    (request : Request H) (numTokens : Nat) (retentionInterval : Option Nat) :
    Except PyError (BlockPool H × SingleTypeKVCacheManager H) :=
  let numCachedBlocks := manager.numCachedBlock.getD request.requestId 0
  let numFullBlocks := numTokens / manager.blockSize
  if numCachedBlocks ≥ numFullBlocks then
    .ok (pool, manager)
  else do
    let blockMask ←
      manager.reachableBlockMask request numCachedBlocks numFullBlocks retentionInterval
    let manager := manager.ensureBlocks request.requestId
    let pool ← pool.cacheFullBlocks request (manager.blocksOf request.requestId)
      numCachedBlocks numFullBlocks manager.blockSize manager.kvCacheGroupId blockMask
    pure (pool, { manager with
      numCachedBlock := manager.numCachedBlock.insert request.requestId numFullBlocks })

/-- `FullAttentionManager._cache_partial_tail_block`. -/
def cachePartialTailBlock (pool : BlockPool H) (manager : SingleTypeKVCacheManager H)
    (request : Request H) (numTokens : Nat) :
    Except PyError (BlockPool H × SingleTypeKVCacheManager H) :=
  let hashBlockSize := pool.hashBlockSize
  let boundaryTokens := request.numPromptTokens / hashBlockSize * hashBlockSize
  if boundaryTokens = 0 ∨ boundaryTokens > numTokens ∨
      boundaryTokens % manager.blockSize = 0 then
    .ok (pool, manager)
  else
    let manager := manager.ensureBlocks request.requestId
    match (manager.blocksOf request.requestId)[boundaryTokens / manager.blockSize]? with
    | none => .ok (pool, manager)
    | some block => do
        let (_, pool) ← pool.cachePartialBlock request block boundaryTokens
          manager.kvCacheGroupId manager.blockSize
        pure (pool, manager)

/-- `MambaManager._cache_partial_tail_block`: the state at the last prompt
boundary becomes reachable, and the next allocation moves it to a copy. -/
def cacheMambaTailBlock (pool : BlockPool H) (manager : SingleTypeKVCacheManager H)
    (request : Request H) (numTokens : Nat) :
    Except PyError (Option (BlockHashWithGroupId H) × BlockPool H × SingleTypeKVCacheManager H) :=
  let hashBlockSize := pool.hashBlockSize
  let boundaryTokens := request.numPromptTokens / hashBlockSize * hashBlockSize
  if manager.blockSize = hashBlockSize ∨ numTokens % manager.blockSize = 0 ∨
      numTokens % hashBlockSize ≠ 0 ∨ numTokens ≠ boundaryTokens then
    .ok (none, pool, manager)
  else
    let blockIdx := numTokens / manager.blockSize
    let manager := manager.ensureBlocks request.requestId
    match (manager.blocksOf request.requestId)[blockIdx]? with
    | none => .ok (none, pool, manager)
    | some sourceBlock =>
        if sourceBlock = nullBlock then
          .ok (none, pool, manager)
        else do
          let (partialHash, pool) ← pool.cachePartialBlock request sourceBlock numTokens
            manager.kvCacheGroupId manager.blockSize
          if partialHash.isSome then
            pure (partialHash, pool, { manager with
              partialHitReqs := manager.partialHitReqs.insert request.requestId
                (blockIdx, sourceBlock)
              numCachedBlock := manager.numCachedBlock.insert request.requestId blockIdx
              producerPartialTailReqs := manager.producerPartialTailReqs.insert
                request.requestId numTokens })
          else
            pure (partialHash, pool, manager)

/-- Note the states cached in this step, for the blocks with the given indices;
align mode also offers them for offloading. -/
def noteCachedStates (pool : BlockPool H) (requestId : RequestId) (align : Bool) :
    List Nat → SingleTypeKVCacheManager H → Except PyError (SingleTypeKVCacheManager H)
  | [], manager => .ok manager
  | idx :: rest, manager => do
      let block ← pyIndex (manager.blocksOf requestId) idx
      match (pool.blocks block).blockHash with
      | none => noteCachedStates pool requestId align rest manager
      | some key =>
          if block = nullBlock then
            noteCachedStates pool requestId align rest manager
          else
            noteCachedStates pool requestId align rest
              { manager with
                cachedBlocksThisStep := manager.cachedBlocksThisStep ++ [key]
                pendingBoundaryStateOffloads :=
                  if align then
                    manager.pendingBoundaryStateOffloads ++
                      [(requestId, manager.kvCacheGroupId, block, (idx + 1) * manager.blockSize)]
                  else
                    manager.pendingBoundaryStateOffloads }

end

/-- `MambaManager.cache_blocks`. -/
def mambaCacheBlocks (pool : BlockPool H) (manager : SingleTypeKVCacheManager H)
    (request : Request H) (numTokens : Nat) (align : Bool) (retentionInterval : Option Nat) :
    Except PyError (BlockPool H × SingleTypeKVCacheManager H) := do
  let numCachedBlocksBefore := manager.numCachedBlock.getD request.requestId 0
  let (pool, manager) ← baseCacheBlocks pool manager request numTokens retentionInterval
  let numCachedBlocksAfter := manager.numCachedBlock.getD request.requestId 0
  let (partialHash, pool, manager) ←
    (if align then cacheMambaTailBlock pool manager request numTokens
    else .ok (none, pool, manager))
  let manager :=
    { manager with cachedBlocksThisStep := manager.cachedBlocksThisStep ++ partialHash.toList }
  let manager ← noteCachedStates pool request.requestId align
    ((List.range numCachedBlocksAfter).drop numCachedBlocksBefore) manager
  pure (pool, manager)

/-- `cache_blocks` of the manager's class. -/
def cacheBlocks (pool : BlockPool H) (manager : SingleTypeKVCacheManager H)
    (request : Request H) (numTokens : Nat) (retentionInterval : Option Nat) :
    Except PyError (BlockPool H × SingleTypeKVCacheManager H) :=
  match manager.kvCacheSpec.kind with
  | .fullAttention | .rswa _ => do
      let (pool, manager) ← baseCacheBlocks pool manager request numTokens retentionInterval
      if manager.blockSize = pool.hashBlockSize then pure (pool, manager)
      else cachePartialTailBlock pool manager request numTokens
  | .circularBuffer => .ok (pool, manager)
  | .mamba mode _ _ =>
      mambaCacheBlocks pool manager request numTokens (mode = .align) retentionInterval
  | .crossAttention =>
      .error (.valueError "Should not be called as prefix caching is disabled.")
  | _ => baseCacheBlocks pool manager request numTokens retentionInterval

end Allocation

/-! ## Releasing blocks -/

/-- `pop_blocks_for_free` of the manager's class. -/
def popBlocksForFree (manager : SingleTypeKVCacheManager H) (requestId : RequestId) :
    List BlockId × SingleTypeKVCacheManager H :=
  let manager :=
    match manager.kvCacheSpec.kind with
    | .mamba .align _ _ =>
        { manager with
          allocatedBlockReqs := manager.allocatedBlockReqs.filter (· ≠ requestId)
          lastStateBlockIdx := manager.lastStateBlockIdx.erase requestId
          numCheckpointBlocks := manager.numCheckpointBlocks.erase requestId
          producerPartialTailReqs := manager.producerPartialTailReqs.erase requestId
          pendingBoundaryStateOffloads :=
            manager.pendingBoundaryStateOffloads.filter (·.1 ≠ requestId) }
    | _ => manager
  (manager.blocksOf requestId, { manager with
      reqToBlocks := manager.reqToBlocks.erase requestId
      numCachedBlock := manager.numCachedBlock.erase requestId
      partialHitReqs := manager.partialHitReqs.erase requestId })

/-- `free`. -/
def free (pool : BlockPool H) (manager : SingleTypeKVCacheManager H) (requestId : RequestId) :
    Except PyError (BlockPool H × SingleTypeKVCacheManager H) := do
  let popped := manager.popBlocksForFree requestId
  let pool ← pool.freeBlocks popped.1.reverse
  pure (pool, popped.2)

/-- The backward loop of `_remove_blocks_in_range` from index `first + count - 1`
down to `first`, stopping at a null block: the freed blocks and the new table. -/
def nullRange (first : Nat) : Nat → List BlockId → List BlockId × List BlockId
  | 0, blocks => ([], blocks)
  | count + 1, blocks =>
      match blocks[first + count]? with
      | none => ([], blocks)
      | some block =>
          if block = nullBlock then
            ([], blocks)
          else
            let others := nullRange first count (blocks.set (first + count) nullBlock)
            (block :: others.1, others.2)

/-- `_remove_blocks_in_range`. -/
def removeBlocksInRange (pool : BlockPool H) (manager : SingleTypeKVCacheManager H)
    (requestId : RequestId) (firstBlock lastBlock : Nat) :
    Except PyError (BlockPool H × SingleTypeKVCacheManager H) :=
  match manager.reqToBlocks.get? requestId with
  | none => .ok (pool, manager)
  | some blocks =>
      let lastBlock := min lastBlock blocks.length
      let nulled := nullRange firstBlock (lastBlock - firstBlock) blocks
      if nulled.1 = [] then
        .ok (pool, manager)
      else do
        let pool ← pool.freeBlocks nulled.1
        pure (pool, manager.setBlocks requestId nulled.2)

/-- `SingleTypeKVCacheManager.remove_skipped_blocks`. -/
def baseRemoveSkippedBlocks (pool : BlockPool H) (manager : SingleTypeKVCacheManager H)
    (requestId : RequestId) (processedComputedTokens : Nat) :
    Except PyError (BlockPool H × SingleTypeKVCacheManager H) :=
  if manager.getNumSkippedTokens processedComputedTokens = 0 then
    .ok (pool, manager)
  else
    let manager := manager.ensureBlocks requestId
    let numSkippedBlocks := min (manager.getNumSkippedBlocks processedComputedTokens)
      (manager.blocksOf requestId).length
    removeBlocksInRange pool manager requestId 0 numSkippedBlocks

/-- The align-mode part of `MambaManager.remove_skipped_blocks`: the state block
of two steps ago is not needed any more. -/
def removeLastStateBlock (pool : BlockPool H) (manager : SingleTypeKVCacheManager H)
    (requestId : RequestId) (processedComputedTokens : Nat) :
    Except PyError (BlockPool H × SingleTypeKVCacheManager H) :=
  match manager.lastStateBlockIdx.get? requestId with
  | none => .ok (pool, manager)
  | some lastStateBlockIdx =>
      if lastStateBlockIdx < (cdiv processedComputedTokens manager.blockSize : Int) - 1 then do
        let manager := manager.ensureBlocks requestId
        let blocks := manager.blocksOf requestId
        let index := pyNormalizeIndex blocks lastStateBlockIdx
        let block ← pyIndex blocks index
        if block = nullBlock then
          pure (pool, manager)
        else do
          let pool ← pool.freeBlocks [block]
          pure (pool, manager.setBlocks requestId (blocks.set index nullBlock))
      else
        .ok (pool, manager)

/-- `remove_skipped_blocks` of the manager's class. -/
def removeSkippedBlocks (pool : BlockPool H) (manager : SingleTypeKVCacheManager H)
    (requestId : RequestId) (processedComputedTokens : Nat) (numPromptTokens : Option Nat) :
    Except PyError (BlockPool H × SingleTypeKVCacheManager H) :=
  match manager.kvCacheSpec.kind with
  | .circularBuffer => .ok (pool, manager)
  | .rswa rswaWindow =>
      match numPromptTokens with
      | none => baseRemoveSkippedBlocks pool manager requestId processedComputedTokens
      | some numPromptTokens =>
          let firstGapBlock := cdiv numPromptTokens manager.blockSize
          let windowStart := max numPromptTokens (processedComputedTokens - rswaWindow)
          removeBlocksInRange pool manager requestId firstGapBlock
            (windowStart / manager.blockSize)
  | .mamba .align _ _ => do
      let (pool, manager) ←
        baseRemoveSkippedBlocks pool manager requestId processedComputedTokens
      removeLastStateBlock pool manager requestId processedComputedTokens
  | _ => baseRemoveSkippedBlocks pool manager requestId processedComputedTokens

/-- `take_pending_cow_copies`. -/
def takePendingCowCopies (manager : SingleTypeKVCacheManager H) :
    List (BlockId × BlockId) × SingleTypeKVCacheManager H :=
  (manager.pendingCowCopies, { manager with pendingCowCopies := [] })

/-- `take_new_block_ids`. -/
def takeNewBlockIds (manager : SingleTypeKVCacheManager H) :
    List BlockId × SingleTypeKVCacheManager H :=
  (manager.newBlockIds, { manager with newBlockIds := [] })

/-- `new_step_starts`: a Mamba manager forgets the states cached in the step. -/
def newStepStarts (manager : SingleTypeKVCacheManager H) : SingleTypeKVCacheManager H :=
  match manager.kvCacheSpec.kind with
  | .mamba .. => { manager with cachedBlocksThisStep := [] }
  | _ => manager

/-- `get_num_common_prefix_blocks` of the manager's class. -/
def getNumCommonPrefixBlocks (pool : BlockPool H) (manager : SingleTypeKVCacheManager H)
    (runningRequestId : RequestId) : Nat × SingleTypeKVCacheManager H :=
  match manager.kvCacheSpec.kind with
  | .fullAttention | .rswa _ =>
      let manager := manager.ensureBlocks runningRequestId
      (((manager.blocksOf runningRequestId).takeWhile fun block =>
        (pool.blocks block).refCnt = manager.reqToBlocks.size).length, manager)
  | _ => (0, manager)

end SingleTypeKVCacheManager

end Vllm.Core
