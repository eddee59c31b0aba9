import Mathlib.Algebra.Ring.Int.Defs
import Vllm.Core.SingleTypeKVCacheManager

/-!
# KV cache coordinators

A coordinator owns the block pool and one manager per KV cache group.  Its
methods visit the managers in group order, and the pool flows through them, so
what one manager takes from the pool is gone for the next one.
-/

namespace Vllm.Core

open Vllm.Library

/-- `KVCacheGroupSpec`, less the layer names. -/
structure KVCacheGroupSpec where
  kvCacheSpec : KVCacheSpec
  isEagleGroup : Bool := false
  deriving DecidableEq, Repr

/-- The part of `KVCacheConfig` that reaches the scheduler's side. -/
structure KVCacheConfig where
  numBlocks : Nat
  kvCacheGroups : List KVCacheGroupSpec
  prefixCacheRetentionInterval : Option Int := none
  needsKvCacheZeroing : Bool := false
  deriving DecidableEq, Repr

/-- The coordinator classes. -/
inductive CoordinatorKind where
  | noPrefixCache
  | unitary
  | hybrid
  deriving DecidableEq, Repr

/-- `SpecGroup`: groups with one specification, looked up together. -/
structure SpecGroup where
  spec : KVCacheSpec
  groupIds : List Nat
  useEagle : Bool
  deriving DecidableEq, Repr

/-- `KVCacheCoordinator` and its subclasses; the fields from `hashBlockSize` on
belong to the hybrid coordinator. -/
structure KVCacheCoordinator (H : Type) where
  kind : CoordinatorKind
  enableCaching : Bool
  schedulerBlockSize : Nat
  numReprefillableTokens : Nat
  blockPool : BlockPool H
  eagleGroupIds : List Nat
  singleTypeManagers : List (SingleTypeKVCacheManager H)
  retentionInterval : Option Nat
  hashBlockSize : Nat
  enablePartialHashHits : Bool
  attentionGroups : List SpecGroup

namespace KVCacheCoordinator

/-- `_validate_prefix_cache_retention_interval`, returning the accepted value. -/
def validatePrefixCacheRetentionInterval (config : KVCacheConfig) (schedulerBlockSize : Nat) :
    Except PyError (Option Nat) :=
  match config.prefixCacheRetentionInterval with
  | none => .ok none
  | some interval =>
      if !config.kvCacheGroups.any fun group =>
          group.kvCacheSpec.isSlidingWindow || group.kvCacheSpec.isMamba then
        if interval = 0 then .ok (some 0)
        else
          .error (.valueError ("prefix_cache_retention_interval is set but this model has " ++
            "no sliding-window or Mamba KV cache group, so retention has no effect. " ++
            "Set it to 0 (it only applies to sliding-window and Mamba attention)."))
      else if interval < 0 ∨ interval % schedulerBlockSize ≠ 0 then
        .error (.valueError (s!"prefix_cache_retention_interval ({interval}) must be " ++
          "non-negative and a multiple of scheduler_block_size " ++
          s!"({schedulerBlockSize})."))
      else
        .ok (some interval.toNat)

/-- `dcp_world_size_for_kv_cache_spec`. -/
def dcpWorldSizeForKvCacheSpec (spec : KVCacheSpec) (dcpWorldSize : Nat) : Nat :=
  if dcpWorldSize ≤ 1 then 1
  else if spec.isFullAttention then dcpWorldSize
  else 1

/-- The groups that get the EAGLE last-block drop. -/
def eagleGroupIdsOf (config : KVCacheConfig) (useEagle : Bool) : List Nat :=
  let flagged := (List.range config.kvCacheGroups.length).filter fun i =>
    (config.kvCacheGroups[i]?).any (·.isEagleGroup)
  if useEagle ∧ flagged = [] then List.range config.kvCacheGroups.length else flagged

/-- `get_manager_for_kv_cache_spec` for each group. -/
def initManagers {H : Type} (config : KVCacheConfig)
    (maxModelLen maxInFlightTokens : Nat) (enableCaching : Bool)
    (dcpWorldSize schedulerBlockSize : Nat) : List (SingleTypeKVCacheManager H) :=
  config.kvCacheGroups.mapIdx fun i group =>
    SingleTypeKVCacheManager.init group.kvCacheSpec enableCaching i schedulerBlockSize
      (dcpWorldSizeForKvCacheSpec group.kvCacheSpec dcpWorldSize) config.needsKvCacheZeroing
      (group.kvCacheSpec.maxAdmissionBlocksPerRequest maxInFlightTokens maxModelLen)

/-- `KVCacheCoordinator.__init__`. -/
def baseInit {H : Type} (kind : CoordinatorKind) (config : KVCacheConfig)
    (maxModelLen maxInFlightTokens : Nat) (useEagle enableCaching enableKvCacheEvents : Bool)
    (dcpWorldSize schedulerBlockSize hashBlockSize numPrefillLookahead : Nat) :
    Except PyError (KVCacheCoordinator H) := do
  pyAssert (schedulerBlockSize % hashBlockSize = 0 ∧
    config.kvCacheGroups.all fun group =>
      schedulerBlockSize % group.kvCacheSpec.blockSize = 0)
  let blockPool ← BlockPool.init config.numBlocks enableCaching hashBlockSize enableKvCacheEvents
  let eagleGroupIds := eagleGroupIdsOf config useEagle
  if enableCaching ∧ eagleGroupIds ≠ [] ∧ schedulerBlockSize < numPrefillLookahead then
    .error (.valueError ("Multi-module MTP with prefix caching requires scheduler_block_size" ++
      s!" (={schedulerBlockSize}) >= num_speculative_tokens (={numPrefillLookahead})."))
  else do
    let retentionInterval ← validatePrefixCacheRetentionInterval config schedulerBlockSize
    pure
      { kind := kind
        enableCaching := enableCaching
        schedulerBlockSize := schedulerBlockSize
        numReprefillableTokens := numPrefillLookahead - 1
        blockPool := blockPool
        eagleGroupIds := eagleGroupIds
        singleTypeManagers := initManagers config maxModelLen maxInFlightTokens enableCaching
          dcpWorldSize schedulerBlockSize
        retentionInterval := retentionInterval
        hashBlockSize := hashBlockSize
        enablePartialHashHits := false
        attentionGroups := [] }

/-- `UnitaryKVCacheCoordinator.__init__` after the base class. -/
def unitaryInit {H : Type} (config : KVCacheConfig) (coordinator : KVCacheCoordinator H) :
    Except PyError (KVCacheCoordinator H) := do
  let manager ← pyIndex coordinator.singleTypeManagers 0
  pyAssert (coordinator.enableCaching = false ∨ coordinator.hashBlockSize = manager.blockSize)
  pyAssert (config.kvCacheGroups.length = 1)
  pure { coordinator with
    singleTypeManagers := [{ manager with useEagle := 0 ∈ coordinator.eagleGroupIds }] }

/-- Whether fine-grained hash hits are possible: a Mamba group in align mode with
hashing finer than its blocks, and no manager that needs block-aligned lookups. -/
def partialHashHitsOf {H : Type} (managers : List (SingleTypeKVCacheManager H))
    (dcpWorldSize hashBlockSize : Nat) : Bool :=
  let hasPartialMambaGroup := managers.any fun manager =>
    match manager.kvCacheSpec.kind with
    | .mamba .align _ _ =>
        (dcpWorldSize = 1 ∧ manager.kvCacheSpec.blockSize > hashBlockSize) ∨
          (dcpWorldSize > 1 ∧ manager.kvCacheSpec.blockSize ≥ hashBlockSize)
    | _ => false
  hasPartialMambaGroup && !managers.any fun manager =>
    manager.kvCacheSpec.prefixCacheable && !manager.kvCacheSpec.supportsFineGrainedHashLookup &&
      manager.blockSize ≠ hashBlockSize

/-- One step of `verify_and_split_kv_cache_groups`: group `i` joins the groups of
its specification. -/
def addToSpecGroups (i : Nat) (spec : KVCacheSpec) (useEagle : Bool) :
    List SpecGroup → List SpecGroup
  | [] => [{ spec := spec, groupIds := [i], useEagle := useEagle }]
  | group :: rest =>
      if group.spec = spec then
        { group with groupIds := group.groupIds ++ [i], useEagle := group.useEagle || useEagle } ::
          rest
      else
        group :: addToSpecGroups i spec useEagle rest

/-- The specification groups of the cacheable groups, full attention first. -/
def splitKvCacheGroups (groups : List KVCacheGroupSpec) (eagleGroupIds : List Nat) :
    List SpecGroup :=
  let split := (groups.zipIdx).foldl
    (fun found (group, i) =>
      if group.kvCacheSpec.prefixCacheable then
        addToSpecGroups i group.kvCacheSpec (i ∈ eagleGroupIds) found
      else
        found) []
  split.filter (·.spec.isFullAttention) ++ split.filter (!·.spec.isFullAttention)

/-- `HybridKVCacheCoordinator.__init__` after the base class. -/
def hybridInit {H : Type} (config : KVCacheConfig) (dcpWorldSize : Nat)
    (coordinator : KVCacheCoordinator H) : Except PyError (KVCacheCoordinator H) := do
  let hashBlockSize := coordinator.hashBlockSize
  let managers := coordinator.singleTypeManagers
  pyAssert (managers.all fun manager =>
    !manager.kvCacheSpec.prefixCacheable || manager.blockSize % hashBlockSize = 0)
  pyAssert (dcpWorldSize ≤ 1 ∨ managers.all fun manager =>
    manager.kvCacheSpec.isFullAttention || manager.kvCacheSpec.isMamba)
  let enablePartialHashHits := partialHashHitsOf managers dcpWorldSize hashBlockSize
  let cacheHitAlignmentTokens :=
    if enablePartialHashHits then hashBlockSize else coordinator.schedulerBlockSize
  let attentionGroups := splitKvCacheGroups config.kvCacheGroups coordinator.eagleGroupIds
  pyAssert (attentionGroups ≠ [])
  pure { coordinator with
    enablePartialHashHits := enablePartialHashHits
    attentionGroups := attentionGroups
    singleTypeManagers := managers.mapIdx fun i manager => { manager with
      cacheHitAlignmentTokens := cacheHitAlignmentTokens
      useEagle := attentionGroups.any fun group => group.useEagle && i ∈ group.groupIds } }

/-- `get_kv_cache_coordinator`. -/
def getKvCacheCoordinator {H : Type} (config : KVCacheConfig)
    (maxModelLen maxInFlightTokens : Nat) (useEagle enableCaching enableKvCacheEvents : Bool)
    (dcpWorldSize schedulerBlockSize hashBlockSize numPrefillLookahead : Nat) :
    Except PyError (KVCacheCoordinator H) :=
  if !enableCaching then
    baseInit .noPrefixCache config maxModelLen maxInFlightTokens useEagle false
      enableKvCacheEvents dcpWorldSize schedulerBlockSize hashBlockSize numPrefillLookahead
  else if config.kvCacheGroups.length = 1 then do
    let coordinator ← baseInit .unitary config maxModelLen maxInFlightTokens useEagle true
      enableKvCacheEvents dcpWorldSize schedulerBlockSize hashBlockSize numPrefillLookahead
    unitaryInit config coordinator
  else do
    let coordinator ← baseInit .hybrid config maxModelLen maxInFlightTokens useEagle true
      enableKvCacheEvents dcpWorldSize schedulerBlockSize hashBlockSize numPrefillLookahead
    hybridInit config dcpWorldSize coordinator

/-! ## Visiting the managers -/

section Operations

variable {H : Type}

/-- Call `visit` on each manager in group order, with its group index; the pool
flows through, and the results are collected. -/
def forManagers {α : Type}
    (visit : Nat → BlockPool H → SingleTypeKVCacheManager H →
      Except PyError (α × BlockPool H × SingleTypeKVCacheManager H)) :
    Nat → BlockPool H → List (SingleTypeKVCacheManager H) →
      Except PyError (List α × BlockPool H × List (SingleTypeKVCacheManager H))
  | _, pool, [] => .ok ([], pool, [])
  | i, pool, manager :: rest => do
      let (result, pool, manager) ← visit i pool manager
      let (results, pool, managers) ← forManagers visit (i + 1) pool rest
      pure (result :: results, pool, manager :: managers)

/-- `forManagers` for calls without a result. -/
def visitManagers (coordinator : KVCacheCoordinator H)
    (visit : Nat → BlockPool H → SingleTypeKVCacheManager H →
      Except PyError (BlockPool H × SingleTypeKVCacheManager H)) :
    Except PyError (KVCacheCoordinator H) := do
  let (_, pool, managers) ← forManagers
    (fun i pool manager => (visit i pool manager).map fun after => ((), after)) 0
    coordinator.blockPool coordinator.singleTypeManagers
  pure { coordinator with blockPool := pool, singleTypeManagers := managers }

variable [DecidableEq H]

/-- `get_num_blocks_to_allocate`.  Managers may note the prediction. -/
def getNumBlocksToAllocate (coordinator : KVCacheCoordinator H) (requestId : RequestId)
    (numTokens : Nat) (newComputedBlocks : List (List BlockId)) (numEncoderTokens : Nat)
    (totalComputedTokens numLocalComputedTokens numTokensMainModel : Nat)
    (applyAdmissionCap : Bool) : Except PyError (Int × KVCacheCoordinator H) := do
  let (counts, pool, managers) ← forManagers
    (fun i pool manager => do
      let (count, manager) ←
        (if manager.kvCacheSpec.isCrossAttention then
          manager.getNumBlocksToAllocate pool requestId numEncoderTokens [] 0 0
            numEncoderTokens applyAdmissionCap
        else do
          let blocks ← pyIndex newComputedBlocks i
          manager.getNumBlocksToAllocate pool requestId numTokens blocks totalComputedTokens
            numLocalComputedTokens numTokensMainModel applyAdmissionCap)
      pure (count, pool, manager))
    0 coordinator.blockPool coordinator.singleTypeManagers
  pure (counts.sum, { coordinator with blockPool := pool, singleTypeManagers := managers })

section

variable [BlockHashing H]

/-- `allocate_new_computed_blocks`: every group's local hits are touched before
any group takes blocks for external tokens. -/
def allocateNewComputedBlocks (coordinator : KVCacheCoordinator H) (requestId : RequestId)
    (newComputedBlocks : List (List BlockId))
    (numLocalComputedTokens numExternalComputedTokens : Nat) :
    Except PyError (KVCacheCoordinator H) :=
  if coordinator.singleTypeManagers.any (·.isTracked requestId) then do
    pyAssert (newComputedBlocks.all fun blocks => blocks.length = 0)
    pure coordinator
  else do
    let coordinator ← coordinator.visitManagers fun i pool manager => do
      let blocks ← pyIndex newComputedBlocks i
      manager.addLocalComputedBlocks pool requestId blocks numLocalComputedTokens
        numExternalComputedTokens
    if numExternalComputedTokens > 0 then
      coordinator.visitManagers fun _ pool manager =>
        manager.allocateExternalComputedBlocks pool requestId numLocalComputedTokens
          numExternalComputedTokens
    else
      pure coordinator

/-- `allocate_new_blocks`. -/
def allocateNewBlocks (coordinator : KVCacheCoordinator H) (requestId : RequestId)
    (numTokens numTokensMainModel numEncoderTokens : Nat) :
    Except PyError (List (List BlockId) × KVCacheCoordinator H) := do
  let (newBlocks, pool, managers) ← forManagers
    (fun _ pool manager =>
      manager.allocateNewBlocks pool requestId
        (if manager.kvCacheSpec.isCrossAttention then numEncoderTokens else numTokens)
        numTokensMainModel)
    0 coordinator.blockPool coordinator.singleTypeManagers
  pure (newBlocks, { coordinator with blockPool := pool, singleTypeManagers := managers })

section

omit [DecidableEq H] [BlockHashing H]

/-- `_align_cacheable`. -/
def alignCacheable (coordinator : KVCacheCoordinator H) (numTokens : Nat) : Nat :=
  if coordinator.enablePartialHashHits then numTokens
  else numTokens / coordinator.schedulerBlockSize * coordinator.schedulerBlockSize

/-- How many tokens `cache_blocks` of the coordinator's class asks a manager to
cache. -/
def numTokensToCache (coordinator : KVCacheCoordinator H)
    (manager : SingleTypeKVCacheManager H) (numComputedTokens : Nat) : Nat :=
  -- The last tokens can be prefilled again under multi-module MTP.
  let numFinalizedComputedTokens := numComputedTokens - coordinator.numReprefillableTokens
  match coordinator.kind with
  | .hybrid =>
      let cachedNumComputedTokens := coordinator.alignCacheable numComputedTokens
      if manager.useEagle ∧ cachedNumComputedTokens > 0 then
        min numFinalizedComputedTokens
          (coordinator.alignCacheable numFinalizedComputedTokens + manager.blockSize)
      else
        cachedNumComputedTokens
  | _ => numFinalizedComputedTokens

end

/-- `cache_blocks`. -/
def cacheBlocks (coordinator : KVCacheCoordinator H) (request : Request H)
    (numComputedTokens : Nat) : Except PyError (KVCacheCoordinator H) :=
  coordinator.visitManagers fun _ pool manager =>
    manager.cacheBlocks pool request (coordinator.numTokensToCache manager numComputedTokens)
      coordinator.retentionInterval

end

section

omit [DecidableEq H]

/-- `free`. -/
def free (coordinator : KVCacheCoordinator H) (requestId : RequestId) :
    Except PyError (KVCacheCoordinator H) :=
  coordinator.visitManagers fun _ pool manager => manager.free pool requestId

/-- `pop_blocks_for_free`. -/
def popBlocksForFree (coordinator : KVCacheCoordinator H) (requestId : RequestId) :
    List BlockId × KVCacheCoordinator H :=
  (coordinator.singleTypeManagers.flatMap fun manager =>
      (manager.popBlocksForFree requestId).1,
    { coordinator with
      singleTypeManagers := coordinator.singleTypeManagers.map fun manager =>
        (manager.popBlocksForFree requestId).2 })

/-- `remove_skipped_blocks`. -/
def removeSkippedBlocks (coordinator : KVCacheCoordinator H) (requestId : RequestId)
    (processedComputedTokens : Nat) (numPromptTokens : Option Nat) :
    Except PyError (KVCacheCoordinator H) :=
  coordinator.visitManagers fun _ pool manager =>
    manager.removeSkippedBlocks pool requestId processedComputedTokens numPromptTokens

/-- `get_blocks`. -/
def getBlocks (coordinator : KVCacheCoordinator H) (requestId : RequestId) :
    List (List BlockId) :=
  coordinator.singleTypeManagers.map (·.blocksOf requestId)

/-- `get_num_common_prefix_blocks` of the coordinator's class. -/
def getNumCommonPrefixBlocks (coordinator : KVCacheCoordinator H)
    (runningRequestId : RequestId) : List Nat × KVCacheCoordinator H :=
  match coordinator.kind with
  | .noPrefixCache => (List.replicate coordinator.singleTypeManagers.length 0, coordinator)
  | _ =>
      let counted := coordinator.singleTypeManagers.map fun manager =>
        manager.getNumCommonPrefixBlocks coordinator.blockPool runningRequestId
      (counted.map (·.1), { coordinator with singleTypeManagers := counted.map (·.2) })

/-- `new_step_starts`. -/
def newStepStarts (coordinator : KVCacheCoordinator H) : KVCacheCoordinator H :=
  { coordinator with
    singleTypeManagers := coordinator.singleTypeManagers.map (·.newStepStarts) }

/-! ## Longest cache hit -/

/-- `_cache_hit_alignment_tokens` of the hybrid coordinator. -/
def cacheHitAlignmentTokens (coordinator : KVCacheCoordinator H) : Nat :=
  if coordinator.enablePartialHashHits then coordinator.hashBlockSize
  else coordinator.schedulerBlockSize

/-- The local variables of the hybrid search. -/
structure HitSearch where
  currHitLength : Nat
  longestHitLength : Nat
  hitBlocksByGroup : List (Option (List BlockId))
  hitLengthByGroup : List Nat
  eagleVerified : List Nat

/-- Store one lookup's columns at its groups. -/
def HitSearch.store (search : HitSearch) (hitLength : Nat) :
    List (Nat × List BlockId) → HitSearch
  | [] => search
  | (groupId, blocks) :: rest =>
      HitSearch.store
        { search with
          hitBlocksByGroup := search.hitBlocksByGroup.set groupId (some blocks)
          hitLengthByGroup := search.hitLengthByGroup.set groupId hitLength }
        hitLength rest

/-- One specification group in one round of the hybrid search: the candidate
length is kept or lowered. -/
def searchSpecGroup (coordinator : KVCacheCoordinator H) (blockHashes : List H)
    (maxCacheHitLength idx : Nat) (group : SpecGroup) (search : HitSearch) :
    Except PyError HitSearch := do
  let firstGroupId ← pyIndex group.groupIds 0
  let manager ← pyIndex coordinator.singleTypeManagers firstGroupId
  let groupBlockSize := manager.blockSize
  if group.spec.isFullAttention ∧
      (search.hitBlocksByGroup.getD firstGroupId none).isSome then
    -- Full attention is downward closed: one lookup is enough.
    pure { search with
      currHitLength := min search.currHitLength (search.hitLengthByGroup.getD firstGroupId 0) }
  else do
    let dropEagleBlock := group.useEagle && !search.eagleVerified.contains idx
    let eagleMargin :=
      if coordinator.enablePartialHashHits && group.spec.supportsFineGrainedHashLookup &&
          groupBlockSize > coordinator.hashBlockSize then
        coordinator.hashBlockSize
      else
        groupBlockSize
    let maxLength :=
      if dropEagleBlock && !group.spec.isMamba then
        min (search.currHitLength + eagleMargin) maxCacheHitLength
      else
        search.currHitLength
    let (hitBlocks, newHitLength) ← findLongestCacheHit group.spec coordinator.blockPool
      blockHashes maxLength group.groupIds dropEagleBlock coordinator.cacheHitAlignmentTokens
      manager.dcpWorldSize
    let eagleVerified :=
      if dropEagleBlock then search.eagleVerified ++ [idx]
      else if newHitLength < search.currHitLength then []
      else search.eagleVerified
    pure (HitSearch.store
      { search with
        currHitLength := newHitLength
        longestHitLength := max search.longestHitLength newHitLength
        eagleVerified := eagleVerified }
      newHitLength (group.groupIds.zip hitBlocks))

/-- One round of the hybrid search over the specification groups from `idx` on. -/
def searchRound (coordinator : KVCacheCoordinator H) (blockHashes : List H)
    (maxCacheHitLength : Nat) : Nat → List SpecGroup → HitSearch → Except PyError HitSearch
  | _, [], search => .ok search
  | idx, group :: rest, search => do
      let search ←
        searchSpecGroup coordinator blockHashes maxCacheHitLength idx group search
      searchRound coordinator blockHashes maxCacheHitLength (idx + 1) rest search

/-- One full-attention group and one other: a single round is enough. -/
def isSimpleHybrid (coordinator : KVCacheCoordinator H) : Bool :=
  match coordinator.attentionGroups with
  | [first, _] => first.spec.isFullAttention
  | _ => false

/-- The rounds of the hybrid search from the candidate `hitLength`, with the final
hit length.  Every repetition lowers the candidate, so `hitLength + 1` rounds
always suffice. -/
def searchRounds (coordinator : KVCacheCoordinator H) (blockHashes : List H)
    (maxCacheHitLength : Nat) : Nat → Nat → HitSearch → Except PyError (Nat × HitSearch)
  | 0, hitLength, search => .ok (hitLength, search)
  | rounds + 1, hitLength, search => do
      let search ← searchRound coordinator blockHashes maxCacheHitLength 0
        coordinator.attentionGroups { search with currHitLength := hitLength }
      if search.currHitLength ≥ hitLength then
        pure (hitLength, search)
      else if coordinator.isSimpleHybrid then
        pure (search.currHitLength, search)
      else
        searchRounds coordinator blockHashes maxCacheHitLength rounds search.currHitLength search

/-- Cut the hits of the full-attention groups down to the final hit length. -/
def truncateHits (coordinator : KVCacheCoordinator H) (hitLength : Nat)
    (hitBlocksByGroup : List (Option (List BlockId))) : List (List BlockId) :=
  hitBlocksByGroup.mapIdx fun groupId blocks =>
    let blocks := blocks.getD []
    match coordinator.attentionGroups.find? fun group =>
        group.spec.isFullAttention && group.groupIds.contains groupId with
    | none => blocks
    | some group =>
        match coordinator.singleTypeManagers[group.groupIds.getD 0 0]? with
        | none => blocks
        | some manager => blocks.take (cdiv hitLength manager.blockSize)

end

/-- `find_longest_cache_hit` of the coordinator's class: the hit blocks of each
group, the hit length and the uncached common prefix. -/
def findLongestCacheHit (coordinator : KVCacheCoordinator H) (blockHashes : List H)
    (maxCacheHitLength : Nat) : Except PyError (List (List BlockId) × Nat × Nat) :=
  let numGroups := coordinator.singleTypeManagers.length
  match coordinator.kind with
  | .noPrefixCache => .ok (List.replicate numGroups [], 0, 0)
  | .unitary => do
      let manager ← pyIndex coordinator.singleTypeManagers 0
      let (hitBlocks, hitLength) ← Core.findLongestCacheHit manager.kvCacheSpec
        coordinator.blockPool blockHashes maxCacheHitLength [0]
        (coordinator.eagleGroupIds.contains 0) manager.blockSize manager.dcpWorldSize
      pure (hitBlocks, hitLength, 0)
  | .hybrid => do
      let (hitLength, search) ← coordinator.searchRounds blockHashes maxCacheHitLength
        (maxCacheHitLength + 1) maxCacheHitLength
        { currHitLength := maxCacheHitLength
          longestHitLength := 0
          hitBlocksByGroup := List.replicate numGroups none
          hitLengthByGroup := List.replicate numGroups 0
          eagleVerified := [] }
      pure (coordinator.truncateHits hitLength search.hitBlocksByGroup, hitLength,
        search.longestHitLength - hitLength)

end Operations

end KVCacheCoordinator

end Vllm.Core
