import Vllm.Core.KVCacheCoordinator
import Vllm.Library.Transition

/-!
# The KV cache manager

The interface between the scheduler and the KV cache.  `allocateSlots` is the
only operation that gives blocks to a request: it releases what the attention
window has passed, predicts how many blocks the call will take, gives up if the
pool has fewer, and otherwise adds hits, allocates and caches.
-/

namespace Vllm.Core

open Vllm.Library

/-- `KVCacheManager`, less the statistics. -/
structure KVCacheManager (H : Type) where
  maxModelLen : Nat
  enableCaching : Bool
  enableKvCacheEvents : Bool
  coordinator : KVCacheCoordinator H
  watermarkBlocks : Nat

/-- The arguments of `allocate_slots` after the request, with their defaults. -/
structure AllocateSlotsArgs where
  numNewTokens : Nat
  numNewComputedTokens : Nat := 0
  newComputedBlocks : Option (List (List BlockId)) := none
  numLookaheadTokens : Nat := 0
  numExternalComputedTokens : Nat := 0
  delayCacheBlocks : Bool := false
  numEncoderTokens : Nat := 0
  fullSequenceMustFit : Bool := false
  reservedBlocks : Nat := 0
  hasScheduledReqs : Bool := true
  deriving DecidableEq, Repr

namespace KVCacheManager

variable {H : Type}

/-- `__init__`; the watermark fraction arrives as the block count computed from
it. -/
def init (config : KVCacheConfig) (maxModelLen schedulerBlockSize hashBlockSize : Nat)
    (maxInFlightTokens : Option Nat) (enableCaching useEagle : Bool) (numPrefillLookahead : Nat)
    (enableKvCacheEvents : Bool) (dcpWorldSize watermarkBlocks : Nat) :
    Except PyError (KVCacheManager H) := do
  let coordinator ← KVCacheCoordinator.getKvCacheCoordinator config maxModelLen
    (maxInFlightTokens.getD maxModelLen) useEagle enableCaching enableKvCacheEvents dcpWorldSize
    schedulerBlockSize hashBlockSize numPrefillLookahead
  pure
    { maxModelLen := maxModelLen
      enableCaching := enableCaching
      enableKvCacheEvents := enableKvCacheEvents
      coordinator := coordinator
      watermarkBlocks := watermarkBlocks }

/-- The shared block pool. -/
def blockPool (manager : KVCacheManager H) : BlockPool H :=
  manager.coordinator.blockPool

/-- Replace the coordinator. -/
def setCoordinator (manager : KVCacheManager H) (coordinator : KVCacheCoordinator H) :
    KVCacheManager H :=
  { manager with coordinator := coordinator }

/-- Replace the pool. -/
def setBlockPool (manager : KVCacheManager H) (pool : BlockPool H) : KVCacheManager H :=
  manager.setCoordinator { manager.coordinator with blockPool := pool }

/-- `prefix_cache_lookup_enabled`. -/
def prefixCacheLookupEnabled (manager : KVCacheManager H) (request : Request H) : Bool :=
  manager.enableCaching && !request.skipReadingPrefixCache

/-- `empty_kv_cache_blocks`. -/
def emptyKvCacheBlocks (manager : KVCacheManager H) : List (List BlockId) :=
  manager.coordinator.singleTypeManagers.map fun _ => []

section Lookup

variable [DecidableEq H] [BlockHashing H]

/-- Announce the reused blocks of each group, from group `groupIdx` on. -/
def emitComputedBlockEvents (managers : List (SingleTypeKVCacheManager H)) (request : Request H) :
    Nat → List (List BlockId) → BlockPool H → Except PyError (BlockPool H)
  | _, [], pool => .ok pool
  | groupIdx, groupBlocks :: rest, pool => do
      let pool ←
        (if groupBlocks.length > 0 then do
          let manager ← pyIndex managers groupIdx
          pool.emitCachedBlockEvents request groupBlocks.length manager.kvCacheSpec.blockSize
            groupIdx
        else
          .ok pool)
      emitComputedBlockEvents managers request (groupIdx + 1) rest pool

/-- `get_computed_blocks`: the hit blocks of each group, the number of computed
tokens and the shared prefix boundary. -/
def getComputedBlocks (manager : KVCacheManager H) (request : Request H) :
    Except PyError ((List (List BlockId) × Nat × Nat) × KVCacheManager H) :=
  if !manager.prefixCacheLookupEnabled request then
    .ok ((manager.emptyKvCacheBlocks, 0, 0), manager)
  else do
    -- The last token is always recomputed, to obtain its logits.
    let maxCacheHitLength := request.numTokens - 1
    let (computedBlocks, numNewComputedTokens, numUncached) ←
      manager.coordinator.findLongestCacheHit request.blockHashes maxCacheHitLength
    let pool ←
      (if numNewComputedTokens > 0 ∧ manager.enableKvCacheEvents ∧ request.kvCacheReportFull then
        emitComputedBlockEvents manager.coordinator.singleTypeManagers request 0 computedBlocks
          manager.blockPool
      else
        .ok manager.blockPool)
    let sharedPrefixBoundary :=
      if numUncached ≠ 0 then numNewComputedTokens + numUncached else 0
    pure ((computedBlocks, numNewComputedTokens, sharedPrefixBoundary), manager.setBlockPool pool)

end Lookup

/-! ## `allocate_slots` -/

/-- `num_local_computed_tokens`. -/
def numLocalComputedTokens (request : Request H) (args : AllocateSlotsArgs) : Nat :=
  request.numComputedTokens + args.numNewComputedTokens

/-- `total_computed_tokens`. -/
def totalComputedTokens (manager : KVCacheManager H) (request : Request H)
    (args : AllocateSlotsArgs) : Nat :=
  min (numLocalComputedTokens request args + args.numExternalComputedTokens) manager.maxModelLen

/-- `num_tokens_main_model`. -/
def numTokensMainModel (manager : KVCacheManager H) (request : Request H)
    (args : AllocateSlotsArgs) : Nat :=
  manager.totalComputedTokens request args + args.numNewTokens

/-- `num_tokens_need_slot`. -/
def numTokensNeedSlot (manager : KVCacheManager H) (request : Request H)
    (args : AllocateSlotsArgs) : Nat :=
  min (manager.numTokensMainModel request args + args.numLookaheadTokens) manager.maxModelLen

/-- `new_computed_block_list`. -/
def newComputedBlockList (manager : KVCacheManager H) (args : AllocateSlotsArgs) :
    List (List BlockId) :=
  args.newComputedBlocks.getD manager.emptyKvCacheBlocks

/-- The watermark applies to waiting and preempted requests once something is
scheduled. -/
def watermarkFor (manager : KVCacheManager H) (request : Request H) (args : AllocateSlotsArgs) :
    Nat :=
  if args.hasScheduledReqs ∧ (request.status = .waiting ∨ request.status = .preempted) then
    manager.watermarkBlocks
  else
    0

/-- The tokens up to which blocks outside the window may be released. -/
def processedComputedTokens (manager : KVCacheManager H) (request : Request H)
    (args : AllocateSlotsArgs) : Nat :=
  ((manager.totalComputedTokens request args : Int) - request.numInFlightTokens).toNat

section Allocation

variable [DecidableEq H]

/-- The admission gate `full_sequence_must_fit`. -/
def fullSequenceFits (manager : KVCacheManager H) (request : Request H)
    (args : AllocateSlotsArgs) : Except PyError (Bool × KVCacheManager H) :=
  if args.fullSequenceMustFit then do
    let fullNumTokens := min request.numTokens manager.maxModelLen
    let (numBlocksToAllocate, coordinator) ← manager.coordinator.getNumBlocksToAllocate
      request.requestId fullNumTokens (manager.newComputedBlockList args) args.numEncoderTokens
      (manager.totalComputedTokens request args) (numLocalComputedTokens request args)
      fullNumTokens true
    pure (decide (numBlocksToAllocate + manager.watermarkFor request args ≤
      manager.blockPool.getNumFreeBlocks), manager.setCoordinator coordinator)
  else
    .ok (true, manager)

variable [BlockHashing H]

/-- The add and allocate calls that follow a passed check. -/
def commitSlots (manager : KVCacheManager H) (request : Request H) (args : AllocateSlotsArgs) :
    Except PyError (List (List BlockId) × KVCacheManager H) := do
  let newComputedBlocks := manager.newComputedBlockList args
  let coordinator ←
    -- The canonical empty instance stands for no hits at all.
    (if (newComputedBlocks.any fun blocks => blocks ≠ []) ∨ args.numExternalComputedTokens > 0 then
      manager.coordinator.allocateNewComputedBlocks request.requestId newComputedBlocks
        (numLocalComputedTokens request args) args.numExternalComputedTokens
    else
      .ok manager.coordinator)
  let (newBlocks, coordinator) ← coordinator.allocateNewBlocks request.requestId
    (manager.numTokensNeedSlot request args) (manager.numTokensMainModel request args)
    args.numEncoderTokens
  pure (newBlocks, manager.setCoordinator coordinator)

/-- Cache the committed tokens, unless caching is off or delayed. -/
def cacheCommitted (manager : KVCacheManager H) (request : Request H)
    (args : AllocateSlotsArgs) : Except PyError (KVCacheManager H) :=
  if !manager.enableCaching || args.delayCacheBlocks then
    .ok manager
  else do
    -- Draft tokens could be rejected, so the number is capped at `num_tokens`.
    let numTokensToCache := min (manager.totalComputedTokens request args + args.numNewTokens)
      request.numTokens
    let coordinator ← manager.coordinator.cacheBlocks request numTokensToCache
    pure (manager.setCoordinator coordinator)

/-- `allocate_slots`: the new blocks of each group, or `none` if the request does
not fit. -/
def allocateSlots (manager : KVCacheManager H) (request : Request H)
    (args : AllocateSlotsArgs) :
    Except PyError (Option (List (List BlockId)) × KVCacheManager H) :=
  if args.numNewTokens = 0 ∧ args.numExternalComputedTokens = 0 then
    .error (.valueError ("num_new_tokens must be greater than 0 when there are no " ++
      "external computed tokens"))
  else do
    let (fits, manager) ← manager.fullSequenceFits request args
    if !fits then
      pure (none, manager)
    else do
      let coordinator ← manager.coordinator.removeSkippedBlocks request.requestId
        (manager.processedComputedTokens request args) (some request.numPromptTokens)
      let (numBlocksToAllocate, coordinator) ← coordinator.getNumBlocksToAllocate
        request.requestId (manager.numTokensNeedSlot request args)
        (manager.newComputedBlockList args) args.numEncoderTokens
        (numLocalComputedTokens request args + args.numExternalComputedTokens)
        (numLocalComputedTokens request args) (manager.numTokensMainModel request args) false
      let manager := manager.setCoordinator coordinator
      if numBlocksToAllocate + manager.watermarkFor request args >
          manager.blockPool.getNumFreeBlocks - args.reservedBlocks then
        pure (none, manager)
      else do
        let (newBlocks, manager) ← manager.commitSlots request args
        let manager ← manager.cacheCommitted request args
        pure (some newBlocks, manager)

end Allocation

/-! ## The other operations -/

/-- `free`. -/
def free (manager : KVCacheManager H) (request : Request H) :
    Except PyError (KVCacheManager H) := do
  let coordinator ← manager.coordinator.free request.requestId
  pure (manager.setCoordinator coordinator)

/-- `remove_skipped_blocks`. -/
def removeSkippedBlocks (manager : KVCacheManager H) (requestId : RequestId)
    (processedComputedTokens : Nat) (numPromptTokens : Option Nat) :
    Except PyError (KVCacheManager H) := do
  let coordinator ← manager.coordinator.removeSkippedBlocks requestId processedComputedTokens
    numPromptTokens
  pure (manager.setCoordinator coordinator)

/-- `pop_blocks_for_free`. -/
def popBlocksForFree (manager : KVCacheManager H) (request : Request H) :
    List BlockId × KVCacheManager H :=
  let popped := manager.coordinator.popBlocksForFree request.requestId
  (popped.1, manager.setCoordinator popped.2)

/-- `evict_blocks`; the set arrives in some order. -/
def evictBlocks [DecidableEq H] [BlockHashing H] (manager : KVCacheManager H)
    (blockIds : List BlockId) : Except PyError (KVCacheManager H) := do
  let pool ← BlockPool.evictBlocks blockIds manager.blockPool
  pure (manager.setBlockPool pool)

/-- `reset_prefix_cache`. -/
def resetPrefixCache (manager : KVCacheManager H) : Bool × KVCacheManager H :=
  let reset := manager.blockPool.resetPrefixCache
  (reset.1, manager.setBlockPool reset.2)

/-- `cache_blocks`. -/
def cacheBlocks [DecidableEq H] [BlockHashing H] (manager : KVCacheManager H)
    (request : Request H) (numComputedTokens : Nat) : Except PyError (KVCacheManager H) :=
  if manager.enableCaching then do
    let coordinator ← manager.coordinator.cacheBlocks request numComputedTokens
    pure (manager.setCoordinator coordinator)
  else
    .ok manager

/-- `get_blocks`. -/
def getBlocks (manager : KVCacheManager H) (requestId : RequestId) : List (List BlockId) :=
  manager.coordinator.getBlocks requestId

/-- `take_new_block_ids`. -/
def takeNewBlockIds (manager : KVCacheManager H) : List BlockId × KVCacheManager H :=
  (manager.coordinator.singleTypeManagers.flatMap fun group => group.takeNewBlockIds.1,
    manager.setCoordinator { manager.coordinator with
      singleTypeManagers := manager.coordinator.singleTypeManagers.map fun group =>
        group.takeNewBlockIds.2 })

/-- `take_kv_cache_block_copies`: the copies and their retained endpoints. -/
def takeKvCacheBlockCopies (manager : KVCacheManager H) :
    List (BlockId × BlockId) × List BlockId × KVCacheManager H :=
  let pendingCopies := manager.coordinator.singleTypeManagers.flatMap fun group =>
    group.takePendingCowCopies.1
  (pendingCopies, pendingCopies.flatMap fun (source, cow) => [source, cow],
    manager.setCoordinator { manager.coordinator with
      singleTypeManagers := manager.coordinator.singleTypeManagers.map fun group =>
        group.takePendingCowCopies.2 })

/-- `take_boundary_state_offloads`: the hand-offs as the groups recorded them, with
the request of each. -/
def takeBoundaryStateOffloads (manager : KVCacheManager H) :
    List (RequestId × Nat × BlockId × Nat) × KVCacheManager H :=
  (manager.coordinator.singleTypeManagers.flatMap (·.pendingBoundaryStateOffloads),
    manager.setCoordinator { manager.coordinator with
      singleTypeManagers := manager.coordinator.singleTypeManagers.map fun group =>
        { group with pendingBoundaryStateOffloads := [] } })

/-- `get_num_common_prefix_blocks`. -/
def getNumCommonPrefixBlocks (manager : KVCacheManager H) (runningRequestId : RequestId) :
    List Nat × KVCacheManager H :=
  let counted := manager.coordinator.getNumCommonPrefixBlocks runningRequestId
  (counted.1, manager.setCoordinator counted.2)

/-- One group of `truncate_computed_blocks`. -/
def truncateGroup (numComputedTokens : Nat) (group : SingleTypeKVCacheManager H)
    (groupBlocks : List BlockId) : Except PyError (List BlockId) :=
  if group.kvCacheSpec.prefixCacheable then do
    pyAssert (numComputedTokens % group.blockSize = 0)
    let numBlocks := numComputedTokens / group.blockSize
    if group.kvCacheSpec.isMamba then
      pure (groupBlocks.take numBlocks)
    else do
      pyAssert (numBlocks ≤ groupBlocks.length)
      pure (groupBlocks.take numBlocks)
  else do
    -- A ring holds no computed blocks.
    pyAssert (groupBlocks = [])
    pure []

/-- `truncate_computed_blocks`. -/
def truncateComputedBlocks (manager : KVCacheManager H) (blocks : List (List BlockId))
    (numComputedTokens : Nat) : Except PyError (List (List BlockId)) :=
  (manager.coordinator.singleTypeManagers.zip blocks).mapM fun (group, groupBlocks) =>
    truncateGroup numComputedTokens group groupBlocks

/-- `new_step_starts`. -/
def newStepStarts (manager : KVCacheManager H) : KVCacheManager H :=
  manager.setCoordinator manager.coordinator.newStepStarts

end KVCacheManager

end Vllm.Core

/-!
## Runs of the KV cache manager

The calls that the scheduler makes on a KV cache manager, as one transition
system.  The state also keeps the copy endpoints that the scheduler still
retains and, as a ghost, how far each request has come; the ghost only serves
to say which calls a scheduler makes.  A call that raises has no successor.
-/

namespace Vllm.Core

open Vllm.Library

/-- How far a request with blocks has come. -/
structure Progress where
  /-- Every group has slots for this many tokens. -/
  slots : Nat
  /-- The first so many tokens are final: no rejected draft takes them back. -/
  committed : Nat
  deriving DecidableEq, Repr

/-- A manager with the scheduler's side of the run. -/
structure CacheState (H : Type) where
  manager : KVCacheManager H
  /-- Taken copy endpoints that have not been released yet. -/
  retained : List BlockId
  progress : RequestId → Option Progress

/-- The calls of the scheduler. -/
inductive CacheCall (H : Type) where
  | getComputedBlocks (request : Request H)
  | allocateSlots (request : Request H) (args : AllocateSlotsArgs)
  | removeSkippedBlocks (requestId : RequestId) (processedComputedTokens : Nat)
      (numPromptTokens : Option Nat)
  | cacheBlocks (request : Request H) (numComputedTokens : Nat)
  | free (request : Request H)
  | takeKvCacheBlockCopies
  | releaseRetained (blocks : List BlockId)
  | evictBlocks (blockIds : List BlockId)
  | resetPrefixCache
  | newStepStarts

namespace CacheState

variable {H : Type}

/-- The progress after a successful allocation. -/
def advance (manager : KVCacheManager H) (request : Request H) (args : AllocateSlotsArgs)
    (before : Option Progress) : Progress where
  slots := max ((before.map Progress.slots).getD 0) (manager.numTokensNeedSlot request args)
  committed := min (manager.totalComputedTokens request args + args.numNewTokens)
    request.numTokens

variable [DecidableEq H] [BlockHashing H]

/-- Execute a call. -/
def execute (state : CacheState H) : CacheCall H → Except PyError (CacheState H)
  | .getComputedBlocks request => do
      let (_, manager) ← state.manager.getComputedBlocks request
      pure { state with manager := manager }
  | .allocateSlots request args => do
      let (newBlocks, manager) ← state.manager.allocateSlots request args
      pure
        { state with
          manager := manager
          progress :=
            if newBlocks.isSome then
              Function.update state.progress request.requestId
                (some (advance state.manager request args (state.progress request.requestId)))
            else
              state.progress }
  | .removeSkippedBlocks requestId processedComputedTokens numPromptTokens => do
      let manager ← state.manager.removeSkippedBlocks requestId processedComputedTokens
        numPromptTokens
      pure { state with manager := manager }
  | .cacheBlocks request numComputedTokens => do
      let manager ← state.manager.cacheBlocks request numComputedTokens
      pure { state with manager := manager }
  | .free request => do
      let manager ← state.manager.free request
      pure
        { state with
          manager := manager
          progress := Function.update state.progress request.requestId none }
  | .takeKvCacheBlockCopies =>
      let taken := state.manager.takeKvCacheBlockCopies
      .ok { state with manager := taken.2.2, retained := state.retained ++ taken.2.1 }
  | .releaseRetained blocks => do
      let pool ← state.manager.blockPool.freeBlocks blocks
      pure
        { state with
          manager := state.manager.setBlockPool pool
          retained := state.retained.diff blocks }
  | .evictBlocks blockIds => do
      let manager ← state.manager.evictBlocks blockIds
      pure { state with manager := manager }
  | .resetPrefixCache => .ok { state with manager := state.manager.resetPrefixCache.2 }
  | .newStepStarts => .ok { state with manager := state.manager.newStepStarts }

/-- Runs from a fresh manager whose calls satisfy `allowed`. -/
def system (allowed : CacheState H → CacheCall H → Prop) : System (CacheState H) where
  start state := state.retained = [] ∧ (state.progress = fun _ => none) ∧
    ∃ config maxModelLen schedulerBlockSize hashBlockSize maxInFlightTokens enableCaching
      useEagle numPrefillLookahead enableKvCacheEvents dcpWorldSize watermarkBlocks,
      KVCacheManager.init config maxModelLen schedulerBlockSize hashBlockSize maxInFlightTokens
        enableCaching useEagle numPrefillLookahead enableKvCacheEvents dcpWorldSize
        watermarkBlocks = .ok state.manager
  step state next := ∃ call, allowed state call ∧ state.execute call = .ok next

variable {allowed : CacheState H → CacheCall H → Prop}

variable {state : CacheState H}

/-- Stronger promises give fewer runs. -/
theorem reachable_mono {promised : CacheState H → CacheCall H → Prop}
    (weaker : ∀ state call, promised state call → allowed state call)
    (reached : Reachable (system promised) state) : Reachable (system allowed) state := by
  induction reached with
  | start starts => exact .start starts
  | step _ steps ih =>
      rcases steps with ⟨call, permitted, ran⟩
      exact ih.step ⟨call, weaker _ _ permitted, ran⟩

/-- Execute one allowed call. -/
def executeAllowed (allowed : CacheState H → CacheCall H → Prop)
    [∀ state, DecidablePred (allowed state)] (state : CacheState H) (call : CacheCall H) :
    Option (CacheState H) :=
  if allowed state call then (state.execute call).toOption else none

theorem executeAllowed_sound [∀ state, DecidablePred (allowed state)] (state : CacheState H)
    (call : CacheCall H) (next : CacheState H)
    (executed : executeAllowed allowed state call = some next) :
    (system allowed).step state next := by
  unfold executeAllowed at executed
  split at executed
  · rename_i permitted
    cases ran : state.execute call with
    | error failure => simp [ran, Except.toOption] at executed
    | ok result =>
        simp only [ran, Except.toOption, Option.some.injEq] at executed
        exact ⟨call, permitted, executed ▸ ran⟩
  · contradiction

/-- Replay calls on a fresh manager. -/
def replayCalls (allowed : CacheState H → CacheCall H → Prop)
    [∀ state, DecidablePred (allowed state)] (config : KVCacheConfig)
    (maxModelLen schedulerBlockSize hashBlockSize : Nat) (calls : List (CacheCall H)) :
    Option (CacheState H) :=
  match KVCacheManager.init config maxModelLen schedulerBlockSize hashBlockSize none true false 0
      false 1 0 with
  | .ok manager => replay (executeAllowed allowed) calls ⟨manager, [], fun _ => none⟩
  | .error _ => none

theorem replayCalls_reachable [∀ state, DecidablePred (allowed state)] {config : KVCacheConfig}
    {maxModelLen schedulerBlockSize hashBlockSize : Nat} {calls : List (CacheCall H)}
    (replayed : replayCalls allowed config maxModelLen schedulerBlockSize hashBlockSize calls =
      some state) : Reachable (system allowed) state := by
  unfold replayCalls at replayed
  split at replayed
  · rename_i manager started
    exact Reachable.replay executeAllowed_sound
      (.start ⟨rfl, rfl, config, maxModelLen, schedulerBlockSize, hashBlockSize, none, true, false,
        0, false, 1, 0, started⟩) replayed
  · contradiction

end CacheState

end Vllm.Core
