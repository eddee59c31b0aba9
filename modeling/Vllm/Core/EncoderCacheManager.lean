import Vllm.Core.Request
import Vllm.Library.Dict
import Vllm.Library.Transition

/-!
# The encoder cache manager

`EncoderCacheManager` keeps account of the encoder outputs that the workers hold,
by content hash: which requests refer to an entry, which entries nobody refers
to, and how much room is left.  A Python set is a list without duplicates here;
no result depends on its order.
-/

namespace Vllm.Core

open Vllm.Library

/-- `EncoderCacheManager`. -/
structure EncoderCacheManager where
  cacheSize : Nat
  numFreeSlots : Int
  numFreeableSlots : Int
  /-- The requests that refer to each cached hash. -/
  cached : Dict String (List RequestId)
  /-- The inputs of each request that are cached for it. -/
  requestCachedIds : Dict RequestId (List Nat)
  /-- The entries without references, oldest first, with their sizes. -/
  freeable : Dict String Nat
  freed : List String

namespace EncoderCacheManager

/-- `__init__`. -/
def init (cacheSize : Nat) : EncoderCacheManager where
  cacheSize := cacheSize
  numFreeSlots := cacheSize
  numFreeableSlots := cacheSize
  cached := .empty
  requestCachedIds := .empty
  freeable := .empty
  freed := []

/-- `reset`. -/
def reset (manager : EncoderCacheManager) : EncoderCacheManager :=
  init manager.cacheSize

variable {H : Type}

/-- The request refers to the hash through the given input. -/
def addReference (mmHash : String) (references : List RequestId) (requestId : RequestId)
    (inputId : Nat) (manager : EncoderCacheManager) : EncoderCacheManager :=
  { manager with
    cached := manager.cached.insert mmHash (references.insert requestId)
    requestCachedIds := manager.requestCachedIds.insert requestId
      ((manager.requestCachedIds.getD requestId []).insert inputId) }

/-- `check_and_update_cache`. -/
def checkAndUpdateCache (request : Request H) (inputId : Nat) (manager : EncoderCacheManager) :
    Except PyError (Bool × EncoderCacheManager) := do
  let feature ← pyIndex request.mmFeatures inputId
  match manager.cached.get? feature.identifier with
  | none => pure (false, manager)
  | some references =>
      if references.isEmpty then
        match manager.freeable.get? feature.identifier with
        | none => .error .keyError
        | some numEncoderEmbeds =>
            let revived :=
              { manager with
                freeable := manager.freeable.erase feature.identifier
                numFreeableSlots := manager.numFreeableSlots - numEncoderEmbeds }
            pure (true,
              revived.addReference feature.identifier references request.requestId inputId)
      else
        pure (true, manager.addReference feature.identifier references request.requestId inputId)

/-- The eviction loop of `can_allocate`.  Every round pops an entry of `freeable`,
so their number is enough fuel; popping from the empty dict raises. -/
def evictFreeable (numEmbeds : Nat) :
    Nat → EncoderCacheManager → Except PyError EncoderCacheManager
  | fuel, manager =>
      if numEmbeds > manager.numFreeSlots then
        match fuel, manager.freeable.first? with
        | fuel + 1, some (mmHash, numFreeEmbeds) =>
            if manager.cached.contains mmHash then
              evictFreeable numEmbeds fuel
                { manager with
                  freeable := manager.freeable.erase mmHash
                  cached := manager.cached.erase mmHash
                  freed := manager.freed ++ [mmHash]
                  numFreeSlots := manager.numFreeSlots + numFreeEmbeds }
            else
              .error .keyError
        | _, _ => .error .keyError
      else
        .ok manager

/-- `can_allocate`. -/
def canAllocate (request : Request H) (inputId : Nat) (encoderComputeBudget : Int)
    (numEmbedsToSchedule : Nat) (manager : EncoderCacheManager) :
    Except PyError (Bool × EncoderCacheManager) := do
  let numEmbeds ← request.getNumEncoderEmbeds inputId
  if numEmbeds > encoderComputeBudget then
    pure (false, manager)
  else
    let numEmbeds := numEmbeds + numEmbedsToSchedule
    if numEmbeds ≤ manager.numFreeSlots then
      pure (true, manager)
    else if numEmbeds > manager.numFreeableSlots then
      pure (false, manager)
    else do
      let evicted ← evictFreeable numEmbeds manager.freeable.size manager
      pure (true, evicted)

/-- `allocate`. -/
def allocate (request : Request H) (inputId : Nat) (manager : EncoderCacheManager) :
    Except PyError EncoderCacheManager := do
  let feature ← pyIndex request.mmFeatures inputId
  let numEncoderEmbeds ← request.getNumEncoderEmbeds inputId
  pyAssert (manager.numFreeSlots ≥ numEncoderEmbeds)
  pyAssert (manager.numFreeableSlots ≥ numEncoderEmbeds)
  let allocated := manager.addReference feature.identifier
    (manager.cached.getD feature.identifier []) request.requestId inputId
  pure
    { allocated with
      numFreeSlots := manager.numFreeSlots - numEncoderEmbeds
      numFreeableSlots := manager.numFreeableSlots - numEncoderEmbeds }

/-- `get_cached_input_ids`. -/
def getCachedInputIds (request : Request H) (manager : EncoderCacheManager) : List Nat :=
  manager.requestCachedIds.getD request.requestId []

/-- The request no longer has the input in `request_cached_ids`. -/
def forgetInput (requestId : RequestId) (inputId : Nat) (manager : EncoderCacheManager) :
    EncoderCacheManager :=
  match manager.requestCachedIds.get? requestId with
  | none => manager
  | some inputIds =>
      let remaining := inputIds.filter (· ≠ inputId)
      { manager with
        requestCachedIds :=
          if remaining.isEmpty then manager.requestCachedIds.erase requestId
          else manager.requestCachedIds.insert requestId remaining }

/-- `free_encoder_input`. -/
def freeEncoderInput (request : Request H) (inputId : Nat) (manager : EncoderCacheManager) :
    Except PyError EncoderCacheManager := do
  let feature ← pyIndex request.mmFeatures inputId
  let manager := manager.forgetInput request.requestId inputId
  match manager.cached.get? feature.identifier with
  | none => pure manager
  | some references =>
      if references.isEmpty then
        pure manager
      else do
        -- One reference covers every occurrence of the item in the request.
        let repeated ← (manager.getCachedInputIds request).anyM fun otherId => do
          let other ← pyIndex request.mmFeatures otherId
          pure (decide (other.identifier = feature.identifier))
        if repeated then
          pure manager
        else do
          let remaining := references.filter (· ≠ request.requestId)
          let released :=
            { manager with cached := manager.cached.insert feature.identifier remaining }
          if remaining.isEmpty then do
            let numEncoderEmbeds ← request.getNumEncoderEmbeds inputId
            pure
              { released with
                freeable := released.freeable.insert feature.identifier numEncoderEmbeds
                numFreeableSlots := released.numFreeableSlots + numEncoderEmbeds }
          else
            pure released

/-- `free`. -/
def free (request : Request H) (manager : EncoderCacheManager) :
    Except PyError EncoderCacheManager :=
  (manager.getCachedInputIds request).foldlM
    (fun manager inputId => manager.freeEncoderInput request inputId) manager

/-- `get_freed_mm_hashes`: an entry that was evicted and allocated again is not
reported. -/
def getFreedMmHashes (manager : EncoderCacheManager) : List String × EncoderCacheManager :=
  (manager.freed.filter fun mmHash => !manager.cached.contains mmHash, { manager with freed := [] })

end EncoderCacheManager

end Vllm.Core

/-!
## Scheduling encoder inputs

`_try_schedule_encoder_inputs`: which multi-modal inputs of a request a step has
to encode, and how far the step may go when the encoder cannot take them all.
The inputs that are cached already are marked as referenced on the way.
-/

namespace Vllm.Core

/-- The loop of `bisect.bisect_left` on keys; the interval halves in every round,
so the number of keys is enough fuel. -/
def bisectLeftLoop (keys : List Int) (target : Int) : Nat → Nat → Nat → Nat
  | 0, low, _ => low
  | fuel + 1, low, high =>
      if low < high then
        let middle := (low + high) / 2
        if keys.getD middle target < target then bisectLeftLoop keys target fuel (middle + 1) high
        else bisectLeftLoop keys target fuel low middle
      else
        low

/-- `bisect.bisect_left`. -/
def bisectLeft (keys : List Int) (target : Int) : Nat :=
  bisectLeftLoop keys target keys.length 0 keys.length

/-- `get_mm_features_in_window`. -/
def getMmFeaturesInWindow (mmFeatures : List MultiModalFeatureSpec) (start finish : Int) :
    Nat × Nat :=
  (bisectLeft
      (mmFeatures.map fun feature => feature.mmPosition.offset + feature.mmPosition.length)
      (start + 1),
    bisectLeft (mmFeatures.map fun feature => feature.mmPosition.offset) finish)

/-- The fixed part of one call: the token range it is about and the settings it
consults.  `hasCacheItem` is the external encoder cache's answer. -/
structure EncoderWindow where
  numComputedTokens : Nat
  shiftComputedTokens : Nat
  encoderWindowEnd : Int
  disableChunkedMmInput : Bool
  hasCacheItem : String → Bool

/-- The variables of the loop.  The last two fields are history: the inputs that
were reported cached, and those that were passed over because another occurrence
of the item is scheduled.  No decision reads them. -/
structure EncoderPass where
  manager : EncoderCacheManager
  encoderInputsToSchedule : List Nat := []
  externalLoadEncoderInput : List Nat := []
  mmHashesToSchedule : List String := []
  numEmbedsToSchedule : Nat := 0
  numNewTokens : Int
  encoderComputeBudget : Int
  reportedCached : List Nat := []
  repeatedInputs : List Nat := []

namespace EncoderPass

variable {H : Type}

/-- The input is scheduled, by the encoder or by an external load. -/
def take (pass : EncoderPass) (window : EncoderWindow) (feature : MultiModalFeatureSpec)
    (inputId : Nat) : EncoderPass :=
  let numEncoderEmbeds := feature.mmPosition.getNumEmbeds
  let taken :=
    { pass with
      mmHashesToSchedule := pass.mmHashesToSchedule ++ [feature.identifier]
      numEmbedsToSchedule := pass.numEmbedsToSchedule + numEncoderEmbeds }
  if window.hasCacheItem feature.identifier then
    { taken with externalLoadEncoderInput := pass.externalLoadEncoderInput ++ [inputId] }
  else
    { taken with
      encoderComputeBudget := pass.encoderComputeBudget - numEncoderEmbeds
      encoderInputsToSchedule := pass.encoderInputsToSchedule ++ [inputId] }

/-- The round of an input that is not cached; `true` ends the loop. -/
def visitUncached (pass : EncoderPass) (window : EncoderWindow) (request : Request H)
    (feature : MultiModalFeatureSpec) (inputId : Nat) : Except PyError (Bool × EncoderPass) :=
  let startPos := feature.mmPosition.offset
  let numEncoderTokens := feature.mmPosition.length
  let reached : Int := window.numComputedTokens + window.shiftComputedTokens
  if window.disableChunkedMmInput ∧ window.numComputedTokens < startPos ∧
      window.numComputedTokens + pass.numNewTokens < startPos + numEncoderTokens then
    -- The item would be cut: the step ends before it.
    .ok (true, { pass with numNewTokens := max 0 (startPos - reached) })
  else do
    let (fits, manager) ← pass.manager.canAllocate request inputId pass.encoderComputeBudget
      pass.numEmbedsToSchedule
    let pass := { pass with manager := manager }
    if fits then
      let startIdxRel := window.numComputedTokens - startPos
      let endIdxRel := (min (numEncoderTokens : Int) (window.encoderWindowEnd - startPos)).toNat
      let embeds := feature.mmPosition.getEmbedsIndicesInRange startIdxRel endIdxRel
      if embeds.1 = embeds.2 then
        -- No embedding of the item lies in the range.
        pure (false, pass)
      else
        pure (false, pass.take window feature inputId)
    else
      pure (true,
        { pass with numNewTokens := if reached < startPos then startPos - reached else 0 })

/-- One round of the loop; `true` ends it. -/
def visit (pass : EncoderPass) (window : EncoderWindow) (request : Request H)
    (inputId : Nat) : Except PyError (Bool × EncoderPass) := do
  let feature ← pyIndex request.mmFeatures inputId
  if feature.identifier ∈ pass.mmHashesToSchedule then
    -- Another occurrence of the item is scheduled in this step.
    pure (false, { pass with repeatedInputs := pass.repeatedInputs ++ [inputId] })
  else do
    let (cached, manager) ← pass.manager.checkAndUpdateCache request inputId
    let pass := { pass with manager := manager }
    if cached then
      pure (false, { pass with reportedCached := pass.reportedCached ++ [inputId] })
    else
      pass.visitUncached window request feature inputId

/-- The loop over the inputs of the window. -/
def visitAll (window : EncoderWindow) (request : Request H) :
    List Nat → EncoderPass → Except PyError EncoderPass
  | [], pass => .ok pass
  | inputId :: rest, pass => do
      let (stop, pass) ← pass.visit window request inputId
      if stop then pure pass else visitAll window request rest pass

end EncoderPass

/-- `_try_schedule_encoder_inputs`; the shift is the drafter's look-ahead.  The
result holds the inputs to encode and to load, the number of tokens the step may
still take and the remaining budget. -/
def tryScheduleEncoderInputs {H : Type} (manager : EncoderCacheManager) (request : Request H)
    (numComputedTokens : Nat) (numNewTokens encoderComputeBudget : Int)
    (shiftComputedTokens : Nat) (disableChunkedMmInput : Bool) (hasCacheItem : String → Bool) :
    Except PyError EncoderPass :=
  let pass : EncoderPass :=
    { manager := manager
      numNewTokens := numNewTokens
      encoderComputeBudget := encoderComputeBudget }
  if numNewTokens = 0 ∨ !request.hasEncoderInputs then
    .ok pass
  else
    let encoderWindowEnd := numComputedTokens + numNewTokens + shiftComputedTokens
    let bounds := getMmFeaturesInWindow request.mmFeatures numComputedTokens encoderWindowEnd
    EncoderPass.visitAll
      { numComputedTokens := numComputedTokens
        shiftComputedTokens := shiftComputedTokens
        encoderWindowEnd := encoderWindowEnd
        disableChunkedMmInput := disableChunkedMmInput
        hasCacheItem := hasCacheItem }
      request (List.range' bounds.1 (bounds.2 - bounds.1)) pass

end Vllm.Core
