import Vllm.Core.BlockPool

/-!
# KV cache specifications and cache-hit lookup

A specification says how the layers of one KV cache group use their blocks.
The lookups below are the class methods `find_longest_cache_hit`: they walk the
block hashes of a request and never change the pool.  A lookup serves all the
groups that share a specification, so a hit is a row with one block per group.
-/

namespace Vllm.Core

/-- `mamba_cache_mode`. -/
inductive MambaCacheMode where
  | none
  | all
  | align
  deriving DecidableEq, Repr

/-- The specification classes with the fields that the cache logic reads.  MLA
and hidden-state specifications behave as full attention; sliding-window MLA as
sliding window. -/
inductive SpecKind where
  | fullAttention
  | rswa (rswaWindow : Nat)
  | slidingWindow (slidingWindow extraRetainedTokens : Nat)
  | circularBuffer
  | chunkedLocalAttention (attentionChunkSize : Nat)
  | mamba (mode : MambaCacheMode) (numSpeculativeBlocks numPrefillCheckpointBlocks : Nat)
  | crossAttention
  deriving DecidableEq, Repr

/-- A sliding window sees at least the current token. -/
def SpecKind.hasWindow : SpecKind → Bool
  | .slidingWindow window _ => 0 < window
  | _ => true

/-- A specification.  `layout` stands for the remaining dataclass fields (head
counts, dtypes and the like), which are only compared for equality. -/
structure KVCacheSpec where
  blockSize : Nat
  kind : SpecKind
  layout : Nat := 0
  blockSize_pos : 0 < blockSize := by decide
  hasWindow : kind.hasWindow = true := by decide
  deriving DecidableEq, Repr

namespace KVCacheSpec

/-- `isinstance(spec, FullAttentionSpec)`. -/
def isFullAttention (spec : KVCacheSpec) : Bool :=
  match spec.kind with
  | .fullAttention | .rswa _ => true
  | _ => false

/-- `isinstance(spec, MambaSpec)`. -/
def isMamba (spec : KVCacheSpec) : Bool :=
  match spec.kind with
  | .mamba .. => true
  | _ => false

/-- `isinstance(spec, SlidingWindowSpec)`. -/
def isSlidingWindow (spec : KVCacheSpec) : Bool :=
  match spec.kind with
  | .slidingWindow .. => true
  | _ => false

/-- `isinstance(manager, CrossAttentionManager)` for the manager of `spec`. -/
def isCrossAttention (spec : KVCacheSpec) : Bool :=
  match spec.kind with
  | .crossAttention => true
  | _ => false

/-- `prefix_cacheable`: only the ring buffer is not. -/
def prefixCacheable (spec : KVCacheSpec) : Bool :=
  match spec.kind with
  | .circularBuffer => false
  | _ => true

/-- `supports_fine_grained_hash_lookup` of the manager class. -/
def supportsFineGrainedHashLookup (spec : KVCacheSpec) : Bool :=
  match spec.kind with
  | .fullAttention | .rswa _ | .mamba .. => true
  | _ => false

/-- `max_admission_blocks_per_request`, passed to the managers that recycle
blocks. -/
def maxAdmissionBlocksPerRequest (spec : KVCacheSpec) (maxInFlightTokens maxModelLen : Nat) :
    Option Nat :=
  match spec.kind with
  | .slidingWindow slidingWindow extraRetainedTokens =>
      let numTokens :=
        min (slidingWindow - 1 + extraRetainedTokens + maxInFlightTokens) maxModelLen
      some (cdiv numTokens spec.blockSize + 1)
  | .chunkedLocalAttention attentionChunkSize =>
      some (cdiv (min (attentionChunkSize + maxInFlightTokens) maxModelLen) spec.blockSize)
  | _ => none

end KVCacheSpec

/-! ## Longest cache hit -/

/-- One block per group for one block index. -/
abbrev HitRow := List BlockId

/-- The blocks of each of `numGroups` groups from the rows of a hit. -/
def hitColumns (numGroups : Nat) (rows : List HitRow) : List (List BlockId) :=
  (List.range numGroups).map fun group => rows.map fun row => row.getD group nullBlock

section Lookup

variable {H : Type} [DecidableEq H]

/-- Rows of consecutive cached hashes, up to the first miss. -/
def cachedPrefix (pool : BlockPool H) (groupIds : List Nat) : List H → List HitRow
  | [] => []
  | blockHash :: rest =>
      match pool.getCachedBlock blockHash groupIds with
      | none => []
      | some row => row :: cachedPrefix pool groupIds rest

/-- Rows of the cached hashes with indices from `start` on, at most `count`, up to
the first miss. -/
def cachedRun (pool : BlockPool H) (groupIds : List Nat) (blockHashes : List H) :
    Nat → Nat → Except PyError (List HitRow)
  | _, 0 => .ok []
  | start, count + 1 => do
      let blockHash ← pyIndex blockHashes start
      match pool.getCachedBlock blockHash groupIds with
      | none => pure []
      | some row =>
          let rows ← cachedRun pool groupIds blockHashes (start + 1) count
          pure (row :: rows)

/-- Probe the hashes with indices `first + count - 1` down to `first`; the first
cached one with an accepted index is returned. -/
def probeDown (pool : BlockPool H) (groupIds : List Nat) (blockHashes : List H)
    (accept : Nat → Bool) (first : Nat) : Nat → Except PyError (Option (Nat × HitRow))
  | 0 => .ok none
  | count + 1 => do
      let blockHash ← pyIndex blockHashes (first + count)
      match pool.getCachedBlock blockHash groupIds with
      | some row =>
          if accept (first + count) then pure (some (first + count, row))
          else probeDown pool groupIds blockHashes accept first count
      | none => probeDown pool groupIds blockHashes accept first count

/-- `FullAttentionManager.find_longest_cache_hit`; `blockSize` is the effective
block size under DCP. -/
def findLongestFullAttentionHit (pool : BlockPool H) (blockHashes : List H) (maxLength : Nat)
    (groupIds : List Nat) (blockSize : Nat) (dropEagleBlock : Bool) (alignmentTokens : Nat) :
    Except PyError (List HitRow × Nat) := do
  let blockHashes ←
    resolveBlockHashes blockHashes pool.hashBlockSize blockSize true (some alignmentTokens)
  let fineGrained : Bool := alignmentTokens < blockSize ∧ blockSize % alignmentTokens = 0
  let fullBlockHashes :=
    if fineGrained then blockHashListWithBlockSize blockHashes (blockSize / alignmentTokens)
    else blockHashes
  let fullRows := cachedPrefix pool groupIds (fullBlockHashes.take (maxLength / blockSize))
  -- Fine-grained lookup extends into the first block that is not fully cached.
  let scaleFactor := blockSize / alignmentTokens
  let firstPartialIdx := fullRows.length * scaleFactor
  let maxPartialIdx := min (min (firstPartialIdx + scaleFactor - 1)
    (maxLength / alignmentTokens)) blockHashes.length
  let tail ←
    (if fineGrained then
      probeDown pool groupIds blockHashes (fun _ => true) firstPartialIdx
        (maxPartialIdx - firstPartialIdx)
    else
      .ok none)
  let found : List HitRow × Nat :=
    match tail with
    | some (fineIdx, row) => (fullRows ++ [row], (fineIdx + 1) * alignmentTokens)
    | none => (fullRows, fullRows.length * blockSize)
  let hitLength :=
    if dropEagleBlock ∧ found.2 > 0 then found.2 - min alignmentTokens blockSize else found.2
  let hitLength := hitLength - hitLength % alignmentTokens
  pure (found.1.take (cdiv hitLength blockSize), hitLength)

/-- `_contiguous_blocks_for_hit`. -/
def contiguousBlocksForHit (windowSize blockSize : Nat) (useEagle : Bool) : Nat :=
  cdiv (windowSize - 1) blockSize + if useEagle then 1 else 0

/-- The right-to-left search of the sliding-window lookup over the first
`count` blocks.  `rows` holds the rows from index `count` on and `contiguous`
how many of them form the current run; a found run is cut after its end. -/
def scanWindow (pool : BlockPool H) (groupIds : List Nat) (blockHashes : List H)
    (blockSize alignmentTokens needed : Nat) (dropEagleBlock : Bool) :
    Nat → Nat → List HitRow → Except PyError (Bool × Nat × List HitRow)
  | 0, contiguous, rows => .ok (false, contiguous, rows)
  | i + 1, contiguous, rows => do
      let nullRow := List.replicate groupIds.length nullBlock
      let blockHash ← pyIndex blockHashes i
      match pool.getCachedBlock blockHash groupIds with
      | none =>
          scanWindow pool groupIds blockHashes blockSize alignmentTokens needed dropEagleBlock i
            0 (nullRow :: rows)
      | some row =>
          let postPopBlocks := if dropEagleBlock then i else i + 1
          if contiguous = 0 ∧ blockSize ≠ alignmentTokens ∧
              postPopBlocks * blockSize % alignmentTokens ≠ 0 then
            scanWindow pool groupIds blockHashes blockSize alignmentTokens needed dropEagleBlock
              i contiguous (nullRow :: rows)
          else if contiguous + 1 ≥ needed then
            pure (true, contiguous + 1,
              List.replicate i nullRow ++ (row :: rows).take (contiguous + 1))
          else
            scanWindow pool groupIds blockHashes blockSize alignmentTokens needed dropEagleBlock
              i (contiguous + 1) (row :: rows)

/-- How many of `count` blocks remain after popping down to the alignment. -/
def alignedCount (blockSize alignmentTokens : Nat) : Nat → Nat
  | 0 => 0
  | count + 1 =>
      if blockSize ≠ alignmentTokens ∧ (count + 1) * blockSize % alignmentTokens ≠ 0 then
        alignedCount blockSize alignmentTokens count
      else
        count + 1

/-- `SlidingWindowManager.find_longest_cache_hit`. -/
def findLongestSlidingWindowHit (pool : BlockPool H) (blockHashes : List H) (maxLength : Nat)
    (groupIds : List Nat) (blockSize slidingWindow : Nat) (dropEagleBlock : Bool)
    (alignmentTokens : Nat) : Except PyError (List HitRow × Nat) := do
  pyAssert (alignmentTokens % blockSize = 0)
  let blockHashes ←
    resolveBlockHashes blockHashes pool.hashBlockSize blockSize false (some alignmentTokens)
  let needed := contiguousBlocksForHit slidingWindow blockSize dropEagleBlock
  let (matchFound, contiguous, rows) ←
    scanWindow pool groupIds blockHashes blockSize alignmentTokens needed dropEagleBlock
      (maxLength / blockSize) 0 []
  let rows :=
    if matchFound then rows
    else rows.take (alignedCount blockSize alignmentTokens (rows.take contiguous).length)
  let rows :=
    if dropEagleBlock ∧ rows ≠ [] then
      rows.take (alignedCount blockSize alignmentTokens (rows.length - 1))
    else
      rows
  pure (rows, rows.length * blockSize)

/-- `ChunkedLocalAttentionManager.find_longest_cache_hit`. -/
def findLongestChunkedLocalHit (pool : BlockPool H) (blockHashes : List H) (maxLength : Nat)
    (groupIds : List Nat) (blockSize attentionChunkSize : Nat) (dropEagleBlock : Bool)
    (alignmentTokens : Nat) : Except PyError (List HitRow × Nat) := do
  pyAssert (dropEagleBlock = false)
  pyAssert (blockSize = alignmentTokens)
  let blockHashes ←
    resolveBlockHashes blockHashes pool.hashBlockSize blockSize false (some alignmentTokens)
  let maxNumBlocks := maxLength / blockSize
  let localAttentionStartIdx :=
    if maxLength > 0 then maxLength / attentionChunkSize * attentionChunkSize else 0
  let localAttentionStartBlockIdx := localAttentionStartIdx / blockSize
  let cached ← cachedRun pool groupIds blockHashes localAttentionStartBlockIdx
    (maxNumBlocks - localAttentionStartBlockIdx)
  -- Blocks before the current chunk count as computed.
  let rows := List.replicate localAttentionStartBlockIdx
    (List.replicate groupIds.length nullBlock) ++ cached
  pure (rows, rows.length * blockSize)

/-- `MambaManager.find_longest_cache_hit`: only the last cached state counts. -/
def findLongestMambaHit (pool : BlockPool H) (blockHashes : List H) (maxLength : Nat)
    (groupIds : List Nat) (blockSize : Nat) (alignmentTokens : Nat) :
    Except PyError (List HitRow × Nat) := do
  let blockHashes ←
    resolveBlockHashes blockHashes pool.hashBlockSize blockSize true (some alignmentTokens)
  let nullRow := List.replicate groupIds.length nullBlock
  let fineGrained : Bool := alignmentTokens < blockSize ∧ blockSize % alignmentTokens = 0
  -- The unit of the probed boundaries and how many of them fill a block.
  let unit := if fineGrained then alignmentTokens else blockSize
  let maxNumUnits :=
    if fineGrained then min (maxLength / alignmentTokens) blockHashes.length
    else maxLength / blockSize
  let found ← probeDown pool groupIds blockHashes
    (fun i => fineGrained || blockSize = alignmentTokens ||
      (i + 1) * blockSize % alignmentTokens = 0) 0 maxNumUnits
  match found with
  | some (i, row) =>
      pure (List.replicate (i / (blockSize / unit)) nullRow ++ [row], (i + 1) * unit)
  | none => pure ([], 0)

/-- `find_longest_cache_hit` of the manager class of `spec`. -/
def findLongestCacheHit (spec : KVCacheSpec) (pool : BlockPool H) (blockHashes : List H)
    (maxLength : Nat) (groupIds : List Nat) (dropEagleBlock : Bool)
    (alignmentTokens dcpWorldSize : Nat) : Except PyError (List (List BlockId) × Nat) := do
  let (rows, hitLength) ←
    (match spec.kind with
    | .fullAttention | .rswa _ =>
        findLongestFullAttentionHit pool blockHashes maxLength groupIds
          (spec.blockSize * dcpWorldSize) dropEagleBlock alignmentTokens
    | .slidingWindow slidingWindow _ =>
        findLongestSlidingWindowHit pool blockHashes maxLength groupIds spec.blockSize
          slidingWindow dropEagleBlock alignmentTokens
    | .circularBuffer => .ok ([], 0)
    | .chunkedLocalAttention attentionChunkSize =>
        findLongestChunkedLocalHit pool blockHashes maxLength groupIds spec.blockSize
          attentionChunkSize dropEagleBlock alignmentTokens
    | .mamba .. =>
        findLongestMambaHit pool blockHashes maxLength groupIds spec.blockSize alignmentTokens
    | .crossAttention =>
        .error (.notImplementedError "CrossAttentionManager does not support caching"))
  pure (hitColumns groupIds.length rows, hitLength)

end Lookup

end Vllm.Core
