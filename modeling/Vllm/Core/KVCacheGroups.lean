import Vllm.Core.TensorLayout
import Vllm.Library.StridedSlices

/-!
# Grouping the layers

Layers that share a block table form a group.  The strategies are tried in turn: one
group for specifications that merge or are of one type, packed groups where a block
holds pages of different sizes, and groups of one size where all pages are alike.
-/

namespace Vllm.Core.CachePlan

open Vllm.Library

/-- The specifications of the layers, in the order of registration. -/
abbrev KVCacheSpecs :=
  Dict String LayerSpec

/-- `dict.values()`. -/
def specsOf (specs : KVCacheSpecs) : List LayerSpec :=
  specs.entries.map Prod.snd

/-- A comprehension over the items with a condition on the specification. -/
def filterSpecs (specs : KVCacheSpecs) (keep : LayerSpec → Bool) : KVCacheSpecs where
  entries := specs.entries.filter fun entry => keep entry.2
  nodupKeys := specs.nodupKeys.sublist (List.filter_sublist.map Prod.fst)

/-! ## Classes -/

namespace LayerSpec

/-- `isinstance(spec, FullAttentionSpec)`. -/
def isFullAttention : LayerSpec → Bool
  | attention _ kind => kind.isFullAttention
  | mamba _ => false

/-- `isinstance(spec, MLAAttentionSpec)`. -/
def isMLA : LayerSpec → Bool
  | attention _ kind => kind.isMLA
  | mamba _ => false

/-- `isinstance(spec, HiddenStateCacheSpec)`. -/
def isHiddenState : LayerSpec → Bool
  | attention _ (.hiddenState ..) => true
  | _ => false

/-- `isinstance(spec, SlidingWindowSpec)`, with its window. -/
def window? : LayerSpec → Option Nat
  | attention _ (.slidingWindow window _) => some window
  | attention _ (.slidingWindowMLA window ..) => some window
  | _ => none

/-- `isinstance(spec, SlidingWindowMLASpec)`. -/
def isSlidingWindowMLA : LayerSpec → Bool
  | attention _ (.slidingWindowMLA ..) => true
  | _ => false

/-- `isinstance(spec, ChunkedLocalAttentionSpec)`. -/
def isChunkedLocal : LayerSpec → Bool
  | attention _ (.chunkedLocal _) => true
  | _ => false

/-- `isinstance(spec, MambaSpec)`. -/
def isMamba : LayerSpec → Bool
  | mamba _ => true
  | _ => false

/-- `isinstance(spec, AttentionSpec)`, with its fields. -/
def attention? : LayerSpec → Option AttentionSpec
  | attention spec _ => some spec
  | mamba _ => none

/-- The fields of `FullAttentionSpec`. -/
def full? : LayerSpec → Option FullAttentionFields
  | attention _ (.full fields) => some fields
  | attention _ (.sinkFull fields _) => some fields
  | attention _ (.rswa fields _) => some fields
  | attention _ (.mla fields ..) => some fields
  | attention _ (.hiddenState fields ..) => some fields
  | _ => none

/-- The fields that the MLA classes compare when they merge. -/
def mla? : LayerSpec → Option (MLAFields × Bool)
  | attention _ (.mla _ latent nonCausalMultiTokenDecode) =>
      some (latent, nonCausalMultiTokenDecode)
  | attention _ (.hiddenState _ latent nonCausalMultiTokenDecode) =>
      some (latent, nonCausalMultiTokenDecode)
  | _ => none

/-- `__post_init__` of the MLA classes: `_apply_alignment_padding`. -/
def postInit : LayerSpec → LayerSpec
  | attention spec kind =>
      let alignment := match kind with
        | .mla _ latent _ => latent.alignment
        | .hiddenState _ latent _ => latent.alignment
        | .slidingWindowMLA _ _ latent => latent.alignment
        | _ => none
      match alignment with
      | none => attention spec kind
      | some alignment =>
          let paddedPageSize := cdiv spec.unpaddedPageSizeBytes alignment * alignment
          if paddedPageSize ≠ spec.unpaddedPageSizeBytes then
            attention { spec with pageSizePadded := some paddedPageSize } kind
          else
            attention spec kind
  | mamba spec => mamba spec

/-- `replace(spec, block_size=…)`. -/
def replaceBlockSize (blockSize : Nat) : LayerSpec → LayerSpec
  | attention spec kind => postInit (attention { spec with blockSize := blockSize } kind)
  | mamba spec => mamba { spec with blockSize := blockSize }

/-- `replace(spec, page_size_padded=…)`. -/
def replacePadding (pageSizePadded : Nat) : LayerSpec → LayerSpec
  | attention spec kind =>
      postInit (attention { spec with pageSizePadded := some pageSizePadded } kind)
  | mamba spec => mamba { spec with pageSizePadded := some pageSizePadded }

end LayerSpec

/-! ## Merging -/

/-- `len(set(…)) == 1`. -/
def oneValue {α : Type} [DecidableEq α] (values : List α) : Bool :=
  values.dedup.length = 1

/-- `merge_window_sizes`. -/
def mergeWindowSizes (windowSizes : List (Option Nat)) : Except PyError (Option Nat) :=
  match (windowSizes.filterMap id).dedup with
  | [] => .ok none
  | [size] => .ok (some size)
  | _ => .error (.valueError
      "All attention layers in the same KV cache group must have the same window size.")

/-- `FullAttentionSpec.merge`; `SinkFullAttentionSpec.merge` differs in the fields of
`AttentionSpec` that it builds. -/
def mergeFullAttention (base : AttentionSpec) (specs : List LayerSpec) :
    Except PyError FullAttentionFields := do
  pyAssert (∀ spec ∈ specs, spec.isFullAttention = true)
  pyAssert (∀ spec ∈ specs, spec.isMLA = false)
  let fields := specs.filterMap LayerSpec.full?
  let slidingWindow ← mergeWindowSizes (fields.map (·.slidingWindow))
  let attentionChunkSize ← mergeWindowSizes (fields.map (·.attentionChunkSize))
  pyAssert (∀ spec ∈ specs, spec.attention? = some base)
  pyAssert (slidingWindow = none ∨ attentionChunkSize = none)
  pure { slidingWindow := slidingWindow, attentionChunkSize := attentionChunkSize,
         nonCausal := fields.any (·.nonCausal) }

/-- `MLAAttentionSpec.merge` up to the class of the result. -/
def mergeMLA (first : AttentionSpec) (specs : List LayerSpec) :
    Except PyError (AttentionSpec × MLAFields × Bool) := do
  pyAssert (∀ spec ∈ specs, spec.isMLA = true)
  let latents := specs.filterMap LayerSpec.mla?
  pyAssert (oneValue (latents.map (·.1.cacheDtypeStr)) ∧
    oneValue ((specs.filterMap LayerSpec.attention?).map (·.tokensPerState)) ∧
    oneValue (latents.map (·.1.modelVersion)))
  pyAssert (oneValue (latents.map (·.2)))
  let merged := { first with headSizeV := 0 }
  pyAssert (∀ spec ∈ specs, spec.attention? = some merged)
  let latent ← pyIndex latents 0
  pure (merged, { latent.1 with alignment := none }, latent.2)

/-- `SlidingWindowMLASpec.merge`. -/
def mergeSlidingWindowMLA (first : AttentionSpec) (window extraRetainedTokens : Nat)
    (latent : MLAFields) (specs : List LayerSpec) : Except PyError LayerSpec := do
  let parts := specs.filterMap fun
    | .attention spec (.slidingWindowMLA window extra latent) =>
        some (latent.cacheDtypeStr, spec.tokensPerState, latent.modelVersion, window, extra)
    | _ => none
  pyAssert (parts.length = specs.length)
  pyAssert (oneValue parts)
  pure (.attention { first with headSizeV := 0, kvQuantMode := 0 }
    (.slidingWindowMLA window extraRetainedTokens { latent with alignment := none }))

/-- `specs[0].merge(specs)`. -/
def mergeSpecs (specs : List LayerSpec) : Except PyError LayerSpec := do
  match ← pyIndex specs 0 with
  | .attention first (.full _) =>
      let fields ← mergeFullAttention first specs
      pure (.attention first (.full fields))
  | .attention first (.sinkFull _ sinkLen) =>
      let merged := { first with tokensPerState := 1 }
      let fields ← mergeFullAttention merged specs
      pure (.attention merged (.sinkFull fields sinkLen))
  | .attention first (.rswa _ rswaWindow) =>
      let windows := specs.filterMap fun
        | .attention _ (.rswa _ rswaWindow) => some rswaWindow
        | _ => none
      pyAssert (windows.length = specs.length)
      pyAssert (oneValue windows)
      let fields ← mergeFullAttention first specs
      pure (.attention first (.rswa fields rswaWindow))
  | .attention first (.mla ..) =>
      let (merged, latent, nonCausal) ← mergeMLA first specs
      pure (.attention merged (.mla {} latent nonCausal))
  | .attention first (.hiddenState ..) =>
      let (merged, latent, nonCausal) ← mergeMLA first specs
      pure (.attention merged (.hiddenState {} latent nonCausal))
  | .attention first (.slidingWindowMLA window extraRetainedTokens latent) =>
      mergeSlidingWindowMLA first window extraRetainedTokens latent specs
  | first =>
      pyAssert (∀ spec ∈ specs, spec = first)
      pure first

/-- `is_kv_cache_spec_uniform`. -/
def isKvCacheSpecUniform (specs : KVCacheSpecs) : Except PyError Bool :=
  if specs.entries = [] then
    .ok true
  else
    match mergeSpecs (specsOf specs) with
    | .ok _ => .ok true
    | .error .assertionError => .ok false
    | .error failure => .error failure

/-! ## Uniform types -/

/-- `is_uniform_with_collection`.  The registry puts every full attention class under
`FullAttentionSpec`, and it knows no encoder-only class. -/
def isUniformWithCollection (self : LayerSpec) (specs : List LayerSpec) : Except PyError Bool :=
  match self with
  | .attention _ .encoderOnly => .error .assertionError
  | .attention _ (.slidingWindow window _) => .ok (specs.all (·.window? = some window))
  | .attention _ (.slidingWindowMLA window ..) =>
      .ok (specs.all fun spec => spec.isSlidingWindowMLA && spec.window? = some window)
  | .attention _ (.chunkedLocal chunkSize) =>
      .ok (specs.all fun
        | .attention _ (.chunkedLocal other) => other = chunkSize
        | _ => false)
  | .attention _ .circularBuffer =>
      .ok (specs.all fun | .attention _ .circularBuffer => true | _ => false)
  | .attention _ .cross => .ok (specs.all fun | .attention _ .cross => true | _ => false)
  | .attention .. => .ok (specs.all (·.isFullAttention))
  | .mamba fields =>
      specs.allM fun
        | .mamba other =>
            if other.numSpeculativeBlocks = fields.numSpeculativeBlocks ∧
                other.numPrefillCheckpointBlocks = fields.numPrefillCheckpointBlocks then do
              let page ← (LayerSpec.mamba other).pageSizeBytes
              let own ← (LayerSpec.mamba fields).pageSizeBytes
              pure (decide (page = own) && decide (other.tpReplicated = fields.tpReplicated))
            else
              pure false
        | _ => pure false

/-- `UniformTypeKVCacheSpecs.is_uniform_type`. -/
def isUniformType (specs : KVCacheSpecs) : Except PyError Bool :=
  if ((specsOf specs).map (·.blockSize)).dedup.length > 1 then
    .ok false
  else
    match specsOf specs with
    | [] => .error .stopIteration
    | first :: _ => isUniformWithCollection first (specsOf specs)

/-- `UniformTypeKVCacheSpecs.from_specs`, with the block size of the first layer. -/
def fromSpecs (specs : KVCacheSpecs) : Except PyError (Option GroupSpec) := do
  if ← isUniformType specs then
    match specsOf specs with
    | [] => .error .stopIteration
    | first :: _ => pure (some (.uniformType first.blockSize specs))
  else
    pure none

end Vllm.Core.CachePlan
