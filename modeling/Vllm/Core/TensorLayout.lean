import Mathlib.Data.Set.Basic
import Vllm.Core.KVCacheInterface
import Vllm.Library.StridedBoxes

/-!
# The layout of the cache tensors

All groups place their layers in one backing allocation.  The strides of a tensor
follow the physical order of the axes, and the regions of the different
specifications of a group lie one after another, in every block or in the whole
allocation.
-/

namespace Vllm.Core.CachePlan

open Vllm.Library

/-- The logical axes: layers, blocks, heads, states and content bytes. -/
inductive Dim where
  | l | b | h | n | c
  deriving DecidableEq, Repr

/-- `KVCacheLayout`. -/
inductive KVCacheLayout where
  | lbhnc | lbnhc | lhbnc | blhnc | blnhc | bhlnc
  deriving DecidableEq, Repr

namespace KVCacheLayout

/-- `stride_order`: the axes in memory, outermost first. -/
def strideOrder : KVCacheLayout → List Dim
  | lbhnc => [.l, .b, .h, .n, .c]
  | lbnhc => [.l, .b, .n, .h, .c]
  | lhbnc => [.l, .h, .b, .n, .c]
  | blhnc => [.b, .l, .h, .n, .c]
  | blnhc => [.b, .l, .n, .h, .c]
  | bhlnc => [.b, .h, .l, .n, .c]

/-- `is_layer_compact`. -/
def isLayerCompact (layout : KVCacheLayout) : Bool :=
  layout.strideOrder.head? = some .l

/-- `is_block_compact`. -/
def isBlockCompact (layout : KVCacheLayout) : Bool :=
  layout.strideOrder.take 2 = [.l, .b] ∨ layout.strideOrder.take 2 = [.b, .l]

/-- `is_block_outermost`. -/
def isBlockOutermost (layout : KVCacheLayout) : Bool :=
  layout.strideOrder.head? = some .b

/-- `name`. -/
def name : KVCacheLayout → String
  | lbhnc => "LBHNC"
  | lbnhc => "LBNHC"
  | lhbnc => "LHBNC"
  | blhnc => "BLHNC"
  | blnhc => "BLNHC"
  | bhlnc => "BHLNC"

end KVCacheLayout

/-! ## Strides -/

/-- The five-dimensional shape; `compute_layer_kv_cache_shape_bytes` gives the last four
sizes. -/
def layoutShape (spec : LayerSpec) (numBlocks numLayers : Nat) : Dim → Nat
  | .l => numLayers
  | .b => numBlocks
  | .h => spec.numHeads
  | .n => spec.numStates
  | .c => spec.stateContentSizeBytes

/-- The padding of a page, at the innermost axis of the page grid. -/
def padPage (padded : Option (Nat × Nat)) (physicalIdx currentStride : Nat) :
    Except PyError Nat :=
  match padded with
  | none => .ok currentStride
  | some (pageGridEnd, paddedPageSize) =>
      if physicalIdx + 1 = pageGridEnd then
        let currentStride := max currentStride paddedPageSize
        if paddedPageSize = 0 then
          .error .zeroDivisionError
        else do
          pyAssert (currentStride % paddedPageSize = 0)
          pure currentStride
      else
        .ok currentStride

/-- `fixed or current`. -/
def fixedOr (fixed : Option Nat) (currentStride : Nat) : Nat :=
  match fixed with
  | some (stride + 1) => stride + 1
  | _ => currentStride

/-- The loop of `compute_layout_strides` from the innermost axis outwards, with
`current_stride` in the second component. -/
def stridesLoop (shape : Dim → Nat) (fixedStrides : Dim → Option Nat)
    (padded : Option (Nat × Nat)) : List (Dim × Nat) → Except PyError ((Dim → Nat) × Nat)
  | [] => .ok (fun _ => 0, 1)
  | (dim, physicalIdx) :: inner => do
      let (strides, currentStride) ← stridesLoop shape fixedStrides padded inner
      let currentStride ← padPage padded physicalIdx currentStride
      let stride := fixedOr (fixedStrides dim) currentStride
      pure (Function.update strides dim stride, stride * shape dim)

/-- `compute_layout_strides` without kernel blocks; the shape divides by the size of a
block. -/
def computeLayoutStrides (spec : LayerSpec) (numBlocks numLayers : Nat) (layout : KVCacheLayout)
    (fixedStrides : Dim → Option Nat) : Except PyError (Dim → Nat) := do
  pyAssert (∀ dim ∈ layout.strideOrder, fixedStrides dim ≠ some 0)
  let _ ← pyFloorDiv spec.blockSize spec.blockSize
  let shape := layoutShape spec numBlocks numLayers
  let order := layout.strideOrder
  let pageGridEnd := max (order.idxOf .l) (order.idxOf .b) + 1
  pyAssert (spec.pageSizePadded = none ∨
    ((order.take pageGridEnd).map shape).prod = numLayers * numBlocks)
  let strides ← stridesLoop shape fixedStrides
    (spec.pageSizePadded.map fun paddedPageSize => (pageGridEnd, paddedPageSize)) order.zipIdx
  pure strides.1

/-! ## Tensors -/

/-- `KVCacheTensor`. -/
structure KVCacheTensor where
  size : Nat
  layers : List String
  layerStride : Nat
  blockStride : Nat
  offset : Nat := 0
  deriving DecidableEq, Repr

/-- `KVCacheConfig` as far as it is filled in here. -/
structure KVCacheConfig where
  numBlocks : Nat
  kvCacheTensors : List KVCacheTensor
  kvCacheGroups : List KVCacheGroupSpec
  prefixCacheRetentionInterval : Option Nat

/-- The parts of `CacheConfig` that the layout of the tensors depends on. -/
structure CacheConfig where
  kvCacheLayout : Option KVCacheLayout
  numGpuBlocksOverride : Option Nat := none
  prefixCacheRetentionInterval : Option Nat := none

/-- `get_resolved_kv_cache_layout`. -/
def CacheConfig.getResolvedKvCacheLayout (cacheConfig : CacheConfig) :
    Except PyError KVCacheLayout :=
  match cacheConfig.kvCacheLayout with
  | some layout => .ok layout
  | none => .error (.valueError ("KV cache layout has not been resolved yet; it is resolved " ++
      "once by the engine core (resolve_kv_cache_layout) unless explicitly set by the user."))

/-- `validate_kv_cache_layout`; the text is shortened. -/
def validateKvCacheLayout (layout : KVCacheLayout) (kvCacheGroups : List KVCacheGroupSpec) :
    Except PyError Unit := do
  let pageSizes ← kvCacheGroups.mapM fun group =>
    group.layerNames.mapM fun layerName => do
      let spec ← getPerLayerSpec group layerName
      spec.pageSizeBytes
  if pageSizes.flatten.dedup.length = 1 then
    pure ()
  else if !layout.isBlockCompact || (kvCacheGroups.length > 1 && layout.isLayerCompact) then
    .error (.valueError
      ("KV cache layout " ++ layout.name ++ " cannot express this model's mixed page sizes"))
  else
    pure ()

/-- `may_override_num_blocks`. -/
def mayOverrideNumBlocks (cacheConfig : CacheConfig) (numBlocks : Nat) : Nat :=
  cacheConfig.numGpuBlocksOverride.getD numBlocks

/-- `layers_by_spec[spec].append(layer_name)`. -/
def appendLayer (layersBySpec : Dict LayerSpec (List String)) (item : String × LayerSpec) :
    Dict LayerSpec (List String) :=
  layersBySpec.insert item.2 (layersBySpec.getD item.2 [] ++ [item.1])

/-- `layers_by_spec`. -/
def layersBySpec (group : KVCacheGroupSpec) : Dict LayerSpec (List String) :=
  match group.kvCacheSpec with
  | .uniformType _ kvCacheSpecs => kvCacheSpecs.entries.foldl appendLayer Dict.empty
  | .layer spec =>
      if group.layerNames = [] then Dict.empty
      else Dict.empty.insert spec (Dict.empty.getD spec [] ++ group.layerNames)

/-- The fixed strides of a tensor that is being placed. -/
def interleavedStrides (interleavedBlockStride : Option Nat) : Dim → Option Nat
  | .b => interleavedBlockStride
  | _ => none

/-- The loop over `layers_by_spec`. -/
def tensorsLoop (layout : KVCacheLayout) (numBlocks size : Nat)
    (interleavedBlockStride : Option Nat) :
    Nat → List (LayerSpec × List String) → Except PyError (List KVCacheTensor)
  | _, [] => .ok []
  | byteOffset, (spec, layerNames) :: rest => do
      let strides ← computeLayoutStrides spec numBlocks layerNames.length layout
        (interleavedStrides interleavedBlockStride)
      let pageSizeBytes ← spec.pageSizeBytes
      let offset ← pyFloorDiv (byteOffset * max (strides .l) pageSizeBytes) pageSizeBytes
      let tensors ← tensorsLoop layout numBlocks size interleavedBlockStride
        (byteOffset + layerNames.length * pageSizeBytes) rest
      pure ({ size := size, layers := layerNames, layerStride := strides .l,
              blockStride := strides .b, offset := offset } :: tensors)

/-- `get_kv_cache_config_from_groups`. -/
def getKvCacheConfigFromGroups (cacheConfig : CacheConfig)
    (kvCacheGroups : List KVCacheGroupSpec) (availableMemory : Nat) :
    Except PyError KVCacheConfig :=
  if kvCacheGroups = [] then
    .ok { numBlocks := 1, kvCacheTensors := [], kvCacheGroups := kvCacheGroups,
          prefixCacheRetentionInterval := cacheConfig.prefixCacheRetentionInterval }
  else do
    let layout ← cacheConfig.getResolvedKvCacheLayout
    validateKvCacheLayout layout kvCacheGroups
    let bytesPerBlock ← getKvCacheBytesPerBlock kvCacheGroups
    let interleavedBlockStride := if layout.isBlockOutermost then some bytesPerBlock else none
    let numBlocks := mayOverrideNumBlocks cacheConfig (availableMemory / bytesPerBlock)
    let size := bytesPerBlock * numBlocks
    let tensors ← kvCacheGroups.mapM fun group =>
      tensorsLoop layout numBlocks size interleavedBlockStride 0 (layersBySpec group).entries
    pure { numBlocks := numBlocks, kvCacheTensors := tensors.flatten,
           kvCacheGroups := kvCacheGroups,
           prefixCacheRetentionInterval := cacheConfig.prefixCacheRetentionInterval }

/-! ## Pages -/

/-- The strides of the views that `create_kv_cache_views` takes of a tensor. -/
def viewStrides (spec : LayerSpec) (numBlocks : Nat) (layout : KVCacheLayout)
    (tensor : KVCacheTensor) : Except PyError (Dim → Nat) :=
  computeLayoutStrides spec numBlocks tensor.layers.length layout fun
    | .l => some tensor.layerStride
    | .b => some tensor.blockStride
    | _ => none

/-- The axes inside a page. -/
def pageDims : List Dim :=
  [.h, .n, .c]

/-- The bytes of a page that starts at `start`: the cells of the view, and the padding. -/
def pageBytes (spec : LayerSpec) (strides : Dim → Nat) (start : Nat) : Set Nat :=
  {byte | (∃ index : Dim → Nat, (∀ dim ∈ pageDims, index dim < layoutShape spec 0 0 dim) ∧
      byte = start + address strides index pageDims) ∨
    ∃ padded, spec.pageSizePadded = some padded ∧ start ≤ byte ∧ byte < start + padded}

/-- The bytes that a layer of a group has for a block. -/
def IsPage (cacheConfig : CacheConfig) (config : KVCacheConfig) (group : KVCacheGroupSpec)
    (layerName : String) (block : Nat) (page : Set Nat) : Prop :=
  ∃ layout spec strides, ∃ tensor ∈ config.kvCacheTensors, ∃ layer : Nat,
    cacheConfig.kvCacheLayout = some layout ∧ getPerLayerSpec group layerName = .ok spec ∧
    tensor.layers[layer]? = some layerName ∧
    viewStrides spec config.numBlocks layout tensor = .ok strides ∧
    page = pageBytes spec strides
      (tensor.offset + layer * tensor.layerStride + block * tensor.blockStride)

end Vllm.Core.CachePlan
