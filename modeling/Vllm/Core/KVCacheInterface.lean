import Mathlib.Data.Rat.Floor
import Vllm.Core.KVCacheSpec
import Vllm.Library.Dict

/-!
# The KV cache of one layer

The specification classes of `kv_cache_interface.py` with all their fields: how
large a page is, and how much memory one request can need.  Grouping compares
these records, and the layout of the cache is computed from them; the managers
only see the part that `KVCacheSpec` keeps.
-/

namespace Vllm.Core.CachePlan

open Vllm.Library

/-- `numerator // denominator`. -/
def pyFloorDiv (numerator denominator : Nat) : Except PyError Nat :=
  if denominator = 0 then .error .zeroDivisionError else .ok (numerator / denominator)

/-- `cdiv`, which divides by its second argument. -/
def pyCdiv (numerator denominator : Nat) : Except PyError Nat :=
  if denominator = 0 then .error .zeroDivisionError else .ok (cdiv numerator denominator)

/-- A torch dtype with its `get_dtype_size`. -/
structure Dtype where
  name : String
  size : Nat
  deriving DecidableEq, Repr

/-- The fields of `AttentionSpec`.  `kvQuantMode` is the value of the enumeration. -/
structure AttentionSpec where
  blockSize : Nat
  numKvHeads : Nat
  headSize : Nat
  dtype : Dtype
  headSizeV : Nat
  kvQuantMode : Nat := 0
  pageSizePadded : Option Nat := none
  numHeadSlots : Option Nat := none
  stateContentBytes : Option Nat := none
  tokensPerState : ℚ := 1
  deriving DecidableEq

/-- The fields that `FullAttentionSpec` adds. -/
structure FullAttentionFields where
  slidingWindow : Option Nat := none
  attentionChunkSize : Option Nat := none
  nonCausal : Bool := false
  deriving DecidableEq

/-- The fields that the MLA classes add. -/
structure MLAFields where
  cacheDtypeStr : Option String := none
  alignment : Option Nat := none
  modelVersion : Option String := none
  deriving DecidableEq

/-- The subclasses of `AttentionSpec`. -/
inductive AttentionKind where
  | full (fields : FullAttentionFields)
  | sinkFull (fields : FullAttentionFields) (sinkLen : Option Nat)
  | rswa (fields : FullAttentionFields) (rswaWindow : Nat)
  | mla (fields : FullAttentionFields) (latent : MLAFields) (nonCausalMultiTokenDecode : Bool)
  | hiddenState (fields : FullAttentionFields) (latent : MLAFields)
      (nonCausalMultiTokenDecode : Bool)
  | chunkedLocal (attentionChunkSize : Nat)
  | slidingWindow (slidingWindow extraRetainedTokens : Nat)
  | slidingWindowMLA (slidingWindow extraRetainedTokens : Nat) (latent : MLAFields)
  | circularBuffer
  | encoderOnly
  | cross
  deriving DecidableEq

/-- `MambaSpec`; `num_heads` and `tokens_per_state` keep their defaults. -/
structure MambaSpec where
  blockSize : Nat
  shapes : List (List Nat)
  dtypes : List Dtype
  pageSizePadded : Option Nat := none
  mambaType : String := "mamba2"
  mambaCacheMode : MambaCacheMode := .none
  numSpeculativeBlocks : Nat := 0
  numPrefillCheckpointBlocks : Nat := 0
  tpReplicated : Bool := false
  deriving DecidableEq

/-- The specification of one layer. -/
inductive LayerSpec where
  | attention (spec : AttentionSpec) (kind : AttentionKind)
  | mamba (spec : MambaSpec)
  deriving DecidableEq

namespace AttentionSpec

/-- `num_heads`. -/
def numHeads (spec : AttentionSpec) : Nat :=
  spec.numHeadSlots.getD spec.numKvHeads

/-- `num_states`; a state covers a fraction of a token or several tokens. -/
def numStates (spec : AttentionSpec) : Nat :=
  if spec.tokensPerState > 0 then ⌊(spec.blockSize : ℚ) / spec.tokensPerState⌋.toNat else 1

/-- `state_content_size_bytes`. -/
def stateContentSizeBytes (spec : AttentionSpec) : Nat :=
  spec.stateContentBytes.getD ((spec.headSize + spec.headSizeV) * spec.dtype.size)

/-- `unpadded_page_size_bytes`. -/
def unpaddedPageSizeBytes (spec : AttentionSpec) : Nat :=
  spec.numHeads * spec.numStates * spec.stateContentSizeBytes

end AttentionSpec

/-- The sizes of the states of a Mamba layer together. -/
def MambaSpec.stateContentSizeBytes (spec : MambaSpec) : Nat :=
  ((spec.shapes.zip spec.dtypes).map fun state => state.1.prod * state.2.size).sum

namespace AttentionKind

/-- `isinstance(spec, FullAttentionSpec)`. -/
def isFullAttention : AttentionKind → Bool
  | full .. | sinkFull .. | rswa .. | mla .. | hiddenState .. => true
  | _ => false

/-- `isinstance(spec, MLAAttentionSpec)`. -/
def isMLA : AttentionKind → Bool
  | mla .. | hiddenState .. => true
  | _ => false

end AttentionKind

namespace LayerSpec

/-- `block_size`. -/
def blockSize : LayerSpec → Nat
  | attention spec _ => spec.blockSize
  | mamba spec => spec.blockSize

/-- `num_heads`. -/
def numHeads : LayerSpec → Nat
  | attention spec _ => spec.numHeads
  | mamba _ => 1

/-- `num_states`. -/
def numStates : LayerSpec → Nat
  | attention spec _ => spec.numStates
  | mamba _ => 1

/-- `state_content_size_bytes`. -/
def stateContentSizeBytes : LayerSpec → Nat
  | attention spec _ => spec.stateContentSizeBytes
  | mamba spec => spec.stateContentSizeBytes

/-- `page_size_padded`. -/
def pageSizePadded : LayerSpec → Option Nat
  | attention spec _ => spec.pageSizePadded
  | mamba spec => spec.pageSizePadded

/-- The page without its padding. -/
def unpaddedPageSizeBytes (spec : LayerSpec) : Nat :=
  spec.numHeads * spec.numStates * spec.stateContentSizeBytes

/-- `page_size_bytes`. -/
def pageSizeBytes (spec : LayerSpec) : Except PyError Nat :=
  match spec.pageSizePadded with
  | none => .ok spec.unpaddedPageSizeBytes
  | some padded => do
      pyAssert (spec.unpaddedPageSizeBytes ≤ padded)
      pure padded

end LayerSpec

/-! ## Groups -/

/-- The specification of a group: one for all its layers, or
`UniformTypeKVCacheSpecs` with one for each layer. -/
inductive GroupSpec where
  | layer (spec : LayerSpec)
  | uniformType (blockSize : Nat) (kvCacheSpecs : Dict String LayerSpec)

/-- `KVCacheGroupSpec`, without the flags that only later consumers read. -/
structure KVCacheGroupSpec where
  layerNames : List String
  kvCacheSpec : GroupSpec

/-- `_get_per_layer_spec`. -/
def getPerLayerSpec (group : KVCacheGroupSpec) (layerName : String) : Except PyError LayerSpec :=
  match group.kvCacheSpec with
  | .layer spec => .ok spec
  | .uniformType _ kvCacheSpecs =>
      match kvCacheSpecs.get? layerName with
      | some spec => .ok spec
      | none => .error .keyError

/-- The page bytes of one block over the layers of a group. -/
def groupBytesPerBlock (group : KVCacheGroupSpec) : Except PyError Nat := do
  let pages ← group.layerNames.mapM fun layerName => do
    let spec ← getPerLayerSpec group layerName
    spec.pageSizeBytes
  pure pages.sum

/-- `_get_kv_cache_bytes_per_block`; `max` of no group raises. -/
def getKvCacheBytesPerBlock (kvCacheGroups : List KVCacheGroupSpec) : Except PyError Nat := do
  let sums ← kvCacheGroups.mapM groupBytesPerBlock
  match sums with
  | [] => .error (.valueError "max() iterable argument is empty")
  | first :: rest =>
      let bytesPerBlock := rest.foldl max first
      pyAssert (bytesPerBlock > 0)
      pure bytesPerBlock

end Vllm.Core.CachePlan
