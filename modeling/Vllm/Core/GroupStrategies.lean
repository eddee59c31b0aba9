import Vllm.Core.KVCacheGroups

/-!
# The grouping strategies

`get_kv_cache_groups` and the functions that it tries one after the other.
-/

namespace Vllm.Core.CachePlan

open Vllm.Library

/-- A dictionary with the same names and changed specifications. -/
def updateSpecs (specs : KVCacheSpecs) (change : LayerSpec → Except PyError LayerSpec) :
    Except PyError KVCacheSpecs :=
  specs.entries.foldlM (fun updated entry => do
    let spec ← change entry.2
    pure (updated.insert entry.1 spec)) specs

/-- `{name: specs[name] for name in names}`. -/
def selectSpecs (specs : KVCacheSpecs) (names : List String) : Except PyError KVCacheSpecs :=
  names.foldlM (fun selected name =>
    match specs.get? name with
    | some spec => .ok (selected.insert name spec)
    | none => .error .keyError) Dict.empty

/-- `create_kv_cache_group_specs`. -/
def createKvCacheGroupSpecs (specs : KVCacheSpecs) (groupedLayerNames : List (List String)) :
    Except PyError (List KVCacheGroupSpec) :=
  groupedLayerNames.mapM fun layerNames => do
    let layerSpecs ← layerNames.mapM fun layerName =>
      match specs.get? layerName with
      | some spec => Except.ok spec
      | none => .error .keyError
    let mergedLayerSpec ← mergeSpecs layerSpecs
    pure ⟨layerNames, .layer mergedLayerSpec⟩

/-! ## Promotion -/

/-- The condition under which specifications need no promotion. -/
def isUnified (specs : KVCacheSpecs) : Except PyError Bool := do
  if ← isKvCacheSpecUniform specs then
    pure true
  else
    isUniformType specs

/-- `promoted_page_size_padded`. -/
def promotedPageSizePadded (spec : AttentionSpec) (blockSize : Nat) :
    Except PyError (Option Nat) :=
  match spec.pageSizePadded with
  | none => .ok none
  | some pageSizePadded => do
      let unpaddedPageSize ← pyFloorDiv (spec.unpaddedPageSizeBytes * blockSize) spec.blockSize
      pure (some (max pageSizePadded unpaddedPageSize))

/-- The body of the promotion loop: `replace_as` with the target class. -/
def promoteSpec (fullAttentionBlockSize : Option Nat) (spec : LayerSpec) :
    Except PyError LayerSpec :=
  let replaceAs (fields : AttentionSpec) (kind : AttentionKind) : Except PyError LayerSpec := do
    let blockSize := fixedOr fullAttentionBlockSize fields.blockSize
    let pageSizePadded ← promotedPageSizePadded fields blockSize
    pure (LayerSpec.postInit (.attention
      { fields with blockSize := blockSize, pageSizePadded := pageSizePadded } kind))
  match spec with
  | .attention fields (.slidingWindowMLA window _ latent) =>
      replaceAs fields (.mla { slidingWindow := some window } latent false)
  | .attention fields (.slidingWindow window _) =>
      replaceAs fields (.full { slidingWindow := some window })
  | .attention fields (.chunkedLocal chunkSize) =>
      replaceAs fields (.full { attentionChunkSize := some chunkSize })
  | spec => .ok spec

/-- The specifications with the local ones promoted, next to full attention. -/
def promotedSpecs (specs : KVCacheSpecs) : Except PyError KVCacheSpecs :=
  let values := specsOf specs
  let fullBlockSizes := ((values.filter (·.isFullAttention)).map (·.blockSize)).dedup
  let fullAttentionBlockSize := match fullBlockSizes with
    | [blockSize] => some blockSize
    | _ => none
  if values.any (·.isFullAttention) &&
      (values.any (·.window?.isSome) || values.any (·.isChunkedLocal)) then
    updateSpecs specs (promoteSpec fullAttentionBlockSize)
  else
    .ok specs

/-- `_promote_local_kv_cache_specs`. -/
def promoteLocalKvCacheSpecs (specs : KVCacheSpecs) : Except PyError KVCacheSpecs := do
  if ← isUnified specs then
    pure specs
  else do
    let promoted ← promotedSpecs specs
    if ← isUnified promoted then
      pure promoted
    else
      .error (.valueError "Failed to promote local KV cache specs to one unified type.")

/-- `unify_hybrid_kv_cache_specs`. -/
def unifyHybridKvCacheSpecs (specs : KVCacheSpecs) : Except PyError KVCacheSpecs := do
  if ← isUnified specs then
    pure specs
  else
    promoteLocalKvCacheSpecs specs

/-- `_get_kv_cache_groups_uniform_type`. -/
def uniformTypeGroups (specs : KVCacheSpecs) (groupSpec : GroupSpec) : List KVCacheGroupSpec :=
  [⟨specs.keys, groupSpec⟩]

/-- `_try_get_full_allocation_fallback_groups`. -/
def tryGetFullAllocationFallbackGroups (specs : KVCacheSpecs) :
    Except PyError (Option (List KVCacheGroupSpec)) :=
  let values := specsOf specs
  if values.any (·.isHiddenState) then
    .ok none
  else if values.any fun spec => spec.isSlidingWindowMLA || spec.isChunkedLocal then
    .ok none
  else if !(values.any (·.isMLA) && values.any (·.window?.isSome)) then
    .ok none
  else
    match promoteLocalKvCacheSpecs specs with
    | .error (.valueError _) => .ok none
    | .error failure => .error failure
    | .ok promotedSpecs => do
        let uniformSpec ← fromSpecs promotedSpecs
        pure (uniformSpec.map (uniformTypeGroups promotedSpecs))

/-! ## Packed groups -/

/-- `_approximate_gcd`; the second text is shortened. -/
def approximateGcd (values : List Nat) (lowerBound : Nat) : Except PyError Nat :=
  if values = [] then
    .error (.valueError "values must be non-empty")
  else if values.any (· = 0) then
    .error (.valueError "values must be positive")
  else
    let minD := max 1 lowerBound
    let maxD := values.foldl max 0
    if minD > maxD then
      .ok minD
    else
      let best := (List.range' minD (maxD + 1 - minD)).foldl (fun (best : Nat × Option Nat) d =>
        let pad := (values.map fun x => (d - x % d) % d).sum
        match best.2 with
        | none => (d, some pad)
        | some bestPad =>
            if pad < bestPad ∨ (pad = bestPad ∧ d > best.1) then (d, some pad) else best)
        (minD, none)
      .ok best.1

/-- The loop over the buckets of `_get_packed_kv_cache_groups`. -/
def addToBuckets (name : String) (spec : LayerSpec) :
    List KVCacheSpecs → Except PyError (List KVCacheSpecs)
  | [] => .ok [Dict.empty.insert name spec]
  | bucket :: rest => do
      let candidate := bucket.insert name spec
      if ← isUniformType candidate then
        pure (candidate :: rest)
      else
        let rest ← addToBuckets name spec rest
        pure (bucket :: rest)

/-- A bucket with its layers by page size. -/
structure Bucket where
  groupSpec : GroupSpec
  specs : KVCacheSpecs
  pageSizeLayers : Dict Nat (List String)

namespace Bucket

/-- `page_size_layers.values()`. -/
def columns (bucket : Bucket) : List (List String) :=
  bucket.pageSizeLayers.entries.map Prod.snd

/-- `balanced`. -/
def balanced (bucket : Bucket) : Bool :=
  oneValue (bucket.columns.map List.length)

/-- `get_max_layers_per_page_size`. -/
def maxLayersPerPageSize (bucket : Bucket) : Nat :=
  (bucket.columns.map List.length).foldl max 0

/-- `isinstance(spec.first_spec, MambaSpec)`, with its page. -/
def mambaPage? (bucket : Bucket) : Except PyError (Option Nat) :=
  match specsOf bucket.specs with
  | [] => .error .stopIteration
  | first :: _ => if first.isMamba then first.pageSizeBytes.map some else .ok none

/-- `num_groups_for`. -/
def numGroupsFor (bucket : Bucket) (repeatsPerGroup : Option Nat) : Except PyError Nat :=
  match repeatsPerGroup with
  | some repeats => if bucket.balanced then pyCdiv bucket.maxLayersPerPageSize repeats else .ok 1
  | none => .ok 1

/-- `widest_group_bytes`. -/
def widestGroupBytes (bucket : Bucket) (numGroups : Nat) : Except PyError Nat := do
  let bytes ← bucket.pageSizeLayers.entries.mapM fun entry => do
    let widest ← pyCdiv entry.2.length numGroups
    pure (widest * entry.1)
  pure bytes.sum

end Bucket

/-- `bucketed`. -/
def bucketOf (specs : KVCacheSpecs) : Except PyError Bucket := do
  match ← fromSpecs specs with
  | none => .error .assertionError
  | some groupSpec =>
      let pageSizeLayers ← specs.entries.foldlM (fun (layers : Dict Nat (List String)) entry => do
        let page ← entry.2.pageSizeBytes
        pure (layers.insert page (layers.getD page [] ++ [entry.1]))) Dict.empty
      pure ⟨groupSpec, specs, pageSizeLayers⟩

/-- The number of groups of a bucket; a Mamba group takes no more states than a block
has room for anyway. -/
def Bucket.cappedGroups (bucket : Bucket) (anchorBytes numGroups : Nat) :
    Except PyError Nat := do
  match ← bucket.mambaPage? with
  | none => pure numGroups
  | some page =>
      if anchorBytes = 0 then
        pure numGroups
      else do
        let states ← pyFloorDiv anchorBytes page
        let split ← pyCdiv bucket.specs.entries.length (max states 1)
        pure (max numGroups split)

/-- The groups of one bucket. -/
def bucketGroups (repeatsPerGroup : Option Nat) (anchorBytes : Nat) (bucket : Bucket) :
    Except PyError (List KVCacheGroupSpec) := do
  let planned ← bucket.numGroupsFor repeatsPerGroup
  let numGroups ← bucket.cappedGroups anchorBytes planned
  if numGroups = 1 then
    pure [⟨bucket.specs.keys, bucket.groupSpec⟩]
  else
    (List.range numGroups).mapM fun i => do
      let groupLayerNames := (stridedSlice i numGroups (zipRows bucket.columns)).flatten
      let groupLayerSpecs ← selectSpecs bucket.specs groupLayerNames
      match ← fromSpecs groupLayerSpecs with
      | some groupSpec => pure ⟨groupLayerNames, groupSpec⟩
      | none => .error .assertionError

/-- `repeats_per_group`. -/
def repeatsPerGroupOf (bucketed : List Bucket) : Except PyError (Option Nat) :=
  let patterns := bucketed.filter fun bucket => bucket.balanced && bucket.columns.length > 1
  let minRepeatsPerGroup := (patterns.map Bucket.maxLayersPerPageSize).foldl max 0
  if minRepeatsPerGroup = 0 then
    .ok none
  else
    (approximateGcd ((bucketed.filter Bucket.balanced).map Bucket.maxLayersPerPageSize)
      minRepeatsPerGroup).map some

/-- What a bucket adds to `anchor_bytes`. -/
def Bucket.anchor (repeatsPerGroup : Option Nat) (bucket : Bucket) : Except PyError Nat := do
  match ← bucket.mambaPage? with
  | some _ => bucket.widestGroupBytes bucket.specs.entries.length
  | none => do
      let numGroups ← bucket.numGroupsFor repeatsPerGroup
      bucket.widestGroupBytes numGroups

/-- `_get_packed_kv_cache_groups`. -/
def getPackedKvCacheGroups (cacheConfig : CacheConfig) (specs : KVCacheSpecs) :
    Except PyError (Option (List KVCacheGroupSpec)) := do
  let layout ← cacheConfig.getResolvedKvCacheLayout
  let pageSizes ← (specsOf specs).mapM LayerSpec.pageSizeBytes
  if !layout.isBlockOutermost || pageSizes.dedup.length ≤ 1 then
    pure none
  else do
    let buckets ← specs.entries.foldlM (fun buckets entry =>
      addToBuckets entry.1 entry.2 buckets) []
    let bucketed ← buckets.mapM bucketOf
    let repeatsPerGroup ← repeatsPerGroupOf bucketed
    let anchors ← bucketed.mapM (Bucket.anchor repeatsPerGroup)
    let groups ← bucketed.mapM (bucketGroups repeatsPerGroup (anchors.foldl max 0))
    pure (some groups.flatten)

/-! ## Groups of one page size -/

/-- A specification with a larger page: padded, or with a longer block. -/
def enlargePage (maxPageSize pageSizeBytes : Nat) (spec : LayerSpec) :
    Except PyError LayerSpec :=
  if spec.isMamba then
    .ok (spec.replacePadding maxPageSize)
  else do
    let ratio ← pyFloorDiv maxPageSize pageSizeBytes
    if maxPageSize % pageSizeBytes = 0 then
      .ok (spec.replaceBlockSize (spec.blockSize * ratio))
    else if spec.isMLA then
      .error (.notImplementedError ("page size is not divisible by the maximum page size " ++
        "and cannot be padded. Padding is only supported for non-MLA attention layers."))
    else
      .ok (spec.replacePadding maxPageSize)

/-- The new specification of a layer in `unify_kv_cache_spec_page_size`. -/
def unifyPage (maxPageSize : Nat) (spec : LayerSpec) : Except PyError LayerSpec := do
  let pageSizeBytes ← spec.pageSizeBytes
  if pageSizeBytes = maxPageSize then
    pure spec
  else do
    let newSpec ← enlargePage maxPageSize pageSizeBytes spec
    let newPage ← newSpec.pageSizeBytes
    pyAssert (newPage = maxPageSize)
    pure newSpec

/-- `unify_kv_cache_spec_page_size`. -/
def unifyKvCacheSpecPageSize (specs : KVCacheSpecs) : Except PyError KVCacheSpecs := do
  let pageSizes ← (specsOf specs).mapM LayerSpec.pageSizeBytes
  if pageSizes.dedup.length ≤ 1 then
    pure specs
  else
    updateSpecs specs (unifyPage (pageSizes.foldl max 0))

/-- The loop that merges layers of different specifications. -/
def addToLayerBuckets (spec : LayerSpec) (layerNames : List String) :
    List (List String × List LayerSpec) → Except PyError (List (List String × List LayerSpec))
  | [] => .ok [(layerNames, [spec])]
  | (names, specs) :: rest =>
      match mergeSpecs (specs ++ [spec]) with
      | .ok _ => .ok ((names ++ layerNames, specs ++ [spec]) :: rest)
      | .error failure =>
          match failure with
          | .assertionError | .valueError _ => do
              let rest ← addToLayerBuckets spec layerNames rest
              pure ((names, specs) :: rest)
          | failure => .error failure

/-- `layer_buckets`, with the specifications that were merged. -/
def layerBucketsOf (specs : KVCacheSpecs) : Except PyError (List (List String × List LayerSpec)) :=
  let sameTypeLayers := specs.entries.foldl appendLayer Dict.empty
  sameTypeLayers.entries.foldlM (fun buckets entry =>
    addToLayerBuckets entry.1 entry.2 buckets) []

/-- `group_size`, from the least and the greatest number of layers of a bucket. -/
def commonGroupSize (numLayers : List Nat) : Except PyError Nat :=
  match numLayers.min?, numLayers.max? with
  | some minNumLayers, some maxNumLayers =>
      .ok (if 2 * maxNumLayers < 3 * minNumLayers then maxNumLayers else minNumLayers)
  | _, _ => .error (.valueError "min() iterable argument is empty")

/-- `_get_kv_cache_groups_uniform_page_size`. -/
def getKvCacheGroupsUniformPageSize (specs : KVCacheSpecs) :
    Except PyError (List KVCacheGroupSpec) := do
  let layerBuckets ← layerBucketsOf specs
  let groupSize ← commonGroupSize (layerBuckets.map (·.1.length))
  let groupedLayers ← layerBuckets.mapM fun bucket => do
    let numGroups ← pyCdiv bucket.1.length groupSize
    pure ((List.range numGroups).map fun i => stridedSlice i numGroups bucket.1)
  createKvCacheGroupSpecs specs groupedLayers.flatten

/-! ## Hidden states -/

/-- `_largest_divisor_at_most`. -/
def largestDivisorAtMost (value limit : Nat) : Nat :=
  ((List.range' 1 (min value limit)).reverse.find? (value % · = 0)).getD 1

/-- The specification of a group that is not of a uniform type. -/
def GroupSpec.layer? : GroupSpec → Option LayerSpec
  | .layer spec => some spec
  | .uniformType .. => none

/-- The group of one hidden-state layer, aligned to the common page. -/
def hiddenGroup (groupBlockSize commonPage : Nat) (entry : String × LayerSpec) :
    Except PyError KVCacheGroupSpec :=
  match entry.2 with
  | .attention fields kind => do
      let perToken := fields.numKvHeads * fields.headSize * fields.dtype.size
      let tokens ← pyFloorDiv commonPage perToken
      let newBlockSize := largestDivisorAtMost groupBlockSize (max tokens 1)
      -- The share of wasted bytes that is logged divides by the page.
      let _ ← pyFloorDiv commonPage commonPage
      pure ⟨[entry.1], .layer (LayerSpec.postInit (.attention
        { fields with blockSize := newBlockSize, pageSizePadded := some commonPage } kind))⟩
  | .mamba _ => .error .assertionError

/-- The groups of the hidden-state layers. -/
def hiddenGroups (hidden : KVCacheSpecs) (groups : List KVCacheGroupSpec) :
    Except PyError (List KVCacheGroupSpec) :=
  let groupSpecs := groups.filterMap (·.kvCacheSpec.layer?)
  if hidden.entries = [] then
    .ok []
  else do
    let pages ← groupSpecs.mapM LayerSpec.pageSizeBytes
    pyAssert (pages.dedup.length = 1)
    let commonPage ← pyIndex pages 0
    hidden.entries.mapM
      (hiddenGroup ((groupSpecs.map (·.blockSize)).foldl Nat.gcd 0) commonPage)

/-! ## All strategies -/

/-- The groups of layers that are not of one type. -/
def mixedKvCacheGroups (cacheConfig : CacheConfig) (specs : KVCacheSpecs) :
    Except PyError (List KVCacheGroupSpec) := do
  let hidden := filterSpecs specs (·.isHiddenState)
  let filtered := filterSpecs specs (!·.isHiddenState)
  match ← getPackedKvCacheGroups cacheConfig filtered with
  | some (group :: groups) =>
      pure (group :: groups ++ hidden.entries.map fun entry => ⟨[entry.1], .layer entry.2⟩)
  | _ =>
      match unifyKvCacheSpecPageSize filtered with
      | .error (.notImplementedError text) => do
          match ← tryGetFullAllocationFallbackGroups specs with
          | some groups => pure groups
          | none => .error (.notImplementedError text)
      | .error failure => .error failure
      | .ok filtered => do
          let groups ← getKvCacheGroupsUniformPageSize filtered
          let aligned ← hiddenGroups hidden groups
          pure (groups ++ aligned)

/-- `get_kv_cache_groups` behind its first step. -/
def groupKvCacheSpecs (cacheConfig : CacheConfig) (specs : KVCacheSpecs) :
    Except PyError (List KVCacheGroupSpec) :=
  if specs.entries = [] then
    .ok []
  else do
    if ← isKvCacheSpecUniform specs then
      createKvCacheGroupSpecs specs [specs.keys]
    else do
      match ← fromSpecs specs with
      | some groupSpec => pure (uniformTypeGroups specs groupSpec)
      | none => mixedKvCacheGroups cacheConfig specs

/-- `get_kv_cache_groups`, without the marks for draft layers. -/
def getKvCacheGroups (disableHybridKvCacheManager : Bool) (cacheConfig : CacheConfig)
    (specs : KVCacheSpecs) : Except PyError (List KVCacheGroupSpec) :=
  if disableHybridKvCacheManager then do
    let unified ← unifyHybridKvCacheSpecs specs
    groupKvCacheSpecs cacheConfig unified
  else
    groupKvCacheSpecs cacheConfig specs

end Vllm.Core.CachePlan
