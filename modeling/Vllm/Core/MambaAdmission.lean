import Vllm.Core.AdmissionRuns

/-!
# Admission of align-mode Mamba groups

In align mode the prediction and the allocation are written independently.
Here both are counted exactly: `Undercounts` is the condition on the books of a
request and on the arguments under which an allocation takes more blocks than
were predicted.
-/

namespace Vllm.Core

open Vllm.Library BlockPool

variable {H : Type}

namespace SingleTypeKVCacheManager

section Definitions

variable [DecidableEq H] [BlockHashing H]

/-- What `allocate_slots` asks of one group after the prediction: the computed
blocks are added, unless there are none or the request is known already, and
new blocks are allocated. -/
def computeAndAllocate (pool : BlockPool H) (manager : SingleTypeKVCacheManager H)
    (requestId : RequestId) (newComputedBlocks : List BlockId)
    (numLocalComputedTokens numExternalComputedTokens numTokens numTokensMainModel : Nat) :
    Except PyError (List BlockId × BlockPool H × SingleTypeKVCacheManager H) := do
  let (pool, manager) ←
    (if newComputedBlocks = [] ∧ numExternalComputedTokens = 0 then
      .ok (pool, manager)
    else if manager.isTracked requestId then
      (pyAssert (newComputedBlocks.length = 0)).map fun _ => (pool, manager)
    else do
      let (pool, manager) ← manager.addLocalComputedBlocks pool requestId newComputedBlocks
        numLocalComputedTokens numExternalComputedTokens
      if numExternalComputedTokens > 0 then
        manager.allocateExternalComputedBlocks pool requestId numLocalComputedTokens
          numExternalComputedTokens
      else
        pure (pool, manager))
  manager.allocateNewBlocks pool requestId numTokens numTokensMainModel

omit [BlockHashing H] in
/-- The prediction of an align-mode manager is too low.  Without computed blocks
this happens when the table has become longer than required, since the number of
missing blocks is not cut off at zero.  Otherwise a block for external tokens was
not counted, and nothing else was counted too often: no partial hit, no hit
outside the window and no checkpoint that the table already provides. -/
def Undercounts (pool : BlockPool H) (manager : SingleTypeKVCacheManager H)
    (requestId : RequestId) (newComputedBlocks : List BlockId)
    (numLocalComputedTokens numExternalComputedTokens numTokensMainModel : Nat)
    (numSpeculativeBlocks numPrefillCheckpointBlocks : Nat) : Prop :=
  let totalComputedTokens := numLocalComputedTokens + numExternalComputedTokens
  let numBlocks := cdiv numTokensMainModel manager.blockSize
  let numComputedBlocks := cdiv totalComputedTokens manager.blockSize
  if newComputedBlocks = [] ∧ numExternalComputedTokens = 0 then
    numBlocks + numSpeculativeBlocks < (manager.blocksOf requestId).length ∧
      manager.partialHitReqs.get? requestId = none
  else
    hitCachedThisStep pool manager newComputedBlocks = false ∧
      0 < numExternalComputedTokens ∧
      newComputedBlocks.length < numComputedBlocks ∧ numComputedBlocks < numBlocks ∧
      manager.hasPartialLocalHit newComputedBlocks numLocalComputedTokens = false ∧
      getNumEvictableBlocks pool newComputedBlocks = 0 ∧
      ¬ (numComputedBlocks + 1 = numBlocks ∧
        manager.needsInternalCheckpoint requestId numPrefillCheckpointBlocks numTokensMainModel
          totalComputedTokens = true)

end Definitions

/-! ## The prediction -/

section Prediction

variable [DecidableEq H]

/-- The value that align mode predicts. -/
def alignPrediction (pool : BlockPool H) (manager : SingleTypeKVCacheManager H)
    (requestId : RequestId) (newComputedBlocks : List BlockId)
    (totalComputed numLocal numTokensMainModel numSpeculative numCheckpoint : Nat) : Int :=
  let missing : Int := (cdiv numTokensMainModel manager.blockSize + numSpeculative : Nat) -
    newComputedBlocks.length - (manager.blocksOf requestId).length
  let hasPartialHit := manager.hasPartialLocalHit newComputedBlocks numLocal ||
    (manager.partialHitReqs.get? requestId).isSome
  let missing := if hasPartialHit then max missing 0 + 1 else missing
  let fresh : Nat := 1 + hasPartialHit.toNat +
    (manager.needsInternalCheckpoint requestId numCheckpoint numTokensMainModel
      totalComputed).toNat +
    if requestId ∈ manager.allocatedBlockReqs then 0 else numSpeculative
  (if missing > 0 then (fresh : Int) else missing) + getNumEvictableBlocks pool newComputedBlocks

/-- The books that the prediction leaves to the allocation. -/
structure Noted (requestId : RequestId) (checkpointBlock : Nat)
    (manager manager' : SingleTypeKVCacheManager H) : Prop where
  settings : manager'.settings = manager.settings
  blocksOf : manager'.blocksOf requestId = manager.blocksOf requestId
  numCachedBlock : manager'.numCachedBlock = manager.numCachedBlock
  partialHitReqs : manager'.partialHitReqs = manager.partialHitReqs
  allocatedBlockReqs : manager'.allocatedBlockReqs = manager.allocatedBlockReqs
  checkpoint : manager'.numCheckpointBlocks.getD requestId 0 = checkpointBlock

theorem getNumBlocksToAllocate_align {pool : BlockPool H}
    {manager manager' : SingleTypeKVCacheManager H} {numSpeculative numCheckpoint : Nat}
    (align : manager.kvCacheSpec.kind = .mamba .align numSpeculative numCheckpoint)
    {requestId : RequestId} {numTokens : Nat} {newComputedBlocks : List BlockId}
    {totalComputed numLocal numTokensMainModel : Nat} {count : Int}
    (waits : hitCachedThisStep pool manager newComputedBlocks = false)
    (predicted : getNumBlocksToAllocate pool manager requestId numTokens newComputedBlocks
      totalComputed numLocal numTokensMainModel false = .ok (count, manager')) :
    count = alignPrediction pool manager requestId newComputedBlocks totalComputed numLocal
        numTokensMainModel numSpeculative numCheckpoint ∧
      Noted requestId (manager.needsInternalCheckpoint requestId numCheckpoint numTokensMainModel
        totalComputed).toNat manager manager' := by
  have ensured := (manager.ensureBlocks_sameTables requestId).blocksOf requestId
  have sameCheckpoint : (manager.ensureBlocks requestId).needsInternalCheckpoint requestId
      numCheckpoint numTokensMainModel totalComputed = manager.needsInternalCheckpoint requestId
        numCheckpoint numTokensMainModel totalComputed := by
    unfold needsInternalCheckpoint
    rw [ensured]
    rfl
  unfold getNumBlocksToAllocate at predicted
  simp only [align, waits, Bool.false_eq_true, if_false, if_true, Except.ok.injEq] at predicted
  unfold alignNumBlocksToAllocate at predicted
  simp only [ensured, sameCheckpoint, Bool.false_eq_true, if_false, Prod.mk.injEq] at predicted
  rcases predicted with ⟨rfl, rfl⟩
  refine ⟨?_, rfl, ensured, rfl, rfl, rfl, Dict.getD_insert_self ..⟩
  rfl

end Prediction

/-! ## The cost of an allocation -/

section Cost

variable {pool pool' : BlockPool H} {manager manager' : SingleTypeKVCacheManager H}
  {requestId : RequestId}
  {numSkipped checkpointBlock numSpeculative numCheckpoint numExternal : Nat}

variable {table : List BlockId}

theorem relocateSpeculativeBlocks_length {indices : List Nat} {reqBlocks : List BlockId}
    (relocated : relocateSpeculativeBlocks pool indices reqBlocks = .ok table) :
    table.length = reqBlocks.length + indices.length := by
  induction indices generalizing reqBlocks with
  | nil =>
      cases relocated
      rfl
  | cons index rest ih =>
      obtain ⟨block, _, relocated⟩ := bind_eq_ok.mp relocated
      obtain ⟨_, _, relocated⟩ := bind_eq_ok.mp relocated
      rw [ih relocated, List.length_set, List.length_append, List.length_singleton,
        List.length_cons]
      omega

/-- The scratch blocks to relocate lie between the scratch start and the last
state. -/
theorem scratch_length_le (prevBlockLen numSpeculative numSkipped : Nat) :
    (((List.range prevBlockLen).drop (prevBlockLen - numSpeculative)).filter
      (· < numSkipped)).length ≤ min (min numSpeculative prevBlockLen)
        (numSkipped - (prevBlockLen - numSpeculative)) := by
  have whole : ((List.range prevBlockLen).drop (prevBlockLen - numSpeculative)).length =
      min numSpeculative prevBlockLen := by
    rw [List.length_drop, List.length_range]
    omega
  refine Nat.le_min.mpr ⟨(List.length_filter_le ..).trans whole.le, ?_⟩
  have nodup : (((List.range prevBlockLen).drop (prevBlockLen - numSpeculative)).filter
      (· < numSkipped)).Nodup :=
    (List.nodup_range.sublist (List.drop_sublist ..)).filter _
  have inside : (((List.range prevBlockLen).drop (prevBlockLen - numSpeculative)).filter
      (· < numSkipped)) ⊆ List.range' (prevBlockLen - numSpeculative)
        (numSkipped - (prevBlockLen - numSpeculative)) := by
    intro index member
    rcases List.mem_filter.mp member with ⟨late, early⟩
    have early := of_decide_eq_true early
    rw [List.range_eq_range', List.drop_range', List.mem_range'_1] at late
    rw [List.mem_range'_1]
    omega
  have bound := (List.subperm_of_subset nodup inside).length_le
  rwa [List.length_range'] at bound

/-- The adjusted table is never longer than required. -/
theorem alignTable_length_le
    (aligned : alignTable pool manager requestId numSkipped checkpointBlock numSpeculative =
      .ok table) :
    table.length ≤ max (manager.blocksOf requestId).length (numSkipped + numSpeculative) := by
  have scratch := scratch_length_le (manager.blocksOf requestId).length numSpeculative numSkipped
  have padded : (if (manager.blocksOf requestId).length < numSkipped then
      manager.blocksOf requestId ++ List.replicate
        (numSkipped - checkpointBlock - (manager.blocksOf requestId).length) nullBlock
      else manager.blocksOf requestId).length ≤
        max (manager.blocksOf requestId).length numSkipped := by
    split
    · rw [List.length_append, List.length_replicate]
      omega
    · exact Nat.le_max_left ..
  unfold alignTable at aligned
  split at aligned
  · rw [relocateSpeculativeBlocks_length aligned]
    omega
  · cases aligned
    omega

theorem alignPrepared_allocatedBlockReqs (manager : SingleTypeKVCacheManager H)
    (requestId : RequestId) (numSpeculative : Nat) :
    (manager.alignPrepared requestId numSpeculative).allocatedBlockReqs =
      manager.allocatedBlockReqs := by
  unfold alignPrepared recordLastStateBlock
  dsimp only
  split
  · rfl
  · split <;> rfl

/-- Without scratch blocks the table is only padded. -/
theorem alignTable_unallocated (unallocated : requestId ∉ manager.allocatedBlockReqs)
    (aligned : alignTable pool manager requestId numSkipped checkpointBlock numSpeculative =
      .ok table) :
    table.length =
      if (manager.blocksOf requestId).length < numSkipped then
        (manager.blocksOf requestId).length +
          (numSkipped - checkpointBlock - (manager.blocksOf requestId).length)
      else (manager.blocksOf requestId).length := by
  unfold alignTable at aligned
  rw [if_neg unallocated] at aligned
  cases aligned
  split
  · rw [List.length_append, List.length_replicate]
  · rfl

variable [DecidableEq H]

/-- Privatizing a partial hit leaves the free queue alone. -/
theorem privatizePartialHit_getNumFreeBlocks {blocksAllocated : Bool} {blockIdx : Nat}
    {sourceBlock cowBlock : BlockId}
    (ran : privatizePartialHit pool manager requestId blocksAllocated blockIdx sourceBlock
      cowBlock = .ok (pool', manager')) : pool'.getNumFreeBlocks = pool.getNumFreeBlocks := by
  rcases privatizePartialHit_cases ran with
    ⟨_, _, moved, moves, rfl, _, _, _, _⟩ | ⟨_, applied⟩
  · exact congrArg (·.numFreeBlocks) (moveBlockHashes_sameRefs moves).freeBlockQueue
  · rcases applyCow_eq_ok applied with ⟨_, _, _, rfl, _⟩
    rfl

variable [BlockHashing H]

/-- What an align-mode allocation takes from the free queue; the requested number
is never negative. -/
theorem alignAllocateNewBlocks_cost (consistent : Consistent pool) {numTokens : Nat}
    {returned : List BlockId}
    (allocated : alignAllocateNewBlocks pool manager requestId numTokens numSpeculative =
      .ok (returned, pool', manager')) :
    (cdiv numTokens manager.blockSize + numSpeculative ≤ (manager.blocksOf requestId).length ∧
      manager.partialHitReqs.get? requestId = none ∧
      pool'.getNumFreeBlocks = pool.getNumFreeBlocks) ∨
    ∃ table, ¬ (cdiv numTokens manager.blockSize + numSpeculative ≤
          (manager.blocksOf requestId).length ∧
        manager.partialHitReqs.get? requestId = none) ∧
      alignTable pool (manager.alignPrepared requestId numSpeculative) requestId
        (cdiv numTokens manager.blockSize - 1) (manager.numCheckpointBlocks.getD requestId 0)
        numSpeculative = .ok table ∧
      alignNewBlocks (cdiv numTokens manager.blockSize + numSpeculative) table.length
          (manager.partialHitReqs.get? requestId).isSome ≤
        ((1 + (manager.partialHitReqs.get? requestId).isSome.toNat +
          manager.numCheckpointBlocks.getD requestId 0 +
          if requestId ∈ manager.allocatedBlockReqs then 0 else numSpeculative : Nat) : Int) ∧
      0 ≤ alignNewBlocks (cdiv numTokens manager.blockSize + numSpeculative) table.length
        (manager.partialHitReqs.get? requestId).isSome ∧
      pool'.getNumFreeBlocks +
          ((alignNewBlocks (cdiv numTokens manager.blockSize + numSpeculative) table.length
            (manager.partialHitReqs.get? requestId).isSome).toNat : Int) =
        pool.getNumFreeBlocks := by
  rcases alignAllocateNewBlocks_cases allocated with
    ⟨enough, settled, _, rfl, _⟩ | ⟨table, newBlocks, middle, short, aligned, within, got, rest⟩
  · exact .inl ⟨enough, settled, rfl⟩
  · rw [Nat.add_sub_cancel] at aligned
    rw [Option.isNone_iff_eq_none] at short
    have nonneg : 0 ≤ alignNewBlocks (cdiv numTokens manager.blockSize + numSpeculative)
        table.length (manager.partialHitReqs.get? requestId).isSome := by
      have bound := alignTable_length_le aligned
      rw [(manager.alignPrepared_sameTables requestId numSpeculative).blocksOf] at bound
      unfold alignNewBlocks
      cases pending : manager.partialHitReqs.get? requestId with
      | none =>
          have longer : ¬ cdiv numTokens manager.blockSize + numSpeculative ≤
              (manager.blocksOf requestId).length := fun enough => short ⟨enough, pending⟩
          omega
      | some hit =>
          simp only [Option.isSome_some, if_true]
          omega
    refine .inr ⟨table, short, aligned, within, nonneg, ?_⟩
    have taken := consistent.getNewBlocks_exact got
    rcases rest with ⟨_, rfl, _, _⟩ | ⟨_, _, _, _, _, _, _, ran, _, _⟩
    · exact taken
    · rw [privatizePartialHit_getNumFreeBlocks ran]
      exact taken

/-- The state after the computed blocks of a new request were added. -/
structure AddedComputed (pool : BlockPool H) (manager : SingleTypeKVCacheManager H)
    (requestId : RequestId) (newComputedBlocks : List BlockId) (numLocal numExternal : Nat)
    (pool' : BlockPool H) (manager' : SingleTypeKVCacheManager H) : Prop where
  consistent : Consistent pool'
  settings : manager'.settings = manager.settings
  length : (manager'.blocksOf requestId).length =
    if 0 < numExternal then
      max (cdiv (numLocal + numExternal) manager.blockSize)
        (max (manager.getNumSkippedBlocks (numLocal + numExternal)) newComputedBlocks.length)
    else max (manager.getNumSkippedBlocks (numLocal + numExternal)) newComputedBlocks.length
  pending : (manager'.partialHitReqs.get? requestId).isSome =
    (manager.partialTail newComputedBlocks numLocal (numLocal + numExternal)).isSome
  allocatedBlockReqs : manager'.allocatedBlockReqs = manager.allocatedBlockReqs
  numCheckpointBlocks : manager'.numCheckpointBlocks = manager.numCheckpointBlocks
  cost : ∃ touched : Nat, pool'.getNumFreeBlocks + touched +
      (if 0 < numExternal then
        cdiv (numLocal + numExternal) manager.blockSize -
          max (manager.getNumSkippedBlocks (numLocal + numExternal)) newComputedBlocks.length
      else 0 : Nat) = pool.getNumFreeBlocks ∧
    touched ≤ getNumEvictableBlocks pool
      (newComputedBlocks.drop (manager.getNumSkippedBlocks (numLocal + numExternal)))

section

omit [DecidableEq H] [BlockHashing H]

theorem withLocalHits_isSome (settled : manager.partialHitReqs.get? requestId = none)
    (newComputedBlocks : List BlockId) (numLocal numComputed : Nat) :
    ((manager.withLocalHits requestId newComputedBlocks numLocal
      numComputed).partialHitReqs.get? requestId).isSome =
        (manager.partialTail newComputedBlocks numLocal numComputed).isSome := by
  unfold withLocalHits
  dsimp only
  cases manager.partialTail newComputedBlocks numLocal numComputed with
  | none =>
      rw [Option.map_none, Option.getD_none, settled]
  | some hit =>
      rw [Option.map_some, Option.getD_some, Dict.get?_insert_self]

/-- An external token in the window, for a Mamba group. -/
theorem numExternalInWindow_ne_zero {mode : MambaCacheMode}
    (mamba : manager.kvCacheSpec.kind = .mamba mode numSpeculative numCheckpoint) (numLocal : Nat)
    (some : 0 < numExternal) : manager.numExternalInWindow numLocal numExternal ≠ 0 := by
  unfold numExternalInWindow getNumSkippedTokens
  simp only [mamba]
  split <;> omega

end

theorem addedComputed (consistent : Consistent pool) {mode : MambaCacheMode}
    (mamba : manager.kvCacheSpec.kind = .mamba mode numSpeculative numCheckpoint)
    (settled : manager.partialHitReqs.get? requestId = none) {newComputedBlocks : List BlockId}
    {numLocal : Nat} (valid : ∀ block ∈ newComputedBlocks, block < pool.numGpuBlocks) (added : (do
      let (pool, manager) ← manager.addLocalComputedBlocks pool requestId newComputedBlocks
        numLocal numExternal
      if numExternal > 0 then
        manager.allocateExternalComputedBlocks pool requestId numLocal numExternal
      else pure (pool, manager)) = .ok (pool', manager')) :
    AddedComputed pool manager requestId newComputedBlocks numLocal numExternal pool' manager' := by
  obtain ⟨⟨middle, next⟩, first, added⟩ := bind_eq_ok.mp added
  unfold addLocalComputedBlocks at first
  simp only [mamba] at first
  rcases addLocalHits_eq_ok first with ⟨_, touched, rfl⟩
  have taken := consistent.touch
    (fun block member => valid block (List.mem_of_mem_drop member)) touched
  have paid := taken.getNumFreeBlocks_le consistent
  have fewer := taken.grown.getNumFreeBlocks_le consistent
  have pending := withLocalHits_isSome settled newComputedBlocks numLocal (numLocal + numExternal)
  have length : ((manager.withLocalHits requestId newComputedBlocks numLocal
      (numLocal + numExternal)).blocksOf requestId).length =
      max (manager.getNumSkippedBlocks (numLocal + numExternal)) newComputedBlocks.length := by
    rw [withLocalHits_blocksOf, length_localTable]
  dsimp only at added
  split at added
  · rename_i some
    unfold allocateExternalComputedBlocks at added
    have still : (manager.withLocalHits requestId newComputedBlocks numLocal
        (numLocal + numExternal)).kvCacheSpec.kind =
          .mamba mode numSpeculative numCheckpoint := mamba
    simp only [still] at added
    unfold allocateExternalHits at added
    rw [if_neg (numExternalInWindow_ne_zero still numLocal some)] at added
    obtain ⟨⟨newBlocks, after, extended⟩, ran, added⟩ := bind_eq_ok.mp added
    cases added
    rcases extendBlocks_eq_ok ran with ⟨got, same⟩
    rcases extendBlocks_effect taken.consistent ran with ⟨grown, _, table, count, hits⟩
    have exact' := taken.consistent.getNewBlocks_exact got
    have fields : manager'.allocatedBlockReqs = manager.allocatedBlockReqs ∧
        manager'.numCheckpointBlocks = manager.numCheckpointBlocks := by
      rw [same]
      unfold recordBlocks
      split <;> exact ⟨rfl, rfl⟩
    refine ⟨grown.consistent, (extendBlocks_onlyFor ran).settings, ?_, ?_, fields.1, fields.2,
      (pool.getNumFreeBlocks - middle.getNumFreeBlocks).toNat, ?_, ?_⟩
    · rw [if_pos some, table, List.length_append, length, count]
      change _ + (cdiv _ manager.blockSize - _) = _
      omega
    · rw [hits]
      exact pending
    · rw [if_pos some]
      change _ + ((cdiv _ manager.blockSize - _ : Nat) : Int) = _ at exact'
      omega
    · omega
  · rename_i none
    cases added
    refine ⟨taken.consistent, rfl, ?_, pending, rfl, rfl,
      (pool.getNumFreeBlocks - pool'.getNumFreeBlocks).toNat, ?_, ?_⟩
    · rw [if_neg none, length]
    · rw [if_neg none]
      omega
    · omega

end Cost

/-! ## Prediction and allocation compared -/

/-- The prediction for a new request, as a number. -/
def alignCount (numBlocks numSpeculative numHits : Nat) (partialHit checkpoint : Bool)
    (numEvictable : Nat) : Int :=
  let missing : Int := (numBlocks + numSpeculative : Nat) - numHits
  let missing := if partialHit then max missing 0 + 1 else missing
  let fresh : Nat := 1 + partialHit.toNat + checkpoint.toNat + numSpeculative
  (if missing > 0 then (fresh : Int) else missing) + numEvictable

/-- The blocks that `allocate_new_blocks` takes for a new request, as a number. -/
def alignTaken (numBlocks numSpeculative prevBlockLen : Nat) (partialHit checkpoint : Bool) : Int :=
  if numBlocks + numSpeculative ≤ prevBlockLen ∧ partialHit = false then 0
  else
    alignNewBlocks (numBlocks + numSpeculative)
      (if prevBlockLen < numBlocks - 1 then
        prevBlockLen + (numBlocks - 1 - checkpoint.toNat - prevBlockLen)
      else prevBlockLen) partialHit

/-- Counting for a new request with computed blocks. -/
theorem align_count_le_iff {numBlocks numSpeculative numHits numSkipped numComputed prevBlockLen
      numEvictable inWindow touched : Nat} {partialHit pending checkpoint : Bool}
    {external : Prop} [Decidable external] (computed : numComputed = numSkipped + 1)
    (covered : numHits ≤ numComputed) (within : numComputed ≤ numBlocks)
    (length : prevBlockLen =
      if external then max numComputed (max numSkipped numHits) else max numSkipped numHits)
    (tail : pending = true → partialHit = true ∧ numSkipped < numHits)
    (hit : partialHit = true → numSkipped < numHits → pending = true)
    (evictable : inWindow ≤ numEvictable) (dropped : numHits ≤ numSkipped → inWindow = 0)
    (few : touched ≤ inWindow) :
    (touched : Int) + (if external then numComputed - max numSkipped numHits else 0 : Nat) +
        alignTaken numBlocks numSpeculative prevBlockLen pending checkpoint ≤
      alignCount numBlocks numSpeculative numHits partialHit checkpoint numEvictable ↔
    ¬ (external ∧ numHits < numComputed ∧ numComputed < numBlocks ∧ partialHit = false ∧
      numEvictable = 0 ∧ ¬ (numComputed + 1 = numBlocks ∧ checkpoint = true)) := by
  subst computed length
  unfold alignTaken alignCount alignNewBlocks
  by_cases outside : external
  · simp only [outside, if_true, true_and]
    cases partialHit <;> cases pending <;> cases checkpoint <;> simp at tail hit ⊢ <;>
      split_ifs <;> omega
  · simp only [outside, if_false, false_and, not_false_eq_true, iff_true]
    cases partialHit <;> cases pending <;> cases checkpoint <;> simp at tail hit ⊢ <;>
      split_ifs <;> omega

section Comparison

variable [DecidableEq H] [BlockHashing H] {pool pool' : BlockPool H}
  {manager noted manager' : SingleTypeKVCacheManager H} {numSpeculative numCheckpoint : Nat}
  {requestId : RequestId} {numTokens numTokensMainModel : Nat} {count : Int}
  {newBlocks : List BlockId}

omit [DecidableEq H] [BlockHashing H] in
theorem Noted.kind {checkpointBlock : Nat} (books : Noted requestId checkpointBlock manager noted)
    (align : manager.kvCacheSpec.kind = .mamba .align numSpeculative numCheckpoint) :
    noted.kvCacheSpec.kind = .mamba .align numSpeculative numCheckpoint := by
  rw [kvCacheSpec_of_settings books.settings]
  exact align

/-- Without computed blocks the prediction is too low only for a table that is
longer than required. -/
theorem allocateNewBlocks_le_iff (consistent : Consistent pool)
    (align : manager.kvCacheSpec.kind = .mamba .align numSpeculative numCheckpoint)
    {totalComputed numLocal : Nat}
    (predicted : getNumBlocksToAllocate pool manager requestId numTokens [] totalComputed numLocal
      numTokensMainModel false = .ok (count, noted))
    (allocated : allocateNewBlocks pool noted requestId numTokens numTokensMainModel =
      .ok (newBlocks, pool', manager')) :
    pool.getNumFreeBlocks - pool'.getNumFreeBlocks ≤ count ↔
      ¬ (cdiv numTokensMainModel manager.blockSize + numSpeculative <
          (manager.blocksOf requestId).length ∧ manager.partialHitReqs.get? requestId = none) := by
  rcases getNumBlocksToAllocate_align align rfl predicted with ⟨rfl, books⟩
  unfold allocateNewBlocks at allocated
  simp only [books.kind align, if_true] at allocated
  have size := blockSize_of_settings books.settings
  have cost := alignAllocateNewBlocks_cost consistent allocated
  rw [size, books.blocksOf, books.partialHitReqs, books.allocatedBlockReqs,
    books.checkpoint] at cost
  have noEvictable : getNumEvictableBlocks pool [] = 0 := rfl
  have noHits : manager.hasPartialLocalHit [] numLocal = false := rfl
  unfold alignPrediction
  simp only [noEvictable, noHits, Bool.false_or, List.length_nil]
  rcases cost with ⟨enough, settled, same⟩ | ⟨table, short, _, within, nonneg, paid⟩
  · rw [settled, same]
    simp only [Option.isSome_none, Bool.false_eq_true, if_false, and_true]
    omega
  · cases pending : manager.partialHitReqs.get? requestId with
    | none =>
        rw [pending] at within paid nonneg
        have longer : ¬ cdiv numTokensMainModel manager.blockSize + numSpeculative ≤
            (manager.blocksOf requestId).length := fun enough => short ⟨enough, pending⟩
        omega
    | some hit =>
        rw [pending] at within paid nonneg
        simp only [Option.isSome_some, if_true] at within paid nonneg ⊢
        simp only [reduceCtorEq, and_false, not_false_eq_true, iff_true]
        omega

section

omit [DecidableEq H] [BlockHashing H]

/-- A Mamba group skips all but the last computed block. -/
theorem cdiv_eq_skipped_add_one {mode : MambaCacheMode}
    (mamba : manager.kvCacheSpec.kind = .mamba mode numSpeculative numCheckpoint)
    {numComputed : Nat} (positive : 0 < numComputed) :
    cdiv numComputed manager.blockSize = manager.getNumSkippedBlocks numComputed + 1 := by
  unfold cdiv getNumSkippedBlocks getNumSkippedTokens
  simp only [mamba]
  rw [← Nat.add_div_right _ manager.blockSize_pos]
  congr 1
  omega

theorem partialTail_isSome (newComputedBlocks : List BlockId) (numLocal numComputed : Nat) :
    (manager.partialTail newComputedBlocks numLocal numComputed).isSome = true ↔
      numLocal % manager.blockSize ≠ 0 ∧
        manager.getNumSkippedBlocks numComputed < newComputedBlocks.length := by
  unfold partialTail
  split
  · rename_i remainder
    rw [Option.isSome_map, List.getLast?_isSome, ne_eq, List.drop_eq_nil_iff, Nat.not_le]
    simp [remainder]
  · rename_i whole
    simp only [ne_eq, not_not] at whole
    simp [whole]

theorem getNumEvictableBlocks_drop_le (pool : BlockPool H) (blocks : List BlockId) (count : Nat) :
    getNumEvictableBlocks pool (blocks.drop count) ≤ getNumEvictableBlocks pool blocks :=
  (List.drop_sublist ..).countP_le

end

/-- With computed blocks of a new request, the prediction misses the block for the
external tokens. -/
theorem computeAndAllocate_le_iff (consistent : Consistent pool)
    (align : manager.kvCacheSpec.kind = .mamba .align numSpeculative numCheckpoint)
    (unknown : Unknown requestId manager) {newComputedBlocks : List BlockId}
    {numLocal numExternal : Nat} (valid : ∀ block ∈ newComputedBlocks, block < pool.numGpuBlocks)
    (covered : newComputedBlocks.length ≤ cdiv numLocal manager.blockSize)
    (within : numLocal + numExternal ≤ numTokensMainModel)
    (some : ¬ (newComputedBlocks = [] ∧ numExternal = 0))
    (waits : hitCachedThisStep pool manager newComputedBlocks = false)
    (predicted : getNumBlocksToAllocate pool manager requestId numTokens newComputedBlocks
      (numLocal + numExternal) numLocal numTokensMainModel false = .ok (count, noted))
    (allocated : computeAndAllocate pool noted requestId newComputedBlocks numLocal numExternal
      numTokens numTokensMainModel = .ok (newBlocks, pool', manager')) :
    pool.getNumFreeBlocks - pool'.getNumFreeBlocks ≤ count ↔
      ¬ (0 < numExternal ∧
        newComputedBlocks.length < cdiv (numLocal + numExternal) manager.blockSize ∧
        cdiv (numLocal + numExternal) manager.blockSize <
          cdiv numTokensMainModel manager.blockSize ∧
        manager.hasPartialLocalHit newComputedBlocks numLocal = false ∧
        getNumEvictableBlocks pool newComputedBlocks = 0 ∧
        ¬ (cdiv (numLocal + numExternal) manager.blockSize + 1 =
            cdiv numTokensMainModel manager.blockSize ∧
          manager.needsInternalCheckpoint requestId numCheckpoint numTokensMainModel
            (numLocal + numExternal) = true)) := by
  rcases getNumBlocksToAllocate_align align waits predicted with ⟨rfl, books⟩
  have notedAlign := books.kind align
  have size := blockSize_of_settings books.settings
  have untracked : noted.isTracked requestId = false := by
    unfold isTracked
    rw [books.numCachedBlock]
    exact unknown.untracked
  unfold computeAndAllocate at allocated
  rw [if_neg some, untracked] at allocated
  obtain ⟨⟨middle, added⟩, first, allocated⟩ := bind_eq_ok.mp allocated
  have computed := addedComputed consistent notedAlign
    (by rw [books.partialHitReqs]; exact unknown.settled) valid first
  have addedAlign : added.kvCacheSpec.kind = .mamba .align numSpeculative numCheckpoint := by
    rw [kvCacheSpec_of_settings computed.settings]
    exact notedAlign
  unfold allocateNewBlocks at allocated
  simp only [addedAlign, if_true] at allocated
  have cost := alignAllocateNewBlocks_cost computed.consistent allocated
  have addedSize : added.blockSize = manager.blockSize :=
    (blockSize_of_settings computed.settings).trans size
  have skips := getNumSkippedBlocks_of_settings books.settings (numLocal + numExternal)
  have length := computed.length
  have unallocated : requestId ∉ added.allocatedBlockReqs := by
    rw [computed.allocatedBlockReqs, books.allocatedBlockReqs]
    exact unknown.unallocated _ _ align
  have checkpoint : added.numCheckpointBlocks.getD requestId 0 =
      (manager.needsInternalCheckpoint requestId numCheckpoint numTokensMainModel
        (numLocal + numExternal)).toNat := by
    rw [computed.numCheckpointBlocks]
    exact books.checkpoint
  have pending : (added.partialHitReqs.get? requestId).isSome = true ↔
      numLocal % manager.blockSize ≠ 0 ∧
        manager.getNumSkippedBlocks (numLocal + numExternal) < newComputedBlocks.length := by
    rw [computed.pending, partialTail_isSome, size, skips]
  have partialHit : manager.hasPartialLocalHit newComputedBlocks numLocal = true ↔
      0 < newComputedBlocks.length ∧ numLocal % manager.blockSize ≠ 0 := by
    unfold hasPartialLocalHit
    rw [decide_eq_true_iff, List.length_pos_iff]
  have evictable := getNumEvictableBlocks_drop_le pool newComputedBlocks
    (manager.getNumSkippedBlocks (numLocal + numExternal))
  have dropped : newComputedBlocks.length ≤ manager.getNumSkippedBlocks (numLocal + numExternal) →
      getNumEvictableBlocks pool (newComputedBlocks.drop
        (manager.getNumSkippedBlocks (numLocal + numExternal))) = 0 := by
    intro short
    rw [List.drop_of_length_le short]
    rfl
  rcases computed.cost with ⟨touched, paid, few⟩
  have order : cdiv numLocal manager.blockSize ≤
      cdiv (numLocal + numExternal) manager.blockSize := cdiv_mono (Nat.le_add_right ..) _
  have order' : cdiv (numLocal + numExternal) manager.blockSize ≤
      cdiv numTokensMainModel manager.blockSize := cdiv_mono within _
  have skippedBlocks : cdiv (numLocal + numExternal) manager.blockSize =
      manager.getNumSkippedBlocks (numLocal + numExternal) + 1 :=
    cdiv_eq_skipped_add_one align (by
      by_contra none
      have zero : numLocal = 0 ∧ numExternal = 0 := by omega
      rw [zero.1, cdiv, Nat.zero_add, Nat.div_eq_of_lt (by have := manager.blockSize_pos; omega)]
        at covered
      exact some ⟨List.eq_nil_of_length_eq_zero (Nat.le_zero.mp covered), zero.2⟩)
  rw [addedSize, checkpoint] at cost
  rw [size, skips] at length paid
  rw [skips] at few
  have counted : alignPrediction pool manager requestId newComputedBlocks (numLocal + numExternal)
      numLocal numTokensMainModel numSpeculative numCheckpoint =
      alignCount (cdiv numTokensMainModel manager.blockSize) numSpeculative
        newComputedBlocks.length (manager.hasPartialLocalHit newComputedBlocks numLocal)
        (manager.needsInternalCheckpoint requestId numCheckpoint numTokensMainModel
          (numLocal + numExternal)) (getNumEvictableBlocks pool newComputedBlocks) := by
    unfold alignPrediction alignCount
    rw [unknown.table, unknown.settled, if_neg (unknown.unallocated _ _ align)]
    simp
  rw [counted]
  have taken : pool.getNumFreeBlocks - pool'.getNumFreeBlocks = (touched : Int) +
      (if 0 < numExternal then
        cdiv (numLocal + numExternal) manager.blockSize -
          max (manager.getNumSkippedBlocks (numLocal + numExternal)) newComputedBlocks.length
      else 0 : Nat) +
      alignTaken (cdiv numTokensMainModel manager.blockSize) numSpeculative
        (added.blocksOf requestId).length (added.partialHitReqs.get? requestId).isSome
        (manager.needsInternalCheckpoint requestId numCheckpoint numTokensMainModel
          (numLocal + numExternal)) := by
    rcases cost with ⟨enough, settled, same⟩ | ⟨table, short, aligned, _, nonneg, paidNew⟩
    · have none : alignTaken (cdiv numTokensMainModel manager.blockSize) numSpeculative
          (added.blocksOf requestId).length (added.partialHitReqs.get? requestId).isSome
          (manager.needsInternalCheckpoint requestId numCheckpoint numTokensMainModel
            (numLocal + numExternal)) = 0 :=
        if_pos ⟨enough, by rw [settled]; rfl⟩
      omega
    · have tableLength := alignTable_unallocated
        (by rw [alignPrepared_allocatedBlockReqs]; exact unallocated) aligned
      rw [(added.alignPrepared_sameTables requestId numSpeculative).blocksOf] at tableLength
      have some : alignTaken (cdiv numTokensMainModel manager.blockSize) numSpeculative
          (added.blocksOf requestId).length (added.partialHitReqs.get? requestId).isSome
          (manager.needsInternalCheckpoint requestId numCheckpoint numTokensMainModel
            (numLocal + numExternal)) =
          alignNewBlocks (cdiv numTokensMainModel manager.blockSize + numSpeculative)
            table.length (added.partialHitReqs.get? requestId).isSome := by
        rw [tableLength]
        exact if_neg fun enough => short ⟨enough.1, by simpa using enough.2⟩
      omega
  rw [taken]
  refine align_count_le_iff skippedBlocks (covered.trans order) order' length ?_ ?_ evictable
    dropped few
  · intro isPending
    rcases pending.mp isPending with ⟨remainder, inside⟩
    exact ⟨partialHit.mpr ⟨by omega, remainder⟩, inside⟩
  · intro isPartial inside
    exact pending.mpr ⟨(partialHit.mp isPartial).2, inside⟩

/-- An allocation that waits for the next step is never too expensive. -/
theorem alignAllocateNewBlocks_nonneg (consistent : Consistent pool)
    (allocated : alignAllocateNewBlocks pool manager requestId numTokensMainModel numSpeculative =
      .ok (newBlocks, pool', manager')) : 0 ≤ pool'.getNumFreeBlocks := by
  rcases alignAllocateNewBlocks_cases allocated with
    ⟨_, _, _, rfl, _⟩ | ⟨table, taken, middle, _, _, _, got, rest⟩
  · exact consistent.getNumFreeBlocks_bounds.1
  · have after := (consistent.getNewBlocks got).1.consistent.getNumFreeBlocks_bounds.1
    rcases rest with ⟨_, rfl, _, _⟩ | ⟨_, _, _, _, _, _, _, ran, _, _⟩
    · exact after
    · rw [privatizePartialHit_getNumFreeBlocks ran]
      exact after

end Comparison

end SingleTypeKVCacheManager

/-! ## Runs -/

namespace CacheState

open KVCacheManager SingleTypeKVCacheManager

/-- The arguments that `allocate_slots` passes on to a group: a request without
blocks comes with hits of the pool for its local tokens, a request with blocks
comes without computed blocks. -/
def FitsProgress (state : CacheState H) (group : SingleTypeKVCacheManager H)
    (requestId : RequestId) (newComputedBlocks : List BlockId)
    (numLocal numExternal numTokensMainModel : Nat) : Prop :=
  match state.progress requestId with
  | none =>
      (∀ block ∈ newComputedBlocks, block < state.manager.blockPool.numGpuBlocks) ∧
        newComputedBlocks.length ≤ cdiv numLocal group.blockSize ∧
        numLocal + numExternal ≤ numTokensMainModel
  | some _ => newComputedBlocks = [] ∧ numExternal = 0

variable [DecidableEq H] [BlockHashing H]

/-- Admission of an align-mode group in every reachable state: adding the computed
blocks and allocating takes at most the predicted number of blocks from the free
queue exactly when the prediction does not undercount. -/
theorem reachable_mambaAdmission {state : CacheState H}
    (reached : Reachable (system Orderly) state) {group noted group' : SingleTypeKVCacheManager H}
    (member : group ∈ state.manager.coordinator.singleTypeManagers)
    {numSpeculative numCheckpoint : Nat}
    (align : group.kvCacheSpec.kind = .mamba .align numSpeculative numCheckpoint)
    {requestId : RequestId} {newComputedBlocks newBlocks : List BlockId}
    {numLocal numExternal numTokens numTokensMainModel : Nat} {count : Int} {pool' : BlockPool H}
    (fits : FitsProgress state group requestId newComputedBlocks numLocal numExternal
      numTokensMainModel)
    (predicted : group.getNumBlocksToAllocate state.manager.blockPool requestId numTokens
      newComputedBlocks (numLocal + numExternal) numLocal numTokensMainModel false =
        .ok (count, noted))
    (allocated : noted.computeAndAllocate state.manager.blockPool requestId newComputedBlocks
      numLocal numExternal numTokens numTokensMainModel = .ok (newBlocks, pool', group')) :
    state.manager.blockPool.getNumFreeBlocks - pool'.getNumFreeBlocks ≤ count ↔
      ¬ group.Undercounts state.manager.blockPool requestId newComputedBlocks numLocal numExternal
        numTokensMainModel numSpeculative numCheckpoint := by
  have consistent := (reachable_conserved
    (reachable_mono (fun _ _ => And.left) reached)).consistent
  have booked := reachable_inOrder reached group member
  unfold Undercounts
  by_cases none : newComputedBlocks = [] ∧ numExternal = 0
  · rcases none with ⟨rfl, rfl⟩
    exact allocateNewBlocks_le_iff consistent align predicted allocated
  rw [if_neg none]
  -- Computed blocks come only with a request that has no books yet.
  cases progress : state.progress requestId with
  | some known =>
      simp only [FitsProgress, progress] at fits
      exact absurd fits none
  | none =>
      simp only [FitsProgress, progress] at fits
      rcases fits with ⟨valid, covered, within⟩
      have unknown := booked.unknown requestId progress
      cases waits : hitCachedThisStep state.manager.blockPool group newComputedBlocks with
      | false =>
          rw [computeAndAllocate_le_iff consistent align unknown valid covered within none waits
            predicted allocated]
          simp only [true_and]
      | true =>
          -- The prediction exceeds the pool, so that the request waits.
          unfold getNumBlocksToAllocate at predicted
          simp only [align, waits, if_true, Except.ok.injEq, Prod.mk.injEq] at predicted
          rcases predicted with ⟨rfl, rfl⟩
          unfold computeAndAllocate at allocated
          rw [if_neg none, unknown.untracked] at allocated
          simp only [Bool.false_eq_true, if_false] at allocated
          obtain ⟨⟨middle, added⟩, first, allocated⟩ := bind_eq_ok.mp allocated
          have computed := addedComputed consistent align unknown.settled valid first
          unfold allocateNewBlocks at allocated
          rw [kvCacheSpec_of_settings computed.settings] at allocated
          simp only [align, if_true] at allocated
          have after := alignAllocateNewBlocks_nonneg computed.consistent allocated
          have before := consistent.getNumFreeBlocks_bounds.2
          simp only [Bool.true_eq_false, false_and, not_false_eq_true, iff_true]
          omega

/-- The predicted and the actual cost of an allocation in the first group. -/
def comparedCosts (state : CacheState H) (requestId : RequestId)
    (newComputedBlocks : List BlockId) (numLocal numExternal numTokens : Nat) :
    Except PyError (Int × Int) := do
  let group ← pyIndex state.manager.coordinator.singleTypeManagers 0
  let (count, noted) ← group.getNumBlocksToAllocate state.manager.blockPool requestId numTokens
    newComputedBlocks (numLocal + numExternal) numLocal numTokens false
  let (_, pool', _) ← noted.computeAndAllocate state.manager.blockPool requestId
    newComputedBlocks numLocal numExternal numTokens numTokens
  pure (count, state.manager.blockPool.getNumFreeBlocks - pool'.getNumFreeBlocks)

theorem comparedCosts_eq_ok {state : CacheState H} {requestId : RequestId}
    {newComputedBlocks : List BlockId} {numLocal numExternal numTokens : Nat} {count taken : Int}
    (compared : state.comparedCosts requestId newComputedBlocks numLocal numExternal numTokens =
      .ok (count, taken)) :
    ∃ group noted newBlocks pool' group', group ∈ state.manager.coordinator.singleTypeManagers ∧
      state.manager.coordinator.singleTypeManagers[0]? = some group ∧
      group.getNumBlocksToAllocate state.manager.blockPool requestId numTokens
        newComputedBlocks (numLocal + numExternal) numLocal numTokens false =
          .ok (count, noted) ∧
      noted.computeAndAllocate state.manager.blockPool requestId newComputedBlocks
        numLocal numExternal numTokens numTokens = .ok (newBlocks, pool', group') ∧
      taken = state.manager.blockPool.getNumFreeBlocks - pool'.getNumFreeBlocks := by
  obtain ⟨group, listed, compared⟩ := bind_eq_ok.mp compared
  obtain ⟨⟨predicted, noted⟩, first, compared⟩ := bind_eq_ok.mp compared
  obtain ⟨⟨newBlocks, pool', group'⟩, second, compared⟩ := bind_eq_ok.mp compared
  cases compared
  have listed := pyIndex_eq_ok.mp listed
  exact ⟨group, noted, newBlocks, pool', group', List.mem_of_getElem? listed, listed, first,
    second, rfl⟩

/-- The third block of a prompt is allocated after a hit of the second state,
which is revived, with one speculative block. -/
theorem reachable_mambaAdmission_revived :
    ∃ (state : CacheState SymbolicHash) (group noted group' : SingleTypeKVCacheManager SymbolicHash)
      (newBlocks : List BlockId) (pool' : BlockPool SymbolicHash),
      Reachable (system Orderly) state ∧
      group ∈ state.manager.coordinator.singleTypeManagers ∧
      group.kvCacheSpec.kind = .mamba .align 1 0 ∧
      FitsProgress state group "second" [0, 2] 8 0 9 ∧
      group.getNumBlocksToAllocate state.manager.blockPool "second" 9 [0, 2] 8 8 9 false =
        .ok (3, noted) ∧
      noted.computeAndAllocate state.manager.blockPool "second" [0, 2] 8 0 9 9 =
        .ok (newBlocks, pool', group') ∧
      state.manager.blockPool.getNumFreeBlocks - pool'.getNumFreeBlocks = 3 ∧
      ¬ group.Undercounts state.manager.blockPool "second" [0, 2] 8 0 9 1 0 := by
  let config : KVCacheConfig :=
    { numBlocks := 12
      kvCacheGroups := [{ kvCacheSpec := { blockSize := 4, kind := .mamba .align 1 0 } }] }
  let first (computed : Nat) : Request SymbolicHash := Request.updateBlockHashes (some 4)
    { requestId := "first", allTokenIds := [1, 2, 3, 4, 5, 6, 7, 8], numPromptTokens := 8,
      numComputedTokens := computed }
  let calls : List (CacheCall SymbolicHash) :=
    [.allocateSlots (first 0) { numNewTokens := 4 }, .newStepStarts,
      .allocateSlots (first 4) { numNewTokens := 4 }, .newStepStarts, .free (first 8)]
  have computed : (replayCalls Orderly config 100 4 4 calls).map
      (fun state => decide (
        (state.comparedCosts "second" [0, 2] 8 0 9).toOption = some (3, 3) ∧
        state.progress "second" = none ∧ 2 < state.manager.blockPool.numGpuBlocks ∧
        ∀ group ∈ state.manager.coordinator.singleTypeManagers,
          group.kvCacheSpec.kind = .mamba .align 1 0 ∧ group.blockSize = 4)) = some true := by
    decide +kernel
  rcases Option.map_eq_some_iff.mp computed with ⟨state, replayed, holds⟩
  rcases of_decide_eq_true holds with ⟨compared, progress, size, groups⟩
  rcases comparedCosts_eq_ok (toOption_eq_some.mp compared) with
    ⟨group, noted, newBlocks, pool', group', member, _, predicted, allocated, taken⟩
  rcases groups group member with ⟨align, blockSize⟩
  have reached := replayCalls_reachable replayed
  have fits : FitsProgress state group "second" [0, 2] 8 0 9 := by
    unfold FitsProgress
    rw [progress, blockSize]
    refine ⟨fun block hit => ?_, by decide, by decide⟩
    have small : block ≤ 2 := by
      revert block
      decide
    exact lt_of_le_of_lt small size
  exact ⟨state, group, noted, group', newBlocks, pool', reached, member, align, fits, predicted,
    allocated, taken.symm, (reachable_mambaAdmission reached member align fits predicted
      allocated).mp (Int.le_of_eq taken.symm)⟩

/-- Four tokens of a new request come from outside and the allocation covers a
fifth one: two blocks are predicted, one for the state and a speculative one,
while three are taken.  With two free blocks `allocate_slots` raises. -/
theorem mambaAdmission_external_undercounted :
    (∃ (state : CacheState SymbolicHash) (group noted group' : SingleTypeKVCacheManager SymbolicHash)
      (newBlocks : List BlockId) (pool' : BlockPool SymbolicHash),
      Reachable (system Orderly) state ∧
      group ∈ state.manager.coordinator.singleTypeManagers ∧
      group.kvCacheSpec.kind = .mamba .align 1 0 ∧
      FitsProgress state group "new" [] 0 4 5 ∧
      group.getNumBlocksToAllocate state.manager.blockPool "new" 5 [] 4 0 5 false =
        .ok (2, noted) ∧
      noted.computeAndAllocate state.manager.blockPool "new" [] 0 4 5 5 =
        .ok (newBlocks, pool', group') ∧
      state.manager.blockPool.getNumFreeBlocks - pool'.getNumFreeBlocks = 3) ∧
    ∃ (state : CacheState SymbolicHash) (request : Request SymbolicHash),
      Reachable (system Orderly) state ∧
      Orderly state (.allocateSlots request
        { numNewTokens := 1, numExternalComputedTokens := 4 }) ∧
      state.manager.allocateSlots request
          { numNewTokens := 1, numExternalComputedTokens := 4 } =
        .error (.valueError "Cannot get 2 free blocks from the pool") := by
  let config (numBlocks : Nat) : KVCacheConfig :=
    { numBlocks := numBlocks
      kvCacheGroups := [{ kvCacheSpec := { blockSize := 4, kind := .mamba .align 1 0 } }] }
  let request : Request SymbolicHash := Request.updateBlockHashes (some 4)
    { requestId := "new", allTokenIds := [1, 2, 3, 4, 5], numPromptTokens := 5 }
  constructor
  · have computed : (replayCalls Orderly (config 12) 100 4 4 ([] : List (CacheCall SymbolicHash))).map
        (fun state => decide (
          (state.comparedCosts "new" [] 0 4 5).toOption = some (2, 3) ∧
          state.progress "new" = none ∧
          ∀ group ∈ state.manager.coordinator.singleTypeManagers,
            group.kvCacheSpec.kind = .mamba .align 1 0)) = some true := by
      decide +kernel
    rcases Option.map_eq_some_iff.mp computed with ⟨state, replayed, holds⟩
    rcases of_decide_eq_true holds with ⟨compared, progress, groups⟩
    rcases comparedCosts_eq_ok (toOption_eq_some.mp compared) with
      ⟨group, noted, newBlocks, pool', group', member, _, predicted, allocated, taken⟩
    refine ⟨state, group, noted, group', newBlocks, pool', replayCalls_reachable replayed, member,
      groups group member, ?_, predicted, allocated, taken.symm⟩
    unfold FitsProgress
    rw [progress]
    exact ⟨fun _ hit => absurd hit List.not_mem_nil, Nat.zero_le _, by decide⟩
  · have computed : (replayCalls Orderly (config 3) 100 4 4 []).map
        (fun state => decide (
          Orderly state (.allocateSlots request
            { numNewTokens := 1, numExternalComputedTokens := 4 }) ∧
          errorOf (state.manager.allocateSlots request
            { numNewTokens := 1, numExternalComputedTokens := 4 }) =
              some (.valueError "Cannot get 2 free blocks from the pool"))) = some true := by
      decide +kernel
    rcases Option.map_eq_some_iff.mp computed with ⟨state, replayed, holds⟩
    rcases of_decide_eq_true holds with ⟨permitted, raised⟩
    exact ⟨state, request, replayCalls_reachable replayed, permitted, errorOf_eq_some.mp raised⟩

end CacheState

end Vllm.Core
