import Vllm.Core.ManagerFrames

/-!
# Rounds over the managers

Every call of the coordinator visits the managers one after the other with one
pool.  A round keeps the balance of references; along with it, it keeps any
invariant of the pool that single visits keep, and relates every manager to its
successor as single visits do.
-/

namespace Vllm.Core

open Vllm.Library BlockPool SingleTypeKVCacheManager

variable {H : Type}

/-- The references that a list of managers holds to a block. -/
def heldBy (managers : List (SingleTypeKVCacheManager H)) (block : BlockId) : Nat :=
  (managers.map (·.refs block)).sum

/-- The occurrences of a block in the tables of all groups. -/
def tableOccurrences (managers : List (SingleTypeKVCacheManager H)) (block : BlockId) : Nat :=
  (managers.map (·.occurrences block)).sum

/-- The pins of the copies that are still pending. -/
def pendingPins (managers : List (SingleTypeKVCacheManager H)) (block : BlockId) : Nat :=
  (managers.map fun manager => (copyEnds manager.pendingCowCopies).count block).sum

theorem heldBy_eq (managers : List (SingleTypeKVCacheManager H)) (block : BlockId) :
    heldBy managers block = tableOccurrences managers block + pendingPins managers block := by
  induction managers with
  | nil => rfl
  | cons manager rest ih =>
      simp only [heldBy, tableOccurrences, pendingPins, List.map_cons, List.sum_cons, refs] at ih ⊢
      omega

/-- A relation between managers of the same group, counted from group `i` on. -/
def Pointwise (related : Nat → SingleTypeKVCacheManager H → SingleTypeKVCacheManager H → Prop) :
    Nat → List (SingleTypeKVCacheManager H) → List (SingleTypeKVCacheManager H) → Prop
  | _, [], [] => True
  | i, manager :: rest, manager' :: rest' =>
      related i manager manager' ∧ Pointwise related (i + 1) rest rest'
  | _, _, _ => False

namespace Pointwise

variable {related other both : Nat → SingleTypeKVCacheManager H → SingleTypeKVCacheManager H → Prop}
  {i : Nat} {first second third : List (SingleTypeKVCacheManager H)}

theorem refl (reflexive : ∀ i manager, related i manager manager) (i : Nat)
    (managers : List (SingleTypeKVCacheManager H)) : Pointwise related i managers managers := by
  induction managers generalizing i with
  | nil => trivial
  | cons manager rest ih => exact ⟨reflexive i manager, ih (i + 1)⟩

theorem trans (left : Pointwise related i first second) (right : Pointwise other i second third)
    (compose : ∀ i manager middle last, related i manager middle → other i middle last →
      both i manager last) : Pointwise both i first third := by
  induction first generalizing i second third with
  | nil =>
      cases second with
      | nil =>
          cases third with
          | nil => trivial
          | cons _ _ => contradiction
      | cons _ _ => contradiction
  | cons manager rest ih =>
      cases second with
      | nil => contradiction
      | cons _ _ =>
          cases third with
          | nil => contradiction
          | cons _ _ => exact ⟨compose _ _ _ _ left.1 right.1, ih left.2 right.2⟩

theorem mono (implies : ∀ i manager manager', related i manager manager' →
      other i manager manager') (all : Pointwise related i first second) :
    Pointwise other i first second := by
  induction first generalizing i second with
  | nil =>
      cases second with
      | nil => trivial
      | cons _ _ => contradiction
  | cons manager rest ih =>
      cases second with
      | nil => contradiction
      | cons _ _ => exact ⟨implies _ _ _ all.1, ih all.2⟩

variable {manager' : SingleTypeKVCacheManager H}

/-- The relation at one group, found from its successor. -/
theorem getElem? (all : Pointwise related i first second) {index : Nat}
    (located : second[index]? = some manager') :
    ∃ manager, first[index]? = some manager ∧ related (i + index) manager manager' := by
  induction first generalizing i second index with
  | nil =>
      cases second with
      | nil => simp at located
      | cons _ _ => contradiction
  | cons manager rest ih =>
      cases second with
      | nil => contradiction
      | cons _ _ =>
          cases index with
          | zero =>
              cases located
              exact ⟨manager, rfl, all.1⟩
          | succ index =>
              rcases ih all.2 located with ⟨found, here, relation⟩
              refine ⟨found, here, ?_⟩
              rw [Nat.add_right_comm] at relation
              exact relation

theorem of_mem (all : Pointwise related i first second) (member : manager' ∈ second) :
    ∃ index, ∃ manager ∈ first, related index manager manager' := by
  rcases List.mem_iff_getElem?.mp member with ⟨index, located⟩
  rcases all.getElem? located with ⟨manager, found, relation⟩
  exact ⟨_, manager, List.mem_of_getElem? found, relation⟩

end Pointwise

namespace KVCacheCoordinator

/-- Reference counts are the references held by the managers and by others. -/
structure Balanced (pool : BlockPool H) (managers : List (SingleTypeKVCacheManager H))
    (others : BlockId → Nat) : Prop where
  consistent : Consistent pool
  refCnt : ∀ block, block ≠ nullBlock →
    (pool.blocks block).refCnt = heldBy managers block + others block

/-- What no visit changes. -/
structure SameSetup (coordinator coordinator' : KVCacheCoordinator H) : Prop where
  config : SameConfig coordinator.blockPool coordinator'.blockPool
  settings : coordinator'.singleTypeManagers.map settings =
    coordinator.singleTypeManagers.map settings
  rest : coordinator' = { coordinator with
    blockPool := coordinator'.blockPool
    singleTypeManagers := coordinator'.singleTypeManagers }

theorem SameSetup.refl (coordinator : KVCacheCoordinator H) : SameSetup coordinator coordinator :=
  ⟨.refl _, rfl, rfl⟩

theorem SameSetup.trans {first second third : KVCacheCoordinator H}
    (left : SameSetup first second) (right : SameSetup second third) :
    SameSetup first third where
  config := left.config.trans right.config
  settings := right.settings.trans left.settings
  rest := by
    rw [right.rest, left.rest]

/-- The outcome of a round: the setup and the balance stay, `keeps` holds of the
pool, and the managers are related to their successors. -/
structure Round (others : BlockId → Nat) (keeps : BlockPool H → Prop)
    (related : Nat → SingleTypeKVCacheManager H → SingleTypeKVCacheManager H → Prop)
    (coordinator coordinator' : KVCacheCoordinator H) : Prop where
  setup : SameSetup coordinator coordinator'
  balanced : Balanced coordinator'.blockPool coordinator'.singleTypeManagers others
  keeps : keeps coordinator'.blockPool
  related : Pointwise related 0 coordinator.singleTypeManagers coordinator'.singleTypeManagers

/-- The empty invariant and the empty relation, for rounds that only balance. -/
def anyPool (_ : BlockPool H) : Prop :=
  True

/-- See `anyPool`. -/
def anyChange (_ : Nat) (_ _ : SingleTypeKVCacheManager H) : Prop :=
  True

variable {others : BlockId → Nat}

/-- Visiting balanced managers with a call that moves references. -/
theorem forManagers_round (keeps : BlockPool H → Prop)
    (related : Nat → SingleTypeKVCacheManager H → SingleTypeKVCacheManager H → Prop) {α : Type}
    {start : BlockPool H} {visit : Nat → BlockPool H → SingleTypeKVCacheManager H →
      Except PyError (α × BlockPool H × SingleTypeKVCacheManager H)}
    (step : ∀ i pool manager result pool' manager', SameConfig start pool → Consistent pool →
      Backed pool manager → keeps pool → visit i pool manager = .ok (result, pool', manager') →
      Moved pool manager pool' manager' ∧ keeps pool' ∧ related i manager manager') {i : Nat}
    {pool pool' : BlockPool H} {managers managers' : List (SingleTypeKVCacheManager H)}
    {results : List α} (config : SameConfig start pool) (balanced : Balanced pool managers others)
    (kept : keeps pool) (ran : forManagers visit i pool managers = .ok (results, pool', managers')) :
    SameConfig start pool' ∧ managers'.map settings = managers.map settings ∧
      Balanced pool' managers' others ∧ keeps pool' ∧ Pointwise related i managers managers' := by
  induction managers generalizing i pool managers' results others with
  | nil =>
      cases ran
      exact ⟨config, rfl, balanced, kept, trivial⟩
  | cons manager rest ih =>
      obtain ⟨⟨result, middle, visited⟩, first, ran⟩ := bind_eq_ok.mp ran
      obtain ⟨⟨tailResults, last, tail⟩, second, ran⟩ := bind_eq_ok.mp ran
      cases ran
      have backed : Backed pool manager := by
        intro block nonNull
        have := balanced.refCnt block nonNull
        simp only [heldBy, List.map_cons, List.sum_cons] at this
        omega
      rcases step i pool manager result middle visited config balanced.consistent backed kept
        first with ⟨moved, keptNext, here⟩
      -- For the rest of the managers, this one belongs to the others.
      have restBalanced : Balanced middle rest fun block => visited.refs block + others block := by
        refine ⟨moved.consistent, fun block nonNull => ?_⟩
        have whole := balanced.refCnt block nonNull
        have change := moved.balance block nonNull
        simp only [heldBy, List.map_cons, List.sum_cons] at whole ⊢
        omega
      rcases ih (config.trans moved.config) restBalanced keptNext second with
        ⟨lastConfig, settingsEq, lastBalanced, keptLast, pairs⟩
      refine ⟨lastConfig, by simp only [List.map_cons, moved.settings, settingsEq],
        ⟨lastBalanced.consistent, fun block nonNull => ?_⟩, keptLast, here, pairs⟩
      have whole := lastBalanced.refCnt block nonNull
      simp only [heldBy, List.map_cons, List.sum_cons] at whole ⊢
      omega

/-- `forManagers_round` for calls without a result. -/
theorem visitManagers_round (keeps : BlockPool H → Prop)
    (related : Nat → SingleTypeKVCacheManager H → SingleTypeKVCacheManager H → Prop)
    {coordinator coordinator' : KVCacheCoordinator H}
    {visit : Nat → BlockPool H → SingleTypeKVCacheManager H →
      Except PyError (BlockPool H × SingleTypeKVCacheManager H)}
    (step : ∀ i pool manager pool' manager', SameConfig coordinator.blockPool pool →
      Consistent pool → Backed pool manager → keeps pool →
      visit i pool manager = .ok (pool', manager') →
      Moved pool manager pool' manager' ∧ keeps pool' ∧ related i manager manager')
    (balanced : Balanced coordinator.blockPool coordinator.singleTypeManagers others)
    (kept : keeps coordinator.blockPool) (ran : coordinator.visitManagers visit = .ok coordinator') :
    Round others keeps related coordinator coordinator' := by
  obtain ⟨⟨results, pool, managers⟩, visited, ran⟩ := bind_eq_ok.mp ran
  cases ran
  have steps := forManagers_round keeps related
    (fun i pool manager result pool' manager' config consistent backed kept mapped => by
      obtain ⟨after, called, same⟩ := map_eq_ok.mp mapped
      cases same
      exact step i pool manager pool' manager' config consistent backed kept called)
    (.refl coordinator.blockPool) balanced kept visited
  rcases steps with ⟨config, same, after, keptLast, pairs⟩
  exact ⟨⟨config, same, rfl⟩, after, keptLast, pairs⟩

section Operations

variable {coordinator coordinator' : KVCacheCoordinator H} {others : BlockId → Nat}
  (keeps : BlockPool H → Prop)
  (related : Nat → SingleTypeKVCacheManager H → SingleTypeKVCacheManager H → Prop)

variable {requestId : RequestId}
  {numLocal numExternal numTokens numEncoderTokens numTokensMainModel : Nat}
  {newComputedBlocks : List (List BlockId)}

theorem free_round
    (step : ∀ i pool manager pool' manager', Consistent pool → Backed pool manager → keeps pool →
      manager.free pool requestId = .ok (pool', manager') →
      keeps pool' ∧ related i manager manager')
    (balanced : Balanced coordinator.blockPool coordinator.singleTypeManagers others)
    (kept : keeps coordinator.blockPool) (freed : coordinator.free requestId = .ok coordinator') :
    Round others keeps related coordinator coordinator' :=
  visitManagers_round keeps related
    (fun i pool manager pool' manager' _ consistent backed kept ran =>
    ⟨free_moved consistent backed ran, step i pool manager pool' manager' consistent backed kept
      ran⟩) balanced kept freed

theorem removeSkippedBlocks_round {processed : Nat} {numPromptTokens : Option Nat}
    (step : ∀ i pool manager pool' manager', Consistent pool → keeps pool →
      Released requestId (manager.skipsBlock processed numPromptTokens) pool manager pool'
        manager' → keeps pool' ∧ related i manager manager')
    (balanced : Balanced coordinator.blockPool coordinator.singleTypeManagers others)
    (kept : keeps coordinator.blockPool)
    (removed : coordinator.removeSkippedBlocks requestId processed numPromptTokens =
      .ok coordinator') : Round others keeps related coordinator coordinator' :=
  visitManagers_round keeps related
    (fun i pool manager pool' manager' _ consistent backed kept ran =>
      have released := removeSkippedBlocks_released consistent backed ran
      ⟨released.moved, step i pool manager pool' manager' consistent kept released⟩)
    balanced kept removed

/-- The first round of `allocate_new_computed_blocks`. -/
theorem addLocalComputedBlocks_round
    (step : ∀ i pool manager blocks pool' manager', Consistent pool → keeps pool →
      newComputedBlocks[i]? = some blocks →
      manager.addLocalComputedBlocks pool requestId blocks numLocal numExternal =
        .ok (pool', manager') → keeps pool' ∧ related i manager manager')
    (balanced : Balanced coordinator.blockPool coordinator.singleTypeManagers others)
    (kept : keeps coordinator.blockPool) (valid : ∀ blocks ∈ newComputedBlocks, ∀ block ∈ blocks,
      block < coordinator.blockPool.numGpuBlocks)
    (added : (coordinator.visitManagers fun i pool manager => do
      let blocks ← pyIndex newComputedBlocks i
      manager.addLocalComputedBlocks pool requestId blocks numLocal numExternal) =
        .ok coordinator') : Round others keeps related coordinator coordinator' :=
  visitManagers_round keeps related
    (fun i pool manager pool' manager' config consistent _ kept ran => by
      obtain ⟨blocks, located, ran⟩ := bind_eq_ok.mp ran
      have listed := pyIndex_eq_ok.mp located
      refine ⟨addLocalComputedBlocks_moved consistent (fun block member => ?_) ran,
        step i pool manager blocks pool' manager' consistent kept listed ran⟩
      rw [config.numGpuBlocks]
      exact valid blocks (List.mem_of_getElem? listed) block member)
    balanced kept added

variable [DecidableEq H]

theorem getNumBlocksToAllocate_round {totalComputed : Nat} {applyAdmissionCap : Bool} {count : Int}
    (step : ∀ i pool manager numTokens blocks totalComputed numLocal numTokensMainModel count
      manager', manager.getNumBlocksToAllocate pool requestId numTokens blocks totalComputed
        numLocal numTokensMainModel applyAdmissionCap = .ok (count, manager') →
      related i manager manager')
    (balanced : Balanced coordinator.blockPool coordinator.singleTypeManagers others)
    (predicted : coordinator.getNumBlocksToAllocate requestId numTokens newComputedBlocks
      numEncoderTokens totalComputed numLocal numTokensMainModel applyAdmissionCap =
        .ok (count, coordinator')) :
    Round others (· = coordinator.blockPool) related coordinator coordinator' := by
  obtain ⟨⟨counts, pool, managers⟩, visited, predicted⟩ := bind_eq_ok.mp predicted
  cases predicted
  have steps := forManagers_round (· = coordinator.blockPool) related
    (fun i pool manager result pool' manager' _ consistent _ kept ran => by
      obtain ⟨⟨value, predicted⟩, called, ran⟩ := bind_eq_ok.mp ran
      cases ran
      split at called
      · exact ⟨.of_same consistent (.refl _) (getNumBlocksToAllocate_sameTables called), kept,
          step _ _ _ _ _ _ _ _ _ _ called⟩
      · obtain ⟨blocks, _, called⟩ := bind_eq_ok.mp called
        exact ⟨.of_same consistent (.refl _) (getNumBlocksToAllocate_sameTables called), kept,
          step _ _ _ _ _ _ _ _ _ _ called⟩)
    (.refl coordinator.blockPool) balanced rfl visited
  rcases steps with ⟨config, same, after, keptLast, pairs⟩
  exact ⟨⟨config, same, rfl⟩, after, keptLast, pairs⟩

variable [BlockHashing H]

/-- The second round of `allocate_new_computed_blocks`. -/
theorem allocateExternalComputedBlocks_round
    (step : ∀ i pool manager pool' manager', Consistent pool → keeps pool →
      manager.allocateExternalComputedBlocks pool requestId numLocal numExternal =
        .ok (pool', manager') → keeps pool' ∧ related i manager manager')
    (balanced : Balanced coordinator.blockPool coordinator.singleTypeManagers others)
    (kept : keeps coordinator.blockPool)
    (allocated : (coordinator.visitManagers fun _ pool manager =>
      manager.allocateExternalComputedBlocks pool requestId numLocal numExternal) =
        .ok coordinator') : Round others keeps related coordinator coordinator' :=
  visitManagers_round keeps related (fun i pool manager pool' manager' _ consistent _ kept ran =>
    ⟨allocateExternalComputedBlocks_moved consistent ran, step i pool manager pool' manager'
      consistent kept ran⟩) balanced kept allocated

omit [DecidableEq H] [BlockHashing H] in
/-- The rounds of `allocate_new_computed_blocks`. -/
theorem allocateNewComputedBlocks_cases [DecidableEq H] [BlockHashing H]
    (allocated : coordinator.allocateNewComputedBlocks requestId newComputedBlocks numLocal
      numExternal = .ok coordinator') :
    (coordinator.singleTypeManagers.any (·.isTracked requestId) = true ∧
      (∀ blocks ∈ newComputedBlocks, blocks = []) ∧ coordinator' = coordinator) ∨
    (coordinator.singleTypeManagers.any (·.isTracked requestId) = false ∧
      ∃ middle, (coordinator.visitManagers fun i pool manager => do
          let blocks ← pyIndex newComputedBlocks i
          manager.addLocalComputedBlocks pool requestId blocks numLocal numExternal) =
            .ok middle ∧
        ((numExternal > 0 ∧ (middle.visitManagers fun _ pool manager =>
            manager.allocateExternalComputedBlocks pool requestId numLocal numExternal) =
              .ok coordinator') ∨ (numExternal = 0 ∧ coordinator' = middle))) := by
  unfold allocateNewComputedBlocks at allocated
  split at allocated
  · rename_i tracked
    obtain ⟨_, empty, allocated⟩ := bind_eq_ok.mp allocated
    cases allocated
    refine .inl ⟨tracked, fun blocks member => ?_, rfl⟩
    have none := List.all_eq_true.mp (pyAssert_eq_ok.mp empty) blocks member
    exact List.eq_nil_of_length_eq_zero (of_decide_eq_true none)
  · rename_i untracked
    obtain ⟨middle, added, allocated⟩ := bind_eq_ok.mp allocated
    refine .inr ⟨Bool.not_eq_true _ ▸ untracked, middle, added, ?_⟩
    split at allocated
    · rename_i external
      exact .inl ⟨external, allocated⟩
    · rename_i none
      cases allocated
      exact .inr ⟨Nat.eq_zero_of_not_pos none, rfl⟩

theorem allocateNewBlocks_round {newBlocks : List (List BlockId)}
    (step : ∀ i pool manager ret pool' manager', Consistent pool → Backed pool manager →
      keeps pool → manager.allocateNewBlocks pool requestId
        (if manager.kvCacheSpec.isCrossAttention then numEncoderTokens else numTokens)
        numTokensMainModel = .ok (ret, pool', manager') → keeps pool' ∧ related i manager manager')
    (balanced : Balanced coordinator.blockPool coordinator.singleTypeManagers others)
    (kept : keeps coordinator.blockPool)
    (allocated : coordinator.allocateNewBlocks requestId numTokens numTokensMainModel
      numEncoderTokens = .ok (newBlocks, coordinator')) :
    Round others keeps related coordinator coordinator' := by
  obtain ⟨⟨results, pool, managers⟩, visited, allocated⟩ := bind_eq_ok.mp allocated
  cases allocated
  have steps := forManagers_round keeps related
    (fun i pool manager ret pool' manager' _ consistent backed kept ran =>
      ⟨allocateNewBlocks_moved consistent backed ran, step i pool manager ret pool' manager'
        consistent backed kept ran⟩)
    (.refl coordinator.blockPool) balanced kept visited
  rcases steps with ⟨config, same, after, keptLast, pairs⟩
  exact ⟨⟨config, same, rfl⟩, after, keptLast, pairs⟩

theorem cacheBlocks_round {request : Request H} {numComputedTokens : Nat}
    (step : ∀ i pool manager pool' manager', Consistent pool → Backed pool manager → keeps pool →
      manager.cacheBlocks pool request (coordinator.numTokensToCache manager numComputedTokens)
        coordinator.retentionInterval = .ok (pool', manager') →
      keeps pool' ∧ related i manager manager')
    (balanced : Balanced coordinator.blockPool coordinator.singleTypeManagers others)
    (kept : keeps coordinator.blockPool)
    (cached : coordinator.cacheBlocks request numComputedTokens = .ok coordinator') :
    Round others keeps related coordinator coordinator' :=
  visitManagers_round keeps related
    (fun i pool manager pool' manager' _ consistent backed kept ran =>
    ⟨.of_same consistent (cacheBlocks_same ran).1 (cacheBlocks_same ran).2,
      step i pool manager pool' manager' consistent backed kept ran⟩) balanced kept cached

end Operations

end KVCacheCoordinator

end Vllm.Core
