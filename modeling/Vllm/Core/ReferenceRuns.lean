import Mathlib.Data.List.Count
import Vllm.Core.CoordinatorRounds
import Vllm.Core.KVCacheManager

/-!
# Reference conservation

Over every run, the reference count of a block is the number of its occurrences
in the tables of all groups plus the number of pins on it.  Each manager call
moves references in step with the pool; visiting the managers one after the
other keeps the sum, and so does every call of the KV cache manager.
-/

namespace Vllm.Core

open Vllm.Library BlockPool SingleTypeKVCacheManager

variable {H : Type}

/-! ## Calls of the KV cache manager -/

namespace KVCacheManager

open KVCacheCoordinator

/-- The pool, the managers and the scheduler agree on all references. -/
def Conserved (manager : KVCacheManager H) (others : BlockId → Nat) : Prop :=
  Balanced manager.blockPool manager.coordinator.singleTypeManagers others

variable {manager manager' : KVCacheManager H} {others : BlockId → Nat}

/-- Hash operations keep the balance. -/
theorem Conserved.setBlockPool (conserved : Conserved manager others) {pool : BlockPool H}
    (same : SameRefs manager.blockPool pool) : Conserved (manager.setBlockPool pool) others where
  consistent := conserved.consistent.sameRefs same
  refCnt block nonNull := by
    have := conserved.refCnt block nonNull
    rw [← same.refCnt] at this
    exact this

variable [DecidableEq H]

omit [DecidableEq H] in
theorem emptyKvCacheBlocks_valid (manager : KVCacheManager H) {bound : Nat} :
    ∀ blocks ∈ manager.emptyKvCacheBlocks, ∀ block ∈ blocks, block < bound := by
  intro blocks member block inside
  rcases List.mem_map.mp member with ⟨_, _, rfl⟩
  contradiction

variable
  {maxModelLen schedulerBlockSize hashBlockSize numPrefillLookahead dcpWorldSize watermarkBlocks : Nat}
  {request : Request H} {args : AllocateSlotsArgs}
  {enableCaching useEagle enableKvCacheEvents : Bool} {managers : List (SingleTypeKVCacheManager H)}

theorem fullSequenceFits_conserved {fits : Bool} (conserved : Conserved manager others)
    (checked : manager.fullSequenceFits request args = .ok (fits, manager')) :
    SameSetup manager.coordinator manager'.coordinator ∧ Conserved manager' others := by
  unfold fullSequenceFits at checked
  split at checked
  · obtain ⟨⟨count, coordinator⟩, predicted, checked⟩ := bind_eq_ok.mp checked
    cases checked
    have round := getNumBlocksToAllocate_round anyChange
      (fun _ _ _ _ _ _ _ _ _ _ _ => trivial) conserved predicted
    exact ⟨round.setup, round.balanced⟩
  · cases checked
    exact ⟨.refl _, conserved⟩

variable [BlockHashing H]

omit [DecidableEq H] in
theorem emitComputedBlockEvents_sameRefs {groupIdx : Nat} {hits : List (List BlockId)}
    {pool pool' : BlockPool H}
    (emitted : emitComputedBlockEvents managers request groupIdx hits pool = .ok pool') :
    SameRefs pool pool' := by
  induction hits generalizing groupIdx pool with
  | nil =>
      cases emitted
      exact .refl _
  | cons groupBlocks rest ih =>
      obtain ⟨middle, first, emitted⟩ := bind_eq_ok.mp emitted
      refine SameRefs.trans ?_ (ih emitted)
      split at first
      · obtain ⟨group, _, first⟩ := bind_eq_ok.mp first
        exact emitCachedBlockEvents_sameRefs first
      · cases first
        exact .refl _

/-- A lookup only announces what it found. -/
theorem getComputedBlocks_sameRefs {hits : List (List BlockId) × Nat × Nat}
    (computed : manager.getComputedBlocks request = .ok (hits, manager')) :
    ∃ pool, SameRefs manager.blockPool pool ∧ manager' = manager.setBlockPool pool := by
  unfold getComputedBlocks at computed
  split at computed
  · cases computed
    exact ⟨manager.blockPool, .refl _, rfl⟩
  · obtain ⟨⟨blocks, numTokens, numUncached⟩, _, computed⟩ := bind_eq_ok.mp computed
    obtain ⟨pool, emitted, computed⟩ := bind_eq_ok.mp computed
    cases computed
    refine ⟨pool, ?_, rfl⟩
    split at emitted
    · exact emitComputedBlockEvents_sameRefs emitted
    · cases emitted
      exact .refl _

variable {newBlocks : List (List BlockId)}

/-- What `commitSlots` calls. -/
theorem commitSlots_cases (committed : manager.commitSlots request args = .ok (newBlocks, manager')) :
    ∃ added allocated, manager' = manager.setCoordinator allocated ∧
      ((((manager.newComputedBlockList args).any fun blocks => blocks ≠ []) = true ∨
          args.numExternalComputedTokens > 0) ∧
        manager.coordinator.allocateNewComputedBlocks request.requestId
          (manager.newComputedBlockList args) (numLocalComputedTokens request args)
          args.numExternalComputedTokens = .ok added ∨
        (∀ blocks ∈ manager.newComputedBlockList args, blocks = []) ∧
          args.numExternalComputedTokens = 0 ∧ added = manager.coordinator) ∧
      added.allocateNewBlocks request.requestId (manager.numTokensNeedSlot request args)
        (manager.numTokensMainModel request args) args.numEncoderTokens =
          .ok (newBlocks, allocated) := by
  obtain ⟨added, first, committed⟩ := bind_eq_ok.mp committed
  obtain ⟨⟨results, allocated⟩, second, committed⟩ := bind_eq_ok.mp committed
  cases committed
  refine ⟨added, allocated, rfl, ?_, second⟩
  split at first
  · rename_i some
    exact .inl ⟨some, first⟩
  · rename_i none
    cases first
    rcases not_or.mp none with ⟨noHits, noExternal⟩
    refine .inr ⟨fun blocks member => ?_, Nat.eq_zero_of_not_pos noExternal, rfl⟩
    by_contra nonempty
    exact noHits (List.any_eq_true.mpr ⟨blocks, member, decide_eq_true nonempty⟩)

/-- The rounds before the new blocks are taken, for a relation that adds up over
them. -/
theorem commitSlots_rounds (keeps : BlockPool H → Prop)
    (related : Nat → SingleTypeKVCacheManager H → SingleTypeKVCacheManager H → Prop)
    (reflexive : ∀ i group, related i group group)
    (transitive : ∀ i first second third, related i first second → related i second third →
      related i first third)
    (add : ∀ i pool group blocks pool' group', Consistent pool → keeps pool →
      (manager.newComputedBlockList args)[i]? = some blocks →
      group.addLocalComputedBlocks pool request.requestId blocks
        (numLocalComputedTokens request args) args.numExternalComputedTokens =
          .ok (pool', group') → keeps pool' ∧ related i group group')
    (external : ∀ i pool group pool' group', Consistent pool → keeps pool →
      group.allocateExternalComputedBlocks pool request.requestId
        (numLocalComputedTokens request args) args.numExternalComputedTokens =
          .ok (pool', group') → keeps pool' ∧ related i group group')
    (conserved : Conserved manager others) (kept : keeps manager.blockPool)
    (valid : ∀ blocks ∈ manager.newComputedBlockList args, ∀ block ∈ blocks,
      block < manager.blockPool.numGpuBlocks)
    (committed : manager.commitSlots request args = .ok (newBlocks, manager')) :
    ∃ added allocated, manager' = manager.setCoordinator allocated ∧
      Round others keeps related manager.coordinator added ∧
      added.allocateNewBlocks request.requestId (manager.numTokensNeedSlot request args)
        (manager.numTokensMainModel request args) args.numEncoderTokens =
          .ok (newBlocks, allocated) := by
  rcases commitSlots_cases committed with ⟨added, allocated, same, computed, ran⟩
  refine ⟨added, allocated, same, ?_, ran⟩
  have unchanged : Round others keeps related manager.coordinator manager.coordinator :=
    ⟨.refl _, conserved, kept, .refl reflexive _ _⟩
  rcases computed with ⟨_, computed⟩ | ⟨_, _, rfl⟩
  · rcases allocateNewComputedBlocks_cases computed with
      ⟨_, _, rfl⟩ | ⟨_, middle, addedLocal, ⟨_, addedExternal⟩ | ⟨_, rfl⟩⟩
    · exact unchanged
    · have first := addLocalComputedBlocks_round keeps related add conserved kept valid addedLocal
      have second := allocateExternalComputedBlocks_round keeps related external first.balanced
        first.keeps addedExternal
      exact ⟨first.setup.trans second.setup, second.balanced, second.keeps,
        first.related.trans second.related transitive⟩
    · exact addLocalComputedBlocks_round keeps related add conserved kept valid addedLocal
  · exact unchanged

theorem commitSlots_conserved {request : Request H} {args : AllocateSlotsArgs}
    {newBlocks : List (List BlockId)} (conserved : Conserved manager others)
    (valid : ∀ blocks ∈ manager.newComputedBlockList args, ∀ block ∈ blocks,
      block < manager.blockPool.numGpuBlocks)
    (committed : manager.commitSlots request args = .ok (newBlocks, manager')) :
    SameSetup manager.coordinator manager'.coordinator ∧ Conserved manager' others := by
  rcases commitSlots_rounds anyPool anyChange (fun _ _ => trivial) (fun _ _ _ _ _ _ => trivial)
    (fun _ _ _ _ _ _ _ _ _ _ => ⟨trivial, trivial⟩) (fun _ _ _ _ _ _ _ _ => ⟨trivial, trivial⟩)
    conserved trivial valid committed with ⟨added, allocated, rfl, computed, ran⟩
  have round := allocateNewBlocks_round anyPool anyChange
    (fun _ _ _ _ _ _ _ _ _ _ => ⟨trivial, trivial⟩) computed.balanced trivial ran
  exact ⟨computed.setup.trans round.setup, round.balanced⟩

theorem cacheCommitted_conserved (conserved : Conserved manager others)
    (cached : manager.cacheCommitted request args = .ok manager') :
    SameSetup manager.coordinator manager'.coordinator ∧ Conserved manager' others := by
  unfold cacheCommitted at cached
  split at cached
  · cases cached
    exact ⟨.refl _, conserved⟩
  · obtain ⟨coordinator, stored, cached⟩ := bind_eq_ok.mp cached
    cases cached
    have round := cacheBlocks_round anyPool anyChange
      (fun _ _ _ _ _ _ _ _ _ => ⟨trivial, trivial⟩) conserved trivial stored
    exact ⟨round.setup, round.balanced⟩

theorem cacheBlocks_conserved {numComputedTokens : Nat} (conserved : Conserved manager others)
    (cached : manager.cacheBlocks request numComputedTokens = .ok manager') :
    SameSetup manager.coordinator manager'.coordinator ∧ Conserved manager' others := by
  unfold KVCacheManager.cacheBlocks at cached
  split at cached
  · obtain ⟨coordinator, stored, cached⟩ := bind_eq_ok.mp cached
    cases cached
    have round := cacheBlocks_round anyPool anyChange
      (fun _ _ _ _ _ _ _ _ _ => ⟨trivial, trivial⟩) conserved trivial stored
    exact ⟨round.setup, round.balanced⟩
  · cases cached
    exact ⟨.refl _, conserved⟩

/-- What `allocate_slots` did up to the final check. -/
theorem allocateSlots_cases {newBlocks : Option (List (List BlockId))}
    (allocated : manager.allocateSlots request args = .ok (newBlocks, manager')) :
    ∃ fits gated, manager.fullSequenceFits request args = .ok (fits, gated) ∧
      ((fits = false ∧ newBlocks = none ∧ manager' = gated) ∨
      fits = true ∧ ∃ skipped count predicted,
        gated.coordinator.removeSkippedBlocks request.requestId
          (gated.processedComputedTokens request args) (some request.numPromptTokens) =
            .ok skipped ∧
        skipped.getNumBlocksToAllocate request.requestId (gated.numTokensNeedSlot request args)
          (gated.newComputedBlockList args) args.numEncoderTokens
          (numLocalComputedTokens request args + args.numExternalComputedTokens)
          (numLocalComputedTokens request args) (gated.numTokensMainModel request args) false =
            .ok (count, predicted) ∧
        ((newBlocks = none ∧ manager' = gated.setCoordinator predicted) ∨
        ∃ blocks committed, count + (gated.setCoordinator predicted).watermarkFor request args ≤
            (gated.setCoordinator predicted).blockPool.getNumFreeBlocks - args.reservedBlocks ∧
          (gated.setCoordinator predicted).commitSlots request args = .ok (blocks, committed) ∧
          committed.cacheCommitted request args = .ok manager' ∧ newBlocks = some blocks)) := by
  unfold allocateSlots at allocated
  split at allocated
  · contradiction
  obtain ⟨⟨fits, gated⟩, checked, allocated⟩ := bind_eq_ok.mp allocated
  refine ⟨fits, gated, checked, ?_⟩
  cases fits with
  | false =>
      cases allocated
      exact .inl ⟨rfl, rfl, rfl⟩
  | true =>
      obtain ⟨skipped, removed, allocated⟩ := bind_eq_ok.mp allocated
      obtain ⟨⟨count, predicted⟩, counted, allocated⟩ := bind_eq_ok.mp allocated
      refine .inr ⟨rfl, skipped, count, predicted, removed, counted, ?_⟩
      dsimp only at allocated
      split at allocated
      · cases allocated
        exact .inl ⟨rfl, rfl⟩
      · rename_i passed
        obtain ⟨⟨blocks, committed⟩, ran, allocated⟩ := bind_eq_ok.mp allocated
        obtain ⟨after, cached, allocated⟩ := bind_eq_ok.mp allocated
        cases allocated
        exact .inr ⟨blocks, committed, Int.not_lt.mp passed, ran, cached, rfl⟩

/-- Hit lists given to `allocate_slots` consist of blocks of the pool. -/
def HitsOfPool (manager : KVCacheManager H) (args : AllocateSlotsArgs) : Prop :=
  ∀ blocks ∈ args.newComputedBlocks.getD [], ∀ block ∈ blocks,
    block < manager.blockPool.numGpuBlocks

omit [DecidableEq H] [BlockHashing H] in
theorem HitsOfPool.newComputedBlockList (valid : manager.HitsOfPool args)
    (config : SameConfig manager.blockPool manager'.blockPool) :
    ∀ blocks ∈ manager'.newComputedBlockList args, ∀ block ∈ blocks,
      block < manager'.blockPool.numGpuBlocks := by
  unfold KVCacheManager.newComputedBlockList
  cases hits : args.newComputedBlocks with
  | none => exact emptyKvCacheBlocks_valid manager'
  | some lists =>
      intro blocks member block inside
      rw [config.numGpuBlocks]
      exact valid blocks (by rw [hits]; exact member) block inside

/-- `allocate_slots` keeps the balance, whether it allocates or gives up. -/
theorem allocateSlots_conserved {newBlocks : Option (List (List BlockId))}
    (conserved : Conserved manager others) (valid : manager.HitsOfPool args)
    (allocated : manager.allocateSlots request args = .ok (newBlocks, manager')) :
    SameSetup manager.coordinator manager'.coordinator ∧ Conserved manager' others := by
  rcases allocateSlots_cases allocated with ⟨fits, gated, checked, rest⟩
  have gate := fullSequenceFits_conserved conserved checked
  rcases rest with ⟨_, _, rfl⟩ | ⟨_, skipped, count, predicted, removed, counted, rest⟩
  · exact gate
  have release := removeSkippedBlocks_round anyPool anyChange
    (fun _ _ _ _ _ _ _ _ => ⟨trivial, trivial⟩) gate.2 trivial removed
  have prediction := getNumBlocksToAllocate_round anyChange
    (fun _ _ _ _ _ _ _ _ _ _ _ => trivial) release.balanced counted
  have setup := (gate.1.trans release.setup).trans prediction.setup
  rcases rest with ⟨_, rfl⟩ | ⟨blocks, committed, _, ran, cached, _⟩
  · exact ⟨setup, prediction.balanced⟩
  have commit := @commitSlots_conserved _ (gated.setCoordinator predicted) _ _ _ _ _ _ _
    prediction.balanced (valid.newComputedBlockList setup.config) ran
  have cache := cacheCommitted_conserved commit.2 cached
  exact ⟨(setup.trans commit.1).trans cache.1, cache.2⟩

/-! ## Fresh managers -/

section

omit [DecidableEq H] [BlockHashing H]

variable {config : KVCacheConfig} {maxInFlightTokens : Option Nat}

/-- A new manager has a new pool and new single-type managers, whose state
fields are at their initial values. -/
theorem init_fresh
    (started : KVCacheManager.init config maxModelLen schedulerBlockSize hashBlockSize
      maxInFlightTokens enableCaching useEagle numPrefillLookahead enableKvCacheEvents dcpWorldSize
      watermarkBlocks = .ok manager) :
    BlockPool.init config.numBlocks enableCaching hashBlockSize enableKvCacheEvents =
        .ok manager.blockPool ∧
      ∀ group ∈ manager.coordinator.singleTypeManagers, group.settings = group := by
  obtain ⟨coordinator, created, started⟩ := bind_eq_ok.mp started
  cases started
  have base : ∀ {kind : CoordinatorKind} {caching : Bool} {result : KVCacheCoordinator H},
      baseInit kind config maxModelLen (maxInFlightTokens.getD maxModelLen) useEagle caching
        enableKvCacheEvents dcpWorldSize schedulerBlockSize hashBlockSize numPrefillLookahead =
          .ok result →
      BlockPool.init config.numBlocks caching hashBlockSize enableKvCacheEvents =
          .ok result.blockPool ∧
        ∀ group ∈ result.singleTypeManagers, group.settings = group := by
    intro kind caching result built
    obtain ⟨_, _, built⟩ := bind_eq_ok.mp built
    obtain ⟨pool, pooled, built⟩ := bind_eq_ok.mp built
    dsimp only at built
    split at built
    · contradiction
    obtain ⟨retention, _, built⟩ := bind_eq_ok.mp built
    cases built
    refine ⟨pooled, fun group member => ?_⟩
    rcases List.mem_mapIdx.mp member with ⟨index, bound, rfl⟩
    rfl
  unfold getKvCacheCoordinator at created
  split at created
  · rename_i off
    cases enableCaching with
    | true => contradiction
    | false => exact base created
  · rename_i on
    cases enableCaching with
    | false => exact absurd rfl on
    | true =>
        split at created
        · obtain ⟨built, first, created⟩ := bind_eq_ok.mp created
          rcases base first with ⟨pooled, fresh⟩
          obtain ⟨group, located, created⟩ := bind_eq_ok.mp created
          obtain ⟨_, _, created⟩ := bind_eq_ok.mp created
          obtain ⟨_, _, created⟩ := bind_eq_ok.mp created
          cases created
          refine ⟨pooled, fun other member => ?_⟩
          have known := fresh group (List.mem_of_getElem? (pyIndex_eq_ok.mp located))
          rw [List.mem_singleton.mp member, ← known]
          rfl
        · obtain ⟨built, first, created⟩ := bind_eq_ok.mp created
          rcases base first with ⟨pooled, fresh⟩
          obtain ⟨_, _, created⟩ := bind_eq_ok.mp created
          obtain ⟨_, _, created⟩ := bind_eq_ok.mp created
          obtain ⟨_, _, created⟩ := bind_eq_ok.mp created
          cases created
          refine ⟨pooled, fun other member => ?_⟩
          rcases List.mem_mapIdx.mp member with ⟨index, bound, rfl⟩
          have known := fresh _ (List.getElem_mem bound)
          generalize built.singleTypeManagers[index] = group at known
          rw [← known]
          rfl

theorem heldBy_fresh (fresh : ∀ manager ∈ managers, manager.settings = manager) (block : BlockId) :
    heldBy managers block = 0 := by
  unfold heldBy
  apply List.sum_eq_zero
  intro count member
  rcases List.mem_map.mp member with ⟨manager, listed, rfl⟩
  rw [← fresh manager listed]
  rfl

theorem conserved_of_init
    (started : KVCacheManager.init config maxModelLen schedulerBlockSize hashBlockSize
      maxInFlightTokens enableCaching useEagle numPrefillLookahead enableKvCacheEvents dcpWorldSize
      watermarkBlocks = .ok manager) : Conserved manager fun _ => 0 := by
  rcases init_fresh started with ⟨pooled, fresh⟩
  have positive : 0 < config.numBlocks := pyAssert_eq_ok.mp (bind_eq_ok.mp pooled).choose_spec.1
  rcases BlockPool.init_spec (H := H) positive enableCaching hashBlockSize enableKvCacheEvents with
    ⟨queue, _, created, list⟩
  have same := Except.ok.inj (pooled.symm.trans created)
  rw [← same] at list
  have idle : ∀ block, (manager.blockPool.blocks block).refCnt = 0 := by
    intro block
    rw [same]
    rfl
  refine ⟨⟨?_, ⟨_, list⟩, fun block _ referenced => absurd (idle block) referenced⟩, ?_⟩
  · rw [same]
    exact positive
  · intro block _
    rw [idle, heldBy_fresh fresh]
    rfl

theorem free_conserved (conserved : Conserved manager others)
    (freed : manager.free request = .ok manager') :
    SameSetup manager.coordinator manager'.coordinator ∧ Conserved manager' others := by
  obtain ⟨coordinator, released, freed⟩ := bind_eq_ok.mp freed
  cases freed
  have round := free_round anyPool anyChange
    (fun _ _ _ _ _ _ _ _ _ => ⟨trivial, trivial⟩) conserved trivial released
  exact ⟨round.setup, round.balanced⟩

theorem removeSkippedBlocks_conserved {requestId : RequestId} {processed : Nat}
    {numPromptTokens : Option Nat} (conserved : Conserved manager others)
    (removed : manager.removeSkippedBlocks requestId processed numPromptTokens = .ok manager') :
    SameSetup manager.coordinator manager'.coordinator ∧ Conserved manager' others := by
  obtain ⟨coordinator, released, removed⟩ := bind_eq_ok.mp removed
  cases removed
  have round := removeSkippedBlocks_round anyPool anyChange
    (fun _ _ _ _ _ _ _ _ => ⟨trivial, trivial⟩) conserved trivial released
  exact ⟨round.setup, round.balanced⟩

/-- Drained copies leave the managers; their ends are handed to the caller. -/
theorem takeKvCacheBlockCopies_conserved (conserved : Conserved manager others) :
    Conserved manager.takeKvCacheBlockCopies.2.2 fun block =>
      others block + manager.takeKvCacheBlockCopies.2.1.count block := by
  refine ⟨conserved.consistent, fun block nonNull => ?_⟩
  have whole := conserved.refCnt block nonNull
  have drained : ∀ managers : List (SingleTypeKVCacheManager H),
      heldBy managers block = heldBy (managers.map fun group => group.takePendingCowCopies.2) block +
        (copyEnds (managers.flatMap fun group => group.takePendingCowCopies.1)).count block := by
    intro managers
    induction managers with
    | nil => rfl
    | cons group rest ih =>
        simp only [heldBy, copyEnds, List.map_cons, List.sum_cons, List.flatMap_cons,
          List.flatMap_append, List.count_append] at ih ⊢
        have here : group.refs block = group.takePendingCowCopies.2.refs block +
            (copyEnds group.takePendingCowCopies.1).count block := rfl
        simp only [copyEnds] at here
        omega
  rw [drained manager.coordinator.singleTypeManagers, Int.natCast_add] at whole
  refine whole.trans ?_
  rw [Int.natCast_add, Int.add_assoc, Int.add_comm (List.count block _ : Int)]
  rfl

theorem newStepStarts_conserved (conserved : Conserved manager others) :
    Conserved manager.newStepStarts others := by
  refine ⟨conserved.consistent, fun block nonNull => ?_⟩
  have whole := conserved.refCnt block nonNull
  have same : heldBy manager.newStepStarts.coordinator.singleTypeManagers block =
      heldBy manager.coordinator.singleTypeManagers block := by
    unfold heldBy newStepStarts setCoordinator KVCacheCoordinator.newStepStarts
    rw [List.map_map]
    congr 1
    apply List.map_congr_left
    intro group _
    simp only [Function.comp_apply, SingleTypeKVCacheManager.newStepStarts]
    split <;> rfl
  rw [same]
  exact whole

end

end KVCacheManager

/-! ## Runs -/

namespace CacheState

open KVCacheManager

variable [DecidableEq H] [BlockHashing H]

/-- What the scheduler keeps to: hit lists consist of blocks of the pool, and
only retained copy endpoints are released. -/
def KeepsReferences (state : CacheState H) : CacheCall H → Prop
  | .allocateSlots _ args => state.manager.HitsOfPool args
  | .releaseRetained blocks => ∀ block ∈ blocks, blocks.count block ≤ state.retained.count block
  | _ => True

instance (state : CacheState H) : DecidablePred (KeepsReferences state)
  | .allocateSlots _ args => inferInstanceAs
      (Decidable (∀ blocks ∈ args.newComputedBlocks.getD [], ∀ block ∈ blocks, _))
  | .releaseRetained blocks => inferInstanceAs (Decidable (∀ block ∈ blocks, _))
  | .getComputedBlocks _ => isTrue trivial
  | .removeSkippedBlocks .. => isTrue trivial
  | .cacheBlocks .. => isTrue trivial
  | .free _ => isTrue trivial
  | .takeKvCacheBlockCopies => isTrue trivial
  | .evictBlocks _ => isTrue trivial
  | .resetPrefixCache => isTrue trivial
  | .newStepStarts => isTrue trivial

/-- One call keeps the references conserved. -/
theorem conserved_step {state next : CacheState H} {call : CacheCall H}
    (conserved : Conserved state.manager state.retained.count)
    (permitted : KeepsReferences state call) (ran : state.execute call = .ok next) :
    Conserved next.manager next.retained.count := by
  cases call with
  | getComputedBlocks request =>
      obtain ⟨⟨hits, manager⟩, computed, ran⟩ := bind_eq_ok.mp ran
      cases ran
      rcases getComputedBlocks_sameRefs computed with ⟨pool, same, rfl⟩
      exact conserved.setBlockPool same
  | allocateSlots request args =>
      obtain ⟨⟨newBlocks, manager⟩, allocated, ran⟩ := bind_eq_ok.mp ran
      cases ran
      exact (allocateSlots_conserved conserved permitted allocated).2
  | removeSkippedBlocks requestId processed numPromptTokens =>
      obtain ⟨manager, removed, ran⟩ := bind_eq_ok.mp ran
      cases ran
      exact (removeSkippedBlocks_conserved conserved removed).2
  | cacheBlocks request numComputedTokens =>
      obtain ⟨manager, cached, ran⟩ := bind_eq_ok.mp ran
      cases ran
      exact (cacheBlocks_conserved conserved cached).2
  | free request =>
      obtain ⟨manager, freed, ran⟩ := bind_eq_ok.mp ran
      cases ran
      exact (free_conserved conserved freed).2
  | takeKvCacheBlockCopies =>
      cases ran
      have taken := takeKvCacheBlockCopies_conserved conserved
      refine ⟨taken.consistent, fun block nonNull => ?_⟩
      rw [List.count_append]
      exact taken.refCnt block nonNull
  | releaseRetained blocks =>
      obtain ⟨pool, freed, ran⟩ := bind_eq_ok.mp ran
      cases ran
      have within : ∀ block, blocks.count block ≤ state.retained.count block := by
        intro block
        by_cases listed : block ∈ blocks
        · exact permitted block listed
        · rw [List.count_eq_zero.mpr listed]
          exact Nat.zero_le _
      have held : ∀ block, block ≠ nullBlock →
          (blocks.count block : Int) ≤ (state.manager.blockPool.blocks block).refCnt := by
        intro block nonNull
        have := conserved.refCnt block nonNull
        have := within block
        omega
      rcases conserved.consistent.freeBlocks held freed with ⟨consistent, _, counts⟩
      refine ⟨consistent, fun block nonNull => ?_⟩
      have whole := conserved.refCnt block nonNull
      have := within block
      change (pool.blocks block).refCnt = (heldBy _ block : Nat) + _
      rw [counts, whole, List.count_diff]
      change _ = (heldBy state.manager.coordinator.singleTypeManagers block : Int) + _
      omega
  | evictBlocks blockIds =>
      obtain ⟨manager, evicted, ran⟩ := bind_eq_ok.mp ran
      cases ran
      obtain ⟨pool, removed, evicted⟩ := bind_eq_ok.mp evicted
      cases evicted
      exact conserved.setBlockPool (evictBlocks_sameRefs removed)
  | resetPrefixCache =>
      cases ran
      exact conserved.setBlockPool (resetPrefixCache_sameRefs _)
  | newStepStarts =>
      cases ran
      exact newStepStarts_conserved conserved

theorem reachable_conserved {state : CacheState H}
    (reached : Reachable (system KeepsReferences) state) :
    Conserved state.manager state.retained.count := by
  apply reached.invariant
  · rintro start ⟨retained, _, config, _, _, _, _, _, _, _, _, _, _, started⟩
    have conserved := conserved_of_init started
    refine ⟨conserved.consistent, fun block nonNull => ?_⟩
    rw [retained, List.count_nil]
    exact conserved.refCnt block nonNull
  · rintro state next conserved ⟨call, permitted, ran⟩
    exact conserved_step conserved permitted ran

omit [DecidableEq H] [BlockHashing H] in
/-- Without tables there are no occurrences. -/
theorem tableOccurrences_eq_zero {managers : List (SingleTypeKVCacheManager H)}
    (freed : ∀ manager ∈ managers, ∀ requestId, manager.blocksOf requestId = [])
    (block : BlockId) : tableOccurrences managers block = 0 := by
  unfold tableOccurrences
  apply List.sum_eq_zero
  intro count member
  rcases List.mem_map.mp member with ⟨manager, listed, rfl⟩
  apply List.sum_eq_zero
  intro weight inside
  rcases List.mem_map.mp inside with ⟨⟨requestId, blocks⟩, entry, rfl⟩
  have stored := (manager.reqToBlocks.get?_eq_some_iff requestId blocks).mpr entry
  have empty := freed manager listed requestId
  simp only [blocksOf, Dict.getD, stored, Option.getD_some] at empty
  subst empty
  exact List.count_nil

/-- Reference conservation: between calls, the reference count of a block is the
number of its occurrences in all tables plus the number of pins on it.  So when
every request has been freed and every pin released, the free queue holds every
non-null block. -/
theorem reachable_refCnt {state : CacheState H}
    (reached : Reachable (system KeepsReferences) state) :
    (∀ block, block ≠ nullBlock →
      (state.manager.blockPool.blocks block).refCnt =
        tableOccurrences state.manager.coordinator.singleTypeManagers block +
          (pendingPins state.manager.coordinator.singleTypeManagers block +
            state.retained.count block)) ∧
    ((∀ manager ∈ state.manager.coordinator.singleTypeManagers, ∀ requestId,
        manager.blocksOf requestId = []) →
      (∀ block, pendingPins state.manager.coordinator.singleTypeManagers block +
        state.retained.count block = 0) →
      ∃ free, state.manager.blockPool.freeBlockQueue.Represents free ∧
        ∀ block, block ∈ free ↔
          block < state.manager.blockPool.numGpuBlocks ∧ block ≠ nullBlock) := by
  have conserved := reachable_conserved reached
  have counts : ∀ block, block ≠ nullBlock →
      (state.manager.blockPool.blocks block).refCnt =
        tableOccurrences state.manager.coordinator.singleTypeManagers block +
          (pendingPins state.manager.coordinator.singleTypeManagers block +
            state.retained.count block) := by
    intro block nonNull
    rw [conserved.refCnt block nonNull, heldBy_eq]
    push_cast
    exact Int.add_assoc _ _ _
  refine ⟨counts, fun freed released => ?_⟩
  rcases conserved.consistent.free with ⟨free, list⟩
  refine ⟨free, list.queue, fun block => ?_⟩
  rw [list.mem_iff]
  constructor
  · rintro ⟨bound, nonNull, _⟩
    exact ⟨bound, nonNull⟩
  · rintro ⟨bound, nonNull⟩
    refine ⟨bound, nonNull, ?_⟩
    have := released block
    rw [counts block nonNull, tableOccurrences_eq_zero freed]
    omega

/-- A run of a full-attention and a Mamba group: the second request shares the
first block of the first one and hits its tail partially, while the copies of
the step before are still retained. -/
theorem reachable_refCnt_copies :
    ∃ state : CacheState SymbolicHash, Reachable (system KeepsReferences) state ∧
      (tableOccurrences state.manager.coordinator.singleTypeManagers 1 = 2 ∧
        pendingPins state.manager.coordinator.singleTypeManagers 5 = 1 ∧
        state.retained.count 5 = 1) ∧
      (state.manager.blockPool.blocks 1).refCnt = 2 ∧
      (state.manager.blockPool.blocks 5).refCnt = 2 := by
  let config : KVCacheConfig :=
    { numBlocks := 12
      kvCacheGroups :=
        [{ kvCacheSpec := { blockSize := 4, kind := .fullAttention } },
          { kvCacheSpec := { blockSize := 4, kind := .mamba .align 0 0 } }] }
  let first (computed : Nat) : Request SymbolicHash := Request.updateBlockHashes (some 2)
    { requestId := "first", allTokenIds := [1, 2, 3, 4, 5, 6, 7], numPromptTokens := 7,
      numComputedTokens := computed }
  let second : Request SymbolicHash := Request.updateBlockHashes (some 2)
    { requestId := "second", allTokenIds := [1, 2, 3, 4, 5, 6, 9, 10, 11], numPromptTokens := 9 }
  let calls : List (CacheCall SymbolicHash) :=
    [.allocateSlots (first 0) { numNewTokens := 4 }, .newStepStarts,
      .allocateSlots (first 4) { numNewTokens := 2 }, .newStepStarts,
      .allocateSlots (first 6) { numNewTokens := 1 }, .takeKvCacheBlockCopies, .newStepStarts,
      .getComputedBlocks second,
      .allocateSlots second
        { numNewTokens := 3, numNewComputedTokens := 6,
          newComputedBlocks := some [[1, 3], [0, 5]] }]
  have counted : (replayCalls KeepsReferences config 100 4 2 calls).map
      (fun state => decide (tableOccurrences state.manager.coordinator.singleTypeManagers 1 = 2 ∧
        pendingPins state.manager.coordinator.singleTypeManagers 5 = 1 ∧
        state.retained.count 5 = 1 ∧
        tableOccurrences state.manager.coordinator.singleTypeManagers 5 = 0 ∧
        pendingPins state.manager.coordinator.singleTypeManagers 1 = 0 ∧
        state.retained.count 1 = 0)) = some true := by
    decide +kernel
  rcases Option.map_eq_some_iff.mp counted with ⟨state, replayed, holds⟩
  rcases of_decide_eq_true holds with ⟨shared, pending, retained, outside, unpinned, released⟩
  have reached := replayCalls_reachable replayed
  have counts := (reachable_refCnt reached).1
  refine ⟨state, reached, ⟨shared, pending, retained⟩, ?_, ?_⟩
  · rw [counts 1 (by decide), shared, unpinned, released]
    rfl
  · rw [counts 5 (by decide), outside, pending, retained]
    rfl

/-- In every run the pool hands out each block once, and only blocks that no table, no copy and no
retained end of a copy holds. -/
theorem reachable_handsOutUnheld {state : CacheState H}
    (reached : Reachable (system KeepsReferences) state) (numBlocks : Nat) (got : List BlockId)
    (pool : BlockPool H) (ran : state.manager.blockPool.getNewBlocks numBlocks = .ok (got, pool)) :
    got.Nodup ∧ ∀ block ∈ got, block ≠ nullBlock ∧ block ∉ state.retained ∧
      ∀ manager ∈ state.manager.coordinator.singleTypeManagers,
        block ∉ copyEnds manager.pendingCowCopies ∧
        ∀ requestId, block ∉ manager.blocksOf requestId := by
  have conserved := reachable_conserved reached
  rcases conserved.consistent.free with ⟨free, list⟩
  rcases taken_of_getNewBlocks list ran with ⟨rfl, -⟩
  refine ⟨list.nodup.sublist (List.take_sublist _ _), fun block handed => ?_⟩
  rcases (list.mem_iff block).mp (List.mem_of_mem_take handed) with ⟨-, nonNull, idle⟩
  rw [conserved.refCnt block nonNull] at idle
  refine ⟨nonNull, List.count_eq_zero.mp (by omega), fun manager member => ?_⟩
  have none_ : heldBy state.manager.coordinator.singleTypeManagers block = 0 := by omega
  rcases List.append_of_mem member with ⟨front, back, split⟩
  rw [split, heldBy, List.map_append, List.map_cons, List.sum_append, List.sum_cons, refs] at none_
  refine ⟨List.count_eq_zero.mp (by omega), fun requestId => List.count_eq_zero.mp ?_⟩
  have table := manager.count_blocksOf_le_occurrences requestId block
  omega

/-- The first block is held by a request. -/
theorem reachable_handsOutUnheld_held :
    ∃ (state : CacheState SymbolicHash) (pool : BlockPool SymbolicHash),
      state.manager.blockPool.getNewBlocks 2 = .ok ([2, 3], pool) ∧
      ∀ manager ∈ state.manager.coordinator.singleTypeManagers,
        2 ∉ manager.blocksOf "request" := by
  have computed : (replayCalls KeepsReferences
      { numBlocks := 5, kvCacheGroups := [⟨{ blockSize := 4, kind := .fullAttention }, false⟩] }
      100 4 4 [.allocateSlots { requestId := "request", allTokenIds := [1, 2, 3] }
        { numNewTokens := 3 }]).map (fun state : CacheState SymbolicHash =>
          (state.manager.blockPool.getNewBlocks 2).toOption.map Prod.fst) = some (some [2, 3]) := by
    decide +kernel
  rcases Option.map_eq_some_iff.mp computed with ⟨state, replayed, stored⟩
  rcases Option.map_eq_some_iff.mp stored with ⟨⟨got, pool⟩, ran, rfl⟩
  have ran := toOption_eq_some.mp ran
  refine ⟨state, pool, ran, fun manager member => ?_⟩
  exact (((reachable_handsOutUnheld (replayCalls_reachable replayed) 2 _ pool ran).2 2
    (by decide)).2.2 manager member).2 "request"

end CacheState

end Vllm.Core
