import Vllm.Core.CoordinatorRounds
import Vllm.Core.HybridLookup

/-!
# What the hybrid constructor establishes

`verify_and_split_kv_cache_groups` visits the KV cache groups in order and adds each to
the specification group of its own specification.  The fold below keeps that every
group listed so far is listed once, under its specification.
-/

namespace Vllm.Core

namespace KVCacheCoordinator

variable {H : Type}

/-- The specification groups list the groups with indices below `bound`, each once and
under its own specification. -/
structure Listed (groups : List KVCacheGroupSpec) (bound : Nat) (found : List SpecGroup) :
    Prop where
  inhabited : ∀ group ∈ found, group.groupIds ≠ []
  below : ∀ group ∈ found, ∀ groupId ∈ group.groupIds, groupId < bound
  spec : ∀ group ∈ found, ∀ groupId ∈ group.groupIds,
    (groups[groupId]?).map (·.kvCacheSpec) = some group.spec
  cacheable : ∀ group ∈ found, group.spec.prefixCacheable = true
  distinct : (found.flatMap (·.groupIds)).Nodup

variable
  {bound maxModelLen maxInFlightTokens dcpWorldSize schedulerBlockSize hashBlockSize
    numPrefillLookahead : Nat}
  {useEagle enableCaching enableKvCacheEvents : Bool} {found : List SpecGroup}
  {groups : List KVCacheGroupSpec} {config : KVCacheConfig} {coordinator : KVCacheCoordinator H}

variable {group : SpecGroup}

theorem mem_addToSpecGroups {i : Nat} {spec : KVCacheSpec}
    (member : group ∈ addToSpecGroups i spec useEagle found) :
    group ∈ found ∨ (group.spec = spec ∧ (group.groupIds = [i] ∨
      ∃ old ∈ found, old.spec = spec ∧ group.groupIds = old.groupIds ++ [i])) := by
  induction found with
  | nil =>
      simp only [addToSpecGroups, List.mem_singleton] at member
      subst member
      exact .inr ⟨rfl, .inl rfl⟩
  | cons first rest ih =>
      rw [addToSpecGroups] at member
      split at member
      · rename_i same
        rcases List.mem_cons.mp member with rfl | later
        · exact .inr ⟨same, .inr ⟨first, List.mem_cons_self, same, rfl⟩⟩
        · exact .inl (List.mem_cons_of_mem _ later)
      · rcases List.mem_cons.mp member with rfl | later
        · exact .inl List.mem_cons_self
        · rcases ih later with old | ⟨same, new | ⟨old, inRest, sameOld, ids⟩⟩
          · exact .inl (List.mem_cons_of_mem _ old)
          · exact .inr ⟨same, .inl new⟩
          · exact .inr ⟨same, .inr ⟨old, List.mem_cons_of_mem _ inRest, sameOld, ids⟩⟩

theorem flatMap_addToSpecGroups (i : Nat) (spec : KVCacheSpec) (useEagle : Bool)
    (found : List SpecGroup) :
    ((addToSpecGroups i spec useEagle found).flatMap (·.groupIds)).Perm
      (found.flatMap (·.groupIds) ++ [i]) := by
  induction found with
  | nil => exact List.Perm.refl _
  | cons first rest ih =>
      rw [addToSpecGroups]
      split
      · simp only [List.flatMap_cons, List.append_assoc]
        exact List.Perm.append_left _ List.perm_append_comm
      · simp only [List.flatMap_cons, List.append_assoc]
        exact List.Perm.append_left _ ih

theorem Listed.add {group : KVCacheGroupSpec} (listed : Listed groups bound found)
    (entry : groups[bound]? = some group) (cacheable : group.kvCacheSpec.prefixCacheable = true)
    (useEagle : Bool) :
    Listed groups (bound + 1) (addToSpecGroups bound group.kvCacheSpec useEagle found) := by
  have spec_bound : (groups[bound]?).map (·.kvCacheSpec) = some group.kvCacheSpec := by
    rw [entry]
    rfl
  constructor
  · intro added member
    rcases mem_addToSpecGroups member with old | ⟨_, new | ⟨_, _, _, ids⟩⟩
    · exact listed.inhabited added old
    · simp [new]
    · simp [ids]
  · intro added member groupId inAdded
    rcases mem_addToSpecGroups member with old | ⟨_, new | ⟨old, inFound, _, ids⟩⟩
    · exact Nat.lt_succ_of_lt (listed.below added old groupId inAdded)
    · rw [new, List.mem_singleton] at inAdded
      omega
    · rw [ids] at inAdded
      rcases List.mem_append.mp inAdded with earlier | own
      · exact Nat.lt_succ_of_lt (listed.below old inFound groupId earlier)
      · rw [List.mem_singleton.mp own]
        exact Nat.lt_succ_self _
  · intro added member groupId inAdded
    rcases mem_addToSpecGroups member with old | ⟨same, new | ⟨old, inFound, sameOld, ids⟩⟩
    · exact listed.spec added old groupId inAdded
    · rw [new, List.mem_singleton] at inAdded
      rw [inAdded, same, spec_bound]
    · rw [ids] at inAdded
      rcases List.mem_append.mp inAdded with earlier | own
      · rw [listed.spec old inFound groupId earlier, same, sameOld]
      · rw [List.mem_singleton.mp own, same, spec_bound]
  · intro added member
    rcases mem_addToSpecGroups member with old | ⟨same, _⟩
    · exact listed.cacheable added old
    · rwa [same]
  · rw [(flatMap_addToSpecGroups ..).nodup_iff]
    apply List.Nodup.append listed.distinct (List.nodup_singleton _)
    intro groupId earlier own
    rcases List.mem_flatMap.mp earlier with ⟨old, inFound, inOld⟩
    have less := listed.below old inFound groupId inOld
    rw [List.mem_singleton.mp own] at less
    exact Nat.lt_irrefl _ less

theorem Listed.mono {larger : Nat} (listed : Listed groups bound found) (le : bound ≤ larger) :
    Listed groups larger found :=
  { listed with below := fun group member groupId inGroup =>
      Nat.lt_of_lt_of_le (listed.below group member groupId inGroup) le }

/-- The fold over the remaining groups. -/
theorem listed_foldl {groups : List KVCacheGroupSpec} (eagleGroupIds : List Nat)
    {bound : Nat} {rest : List KVCacheGroupSpec} {found : List SpecGroup}
    (split : groups.drop bound = rest) (listed : Listed groups bound found) :
    Listed groups groups.length ((rest.zipIdx bound).foldl (fun found (group, i) =>
      if group.kvCacheSpec.prefixCacheable then
        addToSpecGroups i group.kvCacheSpec (i ∈ eagleGroupIds) found
      else found) found) := by
  induction rest generalizing bound found with
  | nil =>
      constructor
      · exact listed.inhabited
      · intro group member groupId inGroup
        have entry := listed.spec group member groupId inGroup
        rcases Option.map_eq_some_iff.mp entry with ⟨found, present, _⟩
        exact (List.getElem?_eq_some_iff.mp present).1
      · exact listed.spec
      · exact listed.cacheable
      · exact listed.distinct
  | cons group rest ih =>
      have entry : groups[bound]? = some group := by
        have head := congrArg (fun l => l[0]?) split
        simpa using head
      have tail : groups.drop (bound + 1) = rest := by
        rw [← List.drop_drop, split]
        rfl
      rw [List.zipIdx_cons, List.foldl_cons]
      dsimp only
      split
      · rename_i cacheable
        exact ih tail (listed.add entry cacheable _)
      · exact ih tail (listed.mono (Nat.le_succ _))

theorem splitKvCacheGroups_listed (groups : List KVCacheGroupSpec) (eagleGroupIds : List Nat) :
    Listed groups groups.length (splitKvCacheGroups groups eagleGroupIds) := by
  have listed := @listed_foldl groups eagleGroupIds 0 _ [] rfl
    ⟨by simp, by simp, by simp, by simp, by simp⟩
  rw [List.drop_zero] at listed
  unfold splitKvCacheGroups
  generalize (groups.zipIdx 0).foldl _ [] = split at listed ⊢
  have member {group : SpecGroup} (inParts : group ∈ split.filter (·.spec.isFullAttention) ++
      split.filter (!·.spec.isFullAttention)) : group ∈ split := by
    rcases List.mem_append.mp inParts with first | second
    · exact List.mem_of_mem_filter first
    · exact List.mem_of_mem_filter second
  constructor
  · exact fun group inParts => listed.inhabited group (member inParts)
  · exact fun group inParts => listed.below group (member inParts)
  · exact fun group inParts => listed.spec group (member inParts)
  · exact fun group inParts => listed.cacheable group (member inParts)
  · have parts := (List.filter_append_perm (fun group : SpecGroup => group.spec.isFullAttention)
      split).flatMap_right (·.groupIds)
    exact parts.nodup_iff.mpr listed.distinct

/-- Full attention comes first. -/
theorem splitKvCacheGroups_sorted {eagleGroupIds : List Nat} {before after : List SpecGroup}
    (split : splitKvCacheGroups groups eagleGroupIds = before ++ group :: after)
    (full : group.spec.isFullAttention = true) :
    ∀ other ∈ before, other.spec.isFullAttention = true := by
  unfold splitKvCacheGroups at split
  generalize List.foldl _ [] _ = found at split
  intro other member
  rcases List.append_eq_append_iff.mp split with ⟨extra, beforeEq, later⟩ | ⟨extra, fullEq, _⟩
  · have inLater : group ∈ found.filter (!·.spec.isFullAttention) := by
      rw [later]
      exact List.mem_append_right _ List.mem_cons_self
    have notFull := List.of_mem_filter inLater
    rw [full] at notFull
    cases notFull
  · have inFull : other ∈ found.filter (·.spec.isFullAttention) := by
      rw [fullEq]
      exact List.mem_append_left _ member
    exact List.of_mem_filter (p := fun group : SpecGroup => group.spec.isFullAttention) inFull

/-! ## The constructor -/

/-- What the base class sets. -/
structure BaseSet (config : KVCacheConfig) (dcpWorldSize schedulerBlockSize hashBlockSize : Nat)
    (coordinator : KVCacheCoordinator H) : Prop where
  poolHash : coordinator.blockPool.hashBlockSize = hashBlockSize
  hash : coordinator.hashBlockSize = hashBlockSize
  scheduler : coordinator.schedulerBlockSize = schedulerBlockSize
  managers : ∃ maxModelLen maxInFlightTokens enableCaching,
    coordinator.singleTypeManagers = initManagers config maxModelLen maxInFlightTokens
      enableCaching dcpWorldSize schedulerBlockSize

theorem baseInit_set [DecidableEq H] {kind : CoordinatorKind}
    (created : baseInit kind config maxModelLen maxInFlightTokens useEagle enableCaching
      enableKvCacheEvents dcpWorldSize schedulerBlockSize hashBlockSize numPrefillLookahead =
        .ok coordinator) :
    BaseSet config dcpWorldSize schedulerBlockSize hashBlockSize coordinator ∧
      coordinator.kind = kind := by
  rcases bind_eq_ok.mp created with ⟨_, _, created⟩
  rcases bind_eq_ok.mp created with ⟨pool, pooled, created⟩
  dsimp only at created
  split at created
  · cases created
  rcases bind_eq_ok.mp created with ⟨retention, _, created⟩
  cases created
  rcases bind_eq_ok.mp pooled with ⟨_, _, pooled⟩
  rcases bind_eq_ok.mp pooled with ⟨⟨_, queue⟩, _, pooled⟩
  cases pooled
  exact ⟨⟨rfl, rfl, rfl, maxModelLen, maxInFlightTokens, enableCaching, rfl⟩, rfl⟩

/-- The effective block size of a KV cache group under DCP. -/
def effectiveBlockSize (spec : KVCacheSpec) (dcpWorldSize : Nat) : Nat :=
  spec.blockSize * dcpWorldSizeForKvCacheSpec spec dcpWorldSize

theorem dcpWorldSizeForKvCacheSpec_pos (spec : KVCacheSpec) (dcpWorldSize : Nat) :
    0 < dcpWorldSizeForKvCacheSpec spec dcpWorldSize := by
  unfold dcpWorldSizeForKvCacheSpec
  split
  · exact Nat.one_pos
  · split
    · omega
    · exact Nat.one_pos

/-- The manager of a group keeps the settings that the base class gave it. -/
theorem getElem?_initManagers {groupId : Nat} {group : KVCacheGroupSpec}
    (entry : config.kvCacheGroups[groupId]? = some group) :
    ∃ manager : SingleTypeKVCacheManager H,
      (initManagers config maxModelLen maxInFlightTokens enableCaching dcpWorldSize
        schedulerBlockSize)[groupId]? = some manager ∧ manager.kvCacheSpec = group.kvCacheSpec ∧
      manager.dcpWorldSize = dcpWorldSizeForKvCacheSpec group.kvCacheSpec dcpWorldSize ∧
      manager.blockSize = effectiveBlockSize group.kvCacheSpec dcpWorldSize := by
  rw [initManagers, List.getElem?_mapIdx, entry]
  refine ⟨_, rfl, rfl, rfl, ?_⟩
  have positive := dcpWorldSizeForKvCacheSpec_pos group.kvCacheSpec dcpWorldSize
  simp only [SingleTypeKVCacheManager.init, effectiveBlockSize]
  split
  · rfl
  · rw [show dcpWorldSizeForKvCacheSpec group.kvCacheSpec dcpWorldSize = 1 by omega, Nat.mul_one]

/-- What the hybrid class adds. -/
structure HybridSet (config : KVCacheConfig) (dcpWorldSize schedulerBlockSize hashBlockSize : Nat)
    (coordinator : KVCacheCoordinator H) : Prop where
  poolHash : coordinator.blockPool.hashBlockSize = hashBlockSize
  hash : coordinator.hashBlockSize = hashBlockSize
  scheduler : coordinator.schedulerBlockSize = schedulerBlockSize
  groups : ∃ eagleGroupIds,
    coordinator.attentionGroups = splitKvCacheGroups config.kvCacheGroups eagleGroupIds
  nonempty : coordinator.attentionGroups ≠ []
  managers : coordinator.singleTypeManagers.length = config.kvCacheGroups.length
  managed : ∀ (groupId : Nat) (group : KVCacheGroupSpec),
    config.kvCacheGroups[groupId]? = some group →
    ∃ manager, coordinator.singleTypeManagers[groupId]? = some manager ∧
      manager.dcpWorldSize = dcpWorldSizeForKvCacheSpec group.kvCacheSpec dcpWorldSize ∧
      manager.blockSize = effectiveBlockSize group.kvCacheSpec dcpWorldSize
  divides : ∀ group ∈ config.kvCacheGroups, group.kvCacheSpec.prefixCacheable = true →
    hashBlockSize ∣ effectiveBlockSize group.kvCacheSpec dcpWorldSize
  fine : coordinator.enablePartialHashHits = true → ∀ group ∈ config.kvCacheGroups,
    group.kvCacheSpec.prefixCacheable = true →
      group.kvCacheSpec.supportsFineGrainedHashLookup = false →
        effectiveBlockSize group.kvCacheSpec dcpWorldSize = hashBlockSize

theorem hybridInit_set [DecidableEq H] {base : KVCacheCoordinator H}
    (based : BaseSet config dcpWorldSize schedulerBlockSize hashBlockSize base)
    (created : hybridInit config dcpWorldSize base = .ok coordinator) :
    HybridSet config dcpWorldSize schedulerBlockSize hashBlockSize coordinator := by
  rcases based with ⟨poolHash, hash, scheduler, maxModelLen, maxInFlight, caching, managers⟩
  rcases bind_eq_ok.mp created with ⟨_, divides, created⟩
  rcases bind_eq_ok.mp created with ⟨_, _, created⟩
  rcases bind_eq_ok.mp created with ⟨_, nonempty, created⟩
  cases created
  have divisible := pyAssert_eq_ok.mp divides
  have managed (groupId : Nat) (group : KVCacheGroupSpec)
      (entry : config.kvCacheGroups[groupId]? = some group) :
      ∃ manager ∈ base.singleTypeManagers, base.singleTypeManagers[groupId]? = some manager ∧
        manager.kvCacheSpec = group.kvCacheSpec ∧
        manager.dcpWorldSize = dcpWorldSizeForKvCacheSpec group.kvCacheSpec dcpWorldSize ∧
        manager.blockSize = effectiveBlockSize group.kvCacheSpec dcpWorldSize := by
    rcases getElem?_initManagers (H := H) entry with
      ⟨manager, found, facts⟩
    rw [← managers] at found
    exact ⟨manager, List.mem_of_getElem? found, found, facts⟩
  constructor
  · exact poolHash
  · exact hash
  · exact scheduler
  · exact ⟨_, rfl⟩
  · exact pyAssert_eq_ok.mp nonempty
  · simp [managers, initManagers]
  · intro groupId group entry
    rcases managed groupId group entry with ⟨manager, _, found, _, sharded, sized⟩
    simp only [List.getElem?_mapIdx, found, Option.map_some, Option.some.injEq]
    exact ⟨_, rfl, sharded, sized⟩
  · intro group member cacheable
    rcases List.getElem?_of_mem member with ⟨groupId, entry⟩
    rcases managed groupId group entry with ⟨manager, inManagers, _, spec, _, sized⟩
    have whole := List.all_eq_true.mp divisible manager inManagers
    rw [spec, cacheable, sized, hash] at whole
    exact Nat.dvd_of_mod_eq_zero (by simpa using whole)
  · intro partialHits group member cacheable unsupported
    rcases List.getElem?_of_mem member with ⟨groupId, entry⟩
    rcases managed groupId group entry with ⟨manager, inManagers, _, spec, _, sized⟩
    have supported := (Bool.and_eq_true_iff.mp partialHits).2
    rw [Bool.not_eq_true', List.any_eq_false] at supported
    have equal := supported manager inManagers
    rw [spec, cacheable, unsupported, sized, hash] at equal
    simpa using equal

/-- The constructor establishes the layout, for block sizes that divide the scheduler's. -/
theorem getKvCacheCoordinator_searchLayout [DecidableEq H]
    (created : getKvCacheCoordinator config maxModelLen maxInFlightTokens useEagle enableCaching
      enableKvCacheEvents dcpWorldSize schedulerBlockSize hashBlockSize numPrefillLookahead =
        .ok coordinator) (hybrid : coordinator.kind = .hybrid) (hash_pos : 0 < hashBlockSize)
    (scheduler_pos : 0 < schedulerBlockSize) (sizes : ∀ group ∈ config.kvCacheGroups,
      effectiveBlockSize group.kvCacheSpec dcpWorldSize ∣ schedulerBlockSize) :
    coordinator.SearchLayout := by
  have set : HybridSet config dcpWorldSize schedulerBlockSize hashBlockSize coordinator := by
    unfold getKvCacheCoordinator at created
    split at created
    · rw [(baseInit_set created).2] at hybrid
      cases hybrid
    · split at created
      · rcases bind_eq_ok.mp created with ⟨base, based, created⟩
        rcases bind_eq_ok.mp created with ⟨_, _, created⟩
        rcases bind_eq_ok.mp created with ⟨_, _, created⟩
        rcases bind_eq_ok.mp created with ⟨_, _, created⟩
        cases created
        have kind : base.kind = .hybrid := hybrid
        rw [(baseInit_set based).2] at kind
        cases kind
      · rcases bind_eq_ok.mp created with ⟨base, based, created⟩
        exact hybridInit_set (baseInit_set based).1 created
  rcases set.groups with ⟨eagleGroupIds, groups⟩
  have listed := splitKvCacheGroups_listed config.kvCacheGroups eagleGroupIds
  rw [← groups] at listed
  have first (group : SpecGroup) (member : group ∈ coordinator.attentionGroups) :
      ∃ firstGroupId configured, group.groupIds[0]? = some firstGroupId ∧
        config.kvCacheGroups[firstGroupId]? = some configured ∧
        configured.kvCacheSpec = group.spec := by
    have some := List.length_pos_iff.mpr (listed.inhabited group member)
    have entry := listed.spec group member _ (List.getElem_mem some)
    rcases Option.map_eq_some_iff.mp entry with ⟨configured, present, spec⟩
    exact ⟨_, configured, List.getElem?_eq_getElem some, present, spec⟩
  have sized (group : SpecGroup) (member : group ∈ coordinator.attentionGroups) :
      coordinator.groupBlockSize group = effectiveBlockSize group.spec dcpWorldSize := by
    rcases first group member with ⟨firstGroupId, configured, start, present, spec⟩
    rcases set.managed firstGroupId configured present with ⟨manager, found, _, blockSize⟩
    simp only [groupBlockSize, start, Option.bind_some, found, blockSize, spec]
  have member_config (group : SpecGroup) (member : group ∈ coordinator.attentionGroups) :
      ∃ configured ∈ config.kvCacheGroups, configured.kvCacheSpec = group.spec := by
    rcases first group member with ⟨_, configured, _, present, spec⟩
    exact ⟨configured, List.mem_of_getElem? present, spec⟩
  have divides (group : SpecGroup) (member : group ∈ coordinator.attentionGroups) :
      effectiveBlockSize group.spec dcpWorldSize ∣ schedulerBlockSize := by
    rcases member_config group member with ⟨configured, inConfig, spec⟩
    rw [← spec]
    exact sizes configured inConfig
  have hashed (group : SpecGroup) (member : group ∈ coordinator.attentionGroups) :
      hashBlockSize ∣ effectiveBlockSize group.spec dcpWorldSize := by
    rcases member_config group member with ⟨configured, inConfig, spec⟩
    rw [← spec]
    exact set.divides configured inConfig (spec ▸ listed.cacheable group member)
  have block_pos (spec : KVCacheSpec) : 0 < effectiveBlockSize spec dcpWorldSize :=
    Nat.mul_pos spec.blockSize_pos (dcpWorldSizeForKvCacheSpec_pos spec dcpWorldSize)
  constructor
  · rw [set.poolHash, set.hash]
  · exact set.nonempty
  · intro group member
    rcases first group member with ⟨firstGroupId, configured, start, present, spec⟩
    rcases set.managed firstGroupId configured present with ⟨manager, found, sharded, blockSize⟩
    refine ⟨firstGroupId, manager, start, found, ?_, ?_⟩
    · rw [blockSize, sharded, effectiveBlockSize, spec]
    · intro notFull
      rw [sharded, spec, dcpWorldSizeForKvCacheSpec, notFull]
      simp
  · intro group member groupId inGroup
    rw [set.managers]
    exact listed.below group member groupId inGroup
  · exact listed.distinct
  · intro group member
    rw [sized group member, set.hash, cacheHitAlignmentTokens, set.hash, set.scheduler]
    refine ⟨hash_pos, ?_, block_pos _, hashed group member, ?_⟩
    · split <;> assumption
    · split
      · have le := Nat.le_of_dvd (block_pos _) (hashed group member)
        rcases Nat.eq_or_lt_of_le le with same | finer
        · exact .inl (same ▸ Nat.dvd_refl _)
        · exact .inr ⟨rfl, finer⟩
      · exact .inl (divides group member)
  · intro group member coarse
    rw [sized group member, cacheHitAlignmentTokens, set.hash, set.scheduler]
    split
    · rename_i fine
      rw [fine, Bool.true_and] at coarse
      rcases member_config group member with ⟨configured, inConfig, spec⟩
      have same := set.fine fine configured inConfig (spec ▸ listed.cacheable group member)
        (spec ▸ coarse)
      rw [← spec, same]
    · exact divides group member
  · intro fine
    rw [cacheHitAlignmentTokens, if_pos fine]
  · exact listed.cacheable
  · intro before group after split full
    rw [groups] at split
    exact splitKvCacheGroups_sorted split full

/-- Operations of the coordinator keep the layout. -/
theorem SearchLayout.sameSetup [DecidableEq H] {coordinator' : KVCacheCoordinator H}
    (layout : coordinator.SearchLayout) (setup : SameSetup coordinator coordinator') :
    coordinator'.SearchLayout := by
  have rest := setup.rest
  have pool : coordinator'.blockPool.hashBlockSize = coordinator.blockPool.hashBlockSize :=
    setup.config.hashBlockSize
  have settings := setup.settings
  generalize coordinator'.blockPool = pool' at rest pool
  generalize coordinator'.singleTypeManagers = managers' at rest settings
  subst rest
  have sameLength : managers'.length = coordinator.singleTypeManagers.length := by
    simpa using congrArg List.length settings
  have same (groupId : Nat) (manager : SingleTypeKVCacheManager H)
      (found : coordinator.singleTypeManagers[groupId]? = some manager) :
      ∃ manager', managers'[groupId]? = some manager' ∧
        manager'.blockSize = manager.blockSize ∧ manager'.dcpWorldSize = manager.dcpWorldSize := by
    have entry := congrArg (fun list => list[groupId]?) settings
    simp only [List.getElem?_map, found, Option.map_some] at entry
    rcases Option.map_eq_some_iff.mp entry with ⟨manager', found', equal⟩
    exact ⟨manager', found', congrArg (·.blockSize) equal, congrArg (·.dcpWorldSize) equal⟩
  have sized (group : SpecGroup) (member : group ∈ coordinator.attentionGroups) :
      groupBlockSize { coordinator with blockPool := pool', singleTypeManagers := managers' } group =
        coordinator.groupBlockSize group := by
    rcases layout.manager group member with ⟨firstGroupId, manager, first, managed, _⟩
    rcases same firstGroupId manager managed with ⟨manager', managed', blockSize, _⟩
    simp only [groupBlockSize, first, Option.bind_some, managed, managed', blockSize]
  constructor
  · rw [pool]
    exact layout.hash_eq
  · exact layout.nonempty
  · intro group member
    rcases layout.manager group member with ⟨firstGroupId, manager, first, managed, size, unsharded⟩
    rcases same firstGroupId manager managed with ⟨manager', managed', blockSize, sharded⟩
    exact ⟨firstGroupId, manager', first, managed', by rw [blockSize, sharded, size],
      fun notFull => sharded.trans (unsharded notFull)⟩
  · intro group member groupId inGroup
    rw [sameLength]
    exact layout.inRange group member groupId inGroup
  · exact layout.distinct
  · intro group member
    rw [sized group member]
    exact layout.fits group member
  · intro group member coarse
    rw [sized group member]
    exact layout.whole group member coarse
  · exact layout.fine
  · exact layout.cacheable
  · exact layout.sorted

end KVCacheCoordinator

end Vllm.Core
