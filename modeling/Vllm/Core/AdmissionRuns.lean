import Vllm.Core.Admission

/-!
# Admission along runs

The predictions pay for an allocation only if the books of the request are in
order: `Booked` ties the tables of the attention managers to the progress of
each request, and every call of a scheduler that `Orderly` allows keeps it.
-/

namespace Vllm.Core

open Vllm.Library BlockPool SingleTypeKVCacheManager

variable {H : Type}

namespace SingleTypeKVCacheManager

/-! ## Effects on attention managers -/

/-- The table grew or stayed, and a ring buffer has no partial hits. -/
structure Prepared (requestId : RequestId) (manager manager' : SingleTypeKVCacheManager H) :
    Prop where
  extended : Extends requestId manager manager'
  ring : manager.kvCacheSpec.kind = .circularBuffer →
    manager'.partialHitReqs = manager.partialHitReqs

theorem Prepared.refl (requestId : RequestId) (manager : SingleTypeKVCacheManager H) :
    Prepared requestId manager manager :=
  ⟨⟨.refl _ _, le_rfl⟩, fun _ => rfl⟩

variable {requestId : RequestId} {first second third manager manager' : SingleTypeKVCacheManager H}

theorem Prepared.trans (left : Prepared requestId first second)
    (right : Prepared requestId second third) : Prepared requestId first third := by
  refine ⟨left.extended.trans right.extended, fun ring => ?_⟩
  have same := kvCacheSpec_of_settings left.extended.1.settings
  rw [right.ring (by rw [same]; exact ring), left.ring ring]

theorem Prepared.isAttention (prepared : Prepared requestId manager manager')
    (attention : manager.IsAttention) : manager'.IsAttention := by
  unfold IsAttention
  rw [kvCacheSpec_of_settings prepared.extended.1.settings]
  exact attention

theorem Prepared.served {numTokens : Nat} (left : Prepared requestId first second)
    (right : Served requestId numTokens second third) : Served requestId numTokens first third := by
  have spec := kvCacheSpec_of_settings left.extended.1.settings
  have size := blockSize_of_settings left.extended.1.settings
  refine ⟨left.extended.trans right.extended, fun settled => right.settled fun ring => ?_,
    fun notRing => ?_⟩
  · rw [spec] at ring
    rw [left.ring ring]
    exact settled ring
  · rw [← size]
    exact right.slots (by rw [spec]; exact notRing)

theorem Trimmed.prepared {inside : Nat → Prop}
    (trimmed : Trimmed requestId inside manager manager') :
    Prepared requestId manager manager' :=
  ⟨⟨trimmed.frame, trimmed.table.1.ge⟩, fun _ => trimmed.partialHitReqs⟩

variable {pool pool' : BlockPool H}

theorem addLocalComputedBlocks_prepared {newComputedBlocks : List BlockId}
    {numLocal numExternal : Nat}
    (added : addLocalComputedBlocks pool manager requestId newComputedBlocks numLocal numExternal =
      .ok (pool', manager')) : Prepared requestId manager manager' := by
  have frame := addLocalComputedBlocks_onlyFor added
  unfold addLocalComputedBlocks at added
  split at added
  · cases added
    exact .refl requestId manager
  · obtain ⟨_, _, added⟩ := bind_eq_ok.mp added
    cases added
    exact .refl requestId manager
  · rename_i notRing _
    rcases addLocalHits_eq_ok added with ⟨empty, _, _⟩
    refine ⟨⟨frame, ?_⟩, fun ring => absurd ring notRing⟩
    rw [empty]
    exact Nat.zero_le _

/-- A freed request has no books. -/
theorem free_unknown (freed : free pool manager requestId = .ok (pool', manager')) :
    Unknown requestId manager' := by
  obtain ⟨_, _, freed⟩ := bind_eq_ok.mp freed
  cases freed
  unfold popBlocksForFree
  split
  · exact ⟨Dict.getD_erase_self .., congrArg Option.isSome (Dict.get?_erase_self ..),
      Dict.get?_erase_self .., fun _ _ _ => by simp⟩
  · rename_i notAlign
    exact ⟨Dict.getD_erase_self .., congrArg Option.isSome (Dict.get?_erase_self ..),
      Dict.get?_erase_self .., fun _ _ align => absurd align (notAlign _ _)⟩

section Allocation

variable [DecidableEq H] [BlockHashing H]

variable {manager manager' : SingleTypeKVCacheManager H}

variable {pool pool' : BlockPool H}

theorem allocateExternalComputedBlocks_prepared {numLocal numExternal : Nat}
    (consistent : Consistent pool)
    (allocated : allocateExternalComputedBlocks pool manager requestId numLocal numExternal =
      .ok (pool', manager')) : Prepared requestId manager manager' := by
  rcases (allocateExternalComputedBlocks_funded consistent fun _ => le_rfl).success _ allocated with
    ⟨_, _, extended, same⟩
  exact ⟨extended, fun _ => same⟩

/-- Caching leaves the tables and the partial hits of an attention manager. -/
theorem cacheBlocks_partialHitReqs (attention : manager.IsAttention) {request : Request H}
    {numTokens : Nat} {retentionInterval : Option Nat}
    (cached : cacheBlocks pool manager request numTokens retentionInterval =
      .ok (pool', manager')) : manager'.partialHitReqs = manager.partialHitReqs := by
  apply cacheBlocks_rule rfl _ _ _ cached
  · intro after last cached
    unfold baseCacheBlocks at cached
    dsimp only at cached
    split at cached
    · cases cached
      rfl
    · obtain ⟨_, _, cached⟩ := bind_eq_ok.mp cached
      obtain ⟨_, _, cached⟩ := bind_eq_ok.mp cached
      cases cached
      rfl
  · intro middle noted after last same tail
    unfold cachePartialTailBlock at tail
    dsimp only at tail
    split at tail
    · cases tail
      exact same
    · split at tail
      · cases tail
        exact same
      · obtain ⟨_, _, tail⟩ := bind_eq_ok.mp tail
        cases tail
        exact same
  · intro mamba
    simp [IsAttention, mamba] at attention

end Allocation

end SingleTypeKVCacheManager

/-! ## Effects of `allocate_slots` -/

namespace KVCacheManager

open KVCacheCoordinator

variable {manager manager' : KVCacheManager H} {others : BlockId → Nat}
  {request : Request H} {args : AllocateSlotsArgs}

variable [DecidableEq H]

variable {fits : Bool} {gated : KVCacheManager H}

/-- The gate only asks the managers. -/
theorem fullSequenceFits_round (conserved : Conserved manager others)
    (checked : manager.fullSequenceFits request args = .ok (fits, manager'))
    (inside : SingleTypeKVCacheManager H → Nat → Prop) :
    ∃ coordinator, manager' = manager.setCoordinator coordinator ∧
      Round others (· = manager.blockPool)
        (fun _ group group' => Trimmed request.requestId (inside group) group group')
        manager.coordinator coordinator := by
  unfold fullSequenceFits at checked
  split at checked
  · obtain ⟨⟨count, coordinator⟩, predicted, checked⟩ := bind_eq_ok.mp checked
    cases checked
    exact ⟨coordinator, rfl, getNumBlocksToAllocate_round _
      (fun _ _ _ _ _ _ _ _ _ _ predicted => getNumBlocksToAllocate_trimmed predicted _)
      conserved predicted⟩
  · cases checked
    exact ⟨manager.coordinator, rfl, .refl _, conserved, rfl, .refl (fun _ _ => .refl _ _ _) _ _⟩

/-- The blocks of a group that `allocate_slots` may release. -/
def skippedFor (manager : KVCacheManager H) (request : Request H) (args : AllocateSlotsArgs)
    (group : SingleTypeKVCacheManager H) : Nat → Prop :=
  group.skipsBlock (manager.processedComputedTokens request args) (some request.numPromptTokens)

/-- Up to the final check only blocks outside the windows are released. -/
structure BeforeCheck (others : BlockId → Nat) (manager : KVCacheManager H) (request : Request H)
    (args : AllocateSlotsArgs) (checked : KVCacheManager H) : Prop where
  same : ∃ coordinator, checked = manager.setCoordinator coordinator
  setup : SameSetup manager.coordinator checked.coordinator
  conserved : Conserved checked others
  refCnt : ∀ block, (checked.blockPool.blocks block).refCnt ≤
    (manager.blockPool.blocks block).refCnt
  hashes : SameHashes manager.blockPool checked.blockPool
  groups : Pointwise (fun _ group group' =>
      Trimmed request.requestId (manager.skippedFor request args group) group group')
    0 manager.coordinator.singleTypeManagers checked.coordinator.singleTypeManagers

/-- The gate alone. -/
theorem beforeCheck_of_gate (conserved : Conserved manager others)
    (checked : manager.fullSequenceFits request args = .ok (fits, gated)) :
    BeforeCheck others manager request args gated := by
  rcases fullSequenceFits_round conserved checked (manager.skippedFor request args) with
    ⟨coordinator, rfl, round⟩
  have samePool : coordinator.blockPool = manager.blockPool := round.keeps
  refine ⟨⟨coordinator, rfl⟩, round.setup, round.balanced, fun block => ?_, ?_, round.related⟩
  · change (coordinator.blockPool.blocks block).refCnt ≤ _
    exact Int.le_of_eq (congrArg (fun pool => (pool.blocks block).refCnt) samePool)
  · change SameHashes _ coordinator.blockPool
    rw [samePool]
    exact .refl _

/-- The gate, the release of skipped blocks and the prediction. -/
theorem beforeCheck_of_prediction {skipped predicted : KVCacheCoordinator H} {count : Int}
    (conserved : Conserved manager others)
    (checked : manager.fullSequenceFits request args = .ok (fits, gated))
    (removed : gated.coordinator.removeSkippedBlocks request.requestId
      (gated.processedComputedTokens request args) (some request.numPromptTokens) = .ok skipped)
    (counted : skipped.getNumBlocksToAllocate request.requestId
      (gated.numTokensNeedSlot request args) (gated.newComputedBlockList args)
      args.numEncoderTokens (numLocalComputedTokens request args + args.numExternalComputedTokens)
      (numLocalComputedTokens request args) (gated.numTokensMainModel request args) false =
        .ok (count, predicted)) :
    BeforeCheck others manager request args (gated.setCoordinator predicted) := by
  have gate := beforeCheck_of_gate conserved checked
  rcases gate.same with ⟨coordinator, rfl⟩
  have release := removeSkippedBlocks_round
    (fun pool => SameHashes coordinator.blockPool pool ∧ ∀ block,
      (pool.blocks block).refCnt ≤ (coordinator.blockPool.blocks block).refCnt)
    (fun _ group group' =>
      Trimmed request.requestId (manager.skippedFor request args group) group group')
    (fun _ pool group pool' group' _ kept released =>
      ⟨⟨kept.1.trans released.hashes, fun block =>
        Int.le_trans (released.refCnt block) (kept.2 block)⟩, released.toTrimmed⟩)
    gate.conserved ⟨.refl _, fun _ => Int.le_refl _⟩ removed
  have prediction := getNumBlocksToAllocate_round
    (fun _ group group' =>
      Trimmed request.requestId (manager.skippedFor request args group) group group')
    (fun _ _ _ _ _ _ _ _ _ _ predicted => getNumBlocksToAllocate_trimmed predicted _)
    release.balanced counted
  have samePool : predicted.blockPool = skipped.blockPool := prediction.keeps
  have compose : ∀ (_ : Nat) (first second third : SingleTypeKVCacheManager H),
      Trimmed request.requestId (manager.skippedFor request args first) first second →
      Trimmed request.requestId (manager.skippedFor request args second) second third →
      Trimmed request.requestId (manager.skippedFor request args first) first third := by
    intro _ first second third left right
    unfold skippedFor at right
    rw [skipsBlock_of_settings left.frame.settings] at right
    exact left.trans right
  refine ⟨⟨predicted, rfl⟩, (gate.setup.trans release.setup).trans prediction.setup,
    prediction.balanced, fun block => ?_, ?_,
    (gate.groups.trans release.related compose).trans prediction.related compose⟩
  · change (predicted.blockPool.blocks block).refCnt ≤ _
    rw [samePool]
    exact Int.le_trans (release.keeps.2 block) (gate.refCnt block)
  · change SameHashes _ predicted.blockPool
    rw [samePool]
    exact gate.hashes.trans release.keeps.1

/-! ## The allocation pays for itself -/

/-- `allocate_slots` passed the final check with the prediction `count`; what it
does next starts from `checked`. -/
def PassesCheck (manager : KVCacheManager H) (request : Request H) (args : AllocateSlotsArgs)
    (count : Int) (checked : KVCacheManager H) : Prop :=
  ∃ gated skipped predicted, manager.fullSequenceFits request args = .ok (true, gated) ∧
    gated.coordinator.removeSkippedBlocks request.requestId
      (gated.processedComputedTokens request args) (some request.numPromptTokens) =
        .ok skipped ∧
    skipped.getNumBlocksToAllocate request.requestId (gated.numTokensNeedSlot request args)
      (gated.newComputedBlockList args) args.numEncoderTokens
      (numLocalComputedTokens request args + args.numExternalComputedTokens)
      (numLocalComputedTokens request args) (gated.numTokensMainModel request args) false =
        .ok (count, predicted) ∧
    checked = gated.setCoordinator predicted ∧
    count + checked.watermarkFor request args ≤
      checked.blockPool.getNumFreeBlocks - args.reservedBlocks

variable {newBlocks : List (List BlockId)}

/-- A successful allocation passed the check and was committed. -/
theorem passesCheck_of_allocateSlots [BlockHashing H]
    (allocated : manager.allocateSlots request args = .ok (some newBlocks, manager')) :
    ∃ count checked committed, manager.PassesCheck request args count checked ∧
      checked.commitSlots request args = .ok (newBlocks, committed) := by
  rcases allocateSlots_cases allocated with ⟨fits, gated, checked, rest⟩
  rcases rest with ⟨_, impossible, _⟩ | ⟨rfl, skipped, count, predicted, removed, counted, rest⟩
  · contradiction
  rcases rest with ⟨impossible, _⟩ | ⟨blocks, committed, passed, ran, _, same⟩
  · contradiction
  cases same
  exact ⟨count, _, committed, ⟨gated, skipped, predicted, checked, removed, counted, rfl, passed⟩,
    ran⟩

/-- The books of the request fit the arguments of the call. -/
structure Ready (checked : KVCacheManager H) (request : Request H) (args : AllocateSlotsArgs) :
    Prop where
  fresh : ((checked.newComputedBlockList args).any fun blocks => blocks ≠ []) = true ∨
      args.numExternalComputedTokens > 0 →
    (∀ group ∈ checked.coordinator.singleTypeManagers, Unknown request.requestId group) ∧
      numLocalComputedTokens request args + args.numExternalComputedTokens ≤
        checked.numTokensNeedSlot request args
  settled : (∀ blocks ∈ checked.newComputedBlockList args, blocks = []) →
    args.numExternalComputedTokens = 0 →
    ∀ group ∈ checked.coordinator.singleTypeManagers,
      group.partialHitReqs.get? request.requestId = none ∧
        (group.kvCacheSpec.isCrossAttention = false →
          group.kvCacheSpec.kind ≠ .circularBuffer →
          group.isTracked request.requestId = false →
          group.getNumSkippedBlocks (numLocalComputedTokens request args +
              args.numExternalComputedTokens) ≤ (group.blocksOf request.requestId).length)

omit [DecidableEq H] in
theorem getD_eq_nil {hits : List (List BlockId)} (empty : ∀ blocks ∈ hits, blocks = []) (i : Nat) :
    hits.getD i [] = [] := by
  rw [List.getD_eq_getElem?_getD]
  cases located : hits[i]? with
  | none => rfl
  | some blocks => exact empty blocks (List.mem_of_getElem? located)

variable [BlockHashing H]

/-- The add and allocate calls are paid by the prediction. -/
theorem commitSlots_funded (conserved : Conserved manager others)
    (attention : ∀ group ∈ manager.coordinator.singleTypeManagers, group.IsAttention)
    (valid : ∀ blocks ∈ manager.newComputedBlockList args, ∀ block ∈ blocks,
      block < manager.blockPool.numGpuBlocks) (ready : manager.Ready request args) :
    Funded manager.blockPool
      (fundOf (demandFor request.requestId (manager.numTokensNeedSlot request args)
        args.numEncoderTokens (manager.newComputedBlockList args)
        (numLocalComputedTokens request args) args.numExternalComputedTokens manager.blockPool) 0
        manager.coordinator.singleTypeManagers)
      (·.2.blockPool) (fun _ => 0) (fun _ => True) (manager.commitSlots request args) := by
  have added : Funded manager.blockPool
      (fundOf (demandFor request.requestId (manager.numTokensNeedSlot request args)
        args.numEncoderTokens (manager.newComputedBlockList args)
        (numLocalComputedTokens request args) args.numExternalComputedTokens manager.blockPool) 0
        manager.coordinator.singleTypeManagers)
      (·.blockPool)
      (fun added => fundOf (needFor request.requestId (manager.numTokensNeedSlot request args)
        args.numEncoderTokens) 0 added.singleTypeManagers)
      (fun added => AllManagers (fun _ group => group.IsAttention) 0 added.singleTypeManagers)
      (if ((manager.newComputedBlockList args).any fun blocks => blocks ≠ []) ∨
          args.numExternalComputedTokens > 0 then
        manager.coordinator.allocateNewComputedBlocks request.requestId
          (manager.newComputedBlockList args) (numLocalComputedTokens request args)
          args.numExternalComputedTokens
      else
        .ok manager.coordinator) := by
    split
    · rename_i some
      rcases ready.fresh some with ⟨unknown, within⟩
      have untracked : ¬ manager.coordinator.singleTypeManagers.any
          (·.isTracked request.requestId) = true := by
        intro tracked
        rcases List.any_eq_true.mp tracked with ⟨group, member, known⟩
        rw [(unknown group member).untracked] at known
        contradiction
      unfold allocateNewComputedBlocks
      rw [if_neg untracked]
      refine (addLocalComputedBlocks_fundedRound _ _ _ _ _ _ conserved.consistent valid
        (.of_forall 0 fun _ group member => ⟨attention group member, unknown group member⟩)).bind
        fun middle _ grown stillAttention => ?_
      split
      · exact allocateExternalComputedBlocks_fundedRound _ _ _ _ _ grown.consistent within
          stillAttention
      · exact .ok (.refl grown.consistent) (Int.le_refl _) stillAttention
    · rename_i none
      rcases not_or.mp none with ⟨noHits, noExternal⟩
      have empty : ∀ blocks ∈ manager.newComputedBlockList args, blocks = [] := by
        intro blocks member
        by_contra nonempty
        exact noHits (List.any_eq_true.mpr ⟨blocks, member, decide_eq_true nonempty⟩)
      have settled := ready.settled empty (Nat.eq_zero_of_not_pos noExternal)
      have same : fundOf (needFor request.requestId (manager.numTokensNeedSlot request args)
          args.numEncoderTokens) 0 manager.coordinator.singleTypeManagers ≤
          fundOf (demandFor request.requestId (manager.numTokensNeedSlot request args)
            args.numEncoderTokens (manager.newComputedBlockList args)
            (numLocalComputedTokens request args) args.numExternalComputedTokens
            manager.blockPool) 0 manager.coordinator.singleTypeManagers := by
        refine fundOf_mono (fun i group inOrder => ?_) (AllManagers.of_forall 0 fun _ => settled)
        exact (demandFor_eq_needFor _ _ _ _ _ _ inOrder.1 (getD_eq_nil empty i) inOrder.2).ge
      refine .ok (.refl conserved.consistent) ?_ (.of_forall 0 fun _ => attention)
      have := Int.ofNat_le.mpr same
      exact Int.add_le_add_left this _
  refine added.bind fun coordinator _ grown stillAttention => ?_
  refine (allocateNewBlocks_fundedRound _ _ _ grown.consistent _ stillAttention).bind
    fun allocated _ more _ => ?_
  exact .ok (.refl more.consistent) (Int.le_refl _) trivial

/-- A failed allocation stopped before or at the final check. -/
theorem allocateSlots_none (conserved : Conserved manager others)
    (allocated : manager.allocateSlots request args = .ok (none, manager')) :
    BeforeCheck others manager request args manager' := by
  rcases allocateSlots_cases allocated with ⟨fits, gated, checked, rest⟩
  rcases rest with ⟨_, _, rfl⟩ | ⟨_, skipped, count, predicted, removed, counted, rest⟩
  · exact beforeCheck_of_gate conserved checked
  rcases rest with ⟨_, rfl⟩ | ⟨_, _, _, _, _, impossible⟩
  · exact beforeCheck_of_prediction conserved checked removed counted
  · contradiction

/-- A successful allocation passed the check, was committed and then cached. -/
theorem allocateSlots_some (conserved : Conserved manager others)
    (allocated : manager.allocateSlots request args = .ok (some newBlocks, manager')) :
    ∃ coordinator committed,
      BeforeCheck others manager request args (manager.setCoordinator coordinator) ∧
      (manager.setCoordinator coordinator).commitSlots request args =
        .ok (newBlocks, committed) ∧ committed.cacheCommitted request args = .ok manager' := by
  rcases allocateSlots_cases allocated with ⟨fits, gated, checked, rest⟩
  rcases rest with ⟨_, impossible, _⟩ | ⟨_, skipped, count, predicted, removed, counted, rest⟩
  · contradiction
  rcases rest with ⟨impossible, _⟩ | ⟨blocks, committed, _, ran, cached, equal⟩
  · contradiction
  cases equal
  have before := beforeCheck_of_prediction conserved checked removed counted
  rcases before.same with ⟨coordinator, same⟩
  rw [same] at before ran
  exact ⟨coordinator, committed, before, ran, cached⟩

/-- Only the request is concerned, and attention groups have slots for it. -/
def ServedBy (manager : KVCacheManager H) (request : Request H) (args : AllocateSlotsArgs)
    (group group' : SingleTypeKVCacheManager H) : Prop :=
  OnlyFor request.requestId group group' ∧
    (group.IsAttention → Served request.requestId
      (tokensFor (manager.numTokensNeedSlot request args) args.numEncoderTokens group) group
      group')

omit [DecidableEq H] [BlockHashing H] in
theorem servedBy_of_prepared {first second third : SingleTypeKVCacheManager H}
    (left : Prepared request.requestId first second)
    (right : manager.ServedBy request args second third) :
    manager.ServedBy request args first third := by
  refine ⟨left.extended.1.trans right.1, fun attention => ?_⟩
  have after := right.2 (left.isAttention attention)
  unfold tokensFor at after ⊢
  rw [kvCacheSpec_of_settings left.extended.1.settings] at after
  exact left.served after

theorem cacheCommitted_servedBy {start committed : KVCacheManager H}
    (conserved : Conserved committed others)
    (served : Pointwise (fun _ => manager.ServedBy request args) 0
      start.coordinator.singleTypeManagers committed.coordinator.singleTypeManagers)
    (cached : committed.cacheCommitted request args = .ok manager') :
    Pointwise (fun _ => manager.ServedBy request args) 0 start.coordinator.singleTypeManagers
      manager'.coordinator.singleTypeManagers := by
  unfold cacheCommitted at cached
  split at cached
  · cases cached
    exact served
  · obtain ⟨stored, ran, cached⟩ := bind_eq_ok.mp cached
    cases cached
    have round := cacheBlocks_round anyPool
      (fun _ group group' => SameTables group group' ∧ OnlyFor request.requestId group group' ∧
        (group.IsAttention → group'.partialHitReqs = group.partialHitReqs))
      (fun _ _ _ _ _ _ _ _ ran => ⟨trivial, (cacheBlocks_same ran).2, cacheBlocks_onlyFor ran,
        fun attention => cacheBlocks_partialHitReqs attention ran⟩)
      conserved trivial ran
    refine served.trans round.related fun _ first second third left right => ?_
    rcases right with ⟨tables, frame, hits⟩
    refine ⟨left.1.trans frame, fun attention => ?_⟩
    have known := left.2 attention
    have spec := kvCacheSpec_of_settings known.extended.1.settings
    refine ⟨⟨known.extended.1.trans frame, ?_⟩, fun settled => ?_, fun notRing => ?_⟩
    · rw [tables.blocksOf]
      exact known.extended.2
    · rw [hits (by unfold IsAttention; rw [spec]; exact attention)]
      exact known.settled settled
    · rw [tables.blocksOf]
      exact known.slots notRing

/-- The request has been served when `allocate_slots` succeeds. -/
theorem allocateSlots_served (conserved : Conserved manager others)
    (valid : manager.HitsOfPool args)
    (allocated : manager.allocateSlots request args = .ok (some newBlocks, manager')) :
    Pointwise (fun _ => manager.ServedBy request args) 0
      manager.coordinator.singleTypeManagers manager'.coordinator.singleTypeManagers := by
  rcases allocateSlots_some conserved allocated with ⟨coordinator, committed, before, ran, cached⟩
  have start : Pointwise (fun _ => Prepared request.requestId) 0
      manager.coordinator.singleTypeManagers coordinator.singleTypeManagers :=
    before.groups.mono fun _ group group' trimmed => trimmed.prepared
  rcases commitSlots_rounds anyPool (fun _ => Prepared request.requestId)
    (fun _ group => .refl _ group) (fun _ _ _ _ left right => left.trans right)
    (fun _ _ _ _ _ _ _ _ _ ran => ⟨trivial, addLocalComputedBlocks_prepared ran⟩)
    (fun _ _ _ _ _ consistent _ ran =>
      ⟨trivial, allocateExternalComputedBlocks_prepared consistent ran⟩)
    before.conserved trivial (valid.newComputedBlockList before.setup.config) ran with
    ⟨added, last, rfl, computed, ranNew⟩
  have allocation := allocateNewBlocks_round anyPool (fun _ => manager.ServedBy request args)
    (fun _ pool group ret pool' group' consistent _ _ ran =>
      ⟨trivial, allocateNewBlocks_onlyFor consistent ran, fun attention =>
        ((allocateNewBlocks_funded consistent attention _ _).success _ ran).2.2⟩)
    computed.balanced trivial ranNew
  have prepared : Pointwise (fun _ => Prepared request.requestId) 0
      manager.coordinator.singleTypeManagers added.singleTypeManagers :=
    start.trans computed.related fun _ _ _ _ left right => left.trans right
  have served : Pointwise (fun _ => manager.ServedBy request args) 0
      manager.coordinator.singleTypeManagers last.singleTypeManagers :=
    prepared.trans allocation.related fun _ _ _ _ => servedBy_of_prepared
  have conservedNow : Conserved ((manager.setCoordinator coordinator).setCoordinator last) others :=
    allocation.balanced
  exact cacheCommitted_servedBy conservedNow served cached

end KVCacheManager

/-! ## Runs -/

/-- The books of a manager agree with the progress of all requests. -/
structure Booked (progress : RequestId → Option Progress)
    (manager : SingleTypeKVCacheManager H) : Prop where
  unknown : ∀ requestId, progress requestId = none → Unknown requestId manager
  settled : manager.IsAttention → ∀ requestId, manager.partialHitReqs.get? requestId = none
  slots : manager.IsAttention → manager.kvCacheSpec.isCrossAttention = false →
    manager.kvCacheSpec.kind ≠ .circularBuffer →
    ∀ requestId known, progress requestId = some known →
      known.slots ≤ (manager.blocksOf requestId).length * manager.blockSize

namespace Booked

variable {progress : RequestId → Option Progress} {manager manager' : SingleTypeKVCacheManager H}
  {requestId : RequestId}

/-- A call for one request, with its new progress. -/
theorem update (booked : Booked progress manager) (frame : OnlyFor requestId manager manager')
    (after : Option Progress) (unknown : after = none → Unknown requestId manager')
    (settled : manager.IsAttention → manager'.partialHitReqs.get? requestId = none)
    (slots : manager.IsAttention → manager.kvCacheSpec.isCrossAttention = false →
      manager.kvCacheSpec.kind ≠ .circularBuffer → ∀ known, after = some known →
      known.slots ≤ (manager'.blocksOf requestId).length * manager.blockSize) :
    Booked (Function.update progress requestId after) manager' := by
  have spec := kvCacheSpec_of_settings frame.settings
  have size := blockSize_of_settings frame.settings
  constructor
  · intro other none
    by_cases same : other = requestId
    · subst same
      rw [Function.update_self] at none
      exact unknown none
    · rw [Function.update_of_ne same] at none
      have before := booked.unknown other none
      refine ⟨(frame.blocksOf other same).trans before.table,
        (congrArg Option.isSome (frame.numCachedBlock other same)).trans before.untracked,
        (frame.partialHitReqs other same).trans before.settled, fun _ _ align member => ?_⟩
      rw [spec] at align
      exact before.unallocated _ _ align ((frame.allocatedBlockReqs other same).mp member)
  · intro attention other
    have before : manager.IsAttention := by
      unfold IsAttention
      rw [← spec]
      exact attention
    by_cases same : other = requestId
    · rw [same]
      exact settled before
    · rw [frame.partialHitReqs other same]
      exact booked.settled before other
  · intro attention notCross notRing other known stored
    unfold IsAttention at attention
    rw [spec] at attention notCross notRing
    rw [size]
    by_cases same : other = requestId
    · subst same
      rw [Function.update_self] at stored
      exact slots attention notCross notRing known stored
    · rw [Function.update_of_ne same] at stored
      rw [frame.blocksOf other same]
      exact booked.slots attention notCross notRing other known stored

/-- A call that leaves the progress. -/
theorem keep (booked : Booked progress manager) (frame : OnlyFor requestId manager manager')
    (unknown : progress requestId = none → Unknown requestId manager')
    (length : (manager'.blocksOf requestId).length = (manager.blocksOf requestId).length)
    (hits : manager.IsAttention → manager'.partialHitReqs = manager.partialHitReqs) :
    Booked progress manager' := by
  have updated := booked.update frame (progress requestId) unknown
    (fun attention => by rw [hits attention]; exact booked.settled attention requestId)
    (fun attention notCross notRing known stored => by
      rw [length]
      exact booked.slots attention notCross notRing requestId known stored)
  rw [Function.update_eq_self] at updated
  exact updated

theorem trimmed {inside : Nat → Prop} (booked : Booked progress manager)
    (trimmed : Trimmed requestId inside manager manager') : Booked progress manager' := by
  refine booked.keep trimmed.frame (fun none => ?_) trimmed.table.1
    (fun _ => trimmed.partialHitReqs)
  have before := booked.unknown requestId none
  refine ⟨List.eq_nil_of_length_eq_zero ?_, ?_, ?_, fun _ _ align => ?_⟩
  · rw [trimmed.table.1, before.table]
    rfl
  · exact (congrArg (fun counts : Dict RequestId Nat => counts.contains requestId)
      trimmed.numCachedBlock).trans before.untracked
  · rw [trimmed.partialHitReqs]
    exact before.settled
  · rw [kvCacheSpec_of_settings trimmed.frame.settings] at align
    rw [trimmed.allocatedBlockReqs]
    exact before.unallocated _ _ align

end Booked

namespace CacheState

open KVCacheManager KVCacheCoordinator

/-- The books of all the managers are in order. -/
def InOrder (state : CacheState H) : Prop :=
  ∀ group ∈ state.manager.coordinator.singleTypeManagers, Booked state.progress group

variable {state next : CacheState H} {request : Request H} {args : AllocateSlotsArgs}

/-- One round over the managers. -/
theorem InOrder.round (inOrder : InOrder state) (related : Pointwise (fun _ group group' =>
      Booked state.progress group → Booked next.progress group') 0
      state.manager.coordinator.singleTypeManagers
      next.manager.coordinator.singleTypeManagers) : InOrder next := by
  intro group' member
  rcases related.of_mem member with ⟨_, group, known, keeps⟩
  exact keeps (inOrder group known)

variable [DecidableEq H] [BlockHashing H]

/-- What a scheduler keeps to, beyond `KeepsReferences`.  A request without
blocks starts with no computed tokens, and its hits and external tokens fit the
model; without any of them no tokens are computed.  A request with blocks comes
without hits, and its computed tokens have slots.  Blocks are cached for such
requests only. -/
def Orderly (state : CacheState H) (call : CacheCall H) : Prop :=
  KeepsReferences state call ∧
    match call with
    | .allocateSlots request args =>
        match state.progress request.requestId with
        | none =>
            request.numComputedTokens = 0 ∧
              args.numNewComputedTokens + args.numExternalComputedTokens ≤
                state.manager.maxModelLen ∧
              ((∀ blocks ∈ args.newComputedBlocks.getD [], blocks = []) →
                args.numExternalComputedTokens = 0 → args.numNewComputedTokens = 0)
        | some known =>
            (∀ blocks ∈ args.newComputedBlocks.getD [], blocks = []) ∧
              args.numExternalComputedTokens = 0 ∧ args.numNewComputedTokens = 0 ∧
              request.numComputedTokens ≤ known.slots
    | .cacheBlocks request _ => (state.progress request.requestId).isSome
    | _ => True

instance (state : CacheState H) : DecidablePred (Orderly state)
  | .allocateSlots request args =>
      match progress : state.progress request.requestId with
      | none => decidable_of_iff
          (KeepsReferences state (.allocateSlots request args) ∧
            request.numComputedTokens = 0 ∧
              args.numNewComputedTokens + args.numExternalComputedTokens ≤
                state.manager.maxModelLen ∧
              ((∀ blocks ∈ args.newComputedBlocks.getD [], blocks = []) →
                args.numExternalComputedTokens = 0 → args.numNewComputedTokens = 0))
          (by simp only [Orderly, progress])
      | some known => decidable_of_iff
          (KeepsReferences state (.allocateSlots request args) ∧
            (∀ blocks ∈ args.newComputedBlocks.getD [], blocks = []) ∧
              args.numExternalComputedTokens = 0 ∧ args.numNewComputedTokens = 0 ∧
              request.numComputedTokens ≤ known.slots)
          (by simp only [Orderly, progress])
  | .releaseRetained blocks => inferInstanceAs (Decidable (KeepsReferences state _ ∧ True))
  | .cacheBlocks request _ =>
      inferInstanceAs (Decidable (True ∧ (state.progress request.requestId).isSome))
  | .getComputedBlocks _ => isTrue ⟨trivial, trivial⟩
  | .removeSkippedBlocks .. => isTrue ⟨trivial, trivial⟩
  | .free _ => isTrue ⟨trivial, trivial⟩
  | .takeKvCacheBlockCopies => isTrue ⟨trivial, trivial⟩
  | .evictBlocks _ => isTrue ⟨trivial, trivial⟩
  | .resetPrefixCache => isTrue ⟨trivial, trivial⟩
  | .newStepStarts => isTrue ⟨trivial, trivial⟩

theorem inOrder_allocateSlots {newBlocks : Option (List (List BlockId))}
    {manager : KVCacheManager H} (conserved : Conserved state.manager state.retained.count)
    (inOrder : InOrder state) (valid : state.manager.HitsOfPool args)
    (allocated : state.manager.allocateSlots request args = .ok (newBlocks, manager)) :
    InOrder { state with
      manager := manager
      progress :=
        if newBlocks.isSome then
          Function.update state.progress request.requestId
            (some (advance state.manager request args (state.progress request.requestId)))
        else
          state.progress } := by
  refine inOrder.round ?_
  cases newBlocks with
  | none =>
      exact (allocateSlots_none conserved allocated).groups.mono
        fun _ group group' trimmed booked => booked.trimmed trimmed
  | some blocks =>
      refine (allocateSlots_served conserved valid allocated).mono
        fun _ group group' served booked => ?_
      refine booked.update served.1 _ (fun impossible => by contradiction)
        (fun attention => (served.2 attention).settled fun _ => booked.settled attention _)
        (fun attention notCross notRing known stored => ?_)
      cases stored
      have after := served.2 attention
      have needed := after.slots notRing
      have plain : tokensFor (state.manager.numTokensNeedSlot request args)
          args.numEncoderTokens group = state.manager.numTokensNeedSlot request args := by
        unfold tokensFor
        rw [notCross]
        rfl
      rw [plain] at needed
      have enough : state.manager.numTokensNeedSlot request args ≤
          (group'.blocksOf request.requestId).length * group.blockSize :=
        (le_cdiv_mul group.blockSize_pos _).trans (Nat.mul_le_mul_right _ needed)
      refine max_le ?_ enough
      cases before : state.progress request.requestId with
      | none => exact Nat.zero_le _
      | some known =>
          exact (booked.slots attention notCross notRing _ known before).trans
            (Nat.mul_le_mul_right _ after.extended.2)

theorem inOrder_step {call : CacheCall H} (conserved : Conserved state.manager state.retained.count)
    (inOrder : InOrder state) (permitted : Orderly state call)
    (ran : state.execute call = .ok next) :
    InOrder next := by
  cases call with
  | getComputedBlocks request =>
      obtain ⟨⟨hits, manager⟩, computed, ran⟩ := bind_eq_ok.mp ran
      cases ran
      rcases getComputedBlocks_sameRefs computed with ⟨pool, _, rfl⟩
      exact inOrder
  | allocateSlots request args =>
      obtain ⟨⟨newBlocks, manager⟩, allocated, ran⟩ := bind_eq_ok.mp ran
      cases ran
      exact inOrder_allocateSlots conserved inOrder permitted.1 allocated
  | removeSkippedBlocks requestId processed numPromptTokens =>
      obtain ⟨manager, removed, ran⟩ := bind_eq_ok.mp ran
      cases ran
      obtain ⟨coordinator, released, removed⟩ := bind_eq_ok.mp removed
      cases removed
      have round := removeSkippedBlocks_round anyPool
        (fun _ group group' =>
          Trimmed requestId (group.skipsBlock processed numPromptTokens) group group')
        (fun _ _ _ _ _ _ _ released => ⟨trivial, released.toTrimmed⟩) conserved trivial released
      exact inOrder.round (round.related.mono fun _ group group' trimmed booked =>
        booked.trimmed trimmed)
  | cacheBlocks request numComputedTokens =>
      obtain ⟨manager, cached, ran⟩ := bind_eq_ok.mp ran
      cases ran
      unfold KVCacheManager.cacheBlocks at cached
      split at cached
      · obtain ⟨coordinator, stored, cached⟩ := bind_eq_ok.mp cached
        cases cached
        have round := cacheBlocks_round anyPool
          (fun _ group group' => SameTables group group' ∧
            OnlyFor request.requestId group group' ∧
            (group.IsAttention → group'.partialHitReqs = group.partialHitReqs))
          (fun _ _ _ _ _ _ _ _ ran => ⟨trivial, (cacheBlocks_same ran).2,
            cacheBlocks_onlyFor ran, fun attention => cacheBlocks_partialHitReqs attention ran⟩)
          conserved trivial stored
        refine inOrder.round (round.related.mono fun _ group group' known booked => ?_)
        rcases known with ⟨tables, frame, hits⟩
        refine booked.keep frame (fun none => ?_) (by rw [tables.blocksOf]) hits
        have holds := permitted.2
        simp only [none] at holds
        contradiction
      · cases cached
        exact inOrder
  | free request =>
      obtain ⟨manager, freed, ran⟩ := bind_eq_ok.mp ran
      cases ran
      obtain ⟨coordinator, released, freed⟩ := bind_eq_ok.mp freed
      cases freed
      have round := free_round anyPool
        (fun _ group group' => OnlyFor request.requestId group group' ∧
          Unknown request.requestId group')
        (fun _ _ _ _ _ _ _ _ ran => ⟨trivial, free_onlyFor ran, free_unknown ran⟩)
        conserved trivial released
      refine inOrder.round (round.related.mono fun _ group group' known booked => ?_)
      exact booked.update known.1 none (fun _ => known.2) (fun _ => known.2.settled)
        (fun _ _ _ _ impossible => by contradiction)
  | takeKvCacheBlockCopies =>
      cases ran
      intro group' member
      rcases List.mem_map.mp member with ⟨group, known, rfl⟩
      have booked := inOrder group known
      refine ⟨fun requestId none => ?_, booked.settled, booked.slots⟩
      have before := booked.unknown requestId none
      exact ⟨before.table, before.untracked, before.settled, before.unallocated⟩
  | releaseRetained blocks =>
      obtain ⟨pool, freed, ran⟩ := bind_eq_ok.mp ran
      cases ran
      exact inOrder
  | evictBlocks blockIds =>
      obtain ⟨manager, evicted, ran⟩ := bind_eq_ok.mp ran
      cases ran
      obtain ⟨pool, removed, evicted⟩ := bind_eq_ok.mp evicted
      cases evicted
      exact inOrder
  | resetPrefixCache =>
      cases ran
      exact inOrder
  | newStepStarts =>
      cases ran
      intro group' member
      rcases List.mem_map.mp member with ⟨group, known, rfl⟩
      have booked := inOrder group known
      unfold SingleTypeKVCacheManager.newStepStarts
      split
      · refine ⟨fun requestId none => ?_, booked.settled, booked.slots⟩
        have before := booked.unknown requestId none
        exact ⟨before.table, before.untracked, before.settled, before.unallocated⟩
      · exact booked

/-- The books are in order in every state of an orderly run. -/
theorem reachable_inOrder (reached : Reachable (system Orderly) state) : InOrder state := by
  have both : Conserved state.manager state.retained.count ∧ InOrder state := by
    apply reached.invariant
    · rintro start ⟨retained, noProgress, config, _, _, _, _, _, _, _, _, _, _, started⟩
      have conserved := conserved_of_init started
      refine ⟨⟨conserved.consistent, fun block nonNull => ?_⟩, fun group member => ?_⟩
      · rw [retained, List.count_nil]
        exact conserved.refCnt block nonNull
      · rw [← (init_fresh started).2 group member, noProgress]
        exact ⟨fun _ _ => ⟨rfl, rfl, rfl, fun _ _ _ => List.not_mem_nil⟩, fun _ _ => rfl,
          fun _ _ _ _ _ impossible => by contradiction⟩
    · rintro state next ⟨conserved, inOrder⟩ ⟨call, permitted, ran⟩
      exact ⟨conserved_step conserved permitted.1 ran, inOrder_step conserved inOrder permitted ran⟩
  exact both.2

section

omit [DecidableEq H] [BlockHashing H]

/-- No hits given, or only empty lists. -/
theorem newComputedBlockList_eq_nil {manager : KVCacheManager H} {args : AllocateSlotsArgs}
    (empty : ∀ blocks ∈ args.newComputedBlocks.getD [], blocks = []) :
    ∀ blocks ∈ manager.newComputedBlockList args, blocks = [] := by
  unfold newComputedBlockList
  cases hits : args.newComputedBlocks with
  | none =>
      intro blocks member
      rcases List.mem_map.mp member with ⟨_, _, rfl⟩
      rfl
  | some lists =>
      rw [hits] at empty
      exact empty

/-- Slots for the computed tokens of a fresh request are among the needed ones. -/
theorem computed_le_numTokensNeedSlot {manager : KVCacheManager H}
    (within : numLocalComputedTokens request args + args.numExternalComputedTokens ≤
      manager.maxModelLen) :
    numLocalComputedTokens request args + args.numExternalComputedTokens ≤
      manager.numTokensNeedSlot request args := by
  unfold numTokensNeedSlot numTokensMainModel totalComputedTokens
  omega

theorem isAttention_of_settings {managers managers' : List (SingleTypeKVCacheManager H)}
    (same : managers'.map settings = managers.map settings)
    (attention : ∀ group ∈ managers, group.IsAttention) :
    ∀ group ∈ managers', group.IsAttention := by
  intro group' member
  have listed : group'.settings ∈ managers.map settings := by
    rw [← same]
    exact List.mem_map_of_mem member
  rcases List.mem_map.mp listed with ⟨group, known, equal⟩
  unfold IsAttention
  rw [← kvCacheSpec_of_settings equal]
  exact attention group known

/-- The canonical empty instance reads like any other list of empty hits. -/
theorem newComputedBlockList_getD (first second : KVCacheManager H) (args : AllocateSlotsArgs)
    (i : Nat) :
    (first.newComputedBlockList args).getD i [] = (second.newComputedBlockList args).getD i [] := by
  unfold newComputedBlockList
  cases args.newComputedBlocks with
  | none =>
      have empty : ∀ manager : KVCacheManager H, manager.emptyKvCacheBlocks.getD i [] = [] := by
        intro manager
        apply getD_eq_nil
        intro blocks member
        rcases List.mem_map.mp member with ⟨_, _, rfl⟩
        rfl
      exact (empty first).trans (empty second).symm
  | some lists => rfl

theorem demandFor_congr (requestId : RequestId) (numTokens numEncoderTokens numLocal
    numExternal : Nat) {hits hits' : List (List BlockId)}
    (same : ∀ i, hits.getD i [] = hits'.getD i []) :
    demandFor (H := H) requestId numTokens numEncoderTokens hits numLocal numExternal =
      demandFor requestId numTokens numEncoderTokens hits' numLocal numExternal := by
  funext pool i manager
  unfold demandFor
  rw [same]

/-- Orderly books are ready for the allocation. -/
theorem ready_of_booked {checked : KVCacheManager H}
    (permitted : Orderly state (.allocateSlots request args))
    (sameLen : checked.maxModelLen = state.manager.maxModelLen)
    (attention : ∀ group ∈ checked.coordinator.singleTypeManagers, group.IsAttention)
    (booked : ∀ group ∈ checked.coordinator.singleTypeManagers, Booked state.progress group) :
    checked.Ready request args := by
  have promise := permitted.2
  dsimp only at promise
  cases progress : state.progress request.requestId with
  | none =>
      rw [progress] at promise
      rcases promise with ⟨zero, within, none⟩
      have total : numLocalComputedTokens request args = args.numNewComputedTokens := by
        unfold numLocalComputedTokens
        omega
      constructor
      · intro _
        refine ⟨fun group member => (booked group member).unknown _ progress,
          computed_le_numTokensNeedSlot ?_⟩
        rw [total, sameLen]
        exact within
      · intro noHits noExternal group member
        refine ⟨(booked group member).settled (attention group member) _, fun _ _ _ => ?_⟩
        have empty : ∀ blocks ∈ args.newComputedBlocks.getD [], blocks = [] := by
          unfold newComputedBlockList at noHits
          cases hits : args.newComputedBlocks with
          | none => exact fun _ impossible => by contradiction
          | some lists =>
              rw [hits] at noHits
              exact noHits
        have bound := group.getNumSkippedBlocks_mul_le
          (numLocalComputedTokens request args + args.numExternalComputedTokens)
        rw [total, none empty noExternal, noExternal] at bound ⊢
        have positive := group.blockSize_pos
        rcases Nat.mul_eq_zero.mp (Nat.le_zero.mp bound) with zeroBlocks | impossible
        · rw [zeroBlocks]
          exact Nat.zero_le _
        · omega
  | some known =>
      rw [progress] at promise
      rcases promise with ⟨empty, noExternal, noHits, within⟩
      have hits := @newComputedBlockList_eq_nil _ checked _ empty
      constructor
      · rintro (some | some)
        · rcases List.any_eq_true.mp some with ⟨blocks, member, nonempty⟩
          exact absurd (hits blocks member) (of_decide_eq_true nonempty)
        · omega
      · intro _ _ group member
        have isAttention := attention group member
        refine ⟨(booked group member).settled isAttention _, fun notCross notRing _ => ?_⟩
        have slots := (booked group member).slots isAttention notCross notRing _ known progress
        have bound := group.getNumSkippedBlocks_mul_le
          (numLocalComputedTokens request args + args.numExternalComputedTokens)
        have local' : numLocalComputedTokens request args + args.numExternalComputedTokens =
            request.numComputedTokens := by
          unfold numLocalComputedTokens
          omega
        rw [local'] at bound ⊢
        exact Nat.le_of_mul_le_mul_right (bound.trans (within.trans slots)) group.blockSize_pos

end

/-- Admission soundness for attention groups.  Once the prediction `count` has
passed the final check, the add and allocate calls never raise for lack of free
blocks and take at most `count` blocks from the free queue.  An allocation that
gives up has referenced no block and added no table entry: tables keep their
length, and only entries of skipped blocks became null. -/
theorem reachable_admission {state : CacheState H} (reached : Reachable (system Orderly) state)
    (attention : ∀ group ∈ state.manager.coordinator.singleTypeManagers, group.IsAttention)
    {request : Request H} {args : AllocateSlotsArgs}
    (permitted : Orderly state (.allocateSlots request args)) :
    (∀ count checked, state.manager.PassesCheck request args count checked →
      (∀ failure, checked.commitSlots request args = .error failure → ¬ OutOfBlocks failure) ∧
      ∀ newBlocks after, checked.commitSlots request args = .ok (newBlocks, after) →
        checked.blockPool.getNumFreeBlocks - after.blockPool.getNumFreeBlocks ≤ count) ∧
    ∀ after, state.manager.allocateSlots request args = .ok (none, after) →
      (∀ block, (after.blockPool.blocks block).refCnt ≤
        (state.manager.blockPool.blocks block).refCnt) ∧
      Pointwise (fun _ group group' =>
          (∀ requestId, requestId ≠ request.requestId →
            group'.blocksOf requestId = group.blocksOf requestId) ∧
          Nulled (state.manager.skippedFor request args group)
            (group.blocksOf request.requestId) (group'.blocksOf request.requestId))
        0 state.manager.coordinator.singleTypeManagers after.coordinator.singleTypeManagers := by
  have conserved := reachable_conserved (reachable_mono (fun _ _ => And.left) reached)
  have inOrder := reachable_inOrder reached
  constructor
  · rintro count checked ⟨gated, skipped, predicted, gate, removed, counted, rfl, passed⟩
    have before := beforeCheck_of_prediction conserved gate removed counted
    rcases before.same with ⟨coordinator, same⟩
    have booked : ∀ group ∈ (gated.setCoordinator predicted).coordinator.singleTypeManagers,
        Booked state.progress group := by
      intro group' member
      rcases before.groups.of_mem member with ⟨_, group, known, trimmed⟩
      exact (inOrder group known).trimmed trimmed
    have gateSetup := beforeCheck_of_gate conserved gate
    have release := removeSkippedBlocks_round anyPool anyChange
      (fun _ _ _ _ _ _ _ _ => ⟨trivial, trivial⟩) gateSetup.conserved trivial removed
    have stillAttention := isAttention_of_settings
      (release.setup.settings.trans gateSetup.setup.settings) attention
    rcases getNumBlocksToAllocate_eq_demand _ _ _ _ _ _ stillAttention counted with ⟨rfl, total⟩
    have ready : (gated.setCoordinator predicted).Ready request args :=
      ready_of_booked permitted (by rw [same]; rfl) stillAttention booked
    have funded := commitSlots_funded before.conserved stillAttention
      (permitted.1.newComputedBlockList before.setup.config) ready
    rw [demandFor_congr _ _ _ _ _ (newComputedBlockList_getD _ gated args)] at funded
    suffices ∀ fund : Nat, count = fund →
        Funded (gated.setCoordinator predicted).blockPool fund (·.2.blockPool) (fun _ => 0)
          (fun _ => True) ((gated.setCoordinator predicted).commitSlots request args) →
        _ from this _ total funded
    intro fund isFund funded
    constructor
    · intro failure raised
      refine funded.failure failure raised ?_
      omega
    · intro newBlocks after ran
      have paid := (funded.success (newBlocks, after) ran).2.1
      dsimp only at paid
      omega
  · intro after allocated
    have before := allocateSlots_none conserved allocated
    exact ⟨before.refCnt, before.groups.mono fun _ group group' trimmed =>
      ⟨trimmed.frame.blocksOf, trimmed.table⟩⟩

/-- A request revives the freed blocks of another one in a full-attention and a
sliding-window group. -/
theorem reachable_admission_revived :
    ∃ (state : CacheState SymbolicHash) (request : Request SymbolicHash)
      (args : AllocateSlotsArgs) (count : Int) (checked after : KVCacheManager SymbolicHash)
      (newBlocks : List (List BlockId)),
      Reachable (system Orderly) state ∧
      (∀ group ∈ state.manager.coordinator.singleTypeManagers, group.IsAttention) ∧
      Orderly state (.allocateSlots request args) ∧
      state.manager.PassesCheck request args count checked ∧
      checked.commitSlots request args = .ok (newBlocks, after) ∧
      checked.blockPool.getNumFreeBlocks - after.blockPool.getNumFreeBlocks ≤ count := by
  let config : KVCacheConfig :=
    { numBlocks := 12
      kvCacheGroups :=
        [{ kvCacheSpec := { blockSize := 4, kind := .fullAttention } },
          { kvCacheSpec := { blockSize := 4, kind := .slidingWindow 6 0 } }] }
  let first : Request SymbolicHash := Request.updateBlockHashes (some 4)
    { requestId := "first", allTokenIds := [1, 2, 3, 4, 5, 6, 7, 8, 9], numPromptTokens := 9 }
  let second : Request SymbolicHash := Request.updateBlockHashes (some 4)
    { requestId := "second", allTokenIds := [1, 2, 3, 4, 5, 6, 7, 8, 10], numPromptTokens := 9 }
  let args : AllocateSlotsArgs :=
    { numNewTokens := 1, numNewComputedTokens := 8, newComputedBlocks := some [[1, 2], [4, 5]] }
  let calls : List (CacheCall SymbolicHash) :=
    [.allocateSlots first { numNewTokens := 9 }, .free first, .getComputedBlocks second]
  have computed : (replayCalls Orderly config 100 4 4 calls).map
      (fun state => decide (
        (∀ group ∈ state.manager.coordinator.singleTypeManagers,
          group.kvCacheSpec.isMamba = false) ∧
        Orderly state (.allocateSlots second args) ∧
        (state.manager.allocateSlots second args).toOption.any (·.1.isSome) = true)) =
        some true := by
    decide +kernel
  rcases Option.map_eq_some_iff.mp computed with ⟨state, replayed, holds⟩
  rcases of_decide_eq_true holds with ⟨attention, permitted, succeeds⟩
  have reached := replayCalls_reachable replayed
  cases allocated : state.manager.allocateSlots second args with
  | error failure => simp [allocated, Except.toOption] at succeeds
  | ok result =>
      rcases result with ⟨none | newBlocks, manager'⟩
      · simp [allocated, Except.toOption] at succeeds
      · rcases passesCheck_of_allocateSlots allocated with ⟨count, checked, after, passed, ran⟩
        refine ⟨state, second, args, count, checked, after, newBlocks, reached, attention,
          permitted, passed, ran, ?_⟩
        exact ((reachable_admission reached attention permitted).1 count checked passed).2
          newBlocks after ran

end CacheState

end Vllm.Core
