import Vllm.Core.HybridLayout
import Vllm.Core.HybridRounds

/-!
# Soundness of hybrid cache hits

The search of the hybrid coordinator, from the first candidate to the returned blocks.
The lookup of chunked local attention has guards of its own and raises outside them;
within them the search ends with a valid hit for every group.  The early exit for one
full-attention group and one other takes the second group at its first answer, so it
relies on that group finding the answer again.
-/

namespace Vllm.Core

namespace KVCacheCoordinator

variable {H : Type} [DecidableEq H] {coordinator : KVCacheCoordinator H} {blockHashes : List H}
  {maxCacheHitLength : Nat}

/-- `find_longest_cache_hit` with its fixpoint run to convergence. -/
def findLongestCacheHitConverged (coordinator : KVCacheCoordinator H) (blockHashes : List H)
    (maxCacheHitLength : Nat) : Except PyError (List (List BlockId) × Nat × Nat) := do
  let (hitLength, search) ← coordinator.convergeRounds blockHashes maxCacheHitLength
    (maxCacheHitLength + 1) maxCacheHitLength (coordinator.initialSearch maxCacheHitLength)
  pure (coordinator.truncateHits hitLength search.hitBlocksByGroup, hitLength,
    search.longestHitLength - hitLength)

/-- The loop has ended: more rounds give the same result. -/
def Ends (coordinator : KVCacheCoordinator H) (blockHashes : List H)
    (maxCacheHitLength : Nat) : Prop :=
  ∀ extra, coordinator.searchRounds blockHashes maxCacheHitLength (maxCacheHitLength + 1 + extra)
      maxCacheHitLength (coordinator.initialSearch maxCacheHitLength) =
    coordinator.searchRounds blockHashes maxCacheHitLength (maxCacheHitLength + 1)
      maxCacheHitLength (coordinator.initialSearch maxCacheHitLength)

/-- Every KV cache group that takes part has a valid hit of `length` tokens. -/
def ValidHits (coordinator : KVCacheCoordinator H) (blockHashes : List H) (length : Nat)
    (blocks : List (List BlockId)) : Prop :=
  ∀ group ∈ coordinator.attentionGroups, ∀ groupId ∈ group.groupIds,
    ∃ hits, blocks[groupId]? = some hits ∧
      coordinator.ValidHit blockHashes group groupId length hits

theorem between_initialSearch :
    coordinator.Between blockHashes maxCacheHitLength maxCacheHitLength
      (coordinator.initialSearch maxCacheHitLength) where
  sized := initialSearch_sized
  within := Nat.le_refl _
  awaits := fun group _ _ => .inl (initialSearch_unplaced group)
  aligned := .inr fun group _ _ => initialSearch_unplaced group

theorem findLongestCacheHit_eq (hybrid : coordinator.kind = .hybrid) :
    coordinator.findLongestCacheHit blockHashes maxCacheHitLength = (do
      let (hitLength, search) ← coordinator.searchRounds blockHashes maxCacheHitLength
        (maxCacheHitLength + 1) maxCacheHitLength (coordinator.initialSearch maxCacheHitLength)
      pure (coordinator.truncateHits hitLength search.hitBlocksByGroup, hitLength,
        search.longestHitLength - hitLength)) := by
  rw [findLongestCacheHit]
  simp only [hybrid]
  rfl

/-- A chunked-local group outside its guards makes the lookup raise. -/
theorem findLongestCacheHit_error (hybrid : coordinator.kind = .hybrid)
    (layout : coordinator.SearchLayout)
    (attention : ∀ group ∈ coordinator.attentionGroups, group.spec.isCrossAttention = false)
    (reaches : maxCacheHitLength / coordinator.hashBlockSize ≤ blockHashes.length)
    (unguarded : ∃ group ∈ coordinator.attentionGroups, ¬ coordinator.Guarded group) :
    coordinator.findLongestCacheHit blockHashes maxCacheHitLength = .error .assertionError := by
  have sized : coordinator.Sized { coordinator.initialSearch maxCacheHitLength with
      currHitLength := maxCacheHitLength } :=
    ⟨initialSearch_sized.blocks, initialSearch_sized.lengths⟩
  have failed := searchRound_error layout attention reaches
    (show coordinator.attentionGroups = [] ++ coordinator.attentionGroups from rfl) sized
    (Nat.le_refl _) (fun idx member => absurd member List.not_mem_nil) unguarded
  rw [List.length_nil] at failed
  rw [findLongestCacheHit_eq hybrid, searchRounds, failed]
  rfl

/-- The lookup raises exactly where a chunked-local group is outside its guards; elsewhere
it ends with an aligned length within the maximum, its hits are valid, and the early
exit agrees with the converged search, where the early exit finds steady sizes. -/
theorem findLongestCacheHit_sound (hybrid : coordinator.kind = .hybrid)
    (layout : coordinator.SearchLayout)
    (attention : ∀ group ∈ coordinator.attentionGroups, group.spec.isCrossAttention = false)
    (reaches : maxCacheHitLength / coordinator.hashBlockSize ≤ blockHashes.length) :
    ((∃ group ∈ coordinator.attentionGroups, ¬ coordinator.Guarded group) →
      coordinator.findLongestCacheHit blockHashes maxCacheHitLength = .error .assertionError) ∧
    ((∀ group ∈ coordinator.attentionGroups, coordinator.Guarded group) →
      ∃ blocks length uncached, coordinator.findLongestCacheHit blockHashes maxCacheHitLength =
            .ok (blocks, length, uncached) ∧
          coordinator.Ends blockHashes maxCacheHitLength ∧ length ≤ maxCacheHitLength ∧
          coordinator.cacheHitAlignmentTokens ∣ length ∧
          (coordinator.ExitsSteadily → coordinator.ValidHits blockHashes length blocks) ∧
          ((coordinator.isSimpleHybrid = true →
              ∀ group ∈ coordinator.attentionGroups, coordinator.FindsAgain group) →
            coordinator.findLongestCacheHitConverged blockHashes maxCacheHitLength =
              coordinator.findLongestCacheHit blockHashes maxCacheHitLength)) := by
  constructor
  · exact findLongestCacheHit_error hybrid layout attention reaches
  · intro guarded
    rw [findLongestCacheHit_eq hybrid]
    rcases searchRounds_lastRound layout guarded reaches (Nat.lt_succ_self maxCacheHitLength)
      between_initialSearch with ⟨start, final, le, last, result⟩
    have ended := result 0
    refine ⟨coordinator.truncateHits final.currHitLength final.hitBlocksByGroup,
      final.currHitLength, final.longestHitLength - final.currHitLength, ?_, ?_,
      last.done.lower.trans le, last.done.aligned, ?_, ?_⟩
    · rw [ended]
      rfl
    · intro extra
      rw [result extra, ended]
    · intro steady group member groupId inGroup
      exact last.validHit layout steady member inGroup
    · intro finds
      rw [findLongestCacheHitConverged, convergeRounds_eq layout guarded reaches finds]

/-! ## Two groups over a given cache -/

/-- A hybrid coordinator of two groups whose pool has the given cache entries. -/
def pairCoordinator (first second : KVCacheGroupSpec) (schedulerBlockSize : Nat)
    (entries : List (BlockHashWithGroupId Nat × BlockId)) :
    Except PyError (KVCacheCoordinator Nat) := do
  let coordinator ← getKvCacheCoordinator { numBlocks := 16, kvCacheGroups := [first, second] }
    64 64 false true false 1 schedulerBlockSize 4 0
  pure { coordinator with blockPool := { coordinator.blockPool with
    cachedBlockHashToBlock :=
      entries.foldl (fun map (key, block) => map.insert key block) .empty } }

variable {entries : List (BlockHashWithGroupId Nat × BlockId)}

variable {first second : KVCacheGroupSpec} {schedulerBlockSize : Nat}

theorem pairCoordinator_searchLayout {coordinator : KVCacheCoordinator Nat}
    (created : pairCoordinator first second schedulerBlockSize entries = .ok coordinator)
    (positive : 0 < schedulerBlockSize) (sizes : first.kvCacheSpec.blockSize ∣ schedulerBlockSize ∧
      second.kvCacheSpec.blockSize ∣ schedulerBlockSize) :
    coordinator.kind = .hybrid ∧ coordinator.SearchLayout := by
  rcases bind_eq_ok.mp created with ⟨base, based, filled⟩
  cases filled
  have hybrid : base.kind = .hybrid := by
    rcases bind_eq_ok.mp based with ⟨_, first, later⟩
    have kind := (baseInit_set first).2
    rcases bind_eq_ok.mp later with ⟨_, _, later⟩
    rcases bind_eq_ok.mp later with ⟨_, _, later⟩
    rcases bind_eq_ok.mp later with ⟨_, _, later⟩
    cases later
    exact kind
  refine ⟨hybrid, (getKvCacheCoordinator_searchLayout based hybrid (by decide) positive ?_).sameSetup
    ⟨⟨rfl, rfl, rfl, rfl⟩, rfl, rfl⟩⟩
  intro group member
  simp only [List.mem_pair] at member
  rw [effectiveBlockSize, show dcpWorldSizeForKvCacheSpec group.kvCacheSpec 1 = 1 from rfl,
    Nat.mul_one]
  rcases member with rfl | rfl
  · exact sizes.1
  · exact sizes.2

/-- What is read off a coordinator of two groups. -/
theorem pairCoordinator_reads {α : Type} {coordinator : KVCacheCoordinator Nat}
    (reading : KVCacheCoordinator Nat → α) {value : α}
    (created : pairCoordinator first second schedulerBlockSize entries = .ok coordinator)
    (read : (pairCoordinator first second schedulerBlockSize entries).map reading = .ok value) :
    reading coordinator = value := by
  rw [created] at read
  exact Except.ok.inj read

/-- A sliding window beside full attention: the window of the answer is cached. -/
theorem findLongestCacheHit_sound_window :
    ∃ coordinator blocks uncached,
      pairCoordinator { kvCacheSpec := { blockSize := 4, kind := .fullAttention } }
        { kvCacheSpec := { blockSize := 4, kind := .slidingWindow 5 0 } } 4
        [(⟨10, 0⟩, 1), (⟨11, 0⟩, 2), (⟨12, 0⟩, 3), (⟨11, 1⟩, 4)] = .ok coordinator ∧
      coordinator.findLongestCacheHit [10, 11, 12] 12 = .ok (blocks, 8, uncached) ∧
      coordinator.ValidHits [10, 11, 12] 8 blocks ∧
      coordinator.findLongestCacheHitConverged [10, 11, 12] 12 =
        coordinator.findLongestCacheHit [10, 11, 12] 12 := by
  rcases (⟨_, rfl⟩ : ∃ coordinator, pairCoordinator
    { kvCacheSpec := { blockSize := 4, kind := .fullAttention } }
    { kvCacheSpec := { blockSize := 4, kind := .slidingWindow 5 0 } } 4
    [(⟨10, 0⟩, 1), (⟨11, 0⟩, 2), (⟨12, 0⟩, 3), (⟨11, 1⟩, 4)] = .ok coordinator) with
    ⟨coordinator, created⟩
  rcases pairCoordinator_searchLayout created (by decide) ⟨by decide, by decide⟩ with
    ⟨hybrid, layout⟩
  have groups : coordinator.attentionGroups =
      [⟨{ blockSize := 4, kind := .fullAttention }, [0], false⟩,
        ⟨{ blockSize := 4, kind := .slidingWindow 5 0 }, [1], false⟩] :=
    pairCoordinator_reads (·.attentionGroups) created rfl
  have hash : coordinator.hashBlockSize = 4 :=
    pairCoordinator_reads (·.hashBlockSize) created rfl
  have answered : (coordinator.findLongestCacheHit [10, 11, 12] 12).map (·.2.1) = .ok 8 :=
    pairCoordinator_reads
      (fun c => (c.findLongestCacheHit [10, 11, 12] 12).map (·.2.1)) created rfl
  have plain (group : SpecGroup) (member : group ∈ coordinator.attentionGroups) :
      group.spec.isCrossAttention = false ∧ coordinator.Guarded group ∧
        coordinator.FindsAgain group := by
    rw [groups] at member
    rcases List.mem_pair.mp member with rfl | rfl
    · exact ⟨rfl, trivial, trivial, nofun⟩
    · exact ⟨rfl, trivial, trivial, nofun⟩
  rcases (@findLongestCacheHit_sound _ _ _ [10, 11, 12] 12 hybrid layout
    (fun group member => (plain group member).1) (by rw [hash]; decide)).2
    (fun group member => (plain group member).2.1) with
    ⟨blocks, length, uncached, found, _, _, _, valid, converged⟩
  have length_eq : length = 8 := by
    rw [found] at answered
    exact Except.ok.inj answered
  subst length_eq
  exact ⟨coordinator, blocks, uncached, created, found,
    valid fun _ group member => (plain group member).2.2.1,
    converged fun _ group member => (plain group member).2.2⟩

/-- The early exit takes the chunked-local group at its first answer, although the query
after four tokens reads a block that is not cached; and a chunked-local group with
another block size than the alignment raises. -/
theorem hybrid_hit_unread :
    (∃ coordinator, pairCoordinator { kvCacheSpec := { blockSize := 4, kind := .fullAttention } }
        { kvCacheSpec := { blockSize := 4, kind := .chunkedLocalAttention 6 } } 4
        [(⟨10, 0⟩, 1), (⟨11, 0⟩, 2)] = .ok coordinator ∧
      coordinator.SearchLayout ∧
      coordinator.findLongestCacheHit [10, 11] 8 = .ok ([[1], [0]], 4, 4) ∧
      ¬ coordinator.ValidHits [10, 11] 4 [[1], [0]] ∧
      coordinator.findLongestCacheHitConverged [10, 11] 8 = .ok ([[], []], 0, 8)) ∧
    ∃ coordinator, pairCoordinator { kvCacheSpec := { blockSize := 4, kind := .fullAttention } }
        { kvCacheSpec := { blockSize := 4, kind := .chunkedLocalAttention 8 } } 8
        [(⟨10, 0⟩, 1), (⟨11, 0⟩, 2)] = .ok coordinator ∧
      coordinator.SearchLayout ∧
      coordinator.findLongestCacheHit [10, 11] 8 = .error .assertionError := by
  constructor
  · rcases (⟨_, rfl⟩ : ∃ coordinator, pairCoordinator
      { kvCacheSpec := { blockSize := 4, kind := .fullAttention } }
      { kvCacheSpec := { blockSize := 4, kind := .chunkedLocalAttention 6 } } 4
      [(⟨10, 0⟩, 1), (⟨11, 0⟩, 2)] = .ok coordinator) with ⟨coordinator, created⟩
    have groups : coordinator.attentionGroups =
        [⟨{ blockSize := 4, kind := .fullAttention }, [0], false⟩,
          ⟨{ blockSize := 4, kind := .chunkedLocalAttention 6 }, [1], false⟩] :=
      pairCoordinator_reads (·.attentionGroups) created rfl
    have blockSize : coordinator.groupBlockSize
        ⟨{ blockSize := 4, kind := .chunkedLocalAttention 6 }, [1], false⟩ = 4 :=
      pairCoordinator_reads (fun c => c.groupBlockSize _) created rfl
    have looked : coordinator.blockPool.cachedBlockHashToBlock.getOneBlock ⟨10, 1⟩ = none :=
      pairCoordinator_reads
        (fun c => c.blockPool.cachedBlockHashToBlock.getOneBlock ⟨10, 1⟩) created rfl
    have hash : coordinator.blockPool.hashBlockSize = 4 :=
      pairCoordinator_reads (·.blockPool.hashBlockSize) created rfl
    refine ⟨coordinator, created,
      (pairCoordinator_searchLayout created (by decide) ⟨by decide, by decide⟩).2,
      pairCoordinator_reads (fun c => c.findLongestCacheHit [10, 11] 8) created rfl, ?_,
      pairCoordinator_reads (fun c => c.findLongestCacheHitConverged [10, 11] 8)
        created rfl⟩
    have member : SpecGroup.mk { blockSize := 4, kind := .chunkedLocalAttention 6 } [1] false ∈
        coordinator.attentionGroups := by
      rw [groups]
      exact List.mem_of_mem_tail List.mem_cons_self
    intro valid
    rcases valid _ member 1 List.mem_cons_self with ⟨hits, stored, hit⟩
    cases stored
    rcases hit.cached 0 0 rfl 
      (by rw [blockSize]; exact (by decide : 4 / 6 * 6 < (0 + 1) * 4)) with
      ⟨numTokens, blockHash, _, covers, hashed, cached⟩
    rw [blockSize] at covers
    have reached : numTokens = 4 := Nat.le_antisymm covers.ends covers.reaches
    rw [prefixHash, hash, reached] at hashed
    cases hashed
    rw [makeBlockHashWithGroupId, looked] at cached
    cases cached
  · rcases (⟨_, rfl⟩ : ∃ coordinator, pairCoordinator
      { kvCacheSpec := { blockSize := 4, kind := .fullAttention } }
      { kvCacheSpec := { blockSize := 4, kind := .chunkedLocalAttention 8 } } 8
      [(⟨10, 0⟩, 1), (⟨11, 0⟩, 2)] = .ok coordinator) with ⟨coordinator, created⟩
    exact ⟨coordinator, created,
      (pairCoordinator_searchLayout created (by decide) ⟨by decide, by decide⟩).2,
      pairCoordinator_reads (fun c => c.findLongestCacheHit [10, 11] 8) created rfl⟩

end KVCacheCoordinator

end Vllm.Core
