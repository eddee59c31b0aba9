import Vllm.Core.BlockPoolHashes
import Vllm.Library.Transition

/-!
# Runs of the block pool

The calls that the KV cache managers make on a pool, as one transition system.
The ghost `held` counts the references that the callers hold; it only restricts
which calls are made.  A call that raises has no successor.
-/

namespace Vllm.Core.BlockPool

open Vllm.Library

/-- The calls on a pool. -/
inductive Call (H : Type) where
  | getNewBlocks (numBlocks : Nat)
  | touch (blocks : List BlockId)
  | freeBlocks (orderedBlocks : List BlockId)
  | cacheFullBlocks (request : Request H) (blocks : List BlockId)
      (numCachedBlocks numFullBlocks blockSize kvCacheGroupId : Nat)
      (blockMask : Option (List Bool))
  | cachePartialBlock (request : Request H) (block : BlockId)
      (numTokens kvCacheGroupId blockSize : Nat)
  | moveBlockHashes (srcBlock dstBlock : BlockId)
  | evictBlocks (blockIds : List BlockId)
  | resetPrefixCache

variable {H : Type} [DecidableEq H] [BlockHashing H]

/-- Execute a call; the list holds the blocks handed to the caller. -/
def Call.run (pool : BlockPool H) : Call H → Except PyError (List BlockId × BlockPool H)
  | .getNewBlocks numBlocks => pool.getNewBlocks numBlocks
  | .touch blocks => (BlockPool.touch blocks pool).map ([], ·)
  | .freeBlocks blocks => (pool.freeBlocks blocks).map ([], ·)
  | .cacheFullBlocks request blocks numCachedBlocks numFullBlocks blockSize groupId mask =>
      (pool.cacheFullBlocks request blocks numCachedBlocks numFullBlocks blockSize groupId
        mask).map ([], ·)
  | .cachePartialBlock request block numTokens groupId blockSize =>
      (pool.cachePartialBlock request block numTokens groupId blockSize).map fun result =>
        ([], result.2)
  | .moveBlockHashes srcBlock dstBlock => (pool.moveBlockHashes srcBlock dstBlock).map ([], ·)
  | .evictBlocks blockIds => (BlockPool.evictBlocks blockIds pool).map ([], ·)
  | .resetPrefixCache => .ok ([], pool.resetPrefixCache.2)

/-- A pool with the references its callers hold. -/
structure Held (H : Type) where
  pool : BlockPool H
  held : BlockId → Nat

/-- The references held after a call that handed out `ret`. -/
def Call.heldAfter (held : BlockId → Nat) (ret : List BlockId) : Call H → BlockId → Nat
  | .getNewBlocks _, block => held block + ret.count block
  | .touch blocks, block => held block + blocks.count block
  | .freeBlocks blocks, block => held block - blocks.count block
  | _, block => held block

/-- Runs from a fresh pool whose calls satisfy `allowed`. -/
def system (allowed : Held H → Call H → Prop) : System (Held H) where
  start state := ∃ numGpuBlocks enableCaching hashBlockSize enableKvCacheEvents,
    init numGpuBlocks enableCaching hashBlockSize enableKvCacheEvents = .ok state.pool ∧
      state.held = fun _ => 0
  step state next := ∃ call ret, allowed state call ∧
    call.run state.pool = .ok (ret, next.pool) ∧
    next.held = call.heldAfter state.held ret

/-- Execute one allowed call. -/
def execute (allowed : Held H → Call H → Prop) [∀ state, DecidablePred (allowed state)]
    (state : Held H) (call : Call H) : Option (Held H) :=
  if allowed state call then
    match call.run state.pool with
    | .ok (ret, pool) => some ⟨pool, call.heldAfter state.held ret⟩
    | .error _ => none
  else
    none

variable {allowed : Held H → Call H → Prop} {state next : Held H}

theorem execute_sound [∀ state, DecidablePred (allowed state)] (state : Held H) (call : Call H)
    (next : Held H) (executed : execute allowed state call = some next) :
    (system allowed).step state next := by
  unfold execute at executed
  split at executed
  · rename_i permitted
    split at executed
    · rename_i ret pool ran
      cases executed
      exact ⟨call, ret, permitted, ran, rfl⟩
    · contradiction
  · contradiction

/-- Replay calls on a fresh pool. -/
def replayCalls (allowed : Held H → Call H → Prop) [∀ state, DecidablePred (allowed state)]
    (numGpuBlocks : Nat) (enableCaching : Bool) (hashBlockSize : Nat)
    (calls : List (Call H)) : Option (Held H) :=
  match init numGpuBlocks enableCaching hashBlockSize false with
  | .ok pool => replay (execute allowed) calls ⟨pool, fun _ => 0⟩
  | .error _ => none

theorem replayCalls_reachable [∀ state, DecidablePred (allowed state)] {numGpuBlocks : Nat}
    {enableCaching : Bool} {hashBlockSize : Nat} {calls : List (Call H)}
    (replayed : replayCalls allowed numGpuBlocks enableCaching hashBlockSize calls =
      some state) : Reachable (system allowed) state := by
  unfold replayCalls at replayed
  split at replayed
  · rename_i pool started
    exact Reachable.replay execute_sound
      (.start ⟨numGpuBlocks, enableCaching, hashBlockSize, false, started, rfl⟩) replayed
  · contradiction

/-! ## The free list -/

/-- Callers touch blocks of the pool and free only references they hold. -/
def FreesHeld (state : Held H) : Call H → Prop
  | .touch blocks => ∀ block ∈ blocks, block < state.pool.numGpuBlocks
  | .freeBlocks blocks => ∀ block ∈ blocks, blocks.count block ≤ state.held block
  | _ => True

instance (state : Held H) : DecidablePred (FreesHeld state)
  | .touch blocks => inferInstanceAs (Decidable (∀ block ∈ blocks, _))
  | .freeBlocks blocks => inferInstanceAs (Decidable (∀ block ∈ blocks, _))
  | .getNewBlocks _ => isTrue trivial
  | .cacheFullBlocks .. => isTrue trivial
  | .cachePartialBlock .. => isTrue trivial
  | .moveBlockHashes .. => isTrue trivial
  | .evictBlocks _ => isTrue trivial
  | .resetPrefixCache => isTrue trivial

/-- The free list is right and the reference counts are the held references. -/
structure Counted (state : Held H) : Prop where
  positive : 0 < state.pool.numGpuBlocks
  free : ∃ free, FreeList state.pool free
  refCnt : ∀ block, (state.pool.blocks block).refCnt = state.held block
  valid : ∀ block, state.held block ≠ 0 → block < state.pool.numGpuBlocks

omit [DecidableEq H] [BlockHashing H] in
private theorem Counted.sameRefs (counted : Counted state) {pool : BlockPool H}
    (same : SameRefs state.pool pool) :
    Counted ⟨pool, state.held⟩ where
  positive := by
    have := counted.positive
    rwa [same.numGpuBlocks]
  free := counted.free.imp fun _ list => list.sameRefs same
  refCnt block := (same.refCnt block).trans (counted.refCnt block)
  valid block used := by
    have := counted.valid block used
    rwa [same.numGpuBlocks]

theorem counted_start (starts : (system allowed).start state) : Counted state := by
  obtain ⟨numGpuBlocks, enableCaching, hashBlockSize, events, started, heldEq⟩ := starts
  obtain ⟨_, positive, _⟩ := bind_eq_ok.mp started
  obtain ⟨queue, _, initEq, list⟩ := init_spec (H := H) (pyAssert_eq_ok.mp positive)
    enableCaching hashBlockSize events
  rw [initEq] at started
  have poolEq := Except.ok.inj started
  exact ⟨by simpa [← poolEq, fresh] using positive, ⟨_, poolEq ▸ list⟩,
    by simp [heldEq, ← poolEq, fresh], by simp [heldEq]⟩

/-- One allowed call keeps the counts. -/
theorem counted_step (counted : Counted state) (steps : (system FreesHeld).step state next) :
    Counted next := by
  obtain ⟨pool', held'⟩ := next
  obtain ⟨call, ret, allowed, ran, heldEq⟩ := steps
  obtain ⟨free, list⟩ := counted.free
  simp only at ran heldEq
  subst heldEq
  cases call with
  | getNewBlocks numBlocks =>
      by_cases enough : numBlocks ≤ free.length
      · obtain ⟨got, gotEq, gotList, config, counts⟩ := getNewBlocks_spec list enough
        rw [Call.run, gotEq] at ran
        cases ran
        have nodup := list.nodup.sublist (List.take_sublist numBlocks free)
        refine ⟨by simpa [config.numGpuBlocks] using counted.positive, ⟨_, gotList⟩,
          fun block => ?_, fun block used => ?_⟩
        · simp only [counts, counted.refCnt, Call.heldAfter, nodup.count]
          split <;> simp
        · rw [config.numGpuBlocks]
          by_cases taken : block ∈ free.take numBlocks
          · exact ((list.mem_iff block).mp (List.mem_of_mem_take taken)).1
          · simp only [Call.heldAfter, List.count_eq_zero.mpr taken] at used
            exact counted.valid block used
      · rw [Call.run, getNewBlocks_error list (by omega)] at ran
        contradiction
  | touch blocks =>
      obtain ⟨touched, touchEq, touchedList, hashes, counts⟩ := touch_spec list allowed
      rw [Call.run, touchEq] at ran
      cases ran
      refine ⟨by simpa [hashes.numGpuBlocks] using counted.positive, ⟨_, touchedList⟩,
        fun block => ?_, fun block used => ?_⟩
      · simp [counts, counted.refCnt, Call.heldAfter]
      · rw [hashes.numGpuBlocks]
        by_cases listed : block ∈ blocks
        · exact allowed block listed
        · simp only [Call.heldAfter, List.count_eq_zero.mpr listed] at used
          exact counted.valid block used
  | freeBlocks blocks =>
      have bound : ∀ block, blocks.count block ≤ state.held block := by
        intro block
        by_cases listed : block ∈ blocks
        · exact allowed block listed
        · simp [List.count_eq_zero.mpr listed]
      have valid : ∀ block ∈ blocks, block < state.pool.numGpuBlocks := by
        intro block listed
        have positive : 0 < blocks.count block := List.count_pos_iff.mpr listed
        have := bound block
        exact counted.valid block (by omega)
      have held : ∀ block, block ≠ nullBlock →
          (blocks.count block : Int) ≤ (state.pool.blocks block).refCnt := by
        intro block _
        rw [counted.refCnt]
        exact_mod_cast bound block
      obtain ⟨freed, final, freeEq, freedList, hashes, counts⟩ := freeBlocks_spec list valid held
      rw [Call.run, freeEq] at ran
      cases ran
      refine ⟨by simpa [hashes.numGpuBlocks] using counted.positive, ⟨_, freedList⟩,
        fun block => ?_, fun block used => ?_⟩
      · have := bound block
        simp only [counts, counted.refCnt, Call.heldAfter]
        omega
      · rw [hashes.numGpuBlocks]
        refine counted.valid block fun zero => used ?_
        simp only [Call.heldAfter, zero, Nat.zero_sub]
  | cacheFullBlocks request blocks numCachedBlocks numFullBlocks blockSize groupId mask =>
      obtain ⟨result, cached, pair⟩ := map_eq_ok.mp ran
      cases pair
      exact counted.sameRefs (cacheFullBlocks_sameRefs cached)
  | cachePartialBlock request block numTokens groupId blockSize =>
      obtain ⟨result, cached, pair⟩ := map_eq_ok.mp ran
      cases pair
      exact counted.sameRefs (cachePartialBlock_sameRefs cached)
  | moveBlockHashes srcBlock dstBlock =>
      obtain ⟨result, moved, pair⟩ := map_eq_ok.mp ran
      cases pair
      exact counted.sameRefs (moveBlockHashes_sameRefs moved)
  | evictBlocks blockIds =>
      obtain ⟨result, evicted, pair⟩ := map_eq_ok.mp ran
      cases pair
      exact counted.sameRefs (evictBlocks_sameRefs evicted)
  | resetPrefixCache =>
      cases ran
      exact counted.sameRefs (resetPrefixCache_sameRefs state.pool)

/-- In every run whose callers free only what they hold, walking the linked list
visits each unreferenced non-null block once and nothing else, no count is
negative, and the counter is the length of the walk. -/
theorem reachable_freeList {state : Held H} (reached : Reachable (system FreesHeld) state) :
    ∃ free, state.pool.freeBlockQueue.getAllFreeBlocks state.pool.numGpuBlocks = .ok (some free) ∧
      (∀ block, block < state.pool.numGpuBlocks → block ≠ nullBlock →
        free.count block = if (state.pool.blocks block).refCnt = 0 then 1 else 0) ∧
      nullBlock ∉ free ∧ (∀ block, 0 ≤ (state.pool.blocks block).refCnt) ∧
      state.pool.getNumFreeBlocks = free.length := by
  have counted := reached.invariant (fun _ => counted_start) fun _ _ => counted_step
  obtain ⟨free, list⟩ := counted.free
  refine ⟨free, FreeKVCacheBlockQueue.getAllFreeBlocks_spec list.queue
    (list.length_lt counted.positive), fun block bound nonNull => ?_, list.null_notMem,
    fun block => ?_, list.getNumFreeBlocks_eq⟩
  · rw [list.nodup.count]
    exact if_congr ((list.mem_iff block).trans (by simp [bound, nonNull])) rfl rfl
  · rw [counted.refCnt]
    exact Int.natCast_nonneg _

/-- A run that allocates three blocks, shares one and frees the rest. -/
theorem reachable_freeList_shared :
    ∃ state : Held SymbolicHash, Reachable (system FreesHeld) state ∧
      (state.pool.blocks 2).refCnt = 2 ∧
      ∃ free, state.pool.freeBlockQueue.getAllFreeBlocks state.pool.numGpuBlocks = .ok (some free) ∧
        (∀ block, block < state.pool.numGpuBlocks → block ≠ nullBlock →
          free.count block = if (state.pool.blocks block).refCnt = 0 then 1 else 0) ∧
        nullBlock ∉ free ∧ (∀ block, 0 ≤ (state.pool.blocks block).refCnt) ∧
        state.pool.getNumFreeBlocks = free.length := by
  let calls : List (Call SymbolicHash) :=
    [.getNewBlocks 3, .touch [2], .freeBlocks [3, 1]]
  have shared : (replayCalls FreesHeld 5 true 2 calls).map
      (fun state => (state.pool.blocks 2).refCnt) = some 2 := by decide +kernel
  obtain ⟨state, replayed, count⟩ := Option.map_eq_some_iff.mp shared
  have reached := replayCalls_reachable replayed
  exact ⟨state, reached, count, reachable_freeList reached⟩

/-! ## The hash index -/

/-- Managers cache only when caching is on, and move hashes only to a block they
have allocated. -/
def CachesEnabled (state : Held H) : Call H → Prop
  | .cacheFullBlocks .. => state.pool.enableCaching = true
  | .cachePartialBlock .. => state.pool.enableCaching = true
  | .moveBlockHashes _ dstBlock => dstBlock ≠ nullBlock
  | _ => True

instance (state : Held H) : DecidablePred (CachesEnabled state)
  | .cacheFullBlocks .. => inferInstanceAs (Decidable (_ = true))
  | .cachePartialBlock .. => inferInstanceAs (Decidable (_ = true))
  | .moveBlockHashes _ dstBlock => inferInstanceAs (Decidable (dstBlock ≠ nullBlock))
  | .touch _ => isTrue trivial
  | .freeBlocks _ => isTrue trivial
  | .getNewBlocks _ => isTrue trivial
  | .evictBlocks _ => isTrue trivial
  | .resetPrefixCache => isTrue trivial

omit [BlockHashing H] in
/-- Calls that only run with caching on, or that only remove keys. -/
private theorem Indexed.of_index {pool pool' : BlockPool H} (indexed : Indexed pool)
    (index : HashIndex pool') (config : pool'.enableCaching = pool.enableCaching)
    (kept : pool.enableCaching = true ∨
      ∀ key block, pool'.Keyed key block → ∃ old, pool.Keyed key old) : Indexed pool' where
  index := index
  disabled off key block keyed := by
    rw [config] at off
    rcases kept with on | kept
    · rw [on] at off
      contradiction
    · obtain ⟨old, oldKeyed⟩ := kept key block keyed
      exact indexed.disabled off key old oldKeyed

theorem indexed_start (starts : (system allowed).start state) : Indexed state.pool := by
  obtain ⟨numGpuBlocks, enableCaching, hashBlockSize, events, started, -⟩ := starts
  obtain ⟨_, positive, _⟩ := bind_eq_ok.mp started
  obtain ⟨queue, _, initEq, -⟩ := init_spec (H := H) (pyAssert_eq_ok.mp positive)
    enableCaching hashBlockSize events
  rw [initEq] at started
  rw [← Except.ok.inj started]
  exact ⟨fresh_hashIndex _ _ _ _ _, fun _ key block => by simp [Keyed, fresh]⟩

theorem indexed_step (indexed : Indexed state.pool)
    (steps : (system CachesEnabled).step state next) :
    Indexed next.pool := by
  obtain ⟨pool', held'⟩ := next
  obtain ⟨call, ret, allowed, ran, -⟩ := steps
  simp only at ran ⊢
  cases call with
  | getNewBlocks numBlocks =>
      obtain ⟨index, keyed_iff, -⟩ := getNewBlocks_hashes indexed.index ran
      refine indexed.of_index index ?_ (.inr fun key block keyed =>
        ⟨block, ((keyed_iff key block).mp keyed).1⟩)
      exact (getNewBlocks_sameConfig ran).enableCaching
  | touch blocks =>
      obtain ⟨result, touched, pair⟩ := map_eq_ok.mp ran
      cases pair
      exact indexed.sameHashes (touch_sameHashes touched)
  | freeBlocks blocks =>
      obtain ⟨result, freed, pair⟩ := map_eq_ok.mp ran
      cases pair
      exact indexed.sameHashes (freeBlocks_sameHashes freed)
  | cacheFullBlocks request blocks numCachedBlocks numFullBlocks blockSize groupId mask =>
      obtain ⟨result, cached, pair⟩ := map_eq_ok.mp ran
      cases pair
      obtain ⟨pairs, step, -⟩ := cacheFullBlocks_spec indexed.index cached
      exact indexed.of_index step.index (cacheFullBlocks_sameRefs cached).enableCaching
        (.inl allowed)
  | cachePartialBlock request block numTokens groupId blockSize =>
      obtain ⟨result, cached, pair⟩ := map_eq_ok.mp ran
      cases pair
      obtain ⟨pairs, step, -⟩ := cachePartialBlock_spec indexed.index cached
      exact indexed.of_index step.index (cachePartialBlock_sameRefs cached).enableCaching
        (.inl allowed)
  | moveBlockHashes srcBlock dstBlock =>
      obtain ⟨result, moved, pair⟩ := map_eq_ok.mp ran
      cases pair
      obtain ⟨index, keyed_iff, -⟩ := moveBlockHashes_spec indexed.index allowed moved
      refine indexed.of_index index (moveBlockHashes_sameRefs moved).enableCaching
        (.inr fun key block keyed => ?_)
      rcases (keyed_iff key block).mp keyed with ⟨old, -⟩ | ⟨old, -⟩
      · exact ⟨block, old⟩
      · exact ⟨srcBlock, old⟩
  | evictBlocks blockIds =>
      obtain ⟨result, evicted, pair⟩ := map_eq_ok.mp ran
      cases pair
      obtain ⟨index, keyed_iff⟩ := evictBlocks_spec indexed.index evicted
      exact indexed.of_index index (evictBlocks_sameRefs evicted).enableCaching
        (.inr fun key block keyed => ⟨block, ((keyed_iff key block).mp keyed).1⟩)
  | resetPrefixCache =>
      cases ran
      obtain ⟨index, unchanged | cleared⟩ := resetPrefixCache_spec indexed.index
      · rw [unchanged]
        exact indexed
      · exact ⟨index, fun _ => cleared⟩

end Vllm.Core.BlockPool
