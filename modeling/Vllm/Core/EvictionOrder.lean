import Vllm.Core.BlockPoolRuns

/-!
# The order of eviction

A run of the pool counts its turns and notes when the last reference of each block went.  The free
queue is in the order of these turns, so a block is handed out, and what it caches is evicted, only
before those that were released later.
-/

namespace Vllm.Core.BlockPool

open Vllm.Library

variable {H : Type}

/-- A pool with the turn of each block's last release. -/
structure Aged (H : Type) extends Held H where
  turn : Nat
  released : BlockId → Nat

/-- The turns after a call: a block whose last reference goes is released now, and before all others
if it caches nothing. -/
def Call.releasedAfter (state : Aged H) : Call H → BlockId → Nat
  | .freeBlocks blocks, block =>
      if block ∈ blocks ∧ block ≠ nullBlock ∧ state.held block = blocks.count block then
        if (state.pool.blocks block).blockHash.isSome ∧ state.pool.enableCaching then state.turn
        else 0
      else state.released block
  | _, block => state.released block

/-- Blocks that cache nothing are evicted first. -/
theorem releaseBlocks_content {pool : BlockPool H} {blocks : List BlockId} :
    (∀ block ∈ (releaseBlocks blocks pool).1,
      ¬((pool.blocks block).blockHash.isSome ∧ pool.enableCaching)) ∧
    ∀ block ∈ (releaseBlocks blocks pool).2.1,
      (pool.blocks block).blockHash.isSome ∧ pool.enableCaching := by
  induction blocks generalizing pool with
  | nil => simp [releaseBlocks]
  | cons block rest inductionHypothesis =>
      have same := SameHashes.setRefCnt pool block ((pool.blocks block).refCnt - 1)
        pool.freeBlockQueue
      have others := @inductionHypothesis (pool.setBlock block
        { pool.blocks block with refCnt := (pool.blocks block).refCnt - 1 })
      simp only [show ∀ other, _ = _ from same.blockHash] at others
      unfold releaseBlocks
      dsimp only
      split
      · split
        · rename_i without
          refine ⟨List.forall_mem_cons.mpr ⟨?_, others.1⟩, others.2⟩
          rintro ⟨hashed, caching⟩
          rcases without with none_ | off
          · rw [Option.isNone_iff_eq_none.mp none_] at hashed
            cases hashed
          · exact off caching
        · rename_i content
          refine ⟨others.1, List.forall_mem_cons.mpr ⟨?_, others.2⟩⟩
          simpa [Option.isSome_iff_ne_none] using content
      · exact others

variable [DecidableEq H] [BlockHashing H]

/-- Execute a call of callers that free only what they hold. -/
def Aged.execute (state : Aged H) (call : Call H) : Option (Aged H) :=
  if FreesHeld state.toHeld call then
    (call.run state.pool).toOption.map fun ran =>
      { pool := ran.2
        held := call.heldAfter state.held ran.1
        turn := state.turn + 1
        released := call.releasedAfter state }
  else none

def agedSystem : System (Aged H) where
  start state := (system FreesHeld).start state.toHeld ∧ state.turn = 1 ∧
    state.released = fun _ => 0
  step state next := ∃ call, state.execute call = some next

/-- The free queue is in the order of the turns. -/
structure InTurn (state : Aged H) : Prop where
  counted : Counted state.toHeld
  queue : ∃ free, FreeList state.pool free ∧
    free.Pairwise fun first second => state.released first ≤ state.released second
  past : ∀ block, state.released block < state.turn

variable {state : Aged H}

omit [DecidableEq H] [BlockHashing H] in
/-- The free queue after a release. -/
theorem InTurn.freeBlocks {blocks free : List BlockId} {pool : BlockPool H} (inTurn : InTurn state)
    (allowed : FreesHeld state.toHeld (.freeBlocks blocks)) (list : FreeList state.pool free)
    (ordered : free.Pairwise fun first second => state.released first ≤ state.released second)
    (freed : state.pool.freeBlocks blocks = .ok pool) :
    ∃ free', FreeList pool free' ∧ free'.Pairwise fun first second =>
      (Call.freeBlocks blocks).releasedAfter state first ≤
        (Call.freeBlocks blocks).releasedAfter state second := by
  have bound : ∀ block, blocks.count block ≤ state.held block := by
    intro block
    by_cases listed : block ∈ blocks
    · exact allowed block listed
    · simp [List.count_eq_zero.mpr listed]
  have positive : ∀ block ∈ blocks, 0 < blocks.count block := fun _ => List.count_pos_iff.mpr
  have valid : ∀ block ∈ blocks, block < state.pool.numGpuBlocks := by
    intro block listed
    exact inTurn.counted.valid block (Nat.ne_of_gt ((positive block listed).trans_le (bound block)))
  have held : ∀ block, block ≠ nullBlock →
      (blocks.count block : Int) ≤ (state.pool.blocks block).refCnt := by
    intro block _
    rw [inTurn.counted.refCnt]
    exact_mod_cast bound block
  have content := @releaseBlocks_content H state.pool blocks
  rcases freeBlocks_list list valid held with ⟨_, freeEq, freedList, -⟩
  rcases releaseBlocks_spec held with ⟨-, -, -, -, gone⟩
  rw [freeEq] at freed
  cases freed
  refine ⟨_, freedList, ?_⟩
  generalize releaseBlocks blocks state.pool = released at gone content
  have goes : ∀ block ∈ released.1 ++ released.2.1,
      block ∈ blocks ∧ block ≠ nullBlock ∧ state.held block = blocks.count block := by
    intro block member
    rcases (gone block).mp member with ⟨listed, nonNull, equal⟩
    rw [inTurn.counted.refCnt] at equal
    exact ⟨listed, nonNull, Int.ofNat_inj.mp equal⟩
  -- The front comes before all turns, the back is of this turn, and the others are as before.
  have front : ∀ block ∈ released.1, (Call.freeBlocks blocks).releasedAfter state block = 0 := by
    intro block member
    rw [Call.releasedAfter, if_pos (goes block (List.mem_append_left _ member)),
      if_neg (content.1 block member)]
  have back : ∀ block ∈ released.2.1,
      (Call.freeBlocks blocks).releasedAfter state block = state.turn := by
    intro block member
    rw [Call.releasedAfter, if_pos (goes block (List.mem_append_right _ member)),
      if_pos (content.2 block member)]
  have stays : ∀ block ∈ free,
      (Call.freeBlocks blocks).releasedAfter state block = state.released block := by
    intro block queued
    have idle := ((list.mem_iff block).mp queued).2.2
    rw [inTurn.counted.refCnt] at idle
    rw [Call.releasedAfter, if_neg]
    rintro ⟨listed, -, equal⟩
    have := positive block listed
    omega
  simp only [List.pairwise_append, List.mem_append]
  refine ⟨⟨?_, ?_, ?_⟩, ?_, ?_⟩
  · exact List.pairwise_of_forall_mem_list fun a first b _ => by simp [front a first]
  · exact ordered.imp_of_mem fun first second le => by rwa [stays _ first, stays _ second]
  · exact fun a first b _ => by simp [front a first]
  · exact List.pairwise_of_forall_mem_list fun a first b second => by
      rw [back a first, back b second]
  · rintro a (first | queued) b second
    · simp [front a first]
    · rw [stays a queued, back b second]
      exact (inTurn.past a).le

theorem InTurn.step {next : Aged H} {call : Call H} (inTurn : InTurn state)
    (ran : state.execute call = some next) : InTurn next := by
  unfold Aged.execute at ran
  split at ran
  · rename_i allowed
    rcases Option.map_eq_some_iff.mp ran with ⟨⟨ret, pool⟩, executed, rfl⟩
    have executed := toOption_eq_some.mp executed
    rcases inTurn.queue with ⟨free, list, ordered⟩
    refine ⟨counted_step inTurn.counted ⟨call, ret, allowed, executed, rfl⟩, ?_, ?_⟩
    · cases call with
      | getNewBlocks numBlocks =>
          exact ⟨_, (taken_of_getNewBlocks list executed).2, ordered.sublist (List.drop_sublist _ _)⟩
      | touch blocks =>
          rcases touch_spec list allowed with ⟨touched, touchEq, touchedList, -⟩
          rw [Call.run, touchEq] at executed
          cases executed
          exact ⟨_, touchedList, ordered.sublist List.filter_sublist⟩
      | freeBlocks blocks =>
          rcases map_eq_ok.mp executed with ⟨_, freed, pair⟩
          cases pair
          exact inTurn.freeBlocks allowed list ordered freed
      | cacheFullBlocks =>
          rcases map_eq_ok.mp executed with ⟨_, cached, pair⟩
          cases pair
          exact ⟨free, list.sameRefs (cacheFullBlocks_sameRefs cached), ordered⟩
      | cachePartialBlock =>
          rcases map_eq_ok.mp executed with ⟨_, cached, pair⟩
          cases pair
          exact ⟨free, list.sameRefs (cachePartialBlock_sameRefs cached), ordered⟩
      | moveBlockHashes =>
          rcases map_eq_ok.mp executed with ⟨_, moved, pair⟩
          cases pair
          exact ⟨free, list.sameRefs (moveBlockHashes_sameRefs moved), ordered⟩
      | evictBlocks =>
          rcases map_eq_ok.mp executed with ⟨_, evicted, pair⟩
          cases pair
          exact ⟨free, list.sameRefs (evictBlocks_sameRefs evicted), ordered⟩
      | resetPrefixCache =>
          cases executed
          exact ⟨free, list.sameRefs (resetPrefixCache_sameRefs state.pool), ordered⟩
    · intro block
      have past := inTurn.past block
      have turn := inTurn.past nullBlock
      change call.releasedAfter state block < state.turn + 1
      unfold Call.releasedAfter
      split
      · split
        · split <;> omega
        · omega
      · omega
  · cases ran

theorem reachable_inTurn (reached : Reachable agedSystem state) : InTurn state := by
  apply reached.invariant
  · rintro state ⟨starts, turn, released⟩
    have counted := counted_start starts
    refine ⟨counted, counted.free.imp fun free list => ⟨list, ?_⟩, fun block => ?_⟩
    · rw [released]
      exact List.pairwise_of_forall fun _ _ => Nat.le_refl 0
    · rw [released, turn]
      exact Nat.one_pos
  · rintro state next inTurn ⟨call, ran⟩
    exact inTurn.step ran

/-- In every run the blocks that are handed out were released no later than the blocks that stay
free. -/
theorem reachable_evictsOldest (reached : Reachable agedSystem state) (numBlocks : Nat)
    (got : List BlockId) (pool : BlockPool H)
    (ran : state.pool.getNewBlocks numBlocks = .ok (got, pool)) :
    ∀ block ∈ got, ∀ other, other < pool.numGpuBlocks → other ≠ nullBlock →
      (pool.blocks other).refCnt = 0 → state.released block ≤ state.released other := by
  intro block handed other inside nonNull idle
  rcases (reachable_inTurn reached).queue with ⟨free, list, ordered⟩
  rcases taken_of_getNewBlocks list ran with ⟨rfl, left⟩
  have stays := (left.mem_iff other).mpr ⟨inside, nonNull, idle⟩
  rw [← List.take_append_drop numBlocks free] at ordered
  exact (List.pairwise_append.mp ordered).2.2 block handed other stays

/-- Three cached blocks are released one after the other, and the second one is used again. -/
theorem reachable_evictsOldest_reused :
    ∃ (state : Aged SymbolicHash) (got : List BlockId) (pool : BlockPool SymbolicHash),
      state.pool.getNewBlocks 2 = .ok (got, pool) ∧ got = [1, 3] ∧
      [1, 2, 3].map state.released = [3, 7, 5] ∧
      ∀ block ∈ got, state.released block ≤ state.released 2 := by
  let request : Request SymbolicHash := Request.updateBlockHashes (some 1)
    { requestId := "request", allTokenIds := [11, 12, 13] }
  have computed : ((init 4 true 1 false).toOption.bind fun pool => replay Aged.execute
      [.getNewBlocks 3, .cacheFullBlocks request [1, 2, 3] 0 3 1 0 none, .freeBlocks [1],
        .freeBlocks [2], .freeBlocks [3], .touch [2], .freeBlocks [2]]
      ⟨⟨pool, fun _ => 0⟩, 1, fun _ => 0⟩).map (fun state =>
        (state.pool.getNewBlocks 2).toOption.map fun taken => decide (taken.1 = [1, 3] ∧
          [1, 2, 3].map state.released = [3, 7, 5] ∧ 2 < taken.2.numGpuBlocks ∧
          (taken.2.blocks 2).refCnt = 0)) = some (some true) := by
    decide +kernel
  rcases Option.map_eq_some_iff.mp computed with ⟨state, replayed, stored⟩
  rcases Option.bind_eq_some_iff.mp replayed with ⟨fresh, started, replayed⟩
  rcases Option.map_eq_some_iff.mp stored with ⟨⟨got, pool⟩, taken, shown⟩
  have facts := of_decide_eq_true shown
  have sound : ∀ (state : Aged SymbolicHash) call next, state.execute call = some next →
      agedSystem.step state next := fun _ call _ ran => ⟨call, ran⟩
  have reached : Reachable agedSystem state := Reachable.replay sound
      (.start ⟨⟨4, true, 1, false, toOption_eq_some.mp started, rfl⟩, rfl, rfl⟩) replayed
  have ran := toOption_eq_some.mp taken
  exact ⟨state, got, pool, ran, facts.1, facts.2.1, fun block handed =>
    reachable_evictsOldest reached 2 got pool ran block handed 2 facts.2.2.1 (by decide)
      facts.2.2.2⟩

end Vllm.Core.BlockPool
