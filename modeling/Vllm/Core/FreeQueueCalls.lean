import Vllm.Core.FreeKVCacheBlockQueue

/-!
# Runs of the free block queue

Every sequence of calls on the queue answers as the same calls on a list of blocks do,
and leaves pointers that read as that list in both directions.
-/

namespace Vllm.Core.FreeKVCacheBlockQueue

open Vllm.Library

/-- Put one block at the end of the free list. -/
def append (queue : FreeKVCacheBlockQueue) (block : BlockId) :
    Except PyError FreeKVCacheBlockQueue :=
  match queue.links.prev .tail with
  | none =>
      .error (.runtimeError "prev_free_block of fake_free_list_tail should always exist")
  | some last =>
      .ok
        { links := (((queue.links.setNext last (some (.node block))).setPrev (.node block)
            (some last)).setNext (.node block) (some .tail)).setPrev .tail (some (.node block))
          numFreeBlocks := queue.numFreeBlocks + 1 }

variable {queue : FreeKVCacheBlockQueue} {blocks : List BlockId}

/-- `append` is `append_n` of one block. -/
theorem append_spec {block : BlockId} (represents : queue.Represents blocks)
    (fresh : block ∉ blocks) :
    ∃ queue', queue.append block = .ok queue' ∧ queue'.Represents (blocks ++ [block]) := by
  have nodup : (blocks ++ [block]).Nodup :=
    represents.links.nodup.append (List.nodup_singleton block)
      (List.disjoint_singleton.mpr fresh)
  rcases appendN_spec represents nodup with ⟨queue', appended, represents'⟩
  refine ⟨queue', ?_, represents'⟩
  rw [← appended]
  simp only [append, appendN, represents.links.prev_tail, List.length_singleton]
  rfl

/-- The blocks met by following `prev_free_block` from the fake tail. -/
def blocksBackward (queue : FreeKVCacheBlockQueue) (fuel : Nat) : Option (List BlockId) :=
  (queue.links.prev .tail).bind (queue.links.walkBack fuel)

/-- The pointers and the counter say that exactly `blocks` are free, in this order. -/
structure Refines (queue : FreeKVCacheBlockQueue) (blocks : List BlockId) : Prop where
  forward : ∀ fuel, blocks.length < fuel → queue.getAllFreeBlocks fuel = .ok (some blocks)
  backward : ∀ fuel, blocks.length < fuel → queue.blocksBackward fuel = some blocks.reverse
  count : queue.numFreeBlocks = blocks.length
  cleared : ∀ block, block ∉ blocks →
    queue.links.prev (.node block) = none ∧ queue.links.next (.node block) = none

theorem Represents.refines (represents : queue.Represents blocks) : queue.Refines blocks where
  forward _ enough := getAllFreeBlocks_spec represents enough
  backward fuel enough := by
    rw [blocksBackward, represents.links.prev_tail]
    exact represents.links.walkBack_eq enough
  count := represents.count
  cleared block outside :=
    ⟨represents.links.detachedPrev block outside, represents.links.detachedNext block outside⟩

/-! ## Calls -/

/-- A call on the queue. -/
inductive Call where
  | popleft
  | popleftN (n : Nat)
  | remove (block : BlockId)
  | append (block : BlockId)
  | appendN (blocks : List BlockId)
  | prependN (blocks : List BlockId)

namespace Call

/-- The blocks that a call on the queue returns, and the queue after it. -/
def execute (queue : FreeKVCacheBlockQueue) :
    Call → Except PyError (List BlockId × FreeKVCacheBlockQueue)
  | popleft => queue.popleft.map fun popped => ([popped.1], popped.2)
  | popleftN n => queue.popleftN n
  | remove block => (queue.remove block).map ([], ·)
  | append block => (queue.append block).map ([], ·)
  | appendN blocks => (queue.appendN blocks).map ([], ·)
  | prependN blocks => (queue.prependN blocks).map ([], ·)

/-- The same call on a list. -/
def onList (blocks : List BlockId) : Call → Except PyError (List BlockId × List BlockId)
  | popleft =>
      match blocks with
      | [] => .error (.valueError "No free blocks available")
      | first :: rest => .ok ([first], rest)
  | popleftN n =>
      if n ≤ blocks.length then .ok (blocks.take n, blocks.drop n) else .error .assertionError
  | remove block => .ok ([], blocks.erase block)
  | append block => .ok ([], blocks ++ [block])
  | appendN fresh => .ok ([], blocks ++ fresh)
  | prependN fresh => .ok ([], fresh ++ blocks)

/-- Members are removed, and distinct blocks that are not in the list are added. -/
def Allowed (blocks : List BlockId) : Call → Prop
  | popleft | popleftN _ => True
  | remove block => block ∈ blocks
  | append block => block ∉ blocks
  | appendN fresh | prependN fresh => fresh.Nodup ∧ fresh.Disjoint blocks

/-- An allowed call on the queue answers as the call on the list, and an exception is
raised before anything is written. -/
theorem execute_onList {call : Call} (represents : queue.Represents blocks)
    (allowed : call.Allowed blocks) :
    (∃ popped queue' blocks', call.execute queue = .ok (popped, queue') ∧
      call.onList blocks = .ok (popped, blocks') ∧ queue'.Represents blocks') ∨
    ∃ failure, call.execute queue = .error failure ∧ call.onList blocks = .error failure := by
  have apart {fresh : List BlockId} (allowed : fresh.Nodup ∧ fresh.Disjoint blocks) :
      (fresh ++ blocks).Nodup :=
    allowed.1.append represents.links.nodup allowed.2
  cases call with
  | popleft =>
      cases blocks with
      | nil =>
          right
          refine ⟨_, ?_, rfl⟩
          have empty : queue.links.next .head = some .tail := represents.links.next_head
          have counted : queue.numFreeBlocks = 0 := represents.count
          simp only [execute, FreeKVCacheBlockQueue.popleft, empty, counted, if_true]
          rfl
      | cons first rest =>
          left
          rcases popleft_spec represents with ⟨queue', popped, represents'⟩
          exact ⟨[first], queue', rest, by rw [execute, popped]; rfl, rfl, represents'⟩
  | popleftN n =>
      by_cases enough : n ≤ blocks.length
      · left
        rcases popleftN_spec represents enough with ⟨queue', popped, represents'⟩
        exact ⟨_, queue', _, popped, if_pos enough, represents'⟩
      · right
        refine ⟨.assertionError, ?_, if_neg enough⟩
        have positive : n ≠ 0 := by
          rintro rfl
          exact enough (Nat.zero_le _)
        have short : ¬ (n : Int) ≤ queue.numFreeBlocks := by
          rw [represents.count]
          exact_mod_cast enough
        simp only [execute, FreeKVCacheBlockQueue.popleftN, if_neg positive, pyAssert, if_neg short]
        rfl
  | remove block =>
      left
      rcases remove_spec represents allowed with ⟨queue', removed, represents'⟩
      exact ⟨[], queue', _, by rw [execute, removed]; rfl, rfl, represents'⟩
  | append block =>
      left
      rcases append_spec represents allowed with ⟨queue', appended, represents'⟩
      exact ⟨[], queue', _, by rw [execute, appended]; rfl, rfl, represents'⟩
  | appendN fresh =>
      left
      have nodup : (blocks ++ fresh).Nodup := List.nodup_append_comm.mp (apart allowed)
      rcases appendN_spec represents nodup with ⟨queue', appended, represents'⟩
      exact ⟨[], queue', _, by rw [execute, appended]; rfl, rfl, represents'⟩
  | prependN fresh =>
      left
      rcases prependN_spec represents (apart allowed) with ⟨queue', prepended, represents'⟩
      exact ⟨[], queue', _, by rw [execute, prepended]; rfl, rfl, represents'⟩

end Call

/-! ## Runs -/

/-- The answers to a sequence of calls and the state after it; a call that raises an
exception leaves the state as it was. -/
def runCalls {σ : Type} (execute : σ → Call → Except PyError (List BlockId × σ)) :
    List Call → σ → List (Except PyError (List BlockId)) × σ
  | [], state => ([], state)
  | call :: calls, state =>
      match execute state call with
      | .ok (popped, next) =>
          let run := runCalls execute calls next
          (.ok popped :: run.1, run.2)
      | .error failure =>
          let run := runCalls execute calls state
          (.error failure :: run.1, run.2)

/-- Every call of the sequence is allowed on the list that the calls before it leave. -/
def AllAllowed : List Call → List BlockId → Prop
  | [], _ => True
  | call :: calls, blocks =>
      call.Allowed blocks ∧ AllAllowed calls (runCalls Call.onList [call] blocks).2

/-- A sequence of calls on the queue answers as the calls on the list do, and ends in a
queue that represents the list they end in. -/
theorem runCalls_spec {calls : List Call} (represents : queue.Represents blocks)
    (allowed : AllAllowed calls blocks) :
    (runCalls (fun queue call => call.execute queue) calls queue).1 =
      (runCalls Call.onList calls blocks).1 ∧
    (runCalls (fun queue call => call.execute queue) calls queue).2.Represents
      (runCalls Call.onList calls blocks).2 := by
  induction calls generalizing queue blocks with
  | nil => exact ⟨rfl, represents⟩
  | cons call calls inductionHypothesis =>
      rcases allowed with ⟨allowed, later⟩
      rcases Call.execute_onList represents allowed with
        ⟨popped, queue', blocks', executed, listed, represents'⟩ | ⟨failure, raised, listed⟩
      · simp only [runCalls, listed] at later
        rcases inductionHypothesis represents' later with ⟨answers, final⟩
        simp only [runCalls, executed, listed]
        exact ⟨congrArg _ answers, final⟩
      · simp only [runCalls, listed] at later
        rcases inductionHypothesis represents later with ⟨answers, final⟩
        simp only [runCalls, raised, listed]
        exact ⟨congrArg _ answers, final⟩

/-- After every allowed sequence of calls on the queue of distinct blocks, the answers
are those of the list operations and the queue reads as the list in both directions. -/
theorem runCalls_refines {initial : List BlockId} (nodup : initial.Nodup) {calls : List Call}
    (allowed : AllAllowed calls initial) :
    (runCalls (fun queue call => call.execute queue) calls (init initial)).1 =
      (runCalls Call.onList calls initial).1 ∧
    (runCalls (fun queue call => call.execute queue) calls (init initial)).2.Refines
      (runCalls Call.onList calls initial).2 := by
  rcases runCalls_spec (init_represents nodup) allowed with ⟨answers, represents⟩
  exact ⟨answers, represents.refines⟩

/-- Three blocks, of which one is removed and comes back to the front. -/
theorem runCalls_refines_returned :
    (runCalls (fun queue call => call.execute queue)
        [.popleft, .remove 2, .prependN [0, 2], .popleftN 4, .append 5] (init [0, 1, 2])).1 =
      [.ok [0], .ok [], .ok [], .error .assertionError, .ok []] ∧
    (runCalls (fun queue call => call.execute queue)
        [.popleft, .remove 2, .prependN [0, 2], .popleftN 4, .append 5]
        (init [0, 1, 2])).2.Refines [0, 2, 1, 5] := by
  have nodup : [0, 1, 2].Nodup := by decide
  have allowed : AllAllowed [.popleft, .remove 2, .prependN [0, 2], .popleftN 4, .append 5]
      [0, 1, 2] := by
    simp [AllAllowed, Call.Allowed, runCalls, Call.onList]
  exact runCalls_refines nodup allowed

end Vllm.Core.FreeKVCacheBlockQueue
