import Mathlib.Data.List.Perm.Basic

/-!
# Binary heaps in a list

The operations of Python's `heapq` over an arbitrary comparison: entry `i` has
its children at `2 * i + 1` and `2 * i + 2`.  Every operation rearranges the
entries by exchanging two of them at a time, so what a heap contains can be told
without knowing the comparison.
-/

namespace Vllm.Library

universe u

namespace Heap

variable {α : Type u} (lt : α → α → Bool)

/-- `_siftdown`: move the entry at `pos` towards the root, at most up to
`startPos`.  The position shrinks in every round, so its start is enough fuel. -/
def siftDown (startPos : Nat) : Nat → Nat → List α → List α
  | 0, _, heap => heap
  | fuel + 1, pos, heap =>
      if pos ≤ startPos then heap
      else
        let parentPos := (pos - 1) / 2
        match heap[pos]?, heap[parentPos]? with
        | some newItem, some parent =>
            if lt newItem parent then siftDown startPos fuel parentPos (heap.swap pos parentPos)
            else heap
        | _, _ => heap

/-- The smaller child of `pos`, if it has one; the right one wins a tie. -/
def smallerChild (pos : Nat) (heap : List α) : Option Nat :=
  let childPos := 2 * pos + 1
  match heap[childPos]?, heap[childPos + 1]? with
  | none, _ => none
  | some _, none => some childPos
  | some left, some right => some (if lt left right then childPos else childPos + 1)

/-- The first loop of `_siftup`: the smaller child moves up until a leaf is
reached.  The result is the leaf's position with the rearranged heap. -/
def sinkToLeaf : Nat → Nat → List α → Nat × List α
  | 0, pos, heap => (pos, heap)
  | fuel + 1, pos, heap =>
      match smallerChild lt pos heap with
      | none => (pos, heap)
      | some childPos => sinkToLeaf fuel childPos (heap.swap pos childPos)

/-- `_siftup`. -/
def siftUp (pos : Nat) (heap : List α) : List α :=
  let sunk := sinkToLeaf lt heap.length pos heap
  siftDown lt pos sunk.1 sunk.1 sunk.2

/-- `heappush`. -/
def push (heap : List α) (item : α) : List α :=
  siftDown lt 0 heap.length heap.length (heap ++ [item])

/-- `heappop`: the last entry takes the place of the root and sinks. -/
def pop : List α → Option (α × List α)
  | [] => none
  | [item] => some (item, [])
  | root :: second :: rest =>
      let heap := second :: rest
      some (root, siftUp lt 0 (heap.getLastD second :: heap.dropLast))

/-- `heapify`: sift every inner position, the last one first. -/
def heapify (heap : List α) : List α :=
  (List.range (heap.length / 2)).reverse.foldl (fun heap pos => siftUp lt pos heap) heap

/-- Pop until the heap is empty; the number of entries is enough fuel. -/
def drain : Nat → List α → List α
  | 0, _ => []
  | fuel + 1, heap =>
      match pop lt heap with
      | none => []
      | some (item, rest) => item :: drain fuel rest

/-! ## Contents -/

theorem siftDown_perm (startPos fuel pos : Nat) (heap : List α) :
    (siftDown lt startPos fuel pos heap).Perm heap := by
  induction fuel generalizing pos heap with
  | zero => exact .refl heap
  | succ fuel ih =>
      rw [siftDown]
      split
      · exact .refl heap
      · dsimp only
        split
        · split
          · exact (ih _ _).trans (List.swap_perm ..)
          · exact .refl heap
        · exact .refl heap

theorem sinkToLeaf_perm (fuel pos : Nat) (heap : List α) :
    (sinkToLeaf lt fuel pos heap).2.Perm heap := by
  induction fuel generalizing pos heap with
  | zero => exact .refl heap
  | succ fuel ih =>
      rw [sinkToLeaf]
      split
      · exact .refl heap
      · exact (ih _ _).trans (List.swap_perm ..)

theorem siftUp_perm (pos : Nat) (heap : List α) : (siftUp lt pos heap).Perm heap :=
  (siftDown_perm lt ..).trans (sinkToLeaf_perm lt ..)

theorem push_perm (heap : List α) (item : α) : (push lt heap item).Perm (item :: heap) :=
  (siftDown_perm lt ..).trans (List.perm_append_singleton item heap)

theorem heapify_perm (heap : List α) : (heapify lt heap).Perm heap := by
  unfold heapify
  induction (List.range (heap.length / 2)).reverse generalizing heap with
  | nil => exact .refl heap
  | cons pos rest ih => exact (ih _).trans (siftUp_perm lt pos heap)

variable {heap rest : List α}

variable {item : α}

/-- The popped entry and the rest are what the heap contained. -/
theorem perm_of_pop (popped : pop lt heap = some (item, rest)) :
    (item :: rest).Perm heap := by
  match heap with
  | [] => contradiction
  | [_] =>
      cases popped
      exact .refl _
  | root :: second :: entries =>
      cases popped
      apply List.Perm.cons
      apply (siftUp_perm lt ..).trans
      have split : (second :: entries).dropLast ++ [(second :: entries).getLastD second] =
          second :: entries := by
        exact List.dropLast_append_getLast (List.cons_ne_nil second entries)
      have rotated := List.perm_append_singleton ((second :: entries).getLastD second)
        (second :: entries).dropLast
      rw [split] at rotated
      exact rotated.symm

theorem head?_of_pop (popped : pop lt heap = some (item, rest)) :
    heap.head? = some item := by
  match heap with
  | [] => contradiction
  | [_] =>
      cases popped
      rfl
  | _ :: _ :: _ =>
      cases popped
      rfl

theorem isSome_pop (nonempty : heap ≠ []) : (pop lt heap).isSome := by
  match heap with
  | [] => contradiction
  | [_] => rfl
  | _ :: _ :: _ => rfl

/-- Draining with enough fuel lists every entry once. -/
theorem drain_perm {fuel : Nat} (enough : heap.length ≤ fuel) : (drain lt fuel heap).Perm heap := by
  induction fuel generalizing heap with
  | zero =>
      rw [List.length_eq_zero_iff.mp (Nat.le_zero.mp enough)]
      exact .refl _
  | succ fuel ih =>
      rw [drain]
      split
      · rename_i exhausted
        by_cases empty : heap = []
        · rw [empty]
        · have found := isSome_pop lt empty
          rw [exhausted] at found
          contradiction
      · rename_i item rest popped
        have same := perm_of_pop lt popped
        have length := same.length_eq
        rw [List.length_cons] at length
        exact ((ih (by omega)).cons item).trans same

end Heap

end Vllm.Library
