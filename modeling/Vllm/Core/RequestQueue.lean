import Vllm.Core.Request
import Vllm.Library.Heap

/-!
# Request queues

The waiting queues of the scheduler.  A queue holds references to requests, so
it is a list of request ids here.  Under the FCFS policy it is a deque, under
the PRIORITY policy a heap that compares the requests as they are at the time of
the operation.

Whatever the policy, an operation only adds, removes or rearranges ids; the
lemmas of the second half say which, up to order.
-/

namespace Vllm.Core

open Vllm.Library

/-- `SchedulingPolicy`. -/
inductive SchedulingPolicy where
  | fcfs
  | priority
  deriving DecidableEq, Repr

namespace RequestQueue

variable (policy : SchedulingPolicy) (lt : RequestId → RequestId → Bool)

/-- `add_request`. -/
def addRequest (queue : List RequestId) (request : RequestId) : List RequestId :=
  match policy with
  | .fcfs => queue ++ [request]
  | .priority => Heap.push lt queue request

/-- `pop_request`. -/
def popRequest (queue : List RequestId) : Except PyError (RequestId × List RequestId) :=
  match policy with
  | .fcfs =>
      match queue with
      | [] => .error .indexError
      | request :: rest => .ok (request, rest)
  | .priority =>
      match Heap.pop lt queue with
      | none => .error .indexError
      | some popped => .ok popped

/-- `peek_request`. -/
def peekRequest (queue : List RequestId) : Except PyError RequestId :=
  match queue with
  | [] => .error .indexError
  | request :: _ => .ok request

/-- `prepend_request`. -/
def prependRequest (queue : List RequestId) (request : RequestId) : List RequestId :=
  match policy with
  | .fcfs => request :: queue
  | .priority => Heap.push lt queue request

/-- `prepend_requests`: the deque is extended to the left one by one, which
reverses the order; the heap takes the entries in the order of the other heap. -/
def prependRequests (queue requests : List RequestId) : List RequestId :=
  match policy with
  | .fcfs => requests.foldl (fun queue request => request :: queue) queue
  | .priority => (Heap.drain lt requests.length requests).foldl (Heap.push lt) queue

/-- `remove_requests`. -/
def removeRequests (queue requests : List RequestId) : List RequestId :=
  match policy with
  | .fcfs => queue.filter fun request => request ∉ requests
  | .priority => Heap.heapify lt (queue.filter fun request => request ∉ requests)

/-- Iterating over a queue. -/
def iterate (queue : List RequestId) : List RequestId :=
  match policy with
  | .fcfs => queue
  | .priority => Heap.drain lt queue.length queue

/-! ## Contents -/

theorem addRequest_perm (queue : List RequestId) (request : RequestId) :
    (addRequest policy lt queue request).Perm (request :: queue) := by
  cases policy with
  | fcfs => exact List.perm_append_singleton request queue
  | priority => exact Heap.push_perm lt queue request

theorem prependRequest_perm (queue : List RequestId) (request : RequestId) :
    (prependRequest policy lt queue request).Perm (request :: queue) := by
  cases policy with
  | fcfs => exact .refl _
  | priority => exact Heap.push_perm lt queue request

private theorem foldl_perm_append {add : List RequestId → RequestId → List RequestId}
    (adds : ∀ queue request, (add queue request).Perm (request :: queue))
    (queue requests : List RequestId) : (requests.foldl add queue).Perm (requests ++ queue) := by
  induction requests generalizing queue with
  | nil => exact .refl queue
  | cons request rest ih =>
      apply (ih (add queue request)).trans
      apply ((adds queue request).append_left rest).trans
      exact List.perm_middle

theorem prependRequests_perm (queue requests : List RequestId) :
    (prependRequests policy lt queue requests).Perm (requests ++ queue) := by
  cases policy with
  | fcfs => exact foldl_perm_append (fun _ _ => .refl _) queue requests
  | priority =>
      apply (foldl_perm_append (Heap.push_perm lt) queue _).trans
      exact (Heap.drain_perm lt (Nat.le_refl _)).append_right queue

theorem removeRequests_perm (queue requests : List RequestId) :
    (removeRequests policy lt queue requests).Perm
      (queue.filter fun request => request ∉ requests) := by
  cases policy with
  | fcfs => exact .refl _
  | priority => exact Heap.heapify_perm lt _

variable {request : RequestId}

/-- Popping takes the entry that `peek_request` shows. -/
theorem popRequest_spec {queue rest : List RequestId}
    (popped : popRequest policy lt queue = .ok (request, rest)) :
    queue.head? = some request ∧ (request :: rest).Perm queue := by
  cases policy with
  | fcfs =>
      cases queue with
      | nil => contradiction
      | cons first others =>
          cases popped
          exact ⟨rfl, .refl _⟩
  | priority =>
      simp only [popRequest] at popped
      split at popped
      · contradiction
      · rename_i entry found
        cases popped
        exact ⟨Heap.head?_of_pop lt found, Heap.perm_of_pop lt found⟩

theorem peekRequest_eq_ok {queue : List RequestId} :
    peekRequest queue = .ok request ↔ queue.head? = some request := by
  cases queue <;> simp [peekRequest]

end RequestQueue

end Vllm.Core
