import Mathlib.Data.List.Basic
import Vllm.Core.Error

/-!
# Request outputs and their collector

The outputs of a request are handed to the task that consumes them by a collector with room for one
output.  An output that is put while another waits is merged into it.
-/

namespace Vllm.Engine

open Vllm.Core

/-- The types of what an output carries and never looks into. -/
structure Payload where
  Logprob : Type
  Score : Type
  Experts : Type
  Mask : Type
  Metrics : Type
  Params : Type
  Pooling : Type
  Error : Type

/-- `CompletionOutput`.  The stop reason is a token or a stop string. -/
structure CompletionOutput (π : Payload) where
  index : Nat
  text : List Char
  tokenIds : List Nat
  cumulativeLogprob : Option π.Score := none
  logprobs : Option (List π.Logprob) := none
  routedExperts : Option π.Experts := none
  finishReason : Option String := none
  stopReason : Option (Int ⊕ String) := none
  samplingMask : Option π.Mask := none
  specDecodeMetrics : Option π.Metrics := none

/-- `RequestOutput`, as far as merging looks at it. -/
structure RequestOutput (π : Payload) where
  outputs : List (CompletionOutput π)
  finished : Bool
  kvTransferParams : Option π.Params := none
  ecTransferParams : Option π.Params := none

variable {π : Payload}

namespace CompletionOutput

/-- `finished`. -/
def finished (completion : CompletionOutput π) : Bool :=
  completion.finishReason.isSome

/-- The aggregating branch of `RequestOutput.add` for two completions of one index. -/
def aggregate (completion nextCompletion : CompletionOutput π) :
    Except PyError (CompletionOutput π) := do
  let logprobs ← match nextCompletion.logprobs with
    | none | some [] => pure completion.logprobs
    | some (logprob :: more) => do
        let known ← (completion.logprobs.elim (throw .assertionError) pure :
          Except PyError (List π.Logprob))
        pure (some (known ++ logprob :: more))
  return { completion with
    text := completion.text ++ nextCompletion.text
    tokenIds := completion.tokenIds ++ nextCompletion.tokenIds
    logprobs
    cumulativeLogprob := nextCompletion.cumulativeLogprob
    finishReason := nextCompletion.finishReason
    stopReason := nextCompletion.stopReason }

end CompletionOutput

namespace RequestOutput

/-- The inner loop of `add`: the first completion of the same index takes the new one in. -/
def addCompletion (aggregate : Bool) (nextCompletion : CompletionOutput π) :
    List (CompletionOutput π) → Except PyError (List (CompletionOutput π))
  | [] => return [nextCompletion]
  | completion :: rest =>
      if completion.index = nextCompletion.index then
        if aggregate then do
          return (← completion.aggregate nextCompletion) :: rest
        else return nextCompletion :: rest
      else do
        return completion :: (← addCompletion aggregate nextCompletion rest)

/-- `add`. -/
def add (output nextOutput : RequestOutput π) (aggregate : Bool) :
    Except PyError (RequestOutput π) := do
  let outputs ← nextOutput.outputs.foldlM
    (fun outputs nextCompletion => addCompletion aggregate nextCompletion outputs) output.outputs
  return {
    outputs
    finished := output.finished || nextOutput.finished
    kvTransferParams := nextOutput.kvTransferParams
    ecTransferParams := nextOutput.ecTransferParams }

end RequestOutput

/-- What waits in a collector. -/
inductive CollectorItem (π : Payload) where
  | request (output : RequestOutput π)
  | pooling (output : π.Pooling)
  | exception (error : π.Error)

/-- `RequestOutputKind`. -/
inductive RequestOutputKind where
  | cumulative
  | delta
  | finalOnly
deriving DecidableEq, Repr

/-- `RequestOutputCollector`. -/
structure RequestOutputCollector (π : Payload) where
  aggregate : Bool
  output : Option (CollectorItem π) := none

namespace RequestOutputCollector

/-- `__init__`. -/
def new (outputKind : RequestOutputKind) : RequestOutputCollector π where
  aggregate := outputKind = .delta

/-- `put`. -/
def put (collector : RequestOutputCollector π) (item : CollectorItem π) :
    Except PyError (RequestOutputCollector π) :=
  match collector.output, item with
  | none, _ | _, .exception _ => return { collector with output := some item }
  | some (.request output), .request nextOutput => do
      let merged ← output.add nextOutput collector.aggregate
      return { collector with output := some (.request merged) }
  | some (.pooling _), .pooling _ => return { collector with output := some item }
  | some _, _ => return collector

/-- `get_nowait`, and `get` once it is ready.  An exception is raised to the consumer. -/
def get (collector : RequestOutputCollector π) :
    Option (CollectorItem π) × RequestOutputCollector π :=
  (collector.output, { collector with output := none })

variable {collector : RequestOutputCollector π}

theorem put_idle (idle : collector.output = none) (item : CollectorItem π) :
    collector.put item = .ok { collector with output := some item } := by
  unfold put
  rw [idle]
  rfl

theorem put_request {output : RequestOutput π} (waiting : collector.output = some (.request output))
    (nextOutput : RequestOutput π) :
    collector.put (.request nextOutput) =
      output.add nextOutput collector.aggregate >>= fun merged =>
        .ok { collector with output := some (.request merged) } := by
  unfold put
  rw [waiting]
  rfl

end RequestOutputCollector

/-! ## Merging completions -/

namespace CompletionOutput

/-- New log probabilities need a list to go to. -/
def Takes (completion nextCompletion : CompletionOutput π) : Prop :=
  completion.logprobs = none → nextCompletion.logprobs.getD [] = []

/-- The completion that aggregating leaves. -/
def aggregated (completion nextCompletion : CompletionOutput π) : CompletionOutput π :=
  { completion with
    text := completion.text ++ nextCompletion.text
    tokenIds := completion.tokenIds ++ nextCompletion.tokenIds
    logprobs := completion.logprobs.map fun known => known ++ nextCompletion.logprobs.getD []
    cumulativeLogprob := nextCompletion.cumulativeLogprob
    finishReason := nextCompletion.finishReason
    stopReason := nextCompletion.stopReason }

variable {completion nextCompletion : CompletionOutput π}

theorem aggregate_eq (takes : completion.Takes nextCompletion) :
    completion.aggregate nextCompletion = .ok (completion.aggregated nextCompletion) := by
  rcases completion with ⟨index, text, tokenIds, score, logprobs⟩
  rcases nextCompletion with ⟨index', text', tokenIds', score', logprobs'⟩
  rcases logprobs' with _ | _ | ⟨logprob, more⟩
  · cases logprobs <;> simp [aggregate, aggregated, bind, Except.bind, pure, Except.pure]
  · cases logprobs <;> simp [aggregate, aggregated, bind, Except.bind, pure, Except.pure]
  · cases logprobs with
    | none => exact absurd (takes rfl) (List.cons_ne_nil _ _)
    | some known => rfl

theorem takes_of_aggregate {merged : CompletionOutput π}
    (done : completion.aggregate nextCompletion = .ok merged) :
    completion.Takes nextCompletion := by
  intro missing
  rcases completion with ⟨index, text, tokenIds, score, logprobs⟩
  rcases nextCompletion with ⟨index', text', tokenIds', score', logprobs'⟩
  cases missing
  rcases logprobs' with _ | _ | ⟨logprob, more⟩
  · rfl
  · rfl
  · cases done

end CompletionOutput

namespace RequestOutput

open CompletionOutput

/-- The completion of an index. -/
def completionAt (index : Nat) (completions : List (CompletionOutput π)) :
    Option (CompletionOutput π) :=
  completions.find? fun completion => completion.index = index

variable {completions : List (CompletionOutput π)} {completion nextCompletion : CompletionOutput π}

theorem completionAt_index {index : Nat} (found : completionAt index completions = some completion) :
    completion.index = index := by
  simpa using List.find?_some found

/-- Where completions have their own indices, one of them is found for its index. -/
theorem completionAt_of_mem (distinct : (completions.map CompletionOutput.index).Nodup)
    (member : completion ∈ completions) :
    completionAt completion.index completions = some completion := by
  induction completions with
  | nil => cases member
  | cons head rest inductionHypothesis =>
      rw [List.map_cons, List.nodup_cons] at distinct
      rw [completionAt, List.find?_cons]
      rcases List.mem_cons.mp member with rfl | later
      · simp
      · have other : head.index ≠ completion.index := by
          intro same
          apply distinct.1
          rw [same]
          exact List.mem_map_of_mem later
        simp only [other, decide_false]
        exact inductionHypothesis distinct.2 later

theorem filter_index (distinct : (completions.map CompletionOutput.index).Nodup) (index : Nat) :
    (completions.filter fun completion => completion.index = index) =
      (completionAt index completions).toList := by
  induction completions with
  | nil => rfl
  | cons head rest inductionHypothesis =>
      rw [List.map_cons, List.nodup_cons] at distinct
      rw [completionAt, List.filter_cons, List.find?_cons]
      by_cases own : head.index = index
      · simp only [own, decide_true, if_true, Option.toList_some]
        congr 1
        rw [List.filter_eq_nil_iff]
        intro other member same
        apply distinct.1
        rw [own, ← of_decide_eq_true same]
        exact List.mem_map_of_mem member
      · simp only [own, decide_false, Bool.false_eq_true, if_false]
        exact inductionHypothesis distinct.2

/-- What `addCompletion` leaves at each index. -/
theorem addCompletion_spec {after : List (CompletionOutput π)}
    (added : addCompletion true nextCompletion completions = .ok after) :
    (∀ known, completionAt nextCompletion.index completions = some known →
      known.Takes nextCompletion) ∧
    after.map CompletionOutput.index =
      (if (completionAt nextCompletion.index completions).isSome then
        completions.map CompletionOutput.index
      else completions.map CompletionOutput.index ++ [nextCompletion.index]) ∧
    ∀ index, completionAt index after =
      if nextCompletion.index = index then
        some ((completionAt index completions).elim nextCompletion
          fun known => known.aggregated nextCompletion)
      else completionAt index completions := by
  induction completions generalizing after with
  | nil =>
      cases added
      refine ⟨?_, rfl, ?_⟩
      · rintro known ⟨⟩
      · intro index
        by_cases own : nextCompletion.index = index <;> simp [completionAt, own]
  | cons head rest inductionHypothesis =>
      rw [addCompletion] at added
      by_cases own : head.index = nextCompletion.index
      · rw [if_pos own, if_pos rfl] at added
        rcases bind_eq_ok.mp added with ⟨merged, done, same⟩
        cases same
        have takes := takes_of_aggregate done
        rw [aggregate_eq takes] at done
        cases done
        have here : completionAt nextCompletion.index (head :: rest) = some head := by
          simp [completionAt, own]
        rw [here]
        refine ⟨?_, ?_, ?_⟩
        · rintro known ⟨⟩
          exact takes
        · rfl
        · intro index
          have kept : (head.aggregated nextCompletion).index = head.index := rfl
          by_cases mine : nextCompletion.index = index
          · simp [completionAt, kept, own, mine]
          · simp [completionAt, kept, own, mine]
      · rw [if_neg own] at added
        rcases bind_eq_ok.mp added with ⟨others, done, same⟩
        cases same
        rcases inductionHypothesis done with ⟨takes, indices, found⟩
        have skip : completionAt nextCompletion.index (head :: rest) =
            completionAt nextCompletion.index rest := by
          simp [completionAt, own]
        rw [skip]
        refine ⟨takes, ?_, ?_⟩
        · rw [List.map_cons, indices]
          split <;> rfl
        · intro index
          by_cases mine : head.index = index
          · have other : nextCompletion.index ≠ index := fun same => own (mine.trans same.symm)
            simp [completionAt, mine, other]
          · have later := found index
            simp only [completionAt, List.find?_cons, mine, decide_false] at later ⊢
            exact later

/-- A completion that fits the one of its index is added. -/
theorem addCompletion_ok
    (takes : ∀ known, completionAt nextCompletion.index completions = some known →
      known.Takes nextCompletion) :
    ∃ after, addCompletion true nextCompletion completions = .ok after := by
  induction completions with
  | nil => exact ⟨_, rfl⟩
  | cons head rest inductionHypothesis =>
      rw [addCompletion]
      by_cases own : head.index = nextCompletion.index
      · rw [if_pos own, if_pos rfl, aggregate_eq (takes head (by simp [completionAt, own]))]
        exact ⟨_, rfl⟩
      · rw [if_neg own]
        rcases inductionHypothesis (fun known found => takes known (by
          simpa [completionAt, own] using found)) with ⟨after, added⟩
        rw [added]
        exact ⟨_, rfl⟩

end RequestOutput

end Vllm.Engine

/-!
## Parallel sampling

A request for several completions is fanned out into child requests, which share one parent object.
-/

namespace Vllm.Engine

open Vllm.Core

/-- Internal request ids; that of a child is `{index}_{parent}`.  The random suffix of an assigned
id keeps it apart from those of children. -/
inductive RequestId where
  | request (id : String)
  | child (index : Nat) (parent : String)
deriving DecidableEq, Repr

/-- What the front end reads of `SamplingParams`. -/
structure SamplingParams where
  n : Nat := 1
  seed : Option Int := none
  outputKind : RequestOutputKind := .cumulative
  streamInterval : Option Nat := none
deriving DecidableEq, Repr

variable {π : Payload}

/-- `ParentRequest`. -/
structure ParentRequest (π : Payload) where
  requestId : String
  externalReqId : String
  samplingParams : SamplingParams
  childRequests : List RequestId := []
  outputAggregator : List (Option (CompletionOutput π))
  cachedChildSamplingParams : Option SamplingParams := none

namespace ParentRequest

/-- `__init__`. -/
def new (requestId externalReqId : String) (samplingParams : SamplingParams) :
    ParentRequest π where
  requestId
  externalReqId
  samplingParams
  outputAggregator :=
    if samplingParams.outputKind = .finalOnly then List.replicate samplingParams.n none else []

/-- `_get_child_sampling_params`. -/
def getChildSamplingParams (parent : ParentRequest π) (index : Nat) :
    SamplingParams × ParentRequest π :=
  match parent.cachedChildSamplingParams with
  | some params => (params, parent)
  | none =>
      let childSamplingParams := { parent.samplingParams with n := 1 }
      match parent.samplingParams.seed with
      | none =>
          (childSamplingParams,
            { parent with cachedChildSamplingParams := some childSamplingParams })
      | some seed => ({ childSamplingParams with seed := some (seed + index) }, parent)

/-- `get_child_info`. -/
def getChildInfo (parent : ParentRequest π) (index : Nat) :
    (RequestId × SamplingParams) × ParentRequest π :=
  let childReqId := RequestId.child index parent.requestId
  let childRequests :=
    if childReqId ∈ parent.childRequests then parent.childRequests
    else parent.childRequests ++ [childReqId]
  let (params, parent) := { parent with childRequests }.getChildSamplingParams index
  ((childReqId, params), parent)

/-- Storing a completion at its index: the list has a place for each child. -/
def aggregate (outputAggregator : List (Option (CompletionOutput π)))
    (completionOutput : CompletionOutput π) :
    Except PyError (List (Option (CompletionOutput π))) :=
  if completionOutput.index < outputAggregator.length then
    .ok (outputAggregator.set completionOutput.index (some completionOutput))
  else .error .indexError

/-- `get_outputs`.  The aggregated list may still have holes. -/
def getOutputs (parent : ParentRequest π) (childRequestId : RequestId)
    (completionOutput : CompletionOutput π) :
    Except PyError ((List (Option (CompletionOutput π)) × Bool) × ParentRequest π) := do
  let alreadyFinishedAndReturned :=
    completionOutput.finished && !parent.childRequests.contains childRequestId
  let childRequests :=
    if completionOutput.finished then parent.childRequests.filter (· ≠ childRequestId)
    else parent.childRequests
  if parent.samplingParams.outputKind ≠ .finalOnly then
    let outputs := if alreadyFinishedAndReturned then [] else [some completionOutput]
    return ((outputs, childRequests.isEmpty), { parent with childRequests })
  else
    let outputAggregator ← aggregate parent.outputAggregator completionOutput
    let outputs := if childRequests.isEmpty then outputAggregator else []
    return ((outputs, childRequests.isEmpty), { parent with childRequests, outputAggregator })

end ParentRequest

end Vllm.Engine
