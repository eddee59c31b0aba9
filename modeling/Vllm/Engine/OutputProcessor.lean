import Vllm.Engine.RequestOutputs
import Vllm.Library.Dict

/-!
# The output processor

The state of the requests that the front end serves, with the maps that find a request by its
external id and by its parent.  Parent objects are shared by their children: they live in a heap,
and the registry of parents holds keys of it.
-/

namespace Vllm.Engine

open Vllm.Core Vllm.Library

/-- The detokenizer, the log probabilities and the array operations that outputs are made with. -/
structure Processing (π : Payload) where
  Detokenizer : Type
  update : Detokenizer → List Nat → Bool → Option (List Char) × Detokenizer
  getNextOutputText : Detokenizer → Bool → Bool → List Char × Detokenizer
  outputTokenIds : Detokenizer → List Nat
  EngineLogprobs : Type
  LogprobsProcessor : Type
  updateFromOutput : LogprobsProcessor → Option EngineLogprobs → LogprobsProcessor
  logprobs : LogprobsProcessor → Option (List π.Logprob)
  cumulativeLogprob : LogprobsProcessor → Option π.Score
  concatenate : List π.Experts → π.Experts
  MaskChunk : Type
  mergeMasks : List MaskChunk → π.Mask

/-- `FinishReason`. -/
inductive FinishReason where
  | stop
  | length
  | abort
  | error
  | repetition
deriving DecidableEq, Repr

/-- `FINISH_REASON_STRINGS`. -/
def FinishReason.string : FinishReason → String
  | stop => "stop"
  | length => "length"
  | abort => "abort"
  | error => "error"
  | repetition => "repetition"

variable {π : Payload} {κ : Type}

/-- `StreamingUpdate`, without its prompt. -/
structure StreamingUpdate where
  final : Bool := false
deriving DecidableEq, Repr

/-- `RequestState`.  Pooling requests have no processors; `κ` are the collectors. -/
structure RequestState (ρ : Processing π) (κ : Type) where
  requestId : RequestId
  externalReqId : String
  parentReq : Option String := none
  requestIndex : Nat := 0
  outputKind : RequestOutputKind
  processors : Option (ρ.Detokenizer × ρ.LogprobsProcessor)
  queue : Option κ
  streamInterval : Nat
  sentTokensOffset : Nat := 0
  streamingInput : Bool := false
  inputChunkQueue : Option (List StreamingUpdate) := none
  routedExpertsChunks : List π.Experts := []
  samplingMaskChunks : List ρ.MaskChunk := []
  specDecodeMetrics : Option π.Metrics := none

/-- What is reported to a consumer: outputs of completions, of which aggregated ones may be
missing, pooled data, or the end of a stream. -/
inductive Report (π : Payload) where
  | completions (requestId : String) (outputs : List (Option (CompletionOutput π)))
      (finished : Bool) (kvTransferParams ecTransferParams : Option π.Params)
  | pooling (requestId : String) (data : π.Pooling) (finished : Bool)
  | streamFinished

/-- `EngineCoreOutput`, as far as the output processor reads it. -/
structure EngineCoreOutput (ρ : Processing π) where
  requestId : RequestId
  newTokenIds : List Nat := []
  newLogprobs : Option ρ.EngineLogprobs := none
  poolingOutput : Option π.Pooling := none
  finishReason : Option FinishReason := none
  stopReason : Option (Int ⊕ String) := none
  kvTransferParams : Option π.Params := none
  ecTransferParams : Option π.Params := none
  routedExperts : Option π.Experts := none
  newSamplingMask : Option ρ.MaskChunk := none
  specDecodeMetrics : Option π.Metrics := none

/-- `EngineCoreRequest`, with the processors that `from_new_request` makes for it. -/
structure EngineCoreRequest (ρ : Processing π) where
  requestId : RequestId
  externalReqId : String
  samplingParams : SamplingParams
  processors : Option (ρ.Detokenizer × ρ.LogprobsProcessor)
  resumable : Bool := false

variable {ρ : Processing π}

namespace RequestState

/-- `from_new_request`. -/
def fromNewRequest (request : EngineCoreRequest ρ) (parentReq : Option String)
    (requestIndex : Nat) (queue : Option κ) (streamInterval : Nat) : RequestState ρ κ where
  requestId := request.requestId
  externalReqId := request.externalReqId
  parentReq
  requestIndex
  outputKind := request.samplingParams.outputKind
  processors := request.processors
  queue
  streamInterval := request.samplingParams.streamInterval.elim streamInterval
    fun interval => max interval streamInterval
  streamingInput := request.resumable
  inputChunkQueue := if request.resumable then some [] else none

/-- `apply_streaming_update`. -/
def applyStreamingUpdate (state : RequestState ρ κ) (update : StreamingUpdate) :
    RequestState ρ κ :=
  { state with streamingInput := !update.final }

/-- `_new_completion_output`. -/
def newCompletionOutput (state : RequestState ρ κ) (detokenizer : ρ.Detokenizer)
    (logprobsProcessor : ρ.LogprobsProcessor) (tokenIds : List Nat)
    (finishReason : Option FinishReason) (stopReason : Option (Int ⊕ String)) :
    CompletionOutput π × ρ.Detokenizer :=
  let finished := finishReason.isSome
  let delta := state.outputKind = .delta
  let (text, detokenizer) := ρ.getNextOutputText detokenizer finished delta
  let tokenIds := if delta then tokenIds else ρ.outputTokenIds detokenizer
  let logprobs := (ρ.logprobs logprobsProcessor).map fun logprobs =>
    if delta then logprobs.drop (logprobs.length - tokenIds.length) else logprobs
  let completion :=
    { index := state.requestIndex
      text
      tokenIds
      routedExperts :=
        if finished && !state.routedExpertsChunks.isEmpty then
          some (ρ.concatenate state.routedExpertsChunks)
        else none
      samplingMask :=
        if finished && !state.samplingMaskChunks.isEmpty then
          some (ρ.mergeMasks state.samplingMaskChunks)
        else none
      logprobs
      cumulativeLogprob := ρ.cumulativeLogprob logprobsProcessor
      finishReason := finishReason.map FinishReason.string
      stopReason := if finished then stopReason else none
      specDecodeMetrics := if finished then state.specDecodeMetrics else none }
  (completion, detokenizer)

/-- The stream interval: nothing is sent before it is reached, and then all tokens not sent yet. -/
def intervalTokens (state : RequestState ρ κ) (newTokenIds : List Nat) (finished : Bool) :
    Except PyError (Option (List Nat × RequestState ρ κ)) :=
  if state.streamInterval > 1 then
    match state.processors with
    | none => throw .assertionError
    | some (detokenizer, _) =>
        let outputTokenIds := ρ.outputTokenIds detokenizer
        if !(finished || state.sentTokensOffset = 0 ||
            state.sentTokensOffset + state.streamInterval ≤ outputTokenIds.length) then
          return none
        else if state.outputKind = .delta then
          return some (outputTokenIds.drop state.sentTokensOffset,
            { state with sentTokensOffset := outputTokenIds.length })
        else return some (newTokenIds, state)
  else return some (newTokenIds, state)

/-- `make_request_output`, with the heap of parent objects. -/
def makeRequestOutput (state : RequestState ρ κ) (parents : Dict String (ParentRequest π))
    (newTokenIds : List Nat) (poolingOutput : Option π.Pooling)
    (finishReason : Option FinishReason) (stopReason : Option (Int ⊕ String))
    (kvTransferParams ecTransferParams : Option π.Params) :
    Except PyError (Option (Report π) × RequestState ρ κ × Dict String (ParentRequest π)) := do
  let finished := finishReason.isSome
  if !finished && state.outputKind = .finalOnly then return (none, state, parents)
  else
    match ← state.intervalTokens newTokenIds finished with
    | none => return (none, state, parents)
    | some (newTokenIds, state) =>
        match poolingOutput, state.processors with
        | some pooled, _ => return (some (.pooling state.externalReqId pooled finished), state, parents)
        | none, none => throw .assertionError
        | none, some (detokenizer, logprobsProcessor) =>
            let (output, detokenizer) :=
              state.newCompletionOutput detokenizer logprobsProcessor newTokenIds finishReason
                stopReason
            let state := { state with processors := some (detokenizer, logprobsProcessor) }
            match state.parentReq.bind fun id => (parents.get? id).map fun parent =>
              (id, parent) with
            | none =>
                return (some (.completions state.externalReqId [some output] finished
                  kvTransferParams ecTransferParams), state, parents)
            | some (id, parent) => do
                let ((outputs, finished), parent) ← parent.getOutputs state.requestId output
                let report :=
                  if outputs.isEmpty then none
                  else some (.completions parent.externalReqId outputs finished
                    kvTransferParams ecTransferParams)
                return (report, state, parents.insert id parent)

end RequestState

/-- `report.finished = False`, for requests whose input goes on. -/
def Report.unfinished : Report π → Report π
  | .completions requestId outputs _ kvTransferParams ecTransferParams =>
      .completions requestId outputs false kvTransferParams ecTransferParams
  | .pooling requestId data _ => .pooling requestId data false
  | .streamFinished => .streamFinished

/-- `OutputProcessor`. -/
structure OutputProcessor (ρ : Processing π) (κ : Type) where
  streamInterval : Nat := 1
  requestStates : Dict RequestId (RequestState ρ κ) := Dict.empty
  parentRequests : Dict String Unit := Dict.empty
  externalReqIds : Dict String (List RequestId) := Dict.empty
  parents : Dict String (ParentRequest π) := Dict.empty

/-- A processor with the reports that it has made: those without a collector are returned. -/
structure Processed (ρ : Processing π) (κ : Type) where
  processor : OutputProcessor ρ κ
  reports : List (Option κ × Report π) := []
  reqsToAbort : List RequestId := []

/-- `list.remove`. -/
def pyRemove {α : Type} [DecidableEq α] (values : List α) (value : α) : Except PyError (List α) :=
  if value ∈ values then .ok (values.erase value)
  else .error (.valueError "list.remove(x): x not in list")

namespace OutputProcessor

/-- A request is taken out of the list of its external id, and an empty list goes. -/
def unlist (processor : OutputProcessor ρ κ) (state : RequestState ρ κ) (requestId : RequestId) :
    Except PyError (OutputProcessor ρ κ) := do
  let internalIds ← pyRemove (processor.externalReqIds.getD state.externalReqId []) requestId
  return { processor with
    externalReqIds :=
      if internalIds.isEmpty then processor.externalReqIds.erase state.externalReqId
      else processor.externalReqIds.insert state.externalReqId internalIds }

/-- Whether the children of a parent object have all finished. -/
def noChildren (processor : OutputProcessor ρ κ) (parent : String) : Bool :=
  ((processor.parents.get? parent).elim [] ParentRequest.childRequests).isEmpty

/-- `_finish_request`. -/
def finishRequest (processor : OutputProcessor ρ κ) (state : RequestState ρ κ) :
    Except PyError (OutputProcessor ρ κ) := do
  let processor := { processor with
    requestStates := processor.requestStates.erase state.requestId }
  let processor ← processor.unlist state state.requestId
  match state.parentReq with
  | some parent =>
      if processor.noChildren parent then
        return { processor with parentRequests := processor.parentRequests.erase parent }
      else return processor
  | none => return processor

/-- `_update_streaming_request_state`. -/
def updateStreamingRequestState (processed : Processed ρ κ) (state : RequestState ρ κ)
    (request : EngineCoreRequest ρ) : Except PyError (Processed ρ κ) := do
  let store (state : RequestState ρ κ) : Processed ρ κ :=
    { processed with processor := { processed.processor with
        requestStates := processed.processor.requestStates.insert state.requestId state } }
  if !request.resumable then
    match state.inputChunkQueue with
    | none =>
        let processor ← processed.processor.finishRequest state
        return { processed with
          processor
          reports := processed.reports ++
            state.queue.elim [] fun queue => [(some queue, Report.streamFinished)] }
    | some [] => return store { state with streamingInput := false }
    | some (update :: rest) =>
        return store { state with
          inputChunkQueue := some ((update :: rest).dropLast ++ [{ final := true }]) }
  else
    match state.inputChunkQueue with
    | none => return store { state.applyStreamingUpdate {} with inputChunkQueue := some [] }
    | some updates => return store { state with inputChunkQueue := some (updates ++ [{}]) }

/-- `add_request`. -/
def addRequest (processor : OutputProcessor ρ κ) (request : EngineCoreRequest ρ)
    (parentReq : Option String) (requestIndex : Nat) (queue : Option κ) :
    Except PyError (Processed ρ κ) :=
  match processor.requestStates.get? request.requestId with
  | some state => updateStreamingRequestState { processor } state request
  | none =>
      let state := RequestState.fromNewRequest request parentReq requestIndex queue
        processor.streamInterval
      return { processor := { processor with
        requestStates := processor.requestStates.insert request.requestId state
        parentRequests := parentReq.elim processor.parentRequests fun parent =>
          processor.parentRequests.insert parent ()
        externalReqIds := processor.externalReqIds.insert state.externalReqId
          (processor.externalReqIds.getD state.externalReqId [] ++ [request.requestId]) } }

/-- What a request takes in of an output before it is reported: the finish and stop reasons may be
those of a stop string. -/
def takeOutput (state : RequestState ρ κ) (output : EngineCoreOutput ρ) :
    Except PyError (RequestState ρ κ × Option FinishReason × Option (Int ⊕ String)) :=
  let state := { state with
    routedExpertsChunks := state.routedExpertsChunks ++ output.routedExperts.toList
    specDecodeMetrics := output.specDecodeMetrics.orElse fun _ => state.specDecodeMetrics }
  match output.poolingOutput, state.processors with
  | some _, _ => return (state, output.finishReason, output.stopReason)
  | none, none => throw .assertionError
  | none, some (detokenizer, logprobsProcessor) =>
      let (stopString, detokenizer) :=
        ρ.update detokenizer output.newTokenIds (output.finishReason = some .stop)
      let state := { state with
        samplingMaskChunks := state.samplingMaskChunks ++ output.newSamplingMask.toList
        processors := some (detokenizer, ρ.updateFromOutput logprobsProcessor output.newLogprobs) }
      match stopString with
      | none | some [] => return (state, output.finishReason, output.stopReason)
      | some (char :: text) =>
          return (state, some .stop, some (.inr (String.ofList (char :: text))))

/-- The end of a request, or of one part of its input. -/
def freeCompleted (processed : Processed ρ κ) (state : RequestState ρ κ)
    (output : EngineCoreOutput ρ) : Except PyError (Processed ρ κ) := do
  let store (state : RequestState ρ κ) : Processed ρ κ :=
    { processed with processor := { processed.processor with
        requestStates := processed.processor.requestStates.insert state.requestId state } }
  if state.streamingInput then
    match state.inputChunkQueue with
    | some (update :: rest) =>
        return store { state.applyStreamingUpdate update with inputChunkQueue := some rest }
    | _ => return store { state with inputChunkQueue := none }
  else
    let processor ← processed.processor.finishRequest state
    return { processed with
      processor
      reqsToAbort := processed.reqsToAbort ++
        if output.finishReason.isSome then [] else [state.requestId] }

/-- One round of the loop of `process_outputs`. -/
def processOutput (processed : Processed ρ κ) (output : EngineCoreOutput ρ) :
    Except PyError (Processed ρ κ) :=
  match processed.processor.requestStates.get? output.requestId with
  | none => return processed
  | some state => do
      let (state, finishReason, stopReason) ← takeOutput state output
      let (report, state, parents) ← state.makeRequestOutput processed.processor.parents
        output.newTokenIds output.poolingOutput finishReason stopReason
        output.kvTransferParams output.ecTransferParams
      let report := report.map fun report =>
        if state.streamingInput then report.unfinished else report
      let processed := { processed with
        processor := { processed.processor with
          requestStates := processed.processor.requestStates.insert state.requestId state
          parents }
        reports := processed.reports ++ report.toList.map fun report => (state.queue, report) }
      if finishReason.isSome then freeCompleted processed state output
      else return processed

/-- `process_outputs`. -/
def processOutputs (processor : OutputProcessor ρ κ)
    (engineCoreOutputs : List (EngineCoreOutput ρ)) :
    Except PyError (Processed ρ κ) :=
  engineCoreOutputs.foldlM processOutput { processor }

/-- The ids of `abort_requests`, internal or external ones. -/
inductive AbortIds where
  | internal (requestIds : List RequestId)
  | external (requestIds : List String)

/-- The first loop of `abort_requests` for internal ids. -/
def unlistAll (processor : OutputProcessor ρ κ) (requestIds : List RequestId) :
    Except PyError (OutputProcessor ρ κ) :=
  requestIds.foldlM
    (fun processor requestId =>
      match processor.requestStates.get? requestId with
      | none => return processor
      | some state => processor.unlist state requestId)
    processor

/-- The first loop of `abort_requests` for external ids. -/
def popExternal (processor : OutputProcessor ρ κ) (requestIds : List String) :
    OutputProcessor ρ κ × List RequestId :=
  requestIds.foldl
    (fun popped requestId =>
      ({ popped.1 with externalReqIds := popped.1.externalReqIds.erase requestId },
        popped.2 ++ popped.1.externalReqIds.getD requestId []))
    (processor, [])

/-- The pooled data of an aborted pooling request is empty. -/
def abortState (empty : π.Pooling) (processed : Processed ρ κ) (state : RequestState ρ κ)
    (requestId : RequestId) : Except PyError (Processed ρ κ) := do
  let processed := { processed with
    processor := { processed.processor with
      requestStates := processed.processor.requestStates.erase requestId }
    reqsToAbort := processed.reqsToAbort ++ [requestId] }
  match state.queue with
  | none => return processed
  | some queue =>
      let (report, _, parents) ← state.makeRequestOutput processed.processor.parents []
        (if state.processors.isNone then some empty else none) (some .abort) none none none
      return { processed with
        processor := { processed.processor with parents }
        reports := processed.reports ++ report.toList.map fun report => (some queue, report) }

/-- The second loop of `abort_requests`, for ids that are no parents. -/
def abortListed (empty : π.Pooling) (processed : Processed ρ κ) (requestId : RequestId) :
    Except PyError (Processed ρ κ) :=
  match processed.processor.requestStates.get? requestId with
  | some state => abortState empty processed state requestId
  | none => return processed

/-- The recursive call for the children of a parent.  It goes no deeper: a child is no parent. -/
def abortChildren (empty : π.Pooling) (processed : Processed ρ κ) (childReqs : List RequestId) :
    Except PyError (Processed ρ κ) := do
  let processor ← processed.processor.unlistAll childReqs
  childReqs.foldlM (abortListed empty) { processed with processor }

/-- The second loop of `abort_requests`. -/
def abortRequest (empty : π.Pooling) (processed : Processed ρ κ) (requestId : RequestId) :
    Except PyError (Processed ρ κ) :=
  match processed.processor.requestStates.get? requestId, requestId with
  | some state, _ => abortState empty processed state requestId
  | none, .child .. => return processed
  | none, .request id =>
      if processed.processor.parentRequests.contains id then do
        let childRequests := (processed.processor.parents.get? id).elim [] ParentRequest.childRequests
        let processed ← abortChildren empty processed childRequests
        return { processed with processor := { processed.processor with
          parentRequests := processed.processor.parentRequests.erase id } }
      else return processed

/-- `abort_requests`. -/
def abortRequests (empty : π.Pooling) (processor : OutputProcessor ρ κ) (requestIds : AbortIds) :
    Except PyError (Processed ρ κ) := do
  let (processor, internalReqIds) ← match requestIds with
    | .internal requestIds => do pure (← processor.unlistAll requestIds, requestIds)
    | .external requestIds => pure (processor.popExternal requestIds)
  internalReqIds.foldlM (abortRequest empty) { processor }

end OutputProcessor

end Vllm.Engine
