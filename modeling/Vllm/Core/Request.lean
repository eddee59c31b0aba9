import Vllm.Core.Error

/-!
# Requests

The record behind `vllm.v1.request.Request`, with the fields that the KV cache
and the scheduler read.  Clock readings are integers: the code only compares
them.
-/

namespace Vllm.Core

/-- Token ids as the tokenizer and the sampler produce them. -/
abbrev TokenId := Int

/-- The `request_id` string. -/
abbrev RequestId := String

/-- Where a multi-modal item sits in the prompt.  `isEmbed` masks the positions
that take an embedding; without it all of them do. -/
structure PlaceholderRange where
  offset : Nat
  length : Nat
  isEmbed : Option (List Bool) := none
  deriving DecidableEq, Repr

namespace PlaceholderRange

/-- `get_num_embeds`: the last entry of the mask's running sums. -/
def getNumEmbeds (range : PlaceholderRange) : Nat :=
  match range.isEmbed with
  | none => range.length
  | some mask => mask.count true

/-- `get_embeds_indices_in_range`.  The mask has an entry for every position of
the range, so the running sums can be read at both ends. -/
def getEmbedsIndicesInRange (range : PlaceholderRange) (startIdx endIdx : Nat) : Nat × Nat :=
  match range.isEmbed with
  | none => (startIdx, endIdx)
  | some mask => ((mask.take startIdx).count true, (mask.take endIdx).count true)

end PlaceholderRange

/-- One multi-modal item; `identifier` is the content hash of its encoder
output. -/
structure MultiModalFeatureSpec where
  identifier : String
  mmPosition : PlaceholderRange
  deriving DecidableEq, Repr

/-- The part of a LoRA request that reaches hashes and events. -/
structure LoRARequest where
  loraName : String
  loraIntId : Nat
  deriving DecidableEq, Repr

/-- The life cycle of a request, in the order of the source enumeration. -/
inductive RequestStatus where
  | waiting
  | waitingForStructuredOutputGrammar
  | waitingForRemoteKvs
  | waitingForStreamingReq
  | running
  | preempted
  | finishedStopped
  | finishedLengthCapped
  | finishedAborted
  | finishedIgnored
  | finishedError
  | finishedRepetition
  deriving DecidableEq, Repr

namespace RequestStatus

/-- Position in the enumeration; `is_finished` compares positions. -/
def toNat : RequestStatus → Nat
  | waiting => 1
  | waitingForStructuredOutputGrammar => 2
  | waitingForRemoteKvs => 3
  | waitingForStreamingReq => 4
  | running => 5
  | preempted => 6
  | finishedStopped => 7
  | finishedLengthCapped => 8
  | finishedAborted => 9
  | finishedIgnored => 10
  | finishedError => 11
  | finishedRepetition => 12

/-- Everything after `PREEMPTED` is a finished status. -/
def isFinished (status : RequestStatus) : Bool :=
  preempted.toNat < status.toNat

end RequestStatus

/-- The parameters of repetition detection. -/
structure RepetitionDetectionParams where
  maxPatternSize : Int
  minPatternSize : Int
  minCount : Int
  deriving DecidableEq, Repr

/-- The sampling parameters that the scheduler consults.  A pooling request has
none, so `Request.samplingParams` is optional. -/
structure SamplingParams where
  maxTokens : Nat
  minTokens : Nat := 0
  eosTokenId : Option TokenId := none
  stopTokenIds : List TokenId := []
  repetitionDetection : Option RepetitionDetectionParams := none
  skipReadingPrefixCache : Option Bool := none
  deriving DecidableEq, Repr

/-- What `stop_reason` holds: a stop token or a text. -/
inductive StopReason where
  | token (tokenId : TokenId)
  | text (message : String)
  deriving DecidableEq, Repr

/-- The data of a streaming continuation. -/
structure StreamingUpdate where
  mmFeatures : Option (List MultiModalFeatureSpec)
  promptTokenIds : Option (List TokenId)
  maxTokens : Nat
  arrivalTime : Int
  samplingParams : Option SamplingParams
  deriving DecidableEq, Repr

/-- A request.  `H` is the type of block hashes. -/
structure Request (H : Type) where
  requestId : RequestId
  priority : Int := 0
  arrivalTime : Int := 0
  status : RequestStatus := .waiting
  stopReason : Option StopReason := none
  samplingParams : Option SamplingParams := none
  /-- Whether `pooling_params` are given. -/
  poolingParams : Bool := false
  useStructuredOutput : Bool := false
  maxTokens : Nat := 1
  loraRequest : Option LoRARequest := none
  cacheSalt : Option String := none
  mmFeatures : List MultiModalFeatureSpec := []
  /-- One row of raw bytes per embedded position. -/
  promptEmbeds : Option (List (List UInt8)) := none
  promptTokenIds : Option (List TokenId) := none
  promptIsTokenIds : Option (List Bool) := none
  numPromptTokens : Nat := 0
  outputTokenIds : List TokenId := []
  allTokenIds : List TokenId := []
  specTokenIds : List TokenId := []
  numComputedTokens : Nat := 0
  numOutputPlaceholders : Int := 0
  numStaleOutputTokens : Int := 0
  dropStaleOutput : Bool := false
  numInFlightTokens : Int := 0
  nextDecodeEligibleStep : Nat := 0
  lastSchedSeq : Nat := 0
  isPrefillChunk : Bool := false
  sharedPrefixBoundary : Nat := 0
  numPreemptions : Nat := 0
  blockHashes : List H := []
  skipReadingPrefixCache : Bool := false
  /-- Whether `kv_cache_report_mode` is `"full"`. -/
  kvCacheReportFull : Bool := false
  resumable : Bool := false
  /-- A `none` entry means that the session is closed. -/
  streamingQueue : Option (List (Option StreamingUpdate)) := none
  deriving DecidableEq, Repr

namespace Request

variable {H : Type}

/-- `num_tokens`: prompt and output tokens together. -/
def numTokens (request : Request H) : Nat :=
  request.allTokenIds.length

/-- `num_tokens_with_spec`: the draft tokens included. -/
def numTokensWithSpec (request : Request H) : Nat :=
  request.allTokenIds.length + request.specTokenIds.length

/-- `num_output_tokens`. -/
def numOutputTokens (request : Request H) : Nat :=
  request.outputTokenIds.length

/-- `has_encoder_inputs`. -/
def hasEncoderInputs (request : Request H) : Bool :=
  !request.mmFeatures.isEmpty

/-- `is_finished`. -/
def isFinished (request : Request H) : Bool :=
  request.status.isFinished

/-- `__lt__`; two requests with the same id are the same object. -/
def lt (request other : Request H) : Bool :=
  if request.priority ≠ other.priority then request.priority < other.priority
  else if request.arrivalTime ≠ other.arrivalTime then request.arrivalTime < other.arrivalTime
  else request.requestId < other.requestId

/-- `get_num_encoder_embeds`. -/
def getNumEncoderEmbeds (request : Request H) (inputId : Nat) : Except PyError Nat := do
  pyAssert (inputId < request.mmFeatures.length)
  let feature ← pyIndex request.mmFeatures inputId
  pure feature.mmPosition.getNumEmbeds

end Request

end Vllm.Core
