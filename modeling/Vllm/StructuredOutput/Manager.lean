import Vllm.Core.Error
import Vllm.Library.Dict

/-!
# Structured output requests

The grammar and the reasoning parser of a request, and what the manager decides from them: whether
a step's bitmask is filled, whether a step's tokens advance the grammar, and which of the tokens
still are reasoning.
-/

namespace Vllm.StructuredOutput

/-- `StructuredOutputGrammar`: what a backend does with the state of a grammar.  The tokens that
are validated come back as far as they are accepted. -/
structure StructuredOutputGrammar (γ : Type) (μ : Type) where
  acceptTokens : γ → List Int → Bool × γ
  validateTokens : γ → List Int → List Int
  rollback : γ → Nat → γ
  fillBitmask : γ → μ
  isTerminated : γ → Bool

/-- The part of `ReasoningParser` that looks at token ids. -/
structure ReasoningParser where
  isReasoningEnd : List Int → Bool
  isReasoningEndStreaming : List Int → List Int → Bool

/-- `StructuredOutputRequest`, with a grammar that is ready.  The reasoning parser of a request is
the manager's class applied to the request's arguments. -/
structure StructuredOutputRequest (γ : Type) (κ : Type) where
  grammar : γ
  reasoningEnded : Option Bool
  reasoningEndTokenIndex : Option Int
  reasoningParserKwargs : κ

/-- What the manager reads of a request with structured output. -/
structure Request (γ : Type) (κ : Type) where
  promptTokenIds : Option (List Int)
  allTokenIds : List Int
  numComputedTokens : Int
  numOutputPlaceholders : Int
  structuredOutputRequest : StructuredOutputRequest γ κ

/-- `StructuredOutputManager` with what it reads of the configuration.  A bitmask that is there has
the rows of a full batch. -/
structure StructuredOutputManager (κ : Type) (μ : Type) where
  reasonerCls : Option (κ → ReasoningParser)
  enableInReasoning : Bool
  maxNumSeqs : Nat
  numSpeculativeTokens : Nat
  isDiffusion : Bool
  fullMask : μ
  grammarBitmask : Option (List μ)
  allocated : ∀ bitmask, grammarBitmask = some bitmask →
    bitmask.length = maxNumSeqs * (1 + numSpeculativeTokens)

variable {γ μ κ : Type}

namespace StructuredOutputGrammar

variable (grammar : StructuredOutputGrammar γ μ)

/-- The state after tokens that are accepted one at a time. -/
def acceptEach : γ → List Int → Option γ
  | state, [] => some state
  | state, token :: rest =>
      if (grammar.acceptTokens state [token]).1 then
        acceptEach (grammar.acceptTokens state [token]).2 rest
      else none

/-- A rollback undoes the tokens accepted last, and a valid token is accepted. -/
structure Lawful : Prop where
  rollback_acceptEach : ∀ state tokens accepted, grammar.acceptEach state tokens = some accepted →
    grammar.rollback accepted tokens.length = state
  accept_of_validate : ∀ state token, grammar.validateTokens state [token] ≠ [] →
    (grammar.acceptTokens state [token]).1 = true

end StructuredOutputGrammar

namespace Request

variable (request : Request γ κ)

def reasoningEnded : Option Bool :=
  request.structuredOutputRequest.reasoningEnded

def grammar : γ :=
  request.structuredOutputRequest.grammar

/-- `structured_req.reasoning_ended = ended`. -/
def setReasoningEnded (ended : Bool) : Request γ κ :=
  { request with
    structuredOutputRequest :=
      { request.structuredOutputRequest with reasoningEnded := some ended } }

/-- Another state of the request's grammar. -/
def setGrammar (state : γ) : Request γ κ :=
  { request with
    structuredOutputRequest := { request.structuredOutputRequest with grammar := state } }

/-- `structured_req.reasoning_end_token_index = index`. -/
def setReasoningEndTokenIndex (index : Int) : Request γ κ :=
  { request with
    structuredOutputRequest :=
      { request.structuredOutputRequest with reasoningEndTokenIndex := some index } }

end Request

/-- The loop of `_find_reasoning_end_index`: `prefix` holds the tokens before `idx`. -/
def findEndFrom (reasoner : ReasoningParser) : List Int → List Int → Option Int
  | _, [] => none
  | before, token :: rest =>
      if reasoner.isReasoningEndStreaming (before ++ [token]) [token] then some before.length
      else findEndFrom reasoner (before ++ [token]) rest

/-- `_find_reasoning_end_index`. -/
def findReasoningEndIndex (reasoner : ReasoningParser) (allTokenIds : List Int) (start : Nat) :
    Int :=
  (findEndFrom reasoner (allTokenIds.take start) (allTokenIds.drop start)).getD
    (allTokenIds.length - 1)

namespace StructuredOutputManager

variable (manager : StructuredOutputManager κ μ)

/-- `_get_reasoner`. -/
def getReasoner (request : Request γ κ) : Option ReasoningParser :=
  manager.reasonerCls.map fun cls => cls request.structuredOutputRequest.reasoningParserKwargs

/-- `should_fill_bitmask`, which remembers whether the prompt has ended the reasoning. -/
def shouldFillBitmask (request : Request γ κ) : Bool × Request γ κ :=
  if manager.enableInReasoning ∨ request.reasoningEnded = some true then (true, request)
  else
    match manager.getReasoner request with
    | none => (true, request)
    | some reasoner =>
        match request.reasoningEnded with
        | some ended => (ended, request)
        | none =>
            let ended := reasoner.isReasoningEnd (request.promptTokenIds.getD [])
            (ended, request.setReasoningEnded ended)

/-- The first index of the tokens that `should_advance` takes for this step's. -/
def deltaStart (request : Request γ κ) (newTokenIds : List Int) : Nat :=
  if newTokenIds ≠ [] then request.allTokenIds.length - newTokenIds.length
  else
    let deltaFrom := request.numComputedTokens - request.numOutputPlaceholders
    if deltaFrom ≥ 0 then deltaFrom.toNat
    else (max (request.allTokenIds.length + deltaFrom) 0).toNat

/-- `should_advance`.  The empty list stands for `None`, which the code treats alike. -/
def shouldAdvance (request : Request γ κ) (newTokenIds : List Int) : Bool × Request γ κ :=
  if manager.enableInReasoning ∨ request.reasoningEnded = some true then (true, request)
  else
    match manager.getReasoner request with
    | none => (true, request)
    | some reasoner =>
        let start := deltaStart request newTokenIds
        let deltaIds :=
          if newTokenIds ≠ [] then newTokenIds else request.allTokenIds.drop start
        if reasoner.isReasoningEndStreaming request.allTokenIds deltaIds then
          (true, (request.setReasoningEnded true).setReasoningEndTokenIndex
            (findReasoningEndIndex reasoner request.allTokenIds start))
        else (false, request)

/-- `trim_reasoning_for_advance`. -/
def trimReasoningForAdvance (request : Request γ κ) (newTokenIds : List Int) : List Int :=
  match request.structuredOutputRequest.reasoningEndTokenIndex with
  | none => newTokenIds
  | some endIdx =>
      let firstIdx : Int := request.allTokenIds.length - newTokenIds.length
      let numReasoning := endIdx + 1 - firstIdx
      if numReasoning ≤ 0 then newTokenIds else newTokenIds.drop numReasoning.toNat

end StructuredOutputManager

end Vllm.StructuredOutput

/-!
## The grammar bitmask of a step

`StructuredOutputManager.grammar_bitmask`: one row for each position of a step that may be sampled,
in the order of the requests.  The serial path advances a grammar over the drafts of its request
and rolls it back; the parallel path hands batches of rows to worker threads.
-/

namespace Vllm.StructuredOutput

open Vllm.Core Vllm.Library

variable {γ μ κ : Type}

/-- One entry of a batch: a grammar, a row, and whether the bitmask applies there. -/
structure Fill (γ : Type) where
  grammar : γ
  index : Nat
  applyBitmask : Bool

/-- What the loop over the drafts of one request works with. -/
structure DraftWindow (γ : Type) (μ : Type) where
  grammar : γ
  applyBitmask : Bool
  postReasoningEndInWindow : Bool
  stateAdvancements : Nat
  bitmask : List μ
  cumulativeIndex : Nat

/-- `fill_bitmask_parallel_threshold`. -/
def fillBitmaskParallelThreshold : Nat := 128

/-- `fill_bitmask_parallel_batch_size`. -/
def fillBitmaskParallelBatchSize : Nat := 16

namespace StructuredOutputManager

variable (backend : StructuredOutputGrammar γ μ) (manager : StructuredOutputManager κ μ)

/-- The row of a grammar, with `-1` everywhere where the bitmask does not apply. -/
def row (state : γ) (applyBitmask : Bool) : μ :=
  if applyBitmask && !backend.isTerminated state then backend.fillBitmask state
  else manager.fullMask

/-- One entry of `_fill_bitmasks`. -/
def fillBitmask (bitmask : List μ) (fill : Fill γ) : Except PyError (List μ) :=
  if fill.index < bitmask.length then
    .ok (bitmask.set fill.index (manager.row backend fill.grammar fill.applyBitmask))
  else .error .indexError

/-- `_fill_bitmasks`. -/
def fillBitmasks : List μ → List (Fill γ) → Except PyError (List μ)
  | bitmask, [] => .ok bitmask
  | bitmask, fill :: rest => do
      let filled ← manager.fillBitmask backend bitmask fill
      fillBitmasks filled rest

/-- The end of reasoning at a draft: the token behind the request's tokens and the drafts before
it. -/
def endsReasoning (reasoner : Option ReasoningParser) (allTokenIds before : List Int)
    (token : Int) : Bool :=
  reasoner.any fun parser =>
    parser.isReasoningEndStreaming (allTokenIds ++ before ++ [token]) [token]

/-- One draft of the serial path.  Drafts behind the end of reasoning predate the bitmask and may be
rejected; any other draft has to be accepted. -/
def fillDraft (reasoner : Option ReasoningParser) (allTokenIds before : List Int) (token : Int)
    (window : DraftWindow γ μ) : Except PyError (DraftWindow γ μ) := do
  let bitmask ← manager.fillBitmask backend window.bitmask
    ⟨window.grammar, window.cumulativeIndex, window.applyBitmask⟩
  let ends := token ≠ -1 ∧ !window.applyBitmask ∧ endsReasoning reasoner allTokenIds before token
  let applyBitmask := if token = -1 then false else window.applyBitmask || decide ends
  let advanceGrammar := window.applyBitmask ∧ token ≠ -1
  let filled := { window with
    bitmask := bitmask
    applyBitmask := applyBitmask
    postReasoningEndInWindow := window.postReasoningEndInWindow || decide ends
    cumulativeIndex := window.cumulativeIndex + 1 }
  if advanceGrammar ∧ !backend.isTerminated window.grammar then
    if filled.postReasoningEndInWindow &&
        (backend.validateTokens window.grammar [token]).isEmpty then
      .ok filled
    else
      let outcome := backend.acceptTokens window.grammar [token]
      if outcome.1 then
        .ok { filled with
          grammar := outcome.2
          stateAdvancements := window.stateAdvancements + 1 }
      else if filled.postReasoningEndInWindow then .ok { filled with grammar := outcome.2 }
      else .error .assertionError
  else .ok filled

/-- The loop over the drafts of a request. -/
def fillDrafts (reasoner : Option ReasoningParser) (allTokenIds : List Int) :
    List Int → List Int → DraftWindow γ μ → Except PyError (DraftWindow γ μ)
  | _, [], window => .ok window
  | before, token :: rest, window => do
      let filled ← manager.fillDraft backend reasoner allTokenIds before token window
      fillDrafts reasoner allTokenIds (before ++ [token]) rest filled

/-- One request of the serial path: the rows of its drafts, the row of the bonus token, and the
rollback. -/
def fillRequest (request : Request γ κ) (reqTokens : List Int) (bitmask : List μ)
    (cumulativeIndex : Nat) : Except PyError (Request γ κ × List μ × Nat) := do
  let (applyBitmask, asked) := manager.shouldFillBitmask request
  let reasoner := if applyBitmask then none else manager.getReasoner asked
  let window ← manager.fillDrafts backend reasoner asked.allTokenIds [] reqTokens
    ⟨asked.grammar, applyBitmask, false, 0, bitmask, cumulativeIndex⟩
  let (shouldFill, asked) := manager.shouldFillBitmask asked
  let restored := if window.stateAdvancements > 0 then
      backend.rollback window.grammar window.stateAdvancements
    else window.grammar
  if manager.isDiffusion ∧ reqTokens ≠ [] then
    .ok (asked.setGrammar restored, window.bitmask, window.cumulativeIndex)
  else do
    let filled ← manager.fillBitmask backend window.bitmask
      ⟨window.grammar, window.cumulativeIndex, shouldFill || window.applyBitmask⟩
    .ok (asked.setGrammar restored, filled, window.cumulativeIndex + 1)

variable {ι : Type} [DecidableEq ι]

/-- The serial path. -/
def fillSerial (scheduledSpecDecodeTokens : Dict ι (List Int)) :
    List ι → Dict ι (Request γ κ) → List μ → Nat →
      Except PyError (Dict ι (Request γ κ) × List μ × Nat)
  | [], requests, bitmask, cumulativeIndex => .ok (requests, bitmask, cumulativeIndex)
  | reqId :: rest, requests, bitmask, cumulativeIndex =>
      match requests.get? reqId with
      | none => .error .keyError
      | some request => do
          let (request, bitmask, cumulativeIndex) ← manager.fillRequest backend request
            (scheduledSpecDecodeTokens.getD reqId []) bitmask cumulativeIndex
          fillSerial scheduledSpecDecodeTokens rest (requests.insert reqId request) bitmask
            cumulativeIndex

/-- The loop of the parallel path that makes the batches. -/
def submitBatches : List ι → Dict ι (Request γ κ) → List (List (Fill γ)) → List (Fill γ) → Nat →
    Except PyError (Dict ι (Request γ κ) × List (List (Fill γ)) × Nat)
  | [], requests, promises, batch, cumulativeIndex =>
      .ok (requests, if batch ≠ [] then promises ++ [batch] else promises, cumulativeIndex)
  | reqId :: rest, requests, promises, batch, cumulativeIndex =>
      match requests.get? reqId with
      | none => .error .keyError
      | some request =>
          let (applyBitmask, asked) := manager.shouldFillBitmask request
          let batch := batch ++ [⟨asked.grammar, cumulativeIndex, applyBitmask⟩]
          if batch.length = fillBitmaskParallelBatchSize then
            submitBatches rest (requests.insert reqId asked) (promises ++ [batch]) []
              (cumulativeIndex + 1)
          else
            submitBatches rest (requests.insert reqId asked) promises batch (cumulativeIndex + 1)

/-- `grammar_bitmask`.  The worker threads fill the rows of the batches in some order. -/
def computeGrammarBitmask (interleave : List (List (Fill γ)) → List (Fill γ))
    (requests : Dict ι (Request γ κ)) (structuredOutputRequestIds : List ι)
    (scheduledSpecDecodeTokens : Dict ι (List Int)) :
    Except PyError (Option (List μ) × Dict ι (Request γ κ)) :=
  if structuredOutputRequestIds = [] then .ok (none, requests)
  else do
    let bitmask := manager.grammarBitmask.getD
      (List.replicate (manager.maxNumSeqs * (1 + manager.numSpeculativeTokens)) manager.fullMask)
    if structuredOutputRequestIds.length > fillBitmaskParallelThreshold ∧
        manager.numSpeculativeTokens = 0 then
      let (requests, promises, cumulativeIndex) ←
        manager.submitBatches structuredOutputRequestIds requests [] [] 0
      let filled ← manager.fillBitmasks backend bitmask (interleave promises)
      .ok (some (filled.take cumulativeIndex), requests)
    else
      let (requests, filled, cumulativeIndex) ←
        manager.fillSerial backend scheduledSpecDecodeTokens structuredOutputRequestIds requests
          bitmask 0
      .ok (some (filled.take cumulativeIndex), requests)

end StructuredOutputManager

end Vllm.StructuredOutput

/-!
## What a request feeds to its grammar

The part of `Scheduler.update_from_output` that appends the tokens of a step to a request and
advances its grammar, with the other two places that ask about the end of reasoning: the bitmask of
a step and the update of the drafts.  However the output tokens are grouped into steps, the grammar
is fed the output tokens behind the end of reasoning.
-/

namespace Vllm.StructuredOutput

variable {γ μ κ : Type}

/-- A request in the scheduler, with the tokens its grammar has been fed. -/
structure Advance (γ κ : Type) where
  request : Request γ κ
  fed : List Int
  stopped : Bool

/-- What the scheduler does for a request: fill its bitmask, take the generated tokens of a step, or
update its drafts, with the counts of computed tokens and placeholders of that moment. -/
inductive Event where
  | fill
  | output (generatedTokenIds : List Int)
  | drafts (numComputedTokens numOutputPlaceholders : Int)

namespace Request

/-- `request.append_output_token_ids`. -/
def appendOutputTokenId (request : Request γ κ) (tokenId : Int) : Request γ κ :=
  { request with allTokenIds := request.allTokenIds ++ [tokenId] }

/-- The request when the scheduler counts these computed tokens and placeholders. -/
def setCounts (request : Request γ κ) (numComputedTokens numOutputPlaceholders : Int) :
    Request γ κ :=
  { request with
    numComputedTokens := numComputedTokens
    numOutputPlaceholders := numOutputPlaceholders }

/-- `_update_request_with_output`: the tokens that are kept, and whether they have stopped the
request. -/
def updateWithOutput (checkStop : Request γ κ → Bool) :
    List Int → Request γ κ → List Int × Bool × Request γ κ
  | [], request => ([], false, request)
  | tokenId :: rest, request =>
      let appended := request.appendOutputTokenId tokenId
      if checkStop appended then ([tokenId], true, appended)
      else
        let later := updateWithOutput checkStop rest appended
        (tokenId :: later.1, later.2)

end Request

namespace Advance

variable (backend : StructuredOutputGrammar γ μ) (manager : StructuredOutputManager κ μ)
  (checkStop : Request γ κ → Bool)

/-- The grammar part of `update_from_output`, for the tokens of a step that were kept. -/
def advanceGrammar (newTokenIds : List Int) (state : Advance γ κ) : Advance γ κ :=
  if newTokenIds = [] then state
  else
    let (advances, asked) := manager.shouldAdvance state.request newTokenIds
    if advances then
      let advanceTokenIds := StructuredOutputManager.trimReasoningForAdvance asked newTokenIds
      if advanceTokenIds = [] then { state with request := asked }
      else
        let outcome := backend.acceptTokens asked.grammar advanceTokenIds
        { request := asked.setGrammar outcome.2
          fed := state.fed ++ advanceTokenIds
          stopped := state.stopped || !outcome.1 }
    else { state with request := asked }

/-- One event.  Nothing more happens to a request that has stopped. -/
def handle (state : Advance γ κ) (event : Event) : Advance γ κ :=
  if state.stopped then state
  else
    match event with
    | .fill => { state with request := (manager.shouldFillBitmask state.request).2 }
    | .output generatedTokenIds =>
        let (newTokenIds, stopped, request) :=
          state.request.updateWithOutput checkStop generatedTokenIds
        advanceGrammar backend manager newTokenIds
          { state with request := request, stopped := stopped }
    | .drafts numComputedTokens numOutputPlaceholders =>
        { state with
          request := (manager.shouldAdvance
            (state.request.setCounts numComputedTokens numOutputPlaceholders) []).2 }

/-- The events of a request, the first of which fills a bitmask. -/
def run (request : Request γ κ) (events : List Event) : Advance γ κ :=
  (Event.fill :: events).foldl (handle backend manager checkStop) ⟨request, [], false⟩

end Advance

section Reasoning

variable (reasoner : ReasoningParser)

/-- The streaming end test is true for some single token of a delta. -/
def endsWithin : List Int → List Int → Bool
  | _, [] => false
  | before, token :: rest =>
      reasoner.isReasoningEndStreaming (before ++ [token]) [token] ||
        endsWithin (before ++ [token]) rest

/-- The tokens behind the first single token for which the streaming end test is true. -/
def afterReasoning : List Int → List Int → List Int
  | _, [] => []
  | before, token :: rest =>
      if reasoner.isReasoningEndStreaming (before ++ [token]) [token] then rest
      else afterReasoning (before ++ [token]) rest

/-- The streaming end test is true on a delta exactly when it is for a single token inside. -/
def CutsSingly : Prop :=
  ∀ before delta,
    reasoner.isReasoningEndStreaming (before ++ delta) delta = endsWithin reasoner before delta

variable {reasoner}

theorem endsWithin_append (before front back : List Int) :
    endsWithin reasoner before (front ++ back) =
      (endsWithin reasoner before front || endsWithin reasoner (before ++ front) back) := by
  induction front generalizing before with
  | nil => simp [endsWithin]
  | cons token front inductionHypothesis =>
      rw [List.cons_append, endsWithin, endsWithin, inductionHypothesis, Bool.or_assoc,
        List.append_assoc]
      rfl

variable {before front tokens : List Int}

/-- Tokens that come later are behind the end of reasoning as a whole. -/
theorem afterReasoning_append_of_ended (ended : endsWithin reasoner before front = true)
    (back : List Int) :
    afterReasoning reasoner before (front ++ back) =
      afterReasoning reasoner before front ++ back := by
  induction front generalizing before with
  | nil => cases ended
  | cons token front inductionHypothesis =>
      rw [List.cons_append, afterReasoning, afterReasoning]
      rw [endsWithin, Bool.or_eq_true] at ended
      split
      · rfl
      · next goesOn => exact inductionHypothesis (ended.resolve_left goesOn)

theorem afterReasoning_append_of_not_ended (goesOn : endsWithin reasoner before front = false)
    (back : List Int) :
    afterReasoning reasoner before (front ++ back) =
      afterReasoning reasoner (before ++ front) back := by
  induction front generalizing before with
  | nil => simp
  | cons token front inductionHypothesis =>
      rw [endsWithin, Bool.or_eq_false_iff] at goesOn
      rw [List.cons_append, afterReasoning, if_neg (by simp [goesOn.1]),
        inductionHypothesis goesOn.2, List.append_assoc]
      rfl

theorem afterReasoning_of_not_ended (goesOn : endsWithin reasoner before tokens = false) :
    afterReasoning reasoner before tokens = [] := by
  have whole := afterReasoning_append_of_not_ended goesOn []
  rwa [List.append_nil] at whole

/-- The index that is found cuts the tokens behind the end of reasoning off. -/
theorem findEndFrom_of_ended (ended : endsWithin reasoner before tokens = true) :
    ∃ index : Nat, findEndFrom reasoner before tokens = some ((before.length + index : Nat) : Int) ∧
      index < tokens.length ∧ tokens.drop (index + 1) = afterReasoning reasoner before tokens := by
  induction tokens generalizing before with
  | nil => cases ended
  | cons token tokens inductionHypothesis =>
      rw [endsWithin, Bool.or_eq_true] at ended
      rw [findEndFrom, afterReasoning]
      by_cases here : reasoner.isReasoningEndStreaming (before ++ [token]) [token] = true
      · rw [if_pos here, if_pos here]
        exact ⟨0, rfl, Nat.succ_pos _, rfl⟩
      · rw [if_neg here, if_neg here]
        rcases inductionHypothesis (ended.resolve_left here) with ⟨index, found, below, cut⟩
        refine ⟨index + 1, ?_, Nat.succ_lt_succ below, cut⟩
        rw [found, List.length_append, List.length_singleton]
        congr 2
        omega

end Reasoning

end Vllm.StructuredOutput
