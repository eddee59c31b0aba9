import Vllm.Parser.StreamingParserEngine
import Vllm.Parser.ToolCalls

/-!
# The parser engine

The conversion of semantic events to the messages of a stream, and the parse of a whole output in
one pass.
-/

namespace Vllm.Parser

open Vllm.Core
open Vllm.Library

variable {ν : Type} [DecidableEq ν] [SchemaCoercion ν]

/-- `text or None`. -/
def orNone (text : Text) : Option Text :=
  if text = [] then none else some text

/-- `DeltaMessage`, with the fields that the parser sets. -/
structure DeltaMessage where
  content : Option Text := none
  reasoning : Option Text := none
  toolCalls : List DeltaToolCall := []
deriving DecidableEq, Repr

/-- What the parser reads of a request; `historyToolCalls` is `count_history_tool_calls`. -/
structure ParserRequest (ν : Type) where
  tools : List (Tool ν) := []
  toolChoiceIsNone : Bool := false
  includeReasoning : Bool := true
  historyToolCalls : Nat := 0

/-- `ToolCall` with its `FunctionCall`. -/
structure ToolCall where
  id : Text
  name : Text
  arguments : Text
deriving DecidableEq, Repr

/-- `ExtractedToolCallInformation`. -/
structure ExtractedToolCallInformation where
  toolsCalled : Bool
  toolCalls : List ToolCall
  content : Option Text
deriving DecidableEq, Repr

/-- The result of `_single_pass_parse`. -/
structure ParseResult where
  reasoning : Option Text
  content : Option Text
  toolCallInfo : ExtractedToolCallInformation
deriving DecidableEq, Repr

/-! ## Extracted tool calls -/

section Extraction

/-- `_extract_args_value`. -/
def extractArgsValue (parsed : List (Text × Json ν)) : Option Text :=
  match Json.get? parsed "arguments".toList <|> Json.get? parsed "parameters".toList with
  | some (.string value) => some value
  | some value => some (JsonText.dumps value)
  | none => none

/-- `_extract_name_and_args`; the name may be any value. -/
def extractNameAndArgs (rawBody : Text) : Json ν × Text :=
  let rawBody := strip rawBody
  match (JsonText.loads rawBody : Option (Json ν)) with
  | some (.object parsed) =>
      let name := (Json.get? parsed "name".toList).getD (.string [])
      match extractArgsValue parsed with
      | some args => (name, args)
      | none => (name, JsonText.dumps (.object (parsed.filter fun entry : Text × Json ν =>
          entry.1 ≠ "name".toList)))
  | _ => (.string [], rawBody)

variable (ν) in
/-- `_extract_args_json`. -/
def extractArgsJson (rawArgs : Text) : Text :=
  if strip rawArgs = [] then "{}".toList else (extractNameAndArgs (ν := ν) rawArgs).2

namespace ToolCalls

variable (settings : ParserSettings ν) (calls : ToolCalls ν)

/-- The name and the arguments of a slot in `_build_extracted_result`. -/
def nameAndArgs (slot : ToolCallSlot) : Json ν × Text :=
  let name := strip slot.name
  let rawBody := slot.args
  if strip rawBody = [] then (.string name, "{}".toList)
  else if name = [] then extractNameAndArgs rawBody
  else
    match settings.argConverter with
    | some converter =>
        (.string name, (converter calls.tools calls.slots rawBody false).getD
          (extractArgsJson ν rawBody))
    | none => (.string name, extractArgsJson ν rawBody)

/-- `_accept_tool_name` on a value; `FunctionCall` refuses an accepted name that is no string. -/
def acceptedName : Json ν → Except PyError (Option Text)
  | .string name => .ok (if calls.acceptToolName settings name then some name else none)
  | value =>
      if value.truthy ∧ (¬settings.validateToolNames ∨ calls.tools = []) then
        .error (.valueError "FunctionCall")
      else .ok none

/-- The body of the loop of `_build_extracted_result`. -/
def extractSlot (idx : Nat) (slot : ToolCallSlot) :
    Except PyError (Option ToolCall × ToolCalls ν) := do
  if slot.name = [] ∧ slot.args = [] then return (none, calls)
  else
    let (name, argsJson) := calls.nameAndArgs settings slot
    match ← calls.acceptedName settings name with
    | some name =>
        let (identified, count) := calls.ensureToolId settings slot name
        return (some ⟨identified.id, name, fixArgTypes calls.tools argsJson name⟩,
          { calls.setSlot idx identified with historyToolCallCnt := count })
    | none => return (none, calls)

/-- The loop of `_build_extracted_result` over the slots from an index on. -/
def extractFrom (calls : ToolCalls ν) (idx : Nat) :
    List ToolCallSlot → Except PyError (List ToolCall × ToolCalls ν)
  | [] => return ([], calls)
  | slot :: slots => do
      let (call, calls) ← calls.extractSlot settings idx slot
      let (more, calls) ← calls.extractFrom (idx + 1) slots
      return (call.toList ++ more, calls)

/-- What the loop of `_events_to_delta` does on an event of a tool call. -/
def onToolEvent (event : SemanticEvent) (deltas : List DeltaToolCall) :
    Except PyError (ToolCalls ν × List DeltaToolCall) :=
  match event.type with
  | .toolCallStart => return (calls.ensureSlot event.toolIndex, deltas)
  | .toolName => do return (← calls.handleToolName event, deltas)
  | .argValueChunk => calls.handleArgChunk settings event deltas
  | .toolCallEnd => calls.handleToolEnd settings event deltas
  | _ => return (calls, deltas)

end ToolCalls

end Extraction

/-! ## The conversion of events -/

/-- The variables of the loop of `_events_to_delta`; parts stand joined. -/
structure Conversion (ν : Type) where
  calls : ToolCalls ν
  deferredContent : Text
  reasoningEnded : Bool
  contentParts : Text := []
  reasoningParts : Text := []
  toolCallDeltas : List DeltaToolCall := []
  seenToolEvent : Bool := false

/-- The body of the loop of `_events_to_delta`. -/
def Conversion.handle (settings : ParserSettings ν) (suppress : Bool)
    (conversion : Conversion ν) (event : SemanticEvent) : Except PyError (Conversion ν) :=
  match event.type with
  | .textChunk =>
      if conversion.seenToolEvent then
        return { conversion with
          deferredContent := conversion.deferredContent ++ event.value }
      else
        return { conversion with contentParts := conversion.contentParts ++ event.value }
  | .reasoningChunk =>
      return { conversion with reasoningParts := conversion.reasoningParts ++ event.value }
  | .reasoningEnd => return { conversion with reasoningEnded := true }
  | .reasoningStart => return conversion
  | .toolCallStart | .toolName | .argValueChunk | .toolCallEnd =>
      if suppress then return conversion
      else do
        let (calls, deltas) ←
          conversion.calls.onToolEvent settings event conversion.toolCallDeltas
        return { conversion with
          calls := calls
          toolCallDeltas := deltas
          seenToolEvent := true }

namespace Conversion

/-- The deltas of tool calls, coalesced. -/
def deltas (conversion : Conversion ν) : List DeltaToolCall :=
  if conversion.toolCallDeltas.length > 1 then coalesceToolCallDeltas conversion.toolCallDeltas
  else conversion.toolCallDeltas

/-- Whether deferred content is reported now. -/
def releases (conversion : Conversion ν) : Bool :=
  conversion.deferredContent ≠ [] ∧ (¬conversion.seenToolEvent ∨ conversion.deltas = [])

/-- `content_str`: deferred content goes in front. -/
def contentStr (conversion : Conversion ν) : Text :=
  if conversion.releases then conversion.deferredContent ++ conversion.contentParts
  else conversion.contentParts

/-- The content that stays deferred. -/
def stillDeferred (conversion : Conversion ν) : Text :=
  if conversion.releases then [] else conversion.deferredContent

end Conversion

/-- What `ParserEngine` keeps for the conversion of events. -/
structure DeltaConverter (ν : Type) where
  settings : ParserSettings ν
  calls : ToolCalls ν
  reasoningEnded : Bool
  deferredContent : Text := []
  deferredReasoning : Text := []
  contentHasNonws : Bool := false
  suppressToolCalls : Bool := false

namespace DeltaConverter

variable (parser : DeltaConverter ν)

/-- `_strip_content_whitespace`. -/
def stripContentWhitespace (settings : ParserSettings ν) (content : Text) (toolsCalled : Bool) :
    Option Text :=
  orNone <|
    if toolsCalled then
      if settings.stripContentWhitespaceWithTools then strip content
      else if settings.dropWhitespaceOnlyContentBeforeTools ∧ strip content = [] then []
      else content
    else content

/-- Where `_events_to_delta` settles what becomes of content: while all of it has been
whitespace, it is dropped behind tool calls and deferred in front of them. -/
def settleContent (content : Text) (finished : Bool) : Text × DeltaConverter ν :=
  if parser.contentHasNonws ∨ content = [] then (content, parser)
  else if strip content ≠ [] then (content, { parser with contentHasNonws := true })
  else if parser.calls.slots ≠ [] then
    (if parser.settings.dropWhitespaceOnlyContentBeforeTools then [] else content, parser)
  else if ¬finished then ([], { parser with deferredContent := content })
  else (content, parser)

/-- The loop of `_events_to_delta`. -/
def convertEvents (events : List SemanticEvent) : Except PyError (Conversion ν) :=
  events.foldlM (Conversion.handle parser.settings parser.suppressToolCalls)
    { calls := parser.calls
      deferredContent := parser.deferredContent
      reasoningEnded := parser.reasoningEnded }

/-- `DeltaMessage(**kwargs)`, unless there is nothing to report. -/
def makeDelta (content reasoning : Text) (toolCalls : List DeltaToolCall) : Option DeltaMessage :=
  if content ≠ [] ∨ toolCalls ≠ [] ∨ reasoning ≠ [] then
    some ⟨orNone content, orNone reasoning, toolCalls⟩
  else none

/-- `_events_to_delta` behind its loop. -/
def concludeDelta (conversion : Conversion ν) (finished : Bool) :
    Option DeltaMessage × DeltaConverter ν :=
  let parser := { parser with
    calls := conversion.calls
    deferredContent := conversion.stillDeferred
    reasoningEnded := conversion.reasoningEnded }
  let (content, parser) := parser.settleContent conversion.contentStr finished
  (makeDelta content conversion.reasoningParts conversion.deltas, parser)

/-- `_events_to_delta`. -/
def eventsToDelta (events : List SemanticEvent) (finished : Bool) :
    Except PyError (Option DeltaMessage × DeltaConverter ν) := do
  if events = [] ∧ parser.deferredContent = [] then return (none, parser)
  else
    let conversion ← parser.convertEvents events
    return parser.concludeDelta conversion finished

/-- `_strip_trailing_reasoning`. -/
def stripTrailingReasoning (delta : Option DeltaMessage) :
    Option DeltaMessage × DeltaConverter ν :=
  if ¬parser.settings.stripTrailingReasoningWhitespace then (delta, parser)
  else
    match delta.bind DeltaMessage.reasoning with
    | some reasoning =>
        let combined := parser.deferredReasoning ++ reasoning
        let trimmed := rstrip combined
        let parser := { parser with deferredReasoning := combined.drop trimmed.length }
        (delta.bind fun delta =>
          if trimmed = [] ∧ delta.content = none ∧ delta.toolCalls = [] then none
          else some { delta with reasoning := orNone trimmed }, parser)
    | none =>
        if parser.deferredReasoning ≠ [] ∧ parser.reasoningEnded then
          (delta, { parser with deferredReasoning := [] })
        else (delta, parser)

/-- A message without the reasoning that the request does not include. -/
def suppressReasoning (request : ParserRequest ν) (delta : Option DeltaMessage) :
    Option DeltaMessage :=
  if request.includeReasoning then delta
  else
    delta.bind fun delta =>
      if delta.content.getD [] = [] ∧ delta.toolCalls = [] then none
      else some { delta with reasoning := none }

/-- `parse_delta` behind the engine. -/
def convert (request : ParserRequest ν) (events : List SemanticEvent) (finished : Bool) :
    Except PyError (Option DeltaMessage × DeltaConverter ν) := do
  let (delta, parser) ← parser.eventsToDelta events finished
  let (delta, parser) := parser.stripTrailingReasoning delta
  return (suppressReasoning request delta, parser)

/-- `_build_extracted_result`. -/
def buildExtractedResult (deltas : List (Option DeltaMessage)) :
    Except PyError (ExtractedToolCallInformation × DeltaConverter ν) := do
  let (toolCalls, calls) ← parser.calls.extractFrom parser.settings 0 parser.calls.slots
  let content := deltas.flatMap fun delta => (delta.bind DeltaMessage.content).getD []
  return (⟨toolCalls ≠ [], toolCalls,
      stripContentWhitespace parser.settings content (toolCalls ≠ [])⟩,
    { parser with calls := calls })

/-- `_single_pass_parse` behind the engine. -/
def convertOutput (events : List SemanticEvent) :
    Except PyError (ParseResult × DeltaConverter ν) := do
  let (delta, parser) ← parser.eventsToDelta events true
  let (info, parser) ← parser.buildExtractedResult []
  let reasoning := (delta.bind DeltaMessage.reasoning).getD []
  let content := (delta.bind DeltaMessage.content).getD []
  return (
    { reasoning := orNone <|
        if parser.settings.stripTrailingReasoningWhitespace then rstrip reasoning else reasoning
      content := if content = [] then none
        else stripContentWhitespace parser.settings content info.toolsCalled
      toolCallInfo := info },
    parser)

end DeltaConverter

/-- The text of the events of a type. -/
def eventText (type : EventType) (events : List SemanticEvent) : Text :=
  (events.filter (·.type = type)).flatMap (·.value)

/-- `ParserEngine`.  `patternLength`, `config` and `tokenizer` are what its engine is made of. -/
structure ParserEngine (ν : Type) where
  patternLength : Text → Nat
  config : ParserEngineConfig
  tokenizer : Option Tokenizer
  engine : StreamingParserEngine
  converter : DeltaConverter ν
  countsHistory : Bool := false
  historyInitialized : Bool := false

namespace ParserEngine

/-- `_has_reasoning`. -/
def hasReasoning (config : ParserEngineConfig) : Bool :=
  (config.tokenIdTerminals.get? "THINK_END").isSome ||
    (config.terminals.get? "THINK_START").isSome ||
    (config.terminals.get? "THINK_END").isSome || config.initialState = .reasoning

/-- `__init__`. -/
def make (settings : ParserSettings ν) (patternLength : Text → Nat) (config : ParserEngineConfig)
    (tokenizer : Option Tokenizer) (tools : List (Tool ν)) : ParserEngine ν where
  patternLength := patternLength
  config := config
  tokenizer := tokenizer
  engine := StreamingParserEngine.make patternLength config tokenizer none false
  converter :=
    { settings := settings
      calls := { tools := tools }
      reasoningEnded := !hasReasoning config }

variable (parser : ParserEngine ν)

/-- `_reset`. -/
def reset (initialState : Option ParserState) : ParserEngine ν :=
  { parser with
    engine := StreamingParserEngine.make parser.patternLength parser.config parser.tokenizer
      initialState parser.engine.rules.skipToolParsing
    converter := { parser.converter with
      calls := { parser.converter.calls with slots := [] }
      reasoningEnded := !hasReasoning parser.config
      deferredContent := []
      deferredReasoning := []
      contentHasNonws := false } }

/-- `_initialize_history_tool_call_cnt`; only ids of Kimi K2 count the calls of the history. -/
def initializeHistoryToolCallCnt (request : ParserRequest ν) : ParserEngine ν :=
  if parser.historyInitialized then parser
  else if ¬parser.countsHistory then { parser with historyInitialized := true }
  else
    { parser with
      converter := { parser.converter with
        calls := { parser.converter.calls with historyToolCallCnt := request.historyToolCalls } }
      historyInitialized := true }

/-- `_check_skip_tool_parsing`. -/
def checkSkipToolParsing (request : ParserRequest ν) : ParserEngine ν :=
  let converter :=
    if request.tools ≠ [] then
      { parser.converter with calls := { parser.converter.calls with tools := request.tools } }
    else parser.converter
  { parser with
    converter :=
      if ¬parser.engine.rules.skipToolParsing ∧ ¬converter.suppressToolCalls ∧
          request.toolChoiceIsNone ∧ request.tools ≠ [] then
        { converter with suppressToolCalls := true }
      else converter }

/-- What `parse_delta` and `parse` do first with a request. -/
def prepare (request : ParserRequest ν) : ParserEngine ν :=
  (parser.initializeHistoryToolCallCnt request).checkSkipToolParsing request

/-- The events of a call of `parse_delta`. -/
def feedDelta (engine : StreamingParserEngine) (delta : Text × List TokenId) (finished : Bool) :
    List SemanticEvent × StreamingParserEngine :=
  let (events, engine) := engine.feed delta.1 delta.2
  if finished then
    let (last, engine) := engine.finish
    (events ++ last, engine)
  else (events, engine)

/-- `parse_delta`, for a parser that does not adjust its state from the prompt. -/
def parseDelta (request : ParserRequest ν) (delta : Text × List TokenId) (finished : Bool) :
    Except PyError (Option DeltaMessage × ParserEngine ν) := do
  let parser := parser.prepare request
  let (events, engine) := feedDelta parser.engine delta finished
  let (message, converter) ← parser.converter.convert request events finished
  return (message, { parser with engine := engine, converter := converter })

/-- `_single_pass_parse`. -/
def singlePassParse (output : Text × List TokenId) (initialState : Option ParserState) :
    Except PyError (ParseResult × ParserEngine ν) := do
  let parser := parser.reset initialState
  let (events, engine) := feedDelta parser.engine output true
  let (result, converter) ← parser.converter.convertOutput events
  return (result, { parser with engine := engine, converter := converter })

/-- `parse`; the tool calls are those of the result when there are any. -/
def parse (request : ParserRequest ν) (output : Text × List TokenId) :
    Except PyError (ParseResult × ParserEngine ν) :=
  (parser.prepare request).singlePassParse output none

end ParserEngine

end Vllm.Parser
