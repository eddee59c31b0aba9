import Vllm.Parser.EngineRuns
import Vllm.Parser.ToolCallSlots

/-!
# Streams of deltas

A stream is a run of `parse_delta` whose last call is finished.  The engine and the conversion of
its events are taken apart: the engine cuts the events of an output into the batches of the calls,
and the conversion reads the batches.
-/

namespace Vllm.Parser

open Vllm.Core
open Vllm.Library

/-! ## The text of events -/

section Texts

@[simp]
theorem eventText_nil (type : EventType) : eventText type [] = [] :=
  rfl

@[simp]
theorem eventText_append (type : EventType) (events more : List SemanticEvent) :
    eventText type (events ++ more) = eventText type events ++ eventText type more := by
  simp [eventText]

theorem eventText_cons (type : EventType) (event : SemanticEvent) (events : List SemanticEvent) :
    eventText type (event :: events) =
      (if event.type = type then event.value else []) ++ eventText type events := by
  by_cases same : event.type = type
  · simp [eventText, same]
  · simp [eventText, same]

/-- The text of a type is read off the spelling of the events. -/
theorem eventText_eq_contents (config : ParserEngineConfig) (type : EventType)
    (events : List SemanticEvent) :
    eventText type events =
      Chunks.contents (fun label : EventType × Int => label.1 = type)
        (spellEvents config events) := by
  rw [spellEvents, Chunks.contents_spell]
  induction events with
  | nil => rfl
  | cons event events ih =>
      rw [eventText_cons, ih, List.map_cons, ← List.singleton_append, Chunks.contents_append]
      by_cases same : event.type = type
      · simp [Chunks.contents, SemanticEvent.labelled, same]
      · simp [Chunks.contents, SemanticEvent.labelled, same]

end Texts

/-- The events of tool calls. -/
def SemanticEvent.isToolEvent (event : SemanticEvent) : Bool :=
  event.type ∈ [.toolCallStart, .toolName, .argValueChunk, .toolCallEnd]

/-- The events that the conversion reads as those of tool calls. -/
def readsAsTool (suppress : Bool) (event : SemanticEvent) : Bool :=
  !suppress && event.isToolEvent

/-- The events in front of the first one that a predicate holds of; none when `seen`. -/
def eventsAhead (tool : SemanticEvent → Bool) (seen : Bool) (events : List SemanticEvent) :
    List SemanticEvent :=
  if seen then [] else events.takeWhile (!tool ·)

/-- The other events. -/
def eventsBehind (tool : SemanticEvent → Bool) (seen : Bool) (events : List SemanticEvent) :
    List SemanticEvent :=
  if seen then events else events.dropWhile (!tool ·)

section Positions

variable {tool : SemanticEvent → Bool} {event : SemanticEvent}

theorem ahead_append_behind (tool : SemanticEvent → Bool) (seen : Bool)
    (events : List SemanticEvent) :
    eventsAhead tool seen events ++ eventsBehind tool seen events = events := by
  cases seen with
  | false => exact List.takeWhile_append_dropWhile
  | true => rfl

theorem eventsAhead_cons (other : tool event = false) (seen : Bool) (events : List SemanticEvent) :
    eventsAhead tool seen (event :: events) =
      (if seen then [] else [event]) ++ eventsAhead tool seen events := by
  cases seen with
  | false => simp [eventsAhead, other]
  | true => rfl

theorem eventsBehind_cons (other : tool event = false) (seen : Bool) (events : List SemanticEvent) :
    eventsBehind tool seen (event :: events) =
      (if seen then [event] else []) ++ eventsBehind tool seen events := by
  cases seen with
  | false => simp [eventsBehind, other]
  | true => rfl

theorem eventsAhead_tool (holds : tool event = true) (seen : Bool)
    (events : List SemanticEvent) : eventsAhead tool seen (event :: events) = [] := by
  simp [eventsAhead, holds]

theorem eventsBehind_tool (holds : tool event = true) (seen : Bool) (events : List SemanticEvent) :
    eventsBehind tool seen (event :: events) = event :: events := by
  simp [eventsBehind, holds]

/-- Only texts count for the text on either side. -/
theorem eventText_ahead_cons (other : tool event = false) (quiet : event.type ≠ .textChunk)
    (seen : Bool) (events : List SemanticEvent) :
    eventText .textChunk (eventsAhead tool seen (event :: events)) =
      eventText .textChunk (eventsAhead tool seen events) := by
  rw [eventsAhead_cons other, eventText_append]
  cases seen with
  | false => simp [eventText_cons, quiet]
  | true => rfl

theorem eventText_behind_cons (other : tool event = false) (quiet : event.type ≠ .textChunk)
    (seen : Bool) (events : List SemanticEvent) :
    eventText .textChunk (eventsBehind tool seen (event :: events)) =
      eventText .textChunk (eventsBehind tool seen events) := by
  rw [eventsBehind_cons other, eventText_append]
  cases seen with
  | false => rfl
  | true => simp [eventText_cons, quiet]

end Positions

variable {ν : Type} [DecidableEq ν] [SchemaCoercion ν]

/-! ## What the loop of the conversion computes -/

namespace Conversion

variable (settings : ParserSettings ν)

/-- The tool calls and their deltas behind some events of tool calls. -/
def readToolEvents (state : ToolCalls ν × List DeltaToolCall) (events : List SemanticEvent) :
    Except PyError (ToolCalls ν × List DeltaToolCall) :=
  events.foldlM (fun state event => state.1.onToolEvent settings event state.2) state

/-- What the loop of `_events_to_delta` has added behind some events. -/
structure Reads (suppress : Bool) (conversion : Conversion ν) (events : List SemanticEvent)
    (next : Conversion ν) : Prop where
  content : next.contentParts = conversion.contentParts ++
    eventText .textChunk (eventsAhead (readsAsTool suppress) conversion.seenToolEvent events)
  deferred : next.deferredContent = conversion.deferredContent ++
    eventText .textChunk (eventsBehind (readsAsTool suppress) conversion.seenToolEvent events)
  reasoning : next.reasoningParts = conversion.reasoningParts ++ eventText .reasoningChunk events
  ended : next.reasoningEnded =
    (conversion.reasoningEnded || events.any (·.type = .reasoningEnd))
  seen : next.seenToolEvent = (conversion.seenToolEvent || events.any (readsAsTool suppress))
  tools : readToolEvents settings (conversion.calls, conversion.toolCallDeltas)
    (events.filter (readsAsTool suppress)) = .ok (next.calls, next.toolCallDeltas)

variable {settings} {suppress : Bool} {conversion next : Conversion ν}

theorem Reads.nil : Reads settings suppress conversion [] conversion := by
  constructor <;> simp [eventsAhead, eventsBehind, readToolEvents]
  rfl

variable {event : SemanticEvent} {events : List SemanticEvent} {last : Conversion ν}

/-- An event that is neither text nor read as one of a tool call. -/
theorem reads_of_quiet (other : readsAsTool suppress event = false)
    (quiet : event.type ≠ .textChunk) (reads : Reads settings suppress
      { conversion with
        reasoningParts := conversion.reasoningParts ++ eventText .reasoningChunk [event]
        reasoningEnded := conversion.reasoningEnded || event.type = .reasoningEnd } events last) :
    Reads settings suppress conversion (event :: events) last := by
  constructor
  · rw [reads.content, eventText_ahead_cons other quiet]
  · rw [reads.deferred, eventText_behind_cons other quiet]
  · rw [reads.reasoning, List.append_assoc, ← eventText_append]
    rfl
  · rw [reads.ended, List.any_cons, Bool.or_assoc]
  · simpa [other] using reads.seen
  · simpa [other] using reads.tools

/-- An event that is read as one of a tool call. -/
theorem reads_of_tool (tool : readsAsTool suppress event = true)
    {state : ToolCalls ν × List DeltaToolCall}
    (called : conversion.calls.onToolEvent settings event conversion.toolCallDeltas = .ok state)
    (reads : Reads settings suppress
      { conversion with
        calls := state.1
        toolCallDeltas := state.2
        seenToolEvent := true } events last) :
    Reads settings suppress conversion (event :: events) last := by
  have kinds : event.type ≠ .textChunk ∧ event.type ≠ .reasoningChunk ∧
      event.type ≠ .reasoningEnd := by
    rcases event with ⟨type, value, index, count⟩
    cases type <;> simp_all [readsAsTool, SemanticEvent.isToolEvent]
  constructor
  · rw [reads.content, eventsAhead_tool tool]
    rfl
  · rw [reads.deferred, eventsBehind_tool tool, eventText_cons, if_neg kinds.1]
    rfl
  · rw [reads.reasoning, eventText_cons, if_neg kinds.2.1]
    rfl
  · simpa [kinds] using reads.ended
  · simpa [tool] using reads.seen
  · rw [List.filter_cons_of_pos tool, readToolEvents, List.foldlM_cons]
    exact bind_eq_ok.mpr ⟨state, called, reads.tools⟩

/-- A text. -/
theorem reads_of_text (text : event.type = .textChunk)
    (handled : conversion.handle settings suppress event = .ok next)
    (reads : Reads settings suppress next events last) :
    Reads settings suppress conversion (event :: events) last := by
  rcases event with ⟨type, value, index, count⟩
  cases text
  have other : readsAsTool suppress ⟨.textChunk, value, index, count⟩ = false := by
    simp [readsAsTool, SemanticEvent.isToolEvent]
  rw [handle.eq_def] at handled
  dsimp only at handled
  split at handled
  case isTrue seen =>
    cases handled
    constructor
    · simpa [eventsAhead_cons other, seen] using reads.content
    · simpa [eventsBehind_cons other, seen, eventText_cons] using reads.deferred
    · simpa [eventText_cons] using reads.reasoning
    · simpa using reads.ended
    · simpa [other] using reads.seen
    · simpa [other] using reads.tools
  case isFalse unseen =>
    cases handled
    constructor
    · simpa [eventsAhead_cons other, unseen, eventText_cons] using reads.content
    · simpa [eventsBehind_cons other, unseen] using reads.deferred
    · simpa [eventText_cons] using reads.reasoning
    · simpa using reads.ended
    · simpa [other] using reads.seen
    · simpa [other] using reads.tools

/-- How a conversion handles an event of a tool call. -/
theorem handle_tool (isTool : event.isToolEvent = true) :
    conversion.handle settings suppress event =
      if suppress then .ok conversion
      else do
        let state ← conversion.calls.onToolEvent settings event conversion.toolCallDeltas
        return { conversion with
          calls := state.1
          toolCallDeltas := state.2
          seenToolEvent := true } := by
  rcases event with ⟨type, value, index, count⟩
  cases type <;> first | rfl | simp [SemanticEvent.isToolEvent] at isTool

/-- One event. -/
theorem reads_of_handle (handled : conversion.handle settings suppress event = .ok next)
    (reads : Reads settings suppress next events last) :
    Reads settings suppress conversion (event :: events) last := by
  cases isTool : event.isToolEvent with
  | true =>
      rw [handle_tool isTool] at handled
      cases suppress with
      | true =>
          apply reads_of_quiet rfl
          · intro same
            simp [SemanticEvent.isToolEvent, same] at isTool
          · rcases event with ⟨type, value, index, count⟩
            cases type <;> simp_all [SemanticEvent.isToolEvent, eventText_cons]
      | false =>
          rcases bind_eq_ok.mp handled with ⟨state, called, handled⟩
          cases handled
          exact reads_of_tool (by rw [readsAsTool, isTool]; rfl) called reads
  | false =>
      have other : readsAsTool suppress event = false := by rw [readsAsTool, isTool, Bool.and_false]
      by_cases text : event.type = .textChunk
      · exact reads_of_text text handled reads
      · apply reads_of_quiet other text
        rcases event with ⟨type, value, index, count⟩
        rw [handle.eq_def] at handled
        cases type <;> simp [SemanticEvent.isToolEvent] at isTool text
        · simp only [pure, Except.pure, Except.ok.injEq] at handled
          simpa [eventText_cons, handled] using reads
        · simp only [pure, Except.pure, Except.ok.injEq] at handled
          simpa [eventText_cons, ← handled] using reads
        · simp only [pure, Except.pure, Except.ok.injEq] at handled
          simpa [eventText_cons, ← handled] using reads

/-- The whole loop. -/
theorem reads_of_foldlM (ran : events.foldlM (handle settings suppress) conversion = .ok next) :
    Reads settings suppress conversion events next := by
  induction events generalizing conversion with
  | nil =>
      cases ran
      exact .nil
  | cons event events ih =>
      rcases bind_eq_ok.mp ran with ⟨middle, handled, ran⟩
      exact reads_of_handle handled (ih ran)

/-- Events of tool calls leave the tools. -/
theorem readToolEvents_tools {state last : ToolCalls ν × List DeltaToolCall}
    (ran : readToolEvents settings state events = .ok last) : last.1.tools = state.1.tools := by
  induction events generalizing state with
  | nil =>
      cases ran
      rfl
  | cons event events ih =>
      rcases bind_eq_ok.mp ran with ⟨middle, called, ran⟩
      exact (ih ran).trans (ToolCalls.onToolEvent_tools called)

end Conversion

/-! ## Runs of the conversion -/

/-- The reasoning of a message. -/
def messageReasoning (message : Option DeltaMessage) : Text :=
  (message.bind DeltaMessage.reasoning).getD []

/-- The content of a message. -/
def messageContent (message : Option DeltaMessage) : Text :=
  (message.bind DeltaMessage.content).getD []

@[simp]
theorem orNone_getD (text : Text) : (orNone text).getD [] = text := by
  rw [orNone]
  split
  case isTrue nothing => rw [nothing, Option.getD_none]
  case isFalse => rw [Option.getD_some]

namespace DeltaConverter

/-- What the conversion of a batch leaves as it is. -/
structure SameRequest (converter next : DeltaConverter ν) : Prop where
  settings : next.settings = converter.settings
  suppress : next.suppressToolCalls = converter.suppressToolCalls
  tools : next.calls.tools = converter.calls.tools

variable {converter next : DeltaConverter ν} {events : List SemanticEvent}

/-- Behind nothing there is nothing to report. -/
theorem eventsToDelta_eq (converter : DeltaConverter ν) (events : List SemanticEvent)
    (finished : Bool) :
    converter.eventsToDelta events finished =
      (converter.convertEvents events).map fun conversion =>
        converter.concludeDelta conversion finished := by
  rw [eventsToDelta]
  split
  case isTrue nothing =>
    rcases nothing with ⟨rfl, empty⟩
    rcases converter with ⟨settings, calls, ended, deferred, reasoning, nonws, suppress⟩
    subst empty
    simp [convertEvents, concludeDelta, Conversion.contentStr, Conversion.stillDeferred,
      Conversion.deltas, settleContent, makeDelta, Except.map, pure, Except.pure]
  case isFalse =>
    cases converter.convertEvents events with
    | error failure => rfl
    | ok conversion => rfl

section

omit [DecidableEq ν] [SchemaCoercion ν]

theorem settleContent_same (converter : DeltaConverter ν) (content : Text) (finished : Bool) :
    SameRequest converter (converter.settleContent content finished).2 := by
  rw [settleContent]
  split
  · exact ⟨rfl, rfl, rfl⟩
  · split
    · exact ⟨rfl, rfl, rfl⟩
    · split
      · exact ⟨rfl, rfl, rfl⟩
      · split
        · exact ⟨rfl, rfl, rfl⟩
        · exact ⟨rfl, rfl, rfl⟩

theorem stripTrailingReasoning_same (converter : DeltaConverter ν) (delta : Option DeltaMessage) :
    SameRequest converter (converter.stripTrailingReasoning delta).2 := by
  rw [stripTrailingReasoning]
  split
  · exact ⟨rfl, rfl, rfl⟩
  · split
    · exact ⟨rfl, rfl, rfl⟩
    · split
      · exact ⟨rfl, rfl, rfl⟩
      · exact ⟨rfl, rfl, rfl⟩

end

variable {request : ParserRequest ν} {message : Option DeltaMessage} {conversion : Conversion ν}

variable {finished : Bool}

/-- A conversion is a run of the loop, what follows it, and the stripping of reasoning. -/
theorem convert_eq_ok :
    converter.convert request events finished = .ok (message, next) ↔
      ∃ conversion, converter.convertEvents events = .ok conversion ∧
        ((converter.concludeDelta conversion finished).2.stripTrailingReasoning
            (converter.concludeDelta conversion finished).1).2 = next ∧
        suppressReasoning request
          ((converter.concludeDelta conversion finished).2.stripTrailingReasoning
            (converter.concludeDelta conversion finished).1).1 = message := by
  rw [convert, eventsToDelta_eq]
  cases converter.convertEvents events with
  | error failure => simp [Except.map, bind, Except.bind]
  | ok conversion =>
      simp [Except.map, bind, Except.bind, pure, Except.pure, and_comm]

theorem convertEvents_reads (ran : converter.convertEvents events = .ok conversion) :
    Conversion.Reads converter.settings converter.suppressToolCalls
      { calls := converter.calls
        deferredContent := converter.deferredContent
        reasoningEnded := converter.reasoningEnded } events conversion :=
  Conversion.reads_of_foldlM ran

theorem concludeDelta_same (finished : Bool) (ran : converter.convertEvents events = .ok conversion) :
    SameRequest converter (converter.concludeDelta conversion finished).2 := by
  have tools := Conversion.readToolEvents_tools (convertEvents_reads ran).tools
  rcases settleContent_same { converter with
    calls := conversion.calls
    deferredContent := conversion.stillDeferred
    reasoningEnded := conversion.reasoningEnded } conversion.contentStr finished
    with ⟨settings, suppress, same⟩
  exact ⟨settings, suppress, same.trans tools⟩

theorem convert_same (ran : converter.convert request events finished = .ok (message, next)) :
    SameRequest converter next := by
  rcases convert_eq_ok.mp ran with ⟨conversion, looped, rfl, _⟩
  rcases concludeDelta_same finished looped with ⟨settings, suppress, tools⟩
  rcases stripTrailingReasoning_same (converter.concludeDelta conversion finished).2
    (converter.concludeDelta conversion finished).1 with ⟨settings', suppress', tools'⟩
  exact ⟨settings'.trans settings, suppress'.trans suppress, tools'.trans tools⟩

/-- The result of one pass is read off the message for all events. -/
theorem convertOutput_inv {result : ParseResult}
    (ran : converter.convertOutput events = .ok (result, next)) :
    ∃ conversion, converter.convertEvents events = .ok conversion ∧
      result.reasoning = orNone (
        if converter.settings.stripTrailingReasoningWhitespace then
          rstrip (messageReasoning (converter.concludeDelta conversion true).1)
        else messageReasoning (converter.concludeDelta conversion true).1) ∧
      result.content =
        if messageContent (converter.concludeDelta conversion true).1 = [] then none
        else stripContentWhitespace converter.settings
          (messageContent (converter.concludeDelta conversion true).1)
          result.toolCallInfo.toolsCalled := by
  rw [convertOutput, eventsToDelta_eq] at ran
  rcases bind_eq_ok.mp ran with ⟨⟨delta, concluded⟩, looped, ran⟩
  cases looping : converter.convertEvents events with
  | error failure => simp [looping, Except.map] at looped
  | ok conversion =>
      have same := concludeDelta_same true looping
      simp only [looping, Except.map, Except.ok.injEq] at looped
      rcases bind_eq_ok.mp ran with ⟨⟨info, built⟩, building, ran⟩
      rcases bind_eq_ok.mp building with ⟨⟨toolCalls, calls⟩, _, building⟩
      rw [looped] at same
      cases building
      cases ran
      refine ⟨conversion, rfl, ?_, ?_⟩
      · rw [looped, ← same.settings]
        rfl
      · rw [looped, ← same.settings]
        rfl

/-- The messages of a stream whose calls report some batches of events. -/
def convertStream (request : ParserRequest ν) (converter : DeltaConverter ν) :
    List (List SemanticEvent) → Except PyError (List (Option DeltaMessage) × DeltaConverter ν)
  | [] => return ([], converter)
  | events :: batches => do
      let (message, converter) ← converter.convert request events batches.isEmpty
      let (more, converter) ← converter.convertStream request batches
      return (message :: more, converter)

end DeltaConverter

/-! ## Runs of the parser -/

namespace StreamingParserEngine

theorem processScannerItems_rules (engine : StreamingParserEngine) (items : List LexerInput) :
    (engine.processScannerItems items).2.rules = engine.rules := by
  induction items generalizing engine with
  | nil => rfl
  | cons item items ih =>
      cases item with
      | terminal item => exact ih _
      | text item =>
          rw [processScannerItems]
          dsimp only
          split
          · exact ih _
          · exact ih _

/-- Feeding a delta may note that there are token ids. -/
theorem feed_rules (engine : StreamingParserEngine) (deltaText : Text)
    (deltaTokenIds : List TokenId) :
    (engine.feed deltaText deltaTokenIds).2.rules = (engine.noteTokenIds deltaTokenIds).rules := by
  rw [feed]
  dsimp only
  split
  · rfl
  · split
    · rfl
    · exact processScannerItems_rules _ _

theorem feed_skipToolParsing (engine : StreamingParserEngine) (deltaText : Text)
    (deltaTokenIds : List TokenId) :
    (engine.feed deltaText deltaTokenIds).2.rules.skipToolParsing =
      engine.rules.skipToolParsing := by
  rw [feed_rules, noteTokenIds]
  split
  · rfl
  · rfl

theorem finish_rules (engine : StreamingParserEngine) : engine.finish.2.rules = engine.rules :=
  processScannerItems_rules _ _

end StreamingParserEngine

namespace ParserEngine

/-- The batches of events into which the calls of a stream cut an output. -/
def streamEvents (engine : StreamingParserEngine) :
    List (Text × List TokenId) → List (List SemanticEvent)
  | [] => []
  | delta :: deltas =>
      let (events, engine) := feedDelta engine delta deltas.isEmpty
      events :: streamEvents engine deltas

variable {deltas : List (Text × List TokenId)}

/-- Together the batches are the events of the output. -/
theorem flatten_streamEvents (engine : StreamingParserEngine) (some : deltas ≠ []) :
    (streamEvents engine deltas).flatten = engine.feedAll deltas := by
  induction deltas generalizing engine with
  | nil => exact absurd rfl some
  | cons delta deltas ih =>
      cases deltas with
      | nil => simp [streamEvents, feedDelta, StreamingParserEngine.feedAll]
      | cons next deltas =>
          rw [streamEvents, List.flatten_cons, ih _ (List.cons_ne_nil _ _)]
          rfl

/-- The text of the events of a type does not depend on how the output is cut. -/
theorem eventText_streamEvents {engine : StreamingParserEngine} (type : EventType)
    (some : deltas ≠ [])
    (terminals : engine.scanner.tokenIdToTerminal = engine.rules.resolvedTokenIds)
    (empty : engine.scanner.deferredTerminals = []) (post : engine.scanner.deferredPostText = [])
    (cut : (∀ delta ∈ deltas, delta.1 = delta.2.flatMap engine.scanner.decodeToken) ∨
      ∀ delta ∈ deltas, delta.2 = []) :
    eventText type (streamEvents engine deltas).flatten =
      eventText type
        (feedDelta engine (deltas.flatMap Prod.fst, deltas.flatMap Prod.snd) true).1 := by
  have whole : engine.feedAll [(deltas.flatMap Prod.fst, deltas.flatMap Prod.snd)] =
      (feedDelta engine (deltas.flatMap Prod.fst, deltas.flatMap Prod.snd) true).1 := rfl
  rw [flatten_streamEvents engine some, ← whole, eventText_eq_contents engine.rules.config,
    StreamingParserEngine.spellEvents_feedAll terminals empty post cut, ← eventText_eq_contents]

/-- The deltas of an output that a tokenizer decodes are those that its scanner decodes. -/
theorem cut_of_decodes {patternLength : Text → Nat} {config : ParserEngineConfig}
    {tokenizer : Option Tokenizer} {initialState : Option ParserState} {skips : Bool}
    (cut : (∀ delta ∈ deltas, StreamingParserEngine.Decodes tokenizer delta) ∨
      ∀ delta ∈ deltas, delta.2 = []) :
    (∀ delta ∈ deltas, delta.1 = delta.2.flatMap
      (StreamingParserEngine.make patternLength config tokenizer initialState
        skips).scanner.decodeToken) ∨ ∀ delta ∈ deltas, delta.2 = [] := by
  refine cut.imp_left fun decodes delta member => ?_
  rw [decodes delta member]
  apply List.flatMap_congr
  intro tokenId _
  cases tokenizer with
  | none => rfl
  | some tokenizer => rfl

/-- From the start the text of a type does not depend on how the output is cut. -/
theorem eventText_reset (parser : ParserEngine ν) (initialState : Option ParserState)
    (type : EventType) (some : deltas ≠ [])
    (cut : (∀ delta ∈ deltas, StreamingParserEngine.Decodes parser.tokenizer delta) ∨
      ∀ delta ∈ deltas, delta.2 = []) :
    eventText type (streamEvents (parser.reset initialState).engine deltas).flatten =
      eventText type (feedDelta (parser.reset initialState).engine
        (deltas.flatMap Prod.fst, deltas.flatMap Prod.snd) true).1 := by
  apply eventText_streamEvents type some
  · rfl
  · rfl
  · rfl
  · exact cut_of_decodes cut

/-- A run of `parse_delta` whose last call is finished. -/
def parseDeltas (request : ParserRequest ν) (parser : ParserEngine ν) :
    List (Text × List TokenId) → Except PyError (List (Option DeltaMessage) × ParserEngine ν)
  | [] => return ([], parser)
  | delta :: deltas => do
      let (message, parser) ← parser.parseDelta request delta deltas.isEmpty
      let (more, parser) ← parser.parseDeltas request deltas
      return (message :: more, parser)

/-- The request of a stream has been read. -/
structure HasRead (request : ParserRequest ν) (parser : ParserEngine ν) : Prop where
  history : parser.historyInitialized = true
  tools : request.tools ≠ [] → parser.converter.calls.tools = request.tools
  suppress : parser.engine.rules.skipToolParsing = true ∨
    parser.converter.suppressToolCalls = true ∨ request.toolChoiceIsNone = false ∨
      request.tools = []

section Requests

variable {ν : Type} {request : ParserRequest ν} {parser : ParserEngine ν}

theorem initializeHistory_initialized (request : ParserRequest ν) (parser : ParserEngine ν) :
    (parser.initializeHistoryToolCallCnt request).historyInitialized = true := by
  rw [initializeHistoryToolCallCnt]
  split
  · assumption
  · split
    · rfl
    · rfl

theorem initializeHistory_engine (request : ParserRequest ν) (parser : ParserEngine ν) :
    (parser.initializeHistoryToolCallCnt request).engine = parser.engine := by
  rw [initializeHistoryToolCallCnt]
  split
  · rfl
  · split
    · rfl
    · rfl

theorem hasRead_prepare (request : ParserRequest ν) (parser : ParserEngine ν) :
    HasRead request (parser.prepare request) := by
  rw [prepare]
  have history := initializeHistory_initialized request parser
  generalize parser.initializeHistoryToolCallCnt request = parser at history
  rw [checkSkipToolParsing]
  by_cases some : request.tools = []
  · constructor
    · exact history
    · exact fun other => absurd some other
    · exact .inr (.inr (.inr some))
  · simp only [ne_eq, some, not_false_eq_true, if_true, and_true]
    split
    case isTrue suppresses =>
      exact ⟨history, fun _ => rfl, .inr (.inl rfl)⟩
    case isFalse keeps =>
      constructor
      · exact history
      · exact fun _ => rfl
      · by_cases skips : parser.engine.rules.skipToolParsing = true
        · exact .inl skips
        · by_cases suppress : parser.converter.suppressToolCalls = true
          · exact .inr (.inl suppress)
          · exact .inr (.inr (.inl (by simpa [skips, suppress] using keeps)))

/-- It is not read again. -/
theorem HasRead.prepare_eq (read : HasRead request parser) : parser.prepare request = parser := by
  rw [prepare, initializeHistoryToolCallCnt, if_pos read.history, checkSkipToolParsing]
  have same : (if request.tools ≠ [] then
      { parser.converter with calls := { parser.converter.calls with tools := request.tools } }
      else parser.converter) = parser.converter := by
    split
    case isTrue some => rw [← read.tools some]
    case isFalse => rfl
  rw [same]
  split
  case isTrue suppresses =>
    rcases suppresses with ⟨skips, suppress, none, some⟩
    rcases read.suppress with skip | suppressed | other | empty
    · exact absurd skip skips
    · exact absurd suppressed suppress
    · simp [other] at none
    · exact absurd empty some
  case isFalse => rfl

theorem prepare_engine (request : ParserRequest ν) (parser : ParserEngine ν) :
    (parser.prepare request).engine = parser.engine :=
  initializeHistory_engine request parser

theorem initializeHistory_converter (request : ParserRequest ν) (parser : ParserEngine ν) :
    (parser.initializeHistoryToolCallCnt request).converter =
        { parser.converter with
          calls := (parser.initializeHistoryToolCallCnt request).converter.calls } ∧
      (parser.initializeHistoryToolCallCnt request).converter.calls.slots =
        parser.converter.calls.slots := by
  rw [initializeHistoryToolCallCnt]
  split
  · exact ⟨rfl, rfl⟩
  · split
    · exact ⟨rfl, rfl⟩
    · exact ⟨rfl, rfl⟩

theorem checkSkipToolParsing_converter (request : ParserRequest ν) (parser : ParserEngine ν) :
    (parser.checkSkipToolParsing request).converter =
        { parser.converter with
          calls := (parser.checkSkipToolParsing request).converter.calls
          suppressToolCalls :=
            (parser.checkSkipToolParsing request).converter.suppressToolCalls } ∧
      (parser.checkSkipToolParsing request).converter.calls.slots =
        parser.converter.calls.slots := by
  rw [checkSkipToolParsing]
  by_cases none : request.tools = []
  · simp [none]
  · simp only [ne_eq, none, not_false_eq_true, if_true]
    split
    · exact ⟨rfl, rfl⟩
    · exact ⟨rfl, rfl⟩

/-- Reading a request changes the tools, the count of calls and the suppression only. -/
theorem prepare_converter (request : ParserRequest ν) (parser : ParserEngine ν) :
    (parser.prepare request).converter =
        { parser.converter with
          calls := (parser.prepare request).converter.calls
          suppressToolCalls := (parser.prepare request).converter.suppressToolCalls } ∧
      (parser.prepare request).converter.calls.slots = parser.converter.calls.slots := by
  rcases initializeHistory_converter request parser with ⟨first, slots⟩
  rcases checkSkipToolParsing_converter request
    (parser.initializeHistoryToolCallCnt request) with ⟨second, slots'⟩
  constructor
  · rw [prepare]
    conv_lhs => rw [second, first]
  · exact slots'.trans slots

theorem prepare_settings (request : ParserRequest ν) (parser : ParserEngine ν) :
    (parser.prepare request).converter.settings = parser.converter.settings := by
  rw [(prepare_converter request parser).1]

theorem prepare_reset_settings (request : ParserRequest ν) (parser : ParserEngine ν)
    (initialState : Option ParserState) :
    ((parser.prepare request).reset initialState).converter.settings =
      parser.converter.settings := by
  have settings := prepare_settings request parser
  generalize parser.prepare request = prepared at settings ⊢
  exact settings

/-- Neither does it change what the engine is made of. -/
theorem prepare_reset_engine (request : ParserRequest ν) (parser : ParserEngine ν)
    (initialState : Option ParserState) :
    ((parser.prepare request).reset initialState).engine = (parser.reset initialState).engine := by
  rw [prepare, initializeHistoryToolCallCnt]
  split
  · rfl
  · split
    · rfl
    · rfl

theorem feedDelta_skipToolParsing (engine : StreamingParserEngine)
    (delta : Text × List TokenId) (finished : Bool) :
    (feedDelta engine delta finished).2.rules.skipToolParsing = engine.rules.skipToolParsing := by
  cases finished with
  | false => exact engine.feed_skipToolParsing _ _
  | true =>
      rw [feedDelta]
      dsimp only
      rw [if_pos rfl, StreamingParserEngine.finish_rules]
      exact engine.feed_skipToolParsing _ _

variable [DecidableEq ν] [SchemaCoercion ν]

variable {deltas : List (Text × List TokenId)} {messages : List (Option DeltaMessage)}

/-- The first call of a stream reads the request. -/
theorem parseDeltas_prepare (request : ParserRequest ν) (parser : ParserEngine ν)
    (some : deltas ≠ []) :
    parser.parseDeltas request deltas = (parser.prepare request).parseDeltas request deltas := by
  cases deltas with
  | nil => exact absurd rfl some
  | cons delta deltas =>
      have again := (hasRead_prepare request parser).prepare_eq
      rw [ParserEngine.parseDeltas, ParserEngine.parseDeltas, ParserEngine.parseDelta,
        ParserEngine.parseDelta, again]

/-- A call converts the events of its delta. -/
theorem HasRead.parseDelta (read : HasRead request parser) {delta : Text × List TokenId}
    {finished : Bool} {message : Option DeltaMessage} {next : ParserEngine ν}
    (ran : parser.parseDelta request delta finished = .ok (message, next)) :
    parser.converter.convert request (feedDelta parser.engine delta finished).1 finished =
        .ok (message, next.converter) ∧
      next.engine = (feedDelta parser.engine delta finished).2 ∧ HasRead request next := by
  rw [ParserEngine.parseDelta, read.prepare_eq] at ran
  rcases bind_eq_ok.mp ran with ⟨⟨message', converter⟩, converted, ran⟩
  cases ran
  have same := DeltaConverter.convert_same converted
  refine ⟨converted, rfl, read.history, ?_, ?_⟩
  · intro some
    exact same.tools.trans (read.tools some)
  · rcases read.suppress with skip | suppressed | other
    · exact .inl ((feedDelta_skipToolParsing ..).trans skip)
    · exact .inr (.inl (same.suppress.trans suppressed))
    · exact .inr (.inr other)

/-- A stream converts the batches of its calls. -/
theorem HasRead.parseDeltas (read : HasRead request parser) {last : ParserEngine ν}
    (ran : parser.parseDeltas request deltas = .ok (messages, last)) :
    parser.converter.convertStream request (streamEvents parser.engine deltas) =
      .ok (messages, last.converter) := by
  induction deltas generalizing parser messages with
  | nil =>
      cases ran
      rfl
  | cons delta deltas ih =>
      rcases bind_eq_ok.mp ran with ⟨⟨message, next⟩, called, ran⟩
      rcases bind_eq_ok.mp ran with ⟨⟨more, last'⟩, rest, ran⟩
      cases ran
      rcases read.parseDelta called with ⟨converted, engine, readNext⟩
      have batches : (streamEvents (feedDelta parser.engine delta deltas.isEmpty).2
          deltas).isEmpty = deltas.isEmpty := by
        cases deltas with
        | nil => rfl
        | cons next deltas => rfl
      rw [streamEvents, DeltaConverter.convertStream, batches]
      have converts := ih readNext rest
      rw [engine] at converts
      exact bind_eq_ok.mpr ⟨_, converted, bind_eq_ok.mpr ⟨_, converts, rfl⟩⟩

/-- A stream from the start converts the batches of its calls. -/
theorem parseDeltas_inv (some : deltas ≠ [])
    (ran : (parser.parseDeltas request deltas).map Prod.fst = .ok messages) :
    ∃ last, (parser.prepare request).converter.convertStream request
      (streamEvents parser.engine deltas) = .ok (messages, last) := by
  rw [parseDeltas_prepare request parser some] at ran
  cases streamed : (parser.prepare request).parseDeltas request deltas with
  | error failure => simp [streamed, Except.map] at ran
  | ok run =>
      rcases run with ⟨reported, last⟩
      rw [streamed] at ran
      cases ran
      have converts := (hasRead_prepare request parser).parseDeltas streamed
      rw [prepare_engine] at converts
      exact ⟨last.converter, converts⟩

/-- One pass converts the events of the whole output. -/
theorem parse_inv {output : Text × List TokenId} {result : ParseResult}
    (ran : (parser.parse request output).map Prod.fst = .ok result) :
    ∃ last, ((parser.prepare request).reset none).converter.convertOutput
      (feedDelta (parser.reset none).engine output true).1 = .ok (result, last) := by
  have engine := prepare_reset_engine request parser none
  rw [parse] at ran
  generalize parser.prepare request = prepared at ran engine ⊢
  rw [singlePassParse] at ran
  generalize prepared.reset none = start at ran engine ⊢
  rw [engine] at ran
  generalize feedDelta (parser.reset none).engine output true = fed at ran ⊢
  rcases fed with ⟨events, fed⟩
  dsimp only at ran ⊢
  cases converted : start.converter.convertOutput events with
  | error failure =>
      rw [converted] at ran
      cases ran
  | ok run =>
      rcases run with ⟨parsed, last⟩
      rw [converted] at ran
      cases ran
      exact ⟨last, rfl⟩

end Requests

end ParserEngine

end Vllm.Parser
