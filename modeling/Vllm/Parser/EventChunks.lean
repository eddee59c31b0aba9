import Vllm.Library.LabelledChunks
import Vllm.Parser.LexerChunks
import Vllm.Parser.StreamingParserEngine

/-!
# Events and their chunks

How the text of an event is cut into chunks is left open by merging them.  The state machine
reads content character by character: the events that it reports for a text are, up to merging,
those of its characters.
-/

namespace Vllm.Parser

open Vllm.Library
open IncrementalLexer (spellToken)

/-- Events that report a piece of a text: those that content is classified as. -/
def ParserEngineConfig.isChunk (config : ParserEngineConfig) (type : EventType) : Bool :=
  type ∈ [.textChunk, .reasoningChunk, .toolName, .argValueChunk] ∨
    type ∈ config.contentEvents.entries.map (·.2)

/-- An event without its token count. -/
def SemanticEvent.labelled (event : SemanticEvent) : (EventType × Int) × Text :=
  ((event.type, event.toolIndex), event.value)

/-- Adjacent chunk events of one type and tool index merged, and empty ones dropped. -/
def mergeEvents (config : ParserEngineConfig) (events : List SemanticEvent) :
    List ((EventType × Int) × Text) :=
  Chunks.merge (fun label => config.isChunk label.1) (events.map SemanticEvent.labelled)

/-- The chunk events spelled character by character. -/
def spellEvents (config : ParserEngineConfig) (events : List SemanticEvent) :
    List ((EventType × Int) × Text) :=
  Chunks.spell (fun label => config.isChunk label.1) (events.map SemanticEvent.labelled)

theorem mergeEvents_eq_of_spell_eq {config : ParserEngineConfig}
    {events others : List SemanticEvent}
    (same : spellEvents config events = spellEvents config others) :
    mergeEvents config events = mergeEvents config others :=
  Chunks.merge_eq_of_spell_eq _ same

section Spelling

variable (config : ParserEngineConfig)

@[simp]
theorem spellEvents_nil : spellEvents config [] = [] :=
  rfl

@[simp]
theorem spellEvents_append (events more : List SemanticEvent) :
    spellEvents config (events ++ more) = spellEvents config events ++ spellEvents config more := by
  simp [spellEvents]

/-- Token counts are not part of the spelling. -/
theorem spellEvents_count (type : EventType) (value : Text) (toolIndex : Int) (count : Nat) :
    spellEvents config [⟨type, value, toolIndex, count⟩] =
      spellEvents config [⟨type, value, toolIndex, 0⟩] :=
  rfl

variable {config}

variable {type : EventType}

theorem spellEvents_empty (chunk : config.isChunk type = true) (toolIndex : Int) (count : Nat) :
    spellEvents config [⟨type, [], toolIndex, count⟩] = [] := by
  simp [spellEvents, SemanticEvent.labelled, Chunks.spell_cons, Chunks.spellOne, chunk]

theorem spellEvents_char (chunk : config.isChunk type = true) (char : Char) (text : Text)
    (toolIndex : Int) (count : Nat) :
    spellEvents config [⟨type, char :: text, toolIndex, count⟩] =
      spellEvents config [⟨type, [char], toolIndex, 0⟩] ++
        spellEvents config [⟨type, text, toolIndex, 0⟩] := by
  simp [spellEvents, SemanticEvent.labelled, Chunks.spell_cons, Chunks.spellOne, chunk]

theorem isChunk_args : config.isChunk .argValueChunk = true := by
  simp [ParserEngineConfig.isChunk]

theorem isChunk_of_contentEvents {state : ParserState}
    (found : config.contentEvents.get? state = some type) : config.isChunk type = true := by
  have entry := (Dict.get?_eq_some_iff _ _ _).mp found
  rw [ParserEngineConfig.isChunk, decide_eq_true_iff]
  exact .inr (List.mem_map_of_mem (f := Prod.snd) entry)

end Spelling

namespace EventMachine

/-- The machine without the token count of the message header. -/
def uncounted (machine : EventMachine) : EventMachine :=
  { machine with messageHeaderTokenCount := 0 }

@[simp]
theorem uncounted_uncounted (machine : EventMachine) :
    machine.uncounted.uncounted = machine.uncounted :=
  rfl

@[simp]
theorem uncounted_state (machine : EventMachine) : machine.uncounted.state = machine.state :=
  rfl

/-- What is seen of a step: the spelling of its events and the machine. -/
def observe (config : ParserEngineConfig) (result : List SemanticEvent × EventMachine) :
    List ((EventType × Int) × Text) × EventMachine :=
  (spellEvents config result.1, result.2.uncounted)

/-! ## Arguments -/

section Arguments

/-- The result of a step without the token count of the message header. -/
def uncountedResult (result : List SemanticEvent × EventMachine) :
    List SemanticEvent × EventMachine :=
  (result.1, result.2.uncounted)

theorem emitArgs_uncounted (machine : EventMachine) :
    uncountedResult (emitArgs machine) = emitArgs machine.uncounted := by
  by_cases empty : machine.argsBuffer.length = 0
  · simp [emitArgs, flushSafeArgs, uncounted, uncountedResult, empty]
  · simp [emitArgs, flushSafeArgs, uncounted, uncountedResult, empty]

theorem emitArgs_state (machine : EventMachine) : (emitArgs machine).2.state = machine.state := by
  simp only [emitArgs, flushSafeArgs]
  split
  · rfl
  · rfl

theorem feedArgsChar_uncounted (machine : EventMachine) (char : Char) :
    uncountedResult (machine.feedArgsChar char) = machine.uncounted.feedArgsChar char := by
  simp only [feedArgsChar, apply_ite uncountedResult, emitArgs_uncounted]
  rfl

theorem feedArgsChar_state (machine : EventMachine) (char : Char) :
    (machine.feedArgsChar char).2.state = machine.state := by
  simp only [feedArgsChar]
  split
  · exact emitArgs_state _
  · repeat' split
    all_goals first | exact emitArgs_state _ | rfl

theorem feedArgsText_uncounted (machine : EventMachine) (text : Text) :
    uncountedResult (machine.feedArgsText text) = machine.uncounted.feedArgsText text := by
  induction text generalizing machine with
  | nil => rfl
  | cons char text ih =>
      have rest := ih (machine.feedArgsChar char).2
      rw [feedArgsText, feedArgsText, ← feedArgsChar_uncounted]
      dsimp only [uncountedResult] at rest ⊢
      rw [← rest]

theorem observe_feedArgsText (config : ParserEngineConfig) (machine : EventMachine) (text : Text) :
    observe config (machine.uncounted.feedArgsText text) =
      observe config (machine.feedArgsText text) := by
  rw [← feedArgsText_uncounted]
  rfl

end Arguments

/-! ## Reading lexemes -/

/-- Read one lexeme. -/
def readLexeme (rules : EngineRules) (machine : EventMachine) :
    Lexeme Char String → List SemanticEvent × EventMachine
  | .literal name text => machine.onLexToken rules ⟨name, text, 0⟩
  | .symbol char => machine.emitForState rules [char] 0

/-- What is seen when lexemes are read. -/
def readLexemes (rules : EngineRules) (machine : EventMachine) :
    List (Lexeme Char String) → List ((EventType × Int) × Text) × EventMachine
  | [] => ([], machine)
  | lexeme :: rest =>
      let (seen, machine) := observe rules.config (machine.readLexeme rules lexeme)
      let (more, machine) := machine.readLexemes rules rest
      (seen ++ more, machine)

section Reading

variable (rules : EngineRules)

theorem readLexemes_append (machine : EventMachine) (front back : List (Lexeme Char String)) :
    machine.readLexemes rules (front ++ back) =
      ((machine.readLexemes rules front).1 ++
          ((machine.readLexemes rules front).2.readLexemes rules back).1,
        ((machine.readLexemes rules front).2.readLexemes rules back).2) := by
  induction front generalizing machine with
  | nil => rfl
  | cons lexeme front ih => simp [readLexemes, ih]

/-- The first character of a text is reported before the other ones. -/
theorem emitForState_cons (machine : EventMachine) (char : Char) (text : Text) (count : Nat) :
    observe rules.config (machine.emitForState rules (char :: text) count) =
      let first := observe rules.config (machine.uncounted.emitForState rules [char] 0)
      let rest := observe rules.config (first.2.emitForState rules text 0)
      (first.1 ++ rest.1, rest.2) := by
  by_cases header : machine.state = .messageHeader
  · simp [emitForState, header, observe, uncounted]
  by_cases args : machine.state = .toolArgs
  · by_cases json : rules.config.toolArgsJson = true
    · have state := feedArgsChar_state machine.uncounted char
      have first : machine.uncounted.state = .toolArgs := args
      rw [first] at state
      have rest := observe_feedArgsText rules.config (machine.uncounted.feedArgsChar char).2 text
      have whole := observe_feedArgsText rules.config machine (char :: text)
      simp only [emitForState, args, first, json, if_true, if_false, reduceCtorEq]
      rw [← whole]
      simp only [feedArgsText, observe, uncounted_state, state, if_true, if_false, reduceCtorEq,
        List.append_nil, spellEvents_append] at rest ⊢
      rcases Prod.mk.inj rest with ⟨events, ended⟩
      rw [events, ended]
    · simp [emitForState, args, json, observe, uncounted]
      exact spellEvents_char isChunk_args ..
  · cases content : rules.config.contentEvents.get? machine.state with
    | none => simp [emitForState, header, args, content, observe, uncounted]
    | some type =>
        have chunk := isChunk_of_contentEvents content
        simp [emitForState, header, args, content, observe, uncounted]
        exact spellEvents_char chunk ..

theorem emitForState_nil (machine : EventMachine) (count : Nat) :
    observe rules.config (machine.emitForState rules [] count) = ([], machine.uncounted) := by
  by_cases header : machine.state = .messageHeader
  · simp [emitForState, header, observe, uncounted]
  by_cases args : machine.state = .toolArgs
  · by_cases json : rules.config.toolArgsJson = true
    · simp [emitForState, args, json, observe, feedArgsText]
    · simp [emitForState, args, json, observe, spellEvents_empty isChunk_args]
  · cases content : rules.config.contentEvents.get? machine.state with
    | none => simp [emitForState, header, args, content, observe]
    | some type =>
        simp [emitForState, header, args, content, observe,
          spellEvents_empty (isChunk_of_contentEvents content)]

/-- A text is reported character by character. -/
theorem emitForState_reads (machine : EventMachine) (text : Text) (count : Nat) :
    observe rules.config (machine.emitForState rules text count) =
      machine.uncounted.readLexemes rules (text.map .symbol) := by
  induction text generalizing machine count with
  | nil => exact emitForState_nil rules machine count
  | cons char text ih =>
      rw [emitForState_cons, List.map_cons, readLexemes]
      simp only [ih]
      rfl

theorem onContent_reads (machine : EventMachine) (text : Text) (count : Nat) :
    observe rules.config (machine.onContent rules text count) =
      machine.uncounted.readLexemes rules (text.map .symbol) := by
  rw [onContent]
  split
  case isTrue empty =>
    rw [empty]
    rfl
  case isFalse => exact emitForState_reads rules machine text count

/-! ## Terminals -/

theorem transitionEvents_count (header : Option (Text × Nat)) (value : Text) (count : Nat)
    (types : List EventType) (toolIndex : Int) :
    (transitionEvents header value count types toolIndex).1.map SemanticEvent.labelled =
        (transitionEvents (header.map fun header => (header.1, 0)) value 0 types
          toolIndex).1.map SemanticEvent.labelled ∧
      (transitionEvents header value count types toolIndex).2 =
        (transitionEvents (header.map fun header => (header.1, 0)) value 0 types toolIndex).2 := by
  induction types generalizing toolIndex with
  | nil => exact ⟨rfl, rfl⟩
  | cons type types ih =>
      by_cases text : type = .textChunk
      · cases header with
        | none =>
            by_cases empty : value = []
            · simp_all [transitionEvents]
            · simp_all [transitionEvents, SemanticEvent.labelled]
        | some header =>
            by_cases empty : header.1 = []
            · simp_all [transitionEvents]
            · simp_all [transitionEvents, SemanticEvent.labelled]
      · simp_all [transitionEvents, SemanticEvent.labelled]

theorem applyTransition_uncounted (machine : EventMachine) (transition : Transition) (value : Text)
    (count : Nat) :
    observe rules.config (machine.applyTransition transition value count) =
      observe rules.config (machine.uncounted.applyTransition transition value 0) := by
  have events := transitionEvents_count
    (if machine.state = .messageHeader then
      some (machine.messageHeaderBuffer, machine.messageHeaderTokenCount) else none)
    value count transition.events machine.toolIndex
  by_cases header : machine.state = .messageHeader
  · simp only [header, if_true, Option.map_some] at events
    by_cases args : transition.nextState = .toolArgs
    · simp [applyTransition, observe, spellEvents, header, args, events, uncounted]
    · simp [applyTransition, observe, spellEvents, header, args, events, uncounted]
  · simp only [header, if_false, Option.map_none] at events
    by_cases args : transition.nextState = .toolArgs
    · simp [applyTransition, observe, spellEvents, header, args, events, uncounted]
    · by_cases inArgs : machine.state = .toolArgs
      · by_cases empty : machine.argsBuffer = []
        · simp [applyTransition, observe, spellEvents, inArgs, args, empty, events, uncounted]
        · simp [applyTransition, observe, spellEvents, inArgs, args, empty, events, uncounted]
      · simp [applyTransition, observe, spellEvents, header, inArgs, args, events, uncounted]

theorem skipToolTerminal_uncounted (machine : EventMachine) (transition : Transition)
    (isExit : Bool) (value : Text) :
    observe rules.config (machine.skipToolTerminal rules transition isExit value) =
      observe rules.config (machine.uncounted.skipToolTerminal rules transition isExit value) := by
  have span : ∀ (opens exits : Bool) (machine : EventMachine),
      (if opens then { machine with inSkippedToolSpan := true }
        else if exits then { machine with inSkippedToolSpan := false } else machine).uncounted =
      (if opens then { machine.uncounted with inSkippedToolSpan := true }
        else if exits then { machine.uncounted with inSkippedToolSpan := false }
        else machine.uncounted) := by
    rintro (_ | _) (_ | _) _ <;> rfl
  have same := span transition.nextState.isTool isExit machine
  simp only [skipToolTerminal]
  rw [← same]
  generalize (if transition.nextState.isTool then _ else _ : EventMachine) = marked
  by_cases header : marked.state = .messageHeader
  · by_cases ends : .reasoningEnd ∈ transition.events
    · simp [header, ends, observe, uncounted]
    · simp [header, ends, observe, uncounted]
  · by_cases ends : .reasoningEnd ∈ transition.events
    · simp [header, ends, observe, uncounted]
    · cases content : rules.config.contentEvents.get? marked.state with
      | none => simp [header, ends, observe, uncounted, content]
      | some type => simp [header, ends, observe, uncounted, content]

theorem onTerminal_uncounted (machine : EventMachine) (terminal : String) (value : Text)
    (count : Nat) :
    observe rules.config (machine.onTerminal rules terminal value count) =
      observe rules.config (machine.uncounted.onTerminal rules terminal value 0) := by
  simp only [onTerminal, uncounted_state]
  split
  case h_1 =>
    split
    case isTrue => rfl
    case isFalse =>
      split
      case isTrue => rw [emitForState_reads, emitForState_reads]; rfl
      case isFalse => rw [emitForState_reads, emitForState_reads]; rfl
  case h_2 transition _ =>
    split
    case isTrue skips =>
      exact (skipToolTerminal_uncounted ..).trans (congrArg _ (if_pos skips).symm)
    case isFalse skips =>
      refine Eq.trans ?_ (congrArg _ (if_neg skips).symm)
      split
      case isTrue =>
        rw [emitForState_reads, emitForState_reads]
        rfl
      case isFalse => exact applyTransition_uncounted ..

/-- What a token of the lexer reports is what its lexemes report. -/
theorem onLexToken_reads (machine : EventMachine) (token : LexToken) :
    observe rules.config (machine.onLexToken rules token) =
      machine.uncounted.readLexemes rules (spellToken token) := by
  rcases token with ⟨terminal, value, count⟩
  by_cases isContent : terminal = contentTerminal
  · rw [spellToken, if_pos isContent, onLexToken, if_pos (.inl isContent)]
    exact onContent_reads rules machine value count
  · rw [spellToken, if_neg isContent, readLexemes]
    simp only [readLexemes, List.append_nil]
    change _ = observe rules.config (machine.uncounted.onLexToken rules ⟨terminal, value, 0⟩)
    simp only [onLexToken]
    split
    case isTrue => rw [onContent_reads, onContent_reads, uncounted_uncounted]
    case isFalse => exact onTerminal_uncounted ..

theorem processLexTokens_reads (machine : EventMachine) (tokens : List LexToken) :
    observe rules.config (machine.processLexTokens rules tokens) =
      machine.uncounted.readLexemes rules (tokens.flatMap spellToken) := by
  induction tokens generalizing machine with
  | nil => rfl
  | cons token tokens ih =>
      rw [List.flatMap_cons, readLexemes_append, ← onLexToken_reads]
      have rest := ih (machine.onLexToken rules token).2
      simp only [processLexTokens, observe, spellEvents_append] at rest ⊢
      rw [← rest]

theorem processFedTokens_reads (machine : EventMachine) (tokens : List LexToken) :
    observe rules.config (machine.processFedTokens rules tokens) =
      machine.uncounted.readLexemes rules (tokens.flatMap spellToken) := by
  unfold processFedTokens
  split
  case h_1 token =>
    split
    case isTrue content =>
      rw [emitForState_reads]
      simp [spellToken, content]
    case isFalse => exact processLexTokens_reads rules machine [token]
  case h_2 => exact processLexTokens_reads rules machine tokens

theorem finish_uncounted (machine : EventMachine) :
    observe rules.config machine.finish = observe rules.config machine.uncounted.finish := by
  rcases machine with ⟨state, index, header, count, span, buffer, last, depth, string, escape⟩
  by_cases args : buffer = []
  · cases state with
    | messageHeader =>
        by_cases empty : header = []
        · simp [finish, observe, args, empty, ParserState.isTool, uncounted]
        · simp [finish, observe, args, empty, ParserState.isTool, uncounted, spellEvents_count]
    | _ => simp [finish, observe, args, ParserState.isTool, uncounted]
  · cases state with
    | messageHeader =>
        by_cases empty : header = []
        · simp [finish, observe, args, empty, ParserState.isTool, uncounted]
        · simp [finish, observe, args, empty, ParserState.isTool, uncounted, spellEvents,
            SemanticEvent.labelled]
    | _ => simp [finish, observe, args, ParserState.isTool, uncounted]

end Reading

end EventMachine

end Vllm.Parser
