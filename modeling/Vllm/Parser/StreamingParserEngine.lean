import Vllm.Parser.IncrementalLexer
import Vllm.Parser.TokenIdScanner

/-!
# The streaming parser engine

A delta passes the token id scanner, the incremental lexer and the state machine of the
configuration, which reports semantic events.
-/

namespace Vllm.Parser

open Vllm.Library

/-- What the engine reads from a tokenizer; one without special tokens may not list them. -/
structure Tokenizer where
  vocab : Dict Text TokenId
  decode : TokenId → Text
  specialTokens : Option (List (Text × TokenId))

/-- What the state machine reads and does not write: the configuration, what the constructor
derives from it, the flag that callers set, and whether a delta ever had token ids. -/
structure EngineRules where
  config : ParserEngineConfig
  resolvedTokenIds : Dict TokenId String
  hasDrops : Bool
  skipToolParsing : Bool
  everHadTokenIds : Bool := false

/-- `_token_id_terminal_names`. -/
def EngineRules.tokenIdTerminalNames (rules : EngineRules) : List String :=
  rules.resolvedTokenIds.entries.map (·.2)

/-- The state machine of `StreamingParserEngine`. -/
structure EventMachine where
  state : ParserState
  toolIndex : Int := -1
  messageHeaderBuffer : Text := []
  messageHeaderTokenCount : Nat := 0
  inSkippedToolSpan : Bool := false
  argsBuffer : Text := []
  argsSafeEnd : Nat := 0
  argsBraceDepth : Nat := 0
  argsInString : Bool := false
  argsEscapeNext : Bool := false
deriving DecidableEq, Repr

namespace EventMachine

/-! ## Arguments -/

/-- `_flush_safe_args`. -/
def flushSafeArgs (machine : EventMachine) : List SemanticEvent × EventMachine :=
  if machine.argsSafeEnd = 0 then ([], machine)
  else
    ([⟨.argValueChunk, machine.argsBuffer.take machine.argsSafeEnd, machine.toolIndex, 0⟩],
      { machine with
        argsBuffer := machine.argsBuffer.drop machine.argsSafeEnd
        argsSafeEnd := 0 })

/-- `self._args_safe_end = len(self._args_buffer)` and `_flush_safe_args`. -/
def emitArgs (machine : EventMachine) : List SemanticEvent × EventMachine :=
  flushSafeArgs { machine with argsSafeEnd := machine.argsBuffer.length }

/-- `_feed_args_char`. -/
def feedArgsChar (machine : EventMachine) (char : Char) : List SemanticEvent × EventMachine :=
  let machine := { machine with argsBuffer := machine.argsBuffer ++ [char] }
  if machine.argsEscapeNext then
    emitArgs { machine with argsEscapeNext := false }
  else if machine.argsInString then
    if char = '\\' then emitArgs { machine with argsEscapeNext := true }
    else if char = '"' then emitArgs { machine with argsInString := false }
    else emitArgs machine
  else if char = '"' then
    emitArgs { machine with argsInString := true }
  else if char = '{' ∨ char = '[' then
    emitArgs { machine with argsBraceDepth := machine.argsBraceDepth + 1 }
  else if char = '}' ∨ char = ']' then
    let machine := { machine with argsBraceDepth := machine.argsBraceDepth - 1 }
    -- A closing brace at the top is held back until more input or the end confirms it.
    if machine.argsBraceDepth = 0 then ([], machine) else emitArgs machine
  else
    emitArgs machine

/-- `_feed_args_text`. -/
def feedArgsText (machine : EventMachine) : Text → List SemanticEvent × EventMachine
  | [] => ([], machine)
  | char :: text =>
      let (events, machine) := machine.feedArgsChar char
      let (more, machine) := machine.feedArgsText text
      (events ++ more, machine)

/-! ## Content and terminals -/

variable (rules : EngineRules)

/-- `_emit_for_state`. -/
def emitForState (machine : EventMachine) (text : Text) (tokenCount : Nat) :
    List SemanticEvent × EventMachine :=
  if machine.state = .messageHeader then
    ([], { machine with
      messageHeaderBuffer := machine.messageHeaderBuffer ++ text
      messageHeaderTokenCount := machine.messageHeaderTokenCount + tokenCount })
  else if machine.state = .toolArgs then
    if rules.config.toolArgsJson then machine.feedArgsText text
    else ([⟨.argValueChunk, text, machine.toolIndex, tokenCount⟩], machine)
  else
    match rules.config.contentEvents.get? machine.state with
    | some type => ([⟨type, text, machine.toolIndex, tokenCount⟩], machine)
    | none => ([], machine)

/-- `_on_content`. -/
def onContent (machine : EventMachine) (text : Text) (tokenCount : Nat) :
    List SemanticEvent × EventMachine :=
  if text = [] then ([], machine) else machine.emitForState rules text tokenCount

/-- The loop of `_apply_transition` over the events of a transition.  `header` is the text and
the token count of the message header that the transition leaves. -/
def transitionEvents (header : Option (Text × Nat)) (value : Text) (tokenCount : Nat) :
    List EventType → Int → List SemanticEvent × Int
  | [], toolIndex => ([], toolIndex)
  | type :: rest, toolIndex =>
      let toolIndex := if type = .toolCallStart then toolIndex + 1 else toolIndex
      let (text, count) :=
        if type = .textChunk then header.getD (value, tokenCount) else (value, tokenCount)
      let (events, last) := transitionEvents header value tokenCount rest toolIndex
      if type = .textChunk ∧ text = [] then (events, last)
      else (⟨type, text, toolIndex, count⟩ :: events, last)

/-- `_apply_transition`. -/
def applyTransition (machine : EventMachine) (transition : Transition) (value : Text)
    (tokenCount : Nat) : List SemanticEvent × EventMachine :=
  let (flushed, machine) :=
    if machine.state = .toolArgs ∧ transition.nextState ≠ .toolArgs ∧ machine.argsBuffer ≠ [] then
      ([⟨.argValueChunk, machine.argsBuffer, machine.toolIndex, 0⟩],
        { machine with argsBuffer := [] })
    else
      (([] : List SemanticEvent), machine)
  let (header, machine) :=
    if machine.state = .messageHeader then
      (some (machine.messageHeaderBuffer, machine.messageHeaderTokenCount),
        { machine with messageHeaderBuffer := [], messageHeaderTokenCount := 0 })
    else
      (none, machine)
  let (events, toolIndex) :=
    transitionEvents header value tokenCount transition.events machine.toolIndex
  let machine := { machine with state := transition.nextState, toolIndex := toolIndex }
  let machine :=
    if machine.state = .toolArgs then
      { machine with
        argsBraceDepth := 0
        argsInString := false
        argsEscapeNext := false
        argsSafeEnd := 0 }
    else machine
  (flushed ++ events, machine)

/-- The branch of `_on_terminal` for tool terminals while tool parsing is skipped. -/
def skipToolTerminal (machine : EventMachine) (transition : Transition) (isExit : Bool)
    (value : Text) : List SemanticEvent × EventMachine :=
  let machine :=
    if transition.nextState.isTool then { machine with inSkippedToolSpan := true }
    else if isExit then { machine with inSkippedToolSpan := false }
    else machine
  let leavingMessageHeader := machine.state = .messageHeader
  let machine :=
    if leavingMessageHeader then
      { machine with messageHeaderBuffer := [], messageHeaderTokenCount := 0 }
    else machine
  -- A tool terminal that ends reasoning reports that even from the header state.
  if .reasoningEnd ∈ transition.events then
    ([⟨.reasoningEnd, value, machine.toolIndex, 0⟩, ⟨.textChunk, value, machine.toolIndex, 0⟩],
      { machine with state := .content })
  else if leavingMessageHeader then
    ([⟨.textChunk, value, machine.toolIndex, 0⟩], { machine with state := .content })
  else
    match rules.config.contentEvents.get? machine.state with
    | some type => ([⟨type, value, machine.toolIndex, 0⟩], machine)
    | none => ([], machine)

/-- `_on_terminal`. -/
def onTerminal (machine : EventMachine) (terminal : String) (value : Text) (tokenCount : Nat) :
    List SemanticEvent × EventMachine :=
  let isExit : Bool := terminal ∈ rules.config.toolExitTerminals
  match rules.config.transitions.get? (machine.state, terminal) with
  | none =>
      if rules.hasDrops ∧ terminal = dropTerminal then ([], machine)
      else
        let machine :=
          if rules.skipToolParsing ∧ isExit then { machine with inSkippedToolSpan := false }
          else machine
        machine.emitForState rules value tokenCount
  | some transition =>
      let usedAsPlainCloser := isExit ∧ ¬transition.nextState.isTool ∧ ¬machine.inSkippedToolSpan
      if rules.skipToolParsing ∧ terminal ∈ rules.config.toolTerminals ∧ ¬usedAsPlainCloser then
        machine.skipToolTerminal rules transition isExit value
      else if transition.skipInTokenIdMode ∧ rules.everHadTokenIds then
        machine.emitForState rules value tokenCount
      else
        machine.applyTransition transition value tokenCount

/-- The body of the loop of `_process_lex_tokens`.  Once a delta had token ids, terminals that
have one are content when they are spelled. -/
def onLexToken (machine : EventMachine) (token : LexToken) :
    List SemanticEvent × EventMachine :=
  if token.terminal = contentTerminal ∨
      rules.everHadTokenIds ∧ token.terminal ∈ rules.tokenIdTerminalNames then
    machine.onContent rules token.value token.tokenCount
  else
    machine.onTerminal rules token.terminal token.value token.tokenCount

/-- `_process_lex_tokens`. -/
def processLexTokens (machine : EventMachine) :
    List LexToken → List SemanticEvent × EventMachine
  | [] => ([], machine)
  | token :: tokens =>
      let (events, machine) := machine.onLexToken rules token
      let (more, machine) := machine.processLexTokens tokens
      (events ++ more, machine)

/-- The tokens of a delta that is one text; a single token of content skips the loop. -/
def processFedTokens (machine : EventMachine) (tokens : List LexToken) :
    List SemanticEvent × EventMachine :=
  match tokens with
  | [token] =>
      if token.terminal = contentTerminal then
        machine.emitForState rules token.value token.tokenCount
      else machine.processLexTokens rules tokens
  | _ => machine.processLexTokens rules tokens

/-- The events of `finish` behind the buffers of the scanner and the lexer. -/
def finish (machine : EventMachine) : List SemanticEvent × EventMachine :=
  let (flushed, machine) :=
    if machine.argsBuffer ≠ [] then
      ([⟨.argValueChunk, machine.argsBuffer, machine.toolIndex, 0⟩],
        { machine with argsBuffer := [], argsSafeEnd := 0 })
    else
      (([] : List SemanticEvent), machine)
  if machine.state.isTool then
    (flushed ++
        (if machine.toolIndex ≥ 0 then [⟨.toolCallEnd, [], machine.toolIndex, 0⟩] else []),
      { machine with state := .content })
  else if machine.state = .reasoning then
    (flushed ++ [⟨.reasoningEnd, [], machine.toolIndex, 0⟩], { machine with state := .content })
  else if machine.state = .messageHeader then
    if machine.messageHeaderBuffer ≠ [] then
      (flushed ++ [⟨.textChunk, machine.messageHeaderBuffer, machine.toolIndex,
          machine.messageHeaderTokenCount⟩],
        { machine with
          state := .content
          messageHeaderBuffer := []
          messageHeaderTokenCount := 0 })
    else
      (flushed, { machine with state := .content })
  else
    (flushed, machine)

end EventMachine

/-- `StreamingParserEngine`. -/
structure StreamingParserEngine where
  rules : EngineRules
  scanner : TokenIdScanner
  lexer : IncrementalLexer
  machine : EventMachine
  reasoningTokenCount : Nat := 0

namespace StreamingParserEngine

/-- The special tokens that `_build_drop_info` drops: those that no terminal and no preserved
token spells. -/
def dropTokens (config : ParserEngineConfig) (tokenizer : Tokenizer) : List (Text × TokenId) :=
  let configured := config.tokenIdTerminals.entries.map (·.2) ++
    config.terminals.entries.map (·.2) ++ config.preserveTokens
  (tokenizer.specialTokens.getD []).filter fun token => token.1 ∉ configured

/-- `__init__`: the ids of the token id terminals and of the dropped special tokens. -/
def resolveTokenIds (config : ParserEngineConfig) (tokenizer : Tokenizer) :
    Dict TokenId String :=
  let resolved := config.tokenIdTerminals.entries.foldl
    (fun resolved entry =>
      match tokenizer.vocab.get? entry.2 with
      | some tokenId => resolved.insert tokenId entry.1
      | none => resolved)
    .empty
  (dropTokens config tokenizer).foldl
    (fun resolved token => resolved.insert token.2 dropTerminal) resolved

/-- `__init__` and `reset`. -/
def make (patternLength : Text → Nat) (config : ParserEngineConfig)
    (tokenizer : Option Tokenizer) (initialState : Option ParserState) (skipToolParsing : Bool) :
    StreamingParserEngine :=
  let drops := tokenizer.elim [] (dropTokens config)
  let resolved := tokenizer.elim .empty (resolveTokenIds config)
  let terminals := config.terminals.entries.map fun entry => (entry.2, entry.1)
  let shape := LexerShape.make patternLength
    (terminals ++ (drops.map (·.1)).dedup.map fun text => (text, dropTerminal))
  { rules := ⟨config, resolved, drops ≠ [], skipToolParsing, false⟩
    scanner := { tokenIdToTerminal := resolved, tokenizer := tokenizer.map Tokenizer.decode }
    lexer := { shape := shape }
    machine := { state := initialState.getD config.initialState } }

/-- `_record_reasoning_tokens`. -/
def recordReasoningTokens (engine : StreamingParserEngine) (events : List SemanticEvent) :
    StreamingParserEngine :=
  { engine with
    reasoningTokenCount := engine.reasoningTokenCount +
      ((events.filter (·.type = .reasoningChunk)).map (·.tokenCount)).sum }

/-- `_process_scanner_items`. -/
def processScannerItems (engine : StreamingParserEngine) :
    List LexerInput → List SemanticEvent × StreamingParserEngine
  | [] => ([], engine)
  | item :: items =>
      let (events, engine) :=
        match item with
        | .terminal item =>
            let (tokens, lexer) := engine.lexer.flush
            let (events, machine) := engine.machine.processLexTokens engine.rules tokens
            let (more, machine) := machine.onTerminal engine.rules item.terminal item.text 0
            (events ++ more, { engine with lexer := lexer, machine := machine })
        | .text item =>
            if item.text = [] ∧ item.tokenCount ≠ 0 then
              let (events, machine) := engine.machine.emitForState engine.rules [] item.tokenCount
              (events, { engine with machine := machine })
            else
              let (tokens, lexer) := engine.lexer.feed item.text item.tokenTexts item.tokenCount
              let (events, machine) := engine.machine.processLexTokens engine.rules tokens
              (events, { engine with lexer := lexer, machine := machine })
      let (more, engine) := engine.processScannerItems items
      (events ++ more, engine)

/-- The delta is plain content: nothing is pending and nothing in it starts a terminal. -/
def onFastPath (engine : StreamingParserEngine) (deltaText : Text)
    (deltaTokenIds : List TokenId) : Bool :=
  deltaText ≠ [] ∧ engine.lexer.buffer = [] ∧ engine.scanner.deferredTerminals = [] ∧
    ¬IncrementalLexer.hasPotential engine.lexer.shape deltaText ∧
    ¬deltaTokenIds.any fun tokenId => (engine.rules.resolvedTokenIds.get? tokenId).isSome

/-- The first statement of `feed`: remember that a delta had token ids. -/
def noteTokenIds (engine : StreamingParserEngine) (deltaTokenIds : List TokenId) :
    StreamingParserEngine :=
  if deltaTokenIds ≠ [] then { engine with rules := { engine.rules with everHadTokenIds := true } }
  else engine

/-- `feed`. -/
def feed (engine : StreamingParserEngine) (deltaText : Text) (deltaTokenIds : List TokenId) :
    List SemanticEvent × StreamingParserEngine :=
  let engine := engine.noteTokenIds deltaTokenIds
  if engine.onFastPath deltaText deltaTokenIds then
    let (events, machine) :=
      engine.machine.emitForState engine.rules deltaText deltaTokenIds.length
    (events, recordReasoningTokens { engine with machine := machine } events)
  else
    let (items, scanner) := engine.scanner.scan deltaText deltaTokenIds
    let engine := { engine with scanner := scanner }
    match items with
    | [.text item] =>
        let (tokens, lexer) := engine.lexer.feed item.text item.tokenTexts item.tokenCount
        let (events, machine) := engine.machine.processFedTokens engine.rules tokens
        (events, recordReasoningTokens { engine with lexer := lexer, machine := machine } events)
    | items =>
        let (events, engine) := engine.processScannerItems items
        (events, engine.recordReasoningTokens events)

/-- `finish`. -/
def finish (engine : StreamingParserEngine) : List SemanticEvent × StreamingParserEngine :=
  let (items, scanner) := engine.scanner.flushPending
  let (pending, engine) := processScannerItems { engine with scanner := scanner } items
  let (tokens, lexer) := engine.lexer.flush
  let (events, machine) := engine.machine.processLexTokens engine.rules tokens
  let (last, machine) := machine.finish
  let events := pending ++ events ++ last
  (events, recordReasoningTokens { engine with lexer := lexer, machine := machine } events)

end StreamingParserEngine

end Vllm.Parser
