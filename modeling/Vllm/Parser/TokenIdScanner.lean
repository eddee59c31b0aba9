import Vllm.Library.Dict
import Vllm.Library.TextSearch

/-!
# Scanning token ids

Special tokens are recognised by their ids before the text is lexed.  The detokenizer may hold
text back, so the text of a delta need not be the text of its ids: it is aligned with them by
searching.
-/

namespace Vllm.Parser

open Vllm.Library

/-- Decoded text. -/
abbrev Text := List Char

instance instLawfulBEqText : LawfulBEq Text := inferInstance

/-- An id of the vocabulary. -/
abbrev TokenId := Nat

/-- `DROP_TERMINAL`: special tokens that the output does not show. -/
def dropTerminal : String :=
  "__DROP__"

/-- `TextChunk`. -/
structure TextChunk where
  text : Text
  tokenTexts : List Text := []
  tokenCount : Nat := 0
deriving DecidableEq, Repr

/-- `PreLexedTerminal`. -/
structure PreLexedTerminal where
  terminal : String
  tokenId : TokenId
  text : Text
deriving DecidableEq, Repr

/-- `LexerInput`. -/
inductive LexerInput where
  | text (chunk : TextChunk)
  | terminal (terminal : PreLexedTerminal)
deriving DecidableEq, Repr

/-- `TokenIDScanner`.  A deferred terminal is kept with its prefix token count. -/
structure TokenIdScanner where
  tokenIdToTerminal : Dict TokenId String
  tokenizer : Option (TokenId → Text)
  deferredTerminals : List (PreLexedTerminal × Nat) := []
  deferredTrailingTokenCount : Nat := 0
  deferredPostText : Text := []

namespace TokenIdScanner

/-- `reset`. -/
def reset (scanner : TokenIdScanner) : TokenIdScanner :=
  { scanner with
    deferredTerminals := []
    deferredTrailingTokenCount := 0
    deferredPostText := [] }

/-- `_decode_token`.  A scanner without a tokenizer has no terminals and asks for no text. -/
def decodeToken (scanner : TokenIdScanner) (tokenId : TokenId) : Text :=
  match scanner.tokenizer with
  | some decode => decode tokenId
  | none => []

/-- `_decode_tokens`. -/
def decodeTokens (scanner : TokenIdScanner) (tokenIds : List TokenId) : List Text :=
  match scanner.tokenizer with
  | some decode => tokenIds.map decode
  | none => []

/-- The loop of `_resolve_deferred` over the deferred terminals: the resolved items, the
remaining text, the accumulated text and the terminals deferred again. -/
def resolveLoop (currentTokenCount : Nat) :
    List (PreLexedTerminal × Nat) → Text → Text →
      List LexerInput × Text × Text × List (PreLexedTerminal × Nat)
  | [], remaining, post => ([], remaining, post, [])
  | (terminal, prefixTokenCount) :: rest, remaining, post =>
      match find? terminal.text remaining with
      | some pos =>
          let (results, outcome) := resolveLoop currentTokenCount rest
            (remaining.drop (pos + terminal.text.length)) post
          let before := if pos > 0 then [.text ⟨remaining.take pos, [], prefixTokenCount⟩] else []
          (before ++ .terminal terminal :: results, outcome)
      | none =>
          -- Only the terminal is a reliable split point.
          if remaining ≠ [] then
            let (results, remaining, post, deferred) :=
              resolveLoop currentTokenCount rest [] (post ++ remaining)
            (results, remaining, post, (terminal, prefixTokenCount + currentTokenCount) :: deferred)
          else
            let (results, remaining, post, deferred) :=
              resolveLoop currentTokenCount rest remaining post
            (results, remaining, post, (terminal, prefixTokenCount) :: deferred)

/-- `_resolve_deferred`. -/
def resolveDeferred (scanner : TokenIdScanner) (deltaText : Text) (currentTokenCount : Nat) :
    List LexerInput × Text × Nat × TokenIdScanner :=
  let (results, remaining, post, deferred) := resolveLoop currentTokenCount
    scanner.deferredTerminals (scanner.deferredPostText ++ deltaText) []
  if deferred ≠ [] then
    (results, remaining, 0,
      { scanner with deferredTerminals := deferred, deferredPostText := post })
  else
    (results, remaining, scanner.deferredTrailingTokenCount, { scanner with
        deferredTerminals := []
        deferredTrailingTokenCount := 0
        deferredPostText := post })

/-- Close a group of plain tokens. -/
def closeGroup (texts : List Text) : List LexerInput :=
  if texts.flatten ≠ [] then [.text ⟨texts.flatten, texts, texts.length⟩] else []

/-- Group the ids of a delta into special tokens and runs of plain ones; `texts` is the group
that is open. -/
def groupTokens (scanner : TokenIdScanner) : List Text → List TokenId → List LexerInput
  | texts, [] => closeGroup texts
  | texts, tokenId :: rest =>
      match scanner.tokenIdToTerminal.get? tokenId with
      | some terminal =>
          closeGroup texts ++
            .terminal ⟨terminal, tokenId, scanner.decodeToken tokenId⟩ :: groupTokens scanner [] rest
      | none => groupTokens scanner (texts ++ [scanner.decodeToken tokenId]) rest

/-- `_join_decoded_text`. -/
def joinDecodedText (results : List LexerInput) : Text :=
  results.flatMap fun
    | .text chunk => chunk.text
    | .terminal terminal => terminal.text

/-- The anchors among the results, each with the token texts and counts before it, and those
after the last one. -/
def tokenGroups :
    List Text → Nat → List LexerInput →
      List (PreLexedTerminal × List Text × Nat) × List Text × Nat
  | texts, count, [] => ([], texts, count)
  | texts, count, .terminal anchor :: rest =>
      let (anchors, last) := tokenGroups [] 0 rest
      ((anchor, texts, count) :: anchors, last)
  | texts, count, .text chunk :: rest =>
      tokenGroups (texts ++ chunk.tokenTexts) (count + chunk.tokenCount) rest

/-- The rightmost places of the anchors, from right to left, and where the search of the next
anchor ends. -/
def anchorPositions (deltaText : Text) :
    List (PreLexedTerminal × List Text × Nat) → List (Option Nat) × Nat
  | [] => ([], deltaText.length)
  | (anchor, _) :: rest =>
      let (positions, searchEnd) := anchorPositions deltaText rest
      match rfind? anchor.text (deltaText.take searchEnd) with
      | some pos => (some pos :: positions, pos)
      | none => (none :: positions, searchEnd)

/-- The loop of `_rebuild_from_anchors`: the new results, how much of the text is consumed, the
accumulated text and the anchors that are deferred. -/
def rebuildLoop (deltaText : Text) :
    List (PreLexedTerminal × List Text × Nat) → List (Option Nat) → Nat → Text →
      List LexerInput × Nat × Text × List (PreLexedTerminal × Nat)
  | (anchor, texts, count) :: rest, position :: positions, consumed, post =>
      match position.filter (consumed ≤ ·) with
      | some pos =>
          let (results, outcome) :=
            rebuildLoop deltaText rest positions (pos + anchor.text.length) post
          let before :=
            if pos > consumed then [.text ⟨(deltaText.take pos).drop consumed, texts, count⟩]
            else []
          (before ++ .terminal anchor :: results, outcome)
      | none =>
          -- The text of a dropped token may never arrive, so nothing waits for it.
          let (consumed, post) :=
            if !positions.any Option.isSome ∧ consumed < deltaText.length ∧
                anchor.terminal ≠ dropTerminal then
              (deltaText.length, post ++ deltaText.drop consumed)
            else
              (consumed, post)
          let (results, consumed, post, deferred) :=
            rebuildLoop deltaText rest positions consumed post
          (results, consumed, post, (anchor, count) :: deferred)
  | _, _, consumed, post => ([], consumed, post, [])

/-- `_rebuild_from_anchors`. -/
def rebuildFromAnchors (scanner : TokenIdScanner) (deltaText : Text)
    (results : List LexerInput) : List LexerInput × TokenIdScanner :=
  let (anchors, texts, count) := tokenGroups [] 0 results
  if anchors = [] then
    ([.text ⟨deltaText, [], 0⟩], scanner)
  else
    let (newResults, consumed, post, deferred) := rebuildLoop deltaText anchors
      (anchorPositions deltaText anchors).1 0 scanner.deferredPostText
    let last :=
      if consumed < deltaText.length then [.text ⟨deltaText.drop consumed, texts, count⟩] else []
    (newResults ++ last, { scanner with
        deferredTerminals := scanner.deferredTerminals ++ deferred
        deferredPostText := post })

/-- `_recover_holdback_text`. -/
def recoverHoldbackText (scanner : TokenIdScanner) (deltaText : Text)
    (results : List LexerInput) : List LexerInput × TokenIdScanner :=
  if results = [] then
    ([.text ⟨deltaText, [], 0⟩], scanner)
  else
    let reconstructed := joinDecodedText results
    if reconstructed = [] then
      (.text ⟨deltaText, [], 0⟩ :: results, scanner)
    else
      match find? reconstructed deltaText with
      | some pos =>
          if pos > 0 then (.text ⟨deltaText.take pos, [], 0⟩ :: results, scanner)
          else (results, scanner)
      | none => scanner.rebuildFromAnchors deltaText results

/-- Defer the terminals of a delta without text. -/
def deferAll (scanner : TokenIdScanner) (results : List LexerInput) : TokenIdScanner :=
  let (anchors, _, count) := tokenGroups [] 0 results
  { scanner with
    deferredTerminals :=
      scanner.deferredTerminals ++ anchors.map fun (anchor, _, count) => (anchor, count)
    deferredTrailingTokenCount := scanner.deferredTrailingTokenCount + count }

/-- `scan` behind the deferred terminals.  Tokens that trail resolved terminals only come with
prefix items, so one text chunk stands for the three returns of the source. -/
def scanEffectiveText (scanner : TokenIdScanner) (effectiveText : Text) (trailing : Nat)
    (deltaTokenIds : List TokenId) : List LexerInput × TokenIdScanner :=
  if !deltaTokenIds.any fun tokenId => (scanner.tokenIdToTerminal.get? tokenId).isSome then
    if effectiveText ≠ [] then
      let tokenTexts := scanner.decodeTokens deltaTokenIds
      ([.text ⟨effectiveText, tokenTexts, trailing + tokenTexts.length⟩], scanner)
    else
      ([], scanner)
  else
    let grouped := scanner.groupTokens [] deltaTokenIds
    let results := if trailing > 0 then .text ⟨[], [], trailing⟩ :: grouped else grouped
    if effectiveText ≠ [] then
      scanner.recoverHoldbackText effectiveText results
    else
      ([], scanner.deferAll results)

/-- `scan`. -/
def scan (scanner : TokenIdScanner) (deltaText : Text) (deltaTokenIds : List TokenId) :
    List LexerInput × TokenIdScanner :=
  let (prefixItems, effectiveText, trailing, scanner) :=
    if scanner.deferredTerminals ≠ [] then
      scanner.resolveDeferred deltaText deltaTokenIds.length
    else
      ([], deltaText, 0, scanner)
  let (items, scanner) := scanner.scanEffectiveText effectiveText trailing deltaTokenIds
  (prefixItems ++ items, scanner)

/-- `flush_pending`. -/
def flushPending (scanner : TokenIdScanner) : List LexerInput × TokenIdScanner :=
  if scanner.deferredTerminals = [] ∧ scanner.deferredPostText = [] then
    ([], scanner)
  else
    let prefixCount :=
      match scanner.deferredTerminals with
      | [] => 0
      | (_, count) :: _ => count
    let post :=
      if scanner.deferredPostText ≠ [] then
        [LexerInput.text ⟨scanner.deferredPostText, [], prefixCount⟩]
      else []
    let trailing :=
      if scanner.deferredTrailingTokenCount > 0 then
        [LexerInput.text ⟨[], [], scanner.deferredTrailingTokenCount⟩]
      else []
    (post ++ scanner.deferredTerminals.map (fun (terminal, _) => .terminal terminal) ++ trailing,
      scanner.reset)

end TokenIdScanner

end Vllm.Parser

/-!
## Events and configurations

The declarative description of a model's output format, and the events that a parser reports.
-/

namespace Vllm.Parser

open Vllm.Library

/-- `EventType`. -/
inductive EventType where
  | textChunk
  | reasoningStart
  | reasoningChunk
  | reasoningEnd
  | toolCallStart
  | toolName
  | argValueChunk
  | toolCallEnd
deriving DecidableEq, Repr

/-- `SemanticEvent`. -/
structure SemanticEvent where
  type : EventType
  value : Text := []
  toolIndex : Int := -1
  tokenCount : Nat := 0
deriving DecidableEq, Repr

/-- `ParserState`. -/
inductive ParserState where
  | content
  | reasoning
  | messageHeader
  | toolPreamble
  | toolName
  | toolArgs
  | toolBetween
deriving DecidableEq, Repr

/-- `_TOOL_STATES`. -/
def ParserState.isTool : ParserState → Bool
  | .toolPreamble | .toolName | .toolArgs | .toolBetween => true
  | .content | .reasoning | .messageHeader => false

/-- `Transition`. -/
structure Transition where
  nextState : ParserState
  events : List EventType := []
  skipInTokenIdMode : Bool := false
deriving DecidableEq, Repr

/-- The default `content_events`. -/
def defaultContentEvents : Dict ParserState EventType :=
  ⟨[(.content, .textChunk), (.reasoning, .reasoningChunk), (.toolName, .toolName),
    (.toolArgs, .argValueChunk)], by decide⟩

/-- `ParserEngineConfig` with literal terminals, as far as the streaming engine reads it. -/
structure ParserEngineConfig where
  terminals : Dict String Text := .empty
  tokenIdTerminals : Dict String Text := .empty
  transitions : Dict (ParserState × String) Transition := .empty
  contentEvents : Dict ParserState EventType := defaultContentEvents
  initialState : ParserState := .content
  toolArgsJson : Bool := true
  preserveTokens : List Text := []

namespace ParserEngineConfig

/-- `_tool_terminals`: the terminals that enter, leave or stay in a tool state. -/
def toolTerminals (config : ParserEngineConfig) : List String :=
  (config.transitions.entries.filter fun entry =>
    entry.2.nextState.isTool || entry.1.1.isTool).map (·.1.2)

/-- `_tool_exit_terminals`. -/
def toolExitTerminals (config : ParserEngineConfig) : List String :=
  (config.transitions.entries.filter fun entry =>
    entry.1.1.isTool && !entry.2.nextState.isTool).map (·.1.2)

end ParserEngineConfig

end Vllm.Parser
