import Vllm.Parser.EventChunks
import Vllm.Parser.ScannerRuns

/-!
# The engine and its deltas

The output is a sequence of pieces, texts and special tokens.  However it is cut into deltas, the
engine reports what is read from its pieces.
-/

namespace Vllm.Parser

open Vllm.Library
open IncrementalLexer (readText spellToken)
open EventMachine (observe)

/-- The pieces of an item of the scanner. -/
def LexerInput.pieces : LexerInput → List Piece
  | .text chunk => chunk.text.map .char
  | .terminal anchor => [.special anchor]

/-- What is seen of the pieces that remain, behind text that is carried over. -/
def readPieces (rules : EngineRules) (shape : LexerShape) (machine : EventMachine) (carry : Text) :
    List Piece → List ((EventType × Int) × Text)
  | [] =>
      let (seen, machine) := machine.readLexemes rules (readText shape carry)
      seen ++ (observe rules.config machine.finish).1
  | .char c :: rest => readPieces rules shape machine (carry ++ [c]) rest
  | .special terminal :: rest =>
      let (seen, machine) := machine.readLexemes rules (readText shape carry)
      let (more, machine) :=
        observe rules.config (machine.onTerminal rules terminal.terminal terminal.text 0)
      seen ++ more ++ readPieces rules shape machine [] rest

section Pieces

variable (rules : EngineRules) (shape : LexerShape)

/-- Lexemes that are read from the front, whatever follows, can be reported at once. -/
theorem readPieces_shift {carry kept : Text} {lexemes : List (Lexeme Char String)}
    (reads : ∀ future, readText shape (carry ++ future) = lexemes ++ readText shape (kept ++ future))
    (machine : EventMachine) (pieces : List Piece) :
    readPieces rules shape machine carry pieces =
      (machine.readLexemes rules lexemes).1 ++
        readPieces rules shape (machine.readLexemes rules lexemes).2 kept pieces := by
  have whole := reads []
  rw [List.append_nil, List.append_nil] at whole
  induction pieces generalizing carry kept with
  | nil => simp [readPieces, whole, EventMachine.readLexemes_append]
  | cons piece pieces ih =>
      cases piece with
      | char c =>
          apply ih
          · intro future
            rw [List.append_assoc, List.append_assoc, reads]
          · exact reads [c]
      | special terminal => simp [readPieces, whole, EventMachine.readLexemes_append]

theorem readPieces_chars (machine : EventMachine) (carry text : Text) (pieces : List Piece) :
    readPieces rules shape machine carry (text.map .char ++ pieces) =
      readPieces rules shape machine (carry ++ text) pieces := by
  induction text generalizing carry with
  | nil => rw [List.append_nil, List.map_nil, List.nil_append]
  | cons c text ih => simp [readPieces, ih]

end Pieces

namespace StreamingParserEngine

/-! ## Scanner items -/

section Items

/-- What is seen of the pieces that remain once the engine processed some. -/
def remaining (engine : StreamingParserEngine) (pieces : List Piece) :
    List ((EventType × Int) × Text) :=
  readPieces engine.rules engine.lexer.shape engine.machine.uncounted engine.lexer.buffer pieces

/-- Events are reported for a front of the pieces; the scanner and the rules stay. -/
structure Reports (engine : StreamingParserEngine) (pieces : List Piece)
    (result : List SemanticEvent × StreamingParserEngine) : Prop where
  rules : result.2.rules = engine.rules
  shape : result.2.lexer.shape = engine.lexer.shape
  scanner : result.2.scanner = engine.scanner
  seen : ∀ rest, engine.remaining (pieces ++ rest) =
    spellEvents engine.rules.config result.1 ++ result.2.remaining rest

variable {engine : StreamingParserEngine} {tokens : List LexToken} {lexer : IncrementalLexer}

theorem Reports.record {pieces : List Piece} {result : List SemanticEvent × StreamingParserEngine}
    (reports : Reports engine pieces result) (events : List SemanticEvent) :
    Reports engine pieces (result.1, result.2.recordReasoningTokens events) :=
  ⟨reports.rules, reports.shape, reports.scanner, reports.seen⟩

theorem Reports.trans {pieces more : List Piece}
    {first : List SemanticEvent × StreamingParserEngine} (front : Reports engine pieces first)
    {second : List SemanticEvent × StreamingParserEngine} (back : Reports first.2 more second) :
    Reports engine (pieces ++ more) (first.1 ++ second.1, second.2) := by
  constructor
  · exact back.rules.trans front.rules
  · exact back.shape.trans front.shape
  · exact back.scanner.trans front.scanner
  · intro rest
    rw [List.append_assoc, front.seen, back.seen, front.rules, spellEvents_append,
      List.append_assoc]

/-- Text is fed to the lexer and the state machine. -/
theorem reports_text (engine : StreamingParserEngine) {text : Text} {tokenTexts : List Text}
    {count : Nat} {result : List SemanticEvent × EventMachine}
    (fed : engine.lexer.feed text tokenTexts count = (tokens, lexer))
    (seen : observe engine.rules.config result =
      observe engine.rules.config (engine.machine.processLexTokens engine.rules tokens)) :
    Reports engine (text.map .char) (result.1,
      { engine with lexer := lexer, machine := result.2 }) := by
  rcases IncrementalLexer.feed_reads engine.lexer text tokenTexts count fed with ⟨shape, reads⟩
  rw [EventMachine.processLexTokens_reads] at seen
  constructor
  · rfl
  · exact shape
  · rfl
  · intro rest
    have shifted := readPieces_shift engine.rules engine.lexer.shape reads
      engine.machine.uncounted rest
    rw [← seen] at shifted
    rw [remaining, readPieces_chars]
    simp only [remaining, shape]
    exact shifted

/-- A special token flushes the lexer in front of it. -/
theorem reports_special (engine : StreamingParserEngine) {terminal : PreLexedTerminal}
    {front : List SemanticEvent × EventMachine} (flushed : engine.lexer.flush = (tokens, lexer))
    (processed : engine.machine.processLexTokens engine.rules tokens = front) :
    Reports engine [.special terminal]
      (front.1 ++ (front.2.onTerminal engine.rules terminal.terminal terminal.text 0).1,
        { engine with
          lexer := lexer
          machine := (front.2.onTerminal engine.rules terminal.terminal terminal.text 0).2 }) := by
  rcases IncrementalLexer.flush_reads engine.lexer flushed with ⟨shape, empty, reads⟩
  have seen := EventMachine.processLexTokens_reads engine.rules engine.machine tokens
  have last := EventMachine.onTerminal_uncounted engine.rules front.2 terminal.terminal
    terminal.text 0
  rw [processed] at seen
  constructor
  · rfl
  · exact shape
  · rfl
  · intro rest
    simp only [remaining, List.singleton_append, readPieces, shape, reads, empty,
      spellEvents_append]
    rw [← seen]
    dsimp only [observe] at last ⊢
    rcases Prod.mk.inj last with ⟨events, ended⟩
    rw [events, ended]

/-- Tokens without text are only counted. -/
theorem reports_count (engine : StreamingParserEngine) (count : Nat) :
    Reports engine []
      ((engine.machine.emitForState engine.rules [] count).1,
        { engine with machine := (engine.machine.emitForState engine.rules [] count).2 }) := by
  have seen := EventMachine.emitForState_nil engine.rules engine.machine count
  rcases Prod.mk.inj seen with ⟨events, ended⟩
  constructor
  · rfl
  · rfl
  · rfl
  · intro rest
    simp only [remaining, events, ended, List.nil_append]

/-- Plain text is content. -/
theorem reports_plain (engine : StreamingParserEngine) (text : Text) (count : Nat)
    (empty : engine.lexer.buffer = [])
    (plain : ¬IncrementalLexer.hasPotential engine.lexer.shape text = true) :
    Reports engine (text.map .char)
      ((engine.machine.emitForState engine.rules text count).1,
        { engine with machine := (engine.machine.emitForState engine.rules text count).2 }) := by
  have seen := EventMachine.emitForState_reads engine.rules engine.machine text count
  have reads : ∀ future, readText engine.lexer.shape (engine.lexer.buffer ++ text ++ future) =
      text.map .symbol ++ readText engine.lexer.shape (engine.lexer.buffer ++ future) := by
    intro future
    have absent : ∀ index < text.length,
        longestMatch engine.lexer.shape.literalStrings ((text ++ future).drop index) = none :=
      fun index below => IncrementalLexer.longestMatch_of_not_startsAt below
        (IncrementalLexer.not_startsAt_of_no_potential plain) future
    have content := IncrementalLexer.reads_content (Nat.le_refl _) absent 0
    simpa [empty, spellToken] using content
  constructor
  · rfl
  · rfl
  · rfl
  · intro rest
    have shifted := readPieces_shift engine.rules engine.lexer.shape reads
      engine.machine.uncounted rest
    rw [← seen] at shifted
    rw [remaining, readPieces_chars]
    exact shifted

/-- The items of the scanner are processed one after the other. -/
theorem reports_items (engine : StreamingParserEngine) (items : List LexerInput) :
    Reports engine (items.flatMap LexerInput.pieces) (engine.processScannerItems items) := by
  induction items generalizing engine with
  | nil => exact ⟨rfl, rfl, rfl, fun _ => rfl⟩
  | cons item items ih =>
      rw [List.flatMap_cons]
      cases item with
      | terminal terminal =>
          have flushed : engine.lexer.flush = (engine.lexer.flush.1, engine.lexer.flush.2) := rfl
          exact (reports_special engine flushed rfl).trans (ih _)
      | text item =>
          by_cases counted : item.text = [] ∧ item.tokenCount ≠ 0
          · simp only [processScannerItems, if_pos counted, LexerInput.pieces]
            rw [counted.1]
            exact (reports_count engine item.tokenCount).trans (ih _)
          · simp only [processScannerItems, if_neg counted, LexerInput.pieces]
            generalize fed : engine.lexer.feed item.text item.tokenTexts item.tokenCount = tokens
            exact (reports_text engine fed rfl).trans (ih _)

end Items

/-! ## Scanning in step with the text -/

/-- The pieces of a delta: those of its ids, or its text when it comes without ids. -/
def deltaPieces (scanner : TokenIdScanner) (delta : Text × List TokenId) : List Piece :=
  if delta.2 = [] then delta.1.map .char else scanner.piecesOf delta.2

/-- A delta with ids has the text of its ids. -/
def DeltaInStep (scanner : TokenIdScanner) (delta : Text × List TokenId) : Prop :=
  delta.2 ≠ [] → delta.1 = delta.2.flatMap scanner.decodeToken

/-- The pieces of the deferred terminals. -/
def deferredPieces (scanner : TokenIdScanner) : List Piece :=
  scanner.deferredTerminals.map fun entry => .special entry.1

section Scanning

variable (scanner : TokenIdScanner)

theorem closeGroup_pieces (texts : List Text) :
    (TokenIdScanner.closeGroup texts).flatMap LexerInput.pieces = texts.flatten.map .char := by
  rw [TokenIdScanner.closeGroup]
  split
  case isTrue => simp [LexerInput.pieces]
  case isFalse empty => rw [not_not.mp empty]; rfl

/-- The tokens of a delta, grouped, show its pieces. -/
theorem groupTokens_flatMap (texts : List Text) (tokenIds : List TokenId) :
    (scanner.groupTokens texts tokenIds).flatMap LexerInput.pieces =
      texts.flatten.map .char ++ scanner.piecesOf tokenIds := by
  induction tokenIds generalizing texts with
  | nil => simp [TokenIdScanner.groupTokens, TokenIdScanner.piecesOf, closeGroup_pieces]
  | cons tokenId tokenIds ih =>
      cases found : scanner.tokenIdToTerminal.get? tokenId with
      | some terminal =>
          simp [TokenIdScanner.groupTokens, TokenIdScanner.piecesOf, found, ih, closeGroup_pieces,
            LexerInput.pieces]
      | none => simp [TokenIdScanner.groupTokens, TokenIdScanner.piecesOf, found, ih]

/-- Deferred terminals without text are resolved in front of the next text. -/
theorem resolveLoop_empty (count : Nat) {deferred : List (PreLexedTerminal × Nat)}
    (empty : ∀ entry ∈ deferred, entry.1.text = []) (remaining post : Text) :
    TokenIdScanner.resolveLoop count deferred remaining post =
      (deferred.map fun entry => .terminal entry.1, remaining, post, []) := by
  induction deferred with
  | nil => rfl
  | cons entry rest ih =>
      rcases entry with ⟨terminal, prefixCount⟩
      have text : terminal.text = [] := empty (terminal, prefixCount) List.mem_cons_self
      have found : find? ([] : Text) remaining = some 0 := find?_of_prefixed List.nil_prefix
      have others := ih fun other member => empty other (List.mem_cons_of_mem _ member)
      simp [TokenIdScanner.resolveLoop, text, found, others]

/-- Pieces without text are special tokens. -/
theorem specials_of_textOf_nil {pieces : List Piece} (empty : textOf pieces = []) :
    pieces = (specialsOf pieces).map .special ∧
      ∀ terminal ∈ specialsOf pieces, terminal.text = [] := by
  induction pieces with
  | nil => simp
  | cons piece pieces ih =>
      cases piece with
      | char c => simp at empty
      | special terminal =>
          rw [textOf_special, List.append_eq_nil_iff] at empty
          rcases ih empty.2 with ⟨same, texts⟩
          rw [specialsOf_special]
          constructor
          · rw [List.map_cons, ← same]
          · simp only [List.mem_cons, forall_eq_or_imp]
            exact ⟨empty.1, texts⟩

/-- A scanner that keeps no text: the terminals that it defers have none. -/
structure Textless (scanner : TokenIdScanner) : Prop where
  deferred : ∀ entry ∈ scanner.deferredTerminals, entry.1.text = []
  post : scanner.deferredPostText = []

variable {scanner}

variable {delta : Text × List TokenId}

theorem deltaPieces_of_silent (inStep : DeltaInStep scanner delta) (silent : delta.1 = []) :
    deltaPieces scanner delta = (specialsOf (scanner.piecesOf delta.2)).map .special ∧
      ∀ terminal ∈ specialsOf (scanner.piecesOf delta.2), terminal.text = [] := by
  by_cases none : delta.2 = []
  · simp [deltaPieces, none, silent, TokenIdScanner.piecesOf]
  · rw [deltaPieces, if_neg none]
    apply specials_of_textOf_nil
    rw [TokenIdScanner.textOf_piecesOf, ← inStep none, silent]

/-- The text of a delta is that of its pieces. -/
theorem textOf_deltaPieces (inStep : DeltaInStep scanner delta) :
    textOf (deltaPieces scanner delta) = delta.1 := by
  by_cases none : delta.2 = []
  · rw [deltaPieces, if_pos none, textOf_chars]
  · rw [deltaPieces, if_neg none, TokenIdScanner.textOf_piecesOf, inStep none]

/-- Results that spell the text are kept. -/
theorem recoverHoldbackText_exact {deltaText : Text} {results : List LexerInput}
    (spelled : TokenIdScanner.joinDecodedText results = deltaText) (some : deltaText ≠ []) :
    scanner.recoverHoldbackText deltaText results = (results, scanner) := by
  have nonempty : results ≠ [] := by
    rintro rfl
    exact some spelled.symm
  simp [TokenIdScanner.recoverHoldbackText, nonempty, spelled, some,
    find?_of_prefixed (List.prefix_refl deltaText)]

variable {items : List LexerInput}

variable {next : TokenIdScanner}

/-- Scanning the text of some ids, with nothing deferred, shows their pieces. -/
theorem scanEffectiveText_pieces (textless : Textless scanner)
    (resolved : scanner.deferredTerminals = []) (trailing : Nat)
    (inStep : DeltaInStep scanner delta)
    (scanned : scanner.scanEffectiveText delta.1 trailing delta.2 = (items, next)) :
    items.flatMap LexerInput.pieces ++ deferredPieces next = deltaPieces scanner delta ∧
      scanner.SameVocabulary next ∧ Textless next := by
  by_cases silent : delta.1 = []
  · rcases deltaPieces_of_silent inStep silent with ⟨pieces, texts⟩
    rcases TokenIdScanner.scanEffectiveText_nil scanner trailing delta.2 with
      ⟨deferring, ran, same, post, names⟩
    rw [silent, ran] at scanned
    cases scanned
    rw [resolved, List.map_nil, List.nil_append] at names
    refine ⟨?_, same, ?_, post.trans textless.post⟩
    · rw [pieces, ← names, deferredPieces, List.map_map]
      rfl
    · intro entry member
      apply texts
      rw [← names]
      exact List.mem_map_of_mem member
  · rw [TokenIdScanner.scanEffectiveText] at scanned
    by_cases plain : specialsOf (scanner.piecesOf delta.2) = []
    · rw [TokenIdScanner.specialsOf_piecesOf_eq_nil.mp plain, Bool.not_false, if_pos rfl,
        if_pos silent] at scanned
      cases scanned
      refine ⟨?_, ⟨rfl, rfl⟩, textless⟩
      have chars : ∃ chars : Text, deltaPieces scanner delta = chars.map .char := by
        by_cases none : delta.2 = []
        · exact ⟨delta.1, by rw [deltaPieces, if_pos none]⟩
        · rw [deltaPieces, if_neg none]
          exact chars_of_specialsOf_nil plain
      rcases chars with ⟨chars, pieces⟩
      have text := textOf_deltaPieces inStep
      rw [pieces, textOf_chars] at text
      rw [pieces, text, deferredPieces, resolved]
      simp [LexerInput.pieces]
    · have some : delta.2 ≠ [] := by
        intro none
        simp [none, TokenIdScanner.piecesOf] at plain
      rw [Bool.of_not_eq_false (mt TokenIdScanner.specialsOf_piecesOf_eq_nil.mpr plain),
        Bool.not_true, if_neg Bool.false_ne_true, if_pos silent] at scanned
      have grouped := groupTokens_flatMap scanner [] delta.2
      have joined := (TokenIdScanner.groupTokens_pieces scanner [] delta.2).1
      rw [TokenIdScanner.textOf_piecesOf, ← inStep some] at joined
      have exact_ : ∀ results, TokenIdScanner.joinDecodedText results = delta.1 →
          results.flatMap LexerInput.pieces = scanner.piecesOf delta.2 →
          scanner.recoverHoldbackText delta.1 results = (items, next) →
            items.flatMap LexerInput.pieces ++ deferredPieces next = deltaPieces scanner delta ∧
              scanner.SameVocabulary next ∧ Textless next := by
        intro results same shown ran
        rw [recoverHoldbackText_exact same silent] at ran
        cases ran
        refine ⟨?_, ⟨rfl, rfl⟩, textless⟩
        rw [shown, deferredPieces, resolved, deltaPieces, if_neg some]
        exact List.append_nil _
      split at scanned
      · exact exact_ _ (by simpa using joined) (by simpa [LexerInput.pieces] using grouped) scanned
      · exact exact_ _ (by simpa using joined) grouped scanned

theorem deferred_flatMap (scanner : TokenIdScanner) :
    (scanner.deferredTerminals.map fun entry =>
      LexerInput.terminal entry.1).flatMap LexerInput.pieces = deferredPieces scanner := by
  rw [deferredPieces, List.flatMap_map]
  exact List.map_eq_flatMap.symm

/-- Scanning shows the deferred terminals and the pieces of the delta, or defers them. -/
theorem scan_pieces (textless : Textless scanner) (inStep : DeltaInStep scanner delta)
    (scanned : scanner.scan delta.1 delta.2 = (items, next)) :
    items.flatMap LexerInput.pieces ++ deferredPieces next =
        deferredPieces scanner ++ deltaPieces scanner delta ∧
      scanner.SameVocabulary next ∧ Textless next := by
  rw [TokenIdScanner.scan] at scanned
  by_cases none : scanner.deferredTerminals = []
  · rw [if_neg (not_not.mpr none)] at scanned
    dsimp only at scanned
    generalize ran : scanner.scanEffectiveText delta.1 0 delta.2 = effective at scanned
    cases scanned
    have nothing : deferredPieces scanner = [] := by rw [deferredPieces, none, List.map_nil]
    rw [List.nil_append, nothing, List.nil_append]
    exact scanEffectiveText_pieces textless none 0 inStep ran
  · rw [if_pos none, TokenIdScanner.resolveDeferred,
      resolveLoop_empty _ textless.deferred, textless.post] at scanned
    simp only [ne_eq, not_true_eq_false, if_false, List.nil_append] at scanned
    generalize ran : TokenIdScanner.scanEffectiveText _ delta.1 _ delta.2 = effective at scanned
    cases scanned
    let cleared : TokenIdScanner := ⟨scanner.tokenIdToTerminal, scanner.tokenizer, [], 0, []⟩
    have empty : Textless cleared := ⟨by simp [cleared], rfl⟩
    have inStep' : DeltaInStep cleared delta := inStep
    rcases scanEffectiveText_pieces empty rfl _ inStep' ran with ⟨pieces, same, textless⟩
    refine ⟨?_, same, textless⟩
    rw [List.flatMap_append, List.append_assoc, pieces, deferred_flatMap]
    rfl

/-- What is flushed at the end are the deferred terminals. -/
theorem flushPending_pieces (textless : Textless scanner) :
    scanner.flushPending.1.flatMap LexerInput.pieces = deferredPieces scanner := by
  rw [TokenIdScanner.flushPending]
  split
  case isTrue none => simp [deferredPieces, none.1]
  case isFalse =>
    by_cases trailing : scanner.deferredTrailingTokenCount > 0
    · simp [textless.post, trailing, LexerInput.pieces, deferred_flatMap]
    · simp [textless.post, trailing, deferred_flatMap]

end Scanning

/-! ## Feeding -/

section Feeding

/-- What a delta reports: nothing of its pieces is lost, changed or moved. -/
structure Feeds (engine : StreamingParserEngine) (delta : Text × List TokenId)
    (result : List SemanticEvent × StreamingParserEngine) : Prop where
  rules : result.2.rules = engine.rules
  vocabulary : engine.scanner.SameVocabulary result.2.scanner
  textless : Textless result.2.scanner
  seen : ∀ rest, engine.remaining
      (deferredPieces engine.scanner ++ deltaPieces engine.scanner delta ++ rest) =
    spellEvents engine.rules.config result.1 ++
      result.2.remaining (deferredPieces result.2.scanner ++ rest)

variable {delta : Text × List TokenId} {scanner : TokenIdScanner}

/-- What is scanned and reported is fed. -/
theorem Feeds.of_scan {engine : StreamingParserEngine} (textless : Textless engine.scanner)
    (inStep : DeltaInStep engine.scanner delta) {items : List LexerInput}
    (scanned : engine.scanner.scan delta.1 delta.2 = (items, scanner))
    {result : List SemanticEvent × StreamingParserEngine}
    (reports : Reports { engine with scanner := scanner } (items.flatMap LexerInput.pieces) result) :
    Feeds engine delta result := by
  rcases scan_pieces textless inStep scanned with ⟨pieces, vocabulary, kept⟩
  have same : result.2.scanner = scanner := reports.scanner
  constructor
  · exact reports.rules
  · exact same ▸ vocabulary
  · exact same ▸ kept
  · intro rest
    have seen := reports.seen (deferredPieces scanner ++ rest)
    rw [← List.append_assoc, pieces] at seen
    rw [same]
    exact seen

/-- A delta on the fast path has no special tokens. -/
theorem deltaPieces_of_plain (inStep : DeltaInStep scanner delta)
    (plain : (delta.2.any fun tokenId => (scanner.tokenIdToTerminal.get? tokenId).isSome) = false) :
    deltaPieces scanner delta = delta.1.map .char := by
  by_cases none : delta.2 = []
  · rw [deltaPieces, if_pos none]
  · have text := textOf_deltaPieces inStep
    rw [deltaPieces, if_neg none] at text ⊢
    rcases chars_of_specialsOf_nil (TokenIdScanner.specialsOf_piecesOf_eq_nil.mpr plain) with
      ⟨chars, pieces⟩
    rw [pieces, textOf_chars] at text
    rw [pieces, text]

theorem feed_feeds (engine : StreamingParserEngine) {delta : Text × List TokenId}
    (terminals : (engine.noteTokenIds delta.2).scanner.tokenIdToTerminal =
      (engine.noteTokenIds delta.2).rules.resolvedTokenIds)
    (textless : Textless (engine.noteTokenIds delta.2).scanner)
    (inStep : DeltaInStep (engine.noteTokenIds delta.2).scanner delta) :
    Feeds (engine.noteTokenIds delta.2) delta (engine.feed delta.1 delta.2) := by
  rw [feed]
  generalize engine.noteTokenIds delta.2 = engine at *
  dsimp only
  split
  case isTrue fast =>
    rw [onFastPath, decide_eq_true_iff] at fast
    rcases fast with ⟨_, buffer, none, potential, plain⟩
    rw [← terminals] at plain
    have reports := (reports_plain engine delta.1 delta.2.length buffer potential).record
      (engine.machine.emitForState engine.rules delta.1 delta.2.length).1
    have pieces := deltaPieces_of_plain inStep (Bool.not_eq_true _ ▸ plain)
    have nothing : deferredPieces engine.scanner = [] := by
      rw [deferredPieces, none, List.map_nil]
    constructor
    · exact reports.rules
    · exact ⟨rfl, rfl⟩
    · exact textless
    · intro rest
      have seen := reports.seen rest
      rw [pieces, nothing, List.nil_append]
      simp only [recordReasoningTokens, nothing, List.nil_append] at seen ⊢
      exact seen
  case isFalse =>
    generalize scanned : engine.scanner.scan delta.1 delta.2 = result
    rcases result with ⟨items, scanner⟩
    split
    case h_1 item listed =>
      subst listed
      generalize fed : engine.lexer.feed item.text item.tokenTexts item.tokenCount = lexed
      rcases lexed with ⟨tokens, lexer⟩
      have seen := EventMachine.processFedTokens_reads engine.rules engine.machine tokens
      rw [← EventMachine.processLexTokens_reads] at seen
      have reports := reports_text { engine with scanner := scanner } fed seen
      have pieces : [LexerInput.text item].flatMap LexerInput.pieces = item.text.map .char := by
        simp [LexerInput.pieces]
      rw [← pieces] at reports
      exact .of_scan textless inStep scanned (reports.record _)
    case h_2 => exact .of_scan textless inStep scanned ((reports_items _ _).record _)

/-- At the end everything that remains is reported. -/
theorem finish_seen (engine : StreamingParserEngine) (textless : Textless engine.scanner) :
    engine.remaining (deferredPieces engine.scanner) =
      spellEvents engine.rules.config engine.finish.1 := by
  have pending := flushPending_pieces textless
  rw [finish]
  generalize flushed : engine.scanner.flushPending = result at pending ⊢
  rcases result with ⟨items, scanner⟩
  have reports := reports_items { engine with scanner := scanner } items
  dsimp only at pending ⊢
  generalize processScannerItems { engine with scanner := scanner } items = processed
    at reports ⊢
  rcases processed with ⟨front, last⟩
  have seen := reports.seen []
  rw [List.append_nil, pending] at seen
  have rules : last.rules = engine.rules := reports.rules
  generalize emptied : last.lexer.flush = lexed
  rcases lexed with ⟨tokens, lexer⟩
  rcases IncrementalLexer.flush_reads last.lexer emptied with ⟨_, _, reads⟩
  have processed := EventMachine.processLexTokens_reads last.rules last.machine tokens
  have ended := EventMachine.finish_uncounted last.rules
    (last.machine.processLexTokens last.rules tokens).2
  change engine.remaining (deferredPieces engine.scanner) = _ at seen
  rw [seen, remaining, readPieces, reads, ← processed, List.append_assoc, spellEvents_append]
  simp only [observe] at ended ⊢
  rw [spellEvents_append, ← rules, (Prod.mk.inj ended).1]

end Feeding

end StreamingParserEngine

end Vllm.Parser
