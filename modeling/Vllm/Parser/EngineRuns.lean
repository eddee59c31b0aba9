import Vllm.Parser.EngineChunks

/-!
# Chunking invariance of the streaming engine

The events of an output do not depend on how it is cut into deltas, up to merging the chunks of
one text.
-/

namespace Vllm.Parser.StreamingParserEngine

open Vllm.Library

/-- The events of `feed` over some deltas followed by `finish`. -/
def feedAll (engine : StreamingParserEngine) : List (Text × List TokenId) → List SemanticEvent
  | [] => engine.finish.1
  | delta :: deltas =>
      let (events, engine) := engine.feed delta.1 delta.2
      events ++ engine.feedAll deltas

/-- The text of a delta is that of its ids, decoded one by one. -/
def Decodes (tokenizer : Option Tokenizer) (delta : Text × List TokenId) : Prop :=
  delta.1 = delta.2.flatMap fun tokenId => tokenizer.elim [] (·.decode tokenId)

section Vocabulary

variable {scanner next : TokenIdScanner} {delta : Text × List TokenId}

theorem decodeToken_of_same (same : scanner.SameVocabulary next) :
    next.decodeToken = scanner.decodeToken := by
  funext tokenId
  rw [TokenIdScanner.decodeToken, TokenIdScanner.decodeToken, same.2]

theorem DeltaInStep.of_same (same : scanner.SameVocabulary next)
    (inStep : DeltaInStep scanner delta) : DeltaInStep next delta := by
  rw [DeltaInStep, decodeToken_of_same same]
  exact inStep

theorem deltaPieces_of_same (same : scanner.SameVocabulary next) :
    deltaPieces next delta = deltaPieces scanner delta := by
  rw [deltaPieces, deltaPieces, same.piecesOf]

/-- The pieces of a decoded delta are those of its ids. -/
theorem deltaPieces_of_decoded (decoded : delta.1 = delta.2.flatMap scanner.decodeToken) :
    deltaPieces scanner delta = scanner.piecesOf delta.2 := by
  by_cases none : delta.2 = []
  · rw [deltaPieces, if_pos none, decoded, none]
    rfl
  · rw [deltaPieces, if_neg none]

end Vocabulary

section Runs

variable {engine : StreamingParserEngine} {deltas : List (Text × List TokenId)}

theorem noteTokenIds_spec (engine : StreamingParserEngine) (tokenIds : List TokenId) :
    (engine.noteTokenIds tokenIds).scanner = engine.scanner ∧
      (engine.noteTokenIds tokenIds).rules.config = engine.rules.config ∧
      (engine.noteTokenIds tokenIds).rules.resolvedTokenIds = engine.rules.resolvedTokenIds := by
  rw [noteTokenIds]
  split
  · exact ⟨rfl, rfl, rfl⟩
  · exact ⟨rfl, rfl, rfl⟩

theorem noteTokenIds_steady {tokenIds : List TokenId}
    (steady : engine.rules.everHadTokenIds = true ∨ tokenIds = []) :
    engine.noteTokenIds tokenIds = engine := by
  rw [noteTokenIds]
  split
  case isTrue some =>
    rcases engine with ⟨⟨config, resolved, drops, skips, ids⟩, scanner, lexer, machine, count⟩
    rcases steady with ever | none
    · dsimp only at ever
      rw [ever]
    · exact absurd none some
  case isFalse => rfl

/-- Once it is settled whether deltas have ids, a run reports the pieces of its deltas. -/
theorem feedAll_seen (terminals : engine.scanner.tokenIdToTerminal = engine.rules.resolvedTokenIds)
    (textless : Textless engine.scanner)
    (inStep : ∀ delta ∈ deltas, DeltaInStep engine.scanner delta)
    (steady : engine.rules.everHadTokenIds = true ∨ ∀ delta ∈ deltas, delta.2 = []) :
    spellEvents engine.rules.config (engine.feedAll deltas) =
      engine.remaining
        (deferredPieces engine.scanner ++ deltas.flatMap (deltaPieces engine.scanner)) := by
  induction deltas generalizing engine with
  | nil =>
      rw [List.flatMap_nil, List.append_nil, finish_seen engine textless]
      rfl
  | cons delta deltas ih =>
      simp only [List.mem_cons, forall_eq_or_imp] at inStep steady
      have noted := noteTokenIds_steady (steady.imp_right And.left)
      have feeds := @feed_feeds engine delta (by rwa [noted]) (by rwa [noted])
        (by rw [noted]; exact inStep.1)
      rw [noted] at feeds
      rw [feedAll]
      generalize engine.feed delta.1 delta.2 = result at feeds
      rcases result with ⟨events, next⟩
      have rules : next.rules = engine.rules := feeds.rules
      have same : engine.scanner.SameVocabulary next.scanner := feeds.vocabulary
      have vocabulary : next.scanner.tokenIdToTerminal = next.rules.resolvedTokenIds := by
        rw [same.1, terminals, rules]
      have rest := ih vocabulary feeds.textless
        (fun other member => (inStep.2 other member).of_same same)
        (by rw [rules]; exact steady.imp_right And.right)
      have seen := feeds.seen (deltas.flatMap (deltaPieces engine.scanner))
      have pieces : deltaPieces next.scanner = deltaPieces engine.scanner :=
        funext fun _ => deltaPieces_of_same same
      rw [rules, pieces] at rest
      rw [List.flatMap_cons, ← List.append_assoc, seen, spellEvents_append, rest]

/-- A delta without text and ids changes nothing. -/
theorem feed_nothing (empty : engine.scanner.deferredTerminals = []) :
    engine.feed [] [] = ([], engine) := by
  simp [feed, noteTokenIds, onFastPath, TokenIdScanner.scan, empty,
    TokenIdScanner.scanEffectiveText, processScannerItems, recordReasoningTokens]

theorem feed_noted (engine : StreamingParserEngine) (delta : Text × List TokenId) :
    (engine.noteTokenIds delta.2).feed delta.1 delta.2 = engine.feed delta.1 delta.2 := by
  have noted : (engine.noteTokenIds delta.2).noteTokenIds delta.2 = engine.noteTokenIds delta.2 := by
    rw [noteTokenIds, noteTokenIds]
    split
    · rfl
    · rfl
  rw [feed, feed, noted]

/-- Decoded deltas have the pieces of their ids. -/
theorem flatMap_deltaPieces {scanner : TokenIdScanner}
    (decoded : ∀ delta ∈ deltas, delta.1 = delta.2.flatMap scanner.decodeToken) :
    deltas.flatMap (deltaPieces scanner) = scanner.piecesOf (deltas.flatMap Prod.snd) := by
  induction deltas with
  | nil => rfl
  | cons delta deltas ih =>
      simp only [List.mem_cons, forall_eq_or_imp] at decoded
      rw [List.flatMap_cons, List.flatMap_cons, TokenIdScanner.piecesOf_append, ih decoded.2,
        deltaPieces_of_decoded decoded.1]

/-- From the start a run of decoded deltas reports the pieces of their ids. -/
theorem feedAll_decoded
    (terminals : engine.scanner.tokenIdToTerminal = engine.rules.resolvedTokenIds)
    (empty : engine.scanner.deferredTerminals = []) (post : engine.scanner.deferredPostText = [])
    (decoded : ∀ delta ∈ deltas, delta.1 = delta.2.flatMap engine.scanner.decodeToken) :
    spellEvents engine.rules.config (engine.feedAll deltas) =
      (engine.noteTokenIds (deltas.flatMap Prod.snd)).remaining
        (engine.scanner.piecesOf (deltas.flatMap Prod.snd)) := by
  have textless : Textless engine.scanner := ⟨by simp [empty], post⟩
  have nothing : deferredPieces engine.scanner = [] := by rw [deferredPieces, empty, List.map_nil]
  induction deltas with
  | nil =>
      have seen := @feedAll_seen engine [] terminals textless (by simp) (by simp)
      rw [nothing] at seen
      exact seen
  | cons delta deltas ih =>
      by_cases none : delta.2 = []
      · rcases delta with ⟨text, tokenIds⟩
        subst none
        have silent : text = [] := decoded (text, []) List.mem_cons_self
        subst silent
        rw [feedAll, feed_nothing empty]
        exact ih fun delta member => decoded delta (List.mem_cons_of_mem _ member)
      · have some : (delta :: deltas).flatMap Prod.snd ≠ [] := by simp [none]
        have noted : engine.noteTokenIds ((delta :: deltas).flatMap Prod.snd) =
            engine.noteTokenIds delta.2 := by
          rw [noteTokenIds, if_pos some, noteTokenIds, if_pos none]
        have ever : (engine.noteTokenIds delta.2).rules.everHadTokenIds = true := by
          rw [noteTokenIds, if_pos none]
        rcases noteTokenIds_spec engine delta.2 with ⟨scanner, config, resolved⟩
        have same : engine.feedAll (delta :: deltas) =
            (engine.noteTokenIds delta.2).feedAll (delta :: deltas) := by
          rw [feedAll, feedAll, feed_noted]
        have seen := @feedAll_seen (engine.noteTokenIds delta.2) (delta :: deltas)
          (by rw [scanner, terminals, resolved]) (by rwa [scanner])
          (fun other member _ => by rw [scanner]; exact decoded other member) (.inl ever)
        rw [config, scanner, nothing, List.nil_append, flatMap_deltaPieces decoded] at seen
        rw [same, noted, seen]

/-- Without ids a run reports its text. -/
theorem feedAll_plain (terminals : engine.scanner.tokenIdToTerminal = engine.rules.resolvedTokenIds)
    (empty : engine.scanner.deferredTerminals = []) (post : engine.scanner.deferredPostText = [])
    (plain : ∀ delta ∈ deltas, delta.2 = []) :
    spellEvents engine.rules.config (engine.feedAll deltas) =
      engine.remaining ((deltas.flatMap Prod.fst).map .char) := by
  have textless : Textless engine.scanner := ⟨by simp [empty], post⟩
  have nothing : deferredPieces engine.scanner = [] := by rw [deferredPieces, empty, List.map_nil]
  have seen := feedAll_seen terminals textless
    (fun delta member some => absurd (plain delta member) some) (.inr plain)
  have pieces : deltas.flatMap (deltaPieces engine.scanner) =
      (deltas.flatMap Prod.fst).map .char := by
    rw [List.map_flatMap]
    apply List.flatMap_congr
    intro delta member
    rw [deltaPieces, if_pos (plain delta member)]
  rw [seen, nothing, List.nil_append, pieces]

/-- However an output is cut into deltas, the events spell the same: each delta has the text of
its ids, or no delta has ids. -/
theorem spellEvents_feedAll
    (terminals : engine.scanner.tokenIdToTerminal = engine.rules.resolvedTokenIds)
    (empty : engine.scanner.deferredTerminals = []) (post : engine.scanner.deferredPostText = [])
    (cut : (∀ delta ∈ deltas, delta.1 = delta.2.flatMap engine.scanner.decodeToken) ∨
      ∀ delta ∈ deltas, delta.2 = []) :
    spellEvents engine.rules.config (engine.feedAll deltas) =
      spellEvents engine.rules.config
        (engine.feedAll [(deltas.flatMap Prod.fst, deltas.flatMap Prod.snd)]) := by
  rcases cut with decoded | plain
  · have text : deltas.flatMap Prod.fst =
        (deltas.flatMap Prod.snd).flatMap engine.scanner.decodeToken := by
      rw [List.flatMap_assoc]
      exact List.flatMap_congr decoded
    rw [feedAll_decoded terminals empty post decoded,
      feedAll_decoded terminals empty post (by simpa using text)]
    simp
  · have none : deltas.flatMap Prod.snd = [] := by simpa using plain
    rw [feedAll_plain terminals empty post plain,
      feedAll_plain terminals empty post (by simpa using none)]
    simp

end Runs

/-- Two terminals, of which the shorter one starts the longer one. -/
def twoTerminals : ParserEngineConfig where
  terminals := ⟨[("THINK_START", ['<', 't']), ("TOOL_START", ['<', 't', 't', '>'])], by decide⟩
  transitions :=
    ⟨[((.content, "THINK_START"), ⟨.reasoning, [.reasoningStart], false⟩),
      ((.content, "TOOL_START"), ⟨.toolName, [.toolCallStart], false⟩)], by decide⟩

end Vllm.Parser.StreamingParserEngine
