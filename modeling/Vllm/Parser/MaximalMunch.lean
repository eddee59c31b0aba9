import Mathlib.Algebra.BigOperators.Group.List.Basic
import Vllm.Library.TextSearch
import Vllm.Parser.LexerChunks

/-!
# The lexer as a maximal-munch tokenizer

However a text is split into chunks, the lexer gives the tokens of the tokenizer that takes the
longest literal at each position and otherwise one character of content; only the content may be cut
differently.  No token count is lost on the way.
-/

namespace Vllm.Parser.IncrementalLexer

open Vllm.Library

/-! ## Feeding chunks -/

/-- The arguments of one call of `feed`. -/
structure FedChunk where
  text : Text
  tokenTexts : List Text
  tokenCount : Nat

/-- Feed the chunks one after another. -/
def feedAll : List FedChunk → IncrementalLexer → List LexToken × IncrementalLexer
  | [], lexer => ([], lexer)
  | chunk :: chunks, lexer =>
      let (tokens, lexer) := lexer.feed chunk.text chunk.tokenTexts chunk.tokenCount
      let (later, lexer) := feedAll chunks lexer
      (tokens ++ later, lexer)

/-- Feed the chunks to a fresh lexer and flush it. -/
def lex (shape : LexerShape) (chunks : List FedChunk) : List LexToken :=
  let (tokens, lexer) := feedAll chunks { shape := shape }
  tokens ++ lexer.flush.1

/-- The tokens of the reference tokenizer. -/
def maximalMunch (terminals : List (Text × String)) (text : Text) : List LexToken :=
  (lexemes terminals text).map fun
    | .literal name value => ⟨name, value, 0⟩
    | .symbol char => ⟨contentTerminal, [char], 0⟩

/-- Content in front of tokens, merged with content that they begin with. -/
def addContent (value : Text) : List (String × Text) → List (String × Text)
  | [] => [(contentTerminal, value)]
  | (terminal, next) :: rest =>
      if terminal = contentTerminal then (contentTerminal, value ++ next) :: rest
      else (contentTerminal, value) :: (terminal, next) :: rest

/-- The tokens with adjacent content merged. -/
def mergeContent : List LexToken → List (String × Text)
  | [] => []
  | token :: rest =>
      if token.terminal = contentTerminal then addContent token.value (mergeContent rest)
      else (token.terminal, token.value) :: mergeContent rest

/-! ## Merging -/

section Merging

/-- The merged tokens of a spelled text. -/
def gather : List (Lexeme Char String) → List (String × Text)
  | [] => []
  | .literal name value :: rest => (name, value) :: gather rest
  | .symbol char :: rest => addContent [char] (gather rest)

theorem addContent_append {value more : Text} (rest : List (String × Text)) :
    addContent (value ++ more) rest = addContent value (addContent more rest) := by
  cases rest with
  | nil => simp [addContent]
  | cons token rest =>
      rcases token with ⟨terminal, next⟩
      by_cases content : terminal = contentTerminal
      · simp [addContent, content]
      · simp [addContent, content]

theorem gather_symbols {value : Text} (nonempty : value ≠ []) (rest : List (Lexeme Char String)) :
    gather (value.map .symbol ++ rest) = addContent value (gather rest) := by
  induction value with
  | nil => exact absurd rfl nonempty
  | cons char chars inductionHypothesis =>
      by_cases last : chars = []
      · subst last
        rfl
      · rw [List.map_cons, List.cons_append, gather, inductionHypothesis last, ← addContent_append]
        rfl

/-- Merging sees only how tokens spell, if none is empty. -/
theorem mergeContent_eq {tokens : List LexToken} (nonempty : ∀ token ∈ tokens, token.value ≠ []) :
    mergeContent tokens = gather (tokens.flatMap spellToken) := by
  induction tokens with
  | nil => rfl
  | cons token rest inductionHypothesis =>
      have others := inductionHypothesis fun other member =>
        nonempty other (List.mem_cons_of_mem _ member)
      rw [mergeContent, List.flatMap_cons, others, spellToken]
      split
      · rw [gather_symbols (nonempty token List.mem_cons_self)]
      · rfl

theorem maximalMunch_spell (terminals : List (Text × String)) (text : Text) :
    (maximalMunch terminals text).flatMap spellToken =
      (lexemes terminals text).flatMap spellLexeme := by
  rw [maximalMunch, List.flatMap_map]
  congr 1
  funext lexeme
  cases lexeme with
  | literal name value => rfl
  | symbol char => rfl

theorem maximalMunch_nonempty {terminals : List (Text × String)} {text : Text} :
    ∀ token ∈ maximalMunch terminals text, token.value ≠ [] := by
  fun_induction lexemes terminals text with
  | case1 => simp [maximalMunch]
  | case2 first rest literal name found inductionHypothesis =>
      intro token member
      rw [maximalMunch, lexemes_of_match found, List.map_cons] at member
      rcases List.mem_cons.mp member with rfl | later
      · exact (longestMatch_spec found).1
      · exact inductionHypothesis token later
  | case3 first rest absent inductionHypothesis =>
      intro token member
      rw [maximalMunch, lexemes_of_none absent, List.map_cons] at member
      rcases List.mem_cons.mp member with rfl | later
      · exact List.cons_ne_nil _ _
      · exact inductionHypothesis token later

/-- The reference tokens read the text. -/
theorem maximalMunch_text (terminals : List (Text × String)) (text : Text) :
    (maximalMunch terminals text).flatMap LexToken.value = text := by
  fun_induction lexemes terminals text with
  | case1 => simp [maximalMunch]
  | case2 first rest literal name found inductionHypothesis =>
      rw [maximalMunch, lexemes_of_match found, List.map_cons, List.flatMap_cons]
      rw [maximalMunch] at inductionHypothesis
      rw [inductionHypothesis]
      exact List.prefix_iff_eq_append.mp (longestMatch_spec found).2
  | case3 first rest absent inductionHypothesis =>
      rw [maximalMunch, lexemes_of_none absent, List.map_cons, List.flatMap_cons]
      rw [maximalMunch] at inductionHypothesis
      rw [inductionHypothesis]
      rfl

end Merging

/-! ## The order of the literals -/

section Order

variable {text : Text}

/-- Two literals of different texts may be tried in either order. -/
theorem keepLonger_comm (best : Option (Text × String)) {literal other : Text × String}
    (differ : literal.1 ≠ other.1) :
    keepLonger text (keepLonger text best literal) other =
      keepLonger text (keepLonger text best other) literal := by
  have skips {absent : Text × String} (best : Option (Text × String))
      (idle : ¬ (absent.1 ≠ [] ∧ absent.1.isPrefixOf text = true)) :
      keepLonger text best absent = best := by
    rw [keepLonger, if_neg]
    intro longer
    exact idle ⟨longer.1, longer.2.1⟩
  by_cases first : literal.1 ≠ [] ∧ literal.1.isPrefixOf text = true
  · by_cases second : other.1 ≠ [] ∧ other.1.isPrefixOf text = true
    · have sizes : literal.1.length ≠ other.1.length := by
        intro same
        apply differ
        rw [List.prefix_iff_eq_take.mp (List.isPrefixOf_iff_prefix.mp first.2),
          List.prefix_iff_eq_take.mp (List.isPrefixOf_iff_prefix.mp second.2), same]
      have keeps {starting : Text × String} (best : Option (Text × String))
          (starts : starting.1 ≠ [] ∧ starting.1.isPrefixOf text = true) :
          keepLonger text best starting =
            if best.all (·.1.length < starting.1.length) then some starting else best := by
        simp only [keepLonger, starts.1, starts.2, ne_eq, not_false_eq_true, true_and]
      rw [keeps _ second, keeps _ first, keeps _ first, keeps _ second]
      cases best with
      | none =>
          simp only [Option.all_none, if_true, Option.all_some, decide_eq_true_eq]
          split <;> split <;> first | rfl | omega
      | some best =>
          grind
    · rw [skips _ second, skips _ second]
  · rw [skips _ first, skips _ first]

variable (patternLength : Text → Nat)

theorem foldl_orderedInsert (literal : Text × String) (others : List (Text × String))
    (best : Option (Text × String)) :
    (others.orderedInsert (fun literal other => patternLength other.1 ≤ patternLength literal.1)
        literal).foldl (keepLonger text) best =
      (literal :: others).foldl (keepLonger text) best := by
  induction others generalizing best with
  | nil => rfl
  | cons first rest inductionHypothesis =>
      rw [List.orderedInsert_cons]
      split
      · rfl
      · rename_i longer
        have differ : literal.1 ≠ first.1 := by
          intro same
          exact longer (by rw [same])
        rw [List.foldl_cons, inductionHypothesis]
        simp only [List.foldl_cons]
        rw [keepLonger_comm best differ]

/-- Sorting the terminals by pattern length keeps the longest match. -/
theorem longestMatch_make (terminals : List (Text × String)) (text : Text) :
    longestMatch (LexerShape.make patternLength terminals).literalStrings text =
      longestMatch terminals text := by
  have same (best : Option (Text × String)) :
      (LexerShape.make patternLength terminals).literalStrings.foldl (keepLonger text) best =
        terminals.foldl (keepLonger text) best := by
    unfold LexerShape.make
    induction terminals generalizing best with
    | nil => rfl
    | cons first rest inductionHypothesis =>
        rw [List.insertionSort_cons, foldl_orderedInsert, List.foldl_cons, List.foldl_cons]
        exact inductionHypothesis _
  exact same none

theorem lexemes_make (terminals : List (Text × String)) (text : Text) :
    lexemes (LexerShape.make patternLength terminals).literalStrings text =
      lexemes terminals text := by
  fun_induction lexemes terminals text with
  | case1 => rw [lexemes_nil]
  | case2 first rest literal name found inductionHypothesis =>
      rw [← longestMatch_make patternLength] at found
      rw [lexemes_of_match found, inductionHypothesis]
  | case3 first rest absent inductionHypothesis =>
      rw [← longestMatch_make patternLength] at absent
      rw [lexemes_of_none absent, inductionHypothesis]

end Order

/-! ## Token counts -/

section Counts

theorem sum_modify_add (counts : List Nat) {index : Nat} (amount : Nat)
    (inside : index < counts.length) :
    (counts.modify index (· + amount)).sum = counts.sum + amount := by
  induction counts generalizing index with
  | nil => exact absurd inside (Nat.not_lt_zero _)
  | cons count counts inductionHypothesis =>
      cases index with
      | zero =>
          rw [List.modify_zero_cons, List.sum_cons, List.sum_cons]
          omega
      | succ index =>
          rw [List.modify_succ_cons, List.sum_cons, List.sum_cons,
            inductionHypothesis (Nat.lt_of_succ_lt_succ inside)]
          omega

variable {text : Text}

/-- Each assigned token text counts at one character, and at most all are assigned. -/
theorem assignCounts_spec (tokenTexts : List Text) (pos : Nat) {counts : List Nat}
    (size : counts.length = text.length) :
    (assignCounts text tokenTexts pos counts).1.length = text.length ∧
      (assignCounts text tokenTexts pos counts).1.sum =
        counts.sum + (assignCounts text tokenTexts pos counts).2 ∧
      (assignCounts text tokenTexts pos counts).2 ≤ tokenTexts.length := by
  induction tokenTexts generalizing pos counts with
  | nil => exact ⟨size, rfl, Nat.le_refl 0⟩
  | cons tokenText rest inductionHypothesis =>
      rw [assignCounts]
      split
      · rcases inductionHypothesis pos size with ⟨length, sum, most⟩
        exact ⟨length, sum, most.trans (Nat.le_succ _)⟩
      · rename_i spelled
        split
        · rcases inductionHypothesis pos size with ⟨length, sum, most⟩
          exact ⟨length, sum, most.trans (Nat.le_succ _)⟩
        · rename_i offset found
          have fits := (find?_eq_some found).1.length_le
          have positive := List.length_pos_of_ne_nil spelled
          rw [List.length_drop] at fits
          have inside : pos + offset < counts.length := by omega
          have counted : (counts.modify (pos + offset) (· + 1)).length = text.length := by
            rwa [List.length_modify]
          rcases inductionHypothesis (pos + offset + tokenText.length) counted with
            ⟨length, sum, most⟩
          rw [sum_modify_add counts 1 inside] at sum
          refine ⟨length, ?_, Nat.succ_le_succ most⟩
          dsimp only
          omega

theorem length_charTokenCounts (text : Text) (tokenTexts : List Text) (tokenCount : Nat) :
    (charTokenCounts text tokenTexts tokenCount).length = text.length := by
  rw [charTokenCounts]
  split
  · rw [List.length_replicate]
  · split
    · have spec := assignCounts_spec tokenTexts 0
        (List.length_replicate (n := text.length) (a := 0))
      rw [List.length_modify, spec.1]
    · simp

theorem sum_charTokenCounts (nonempty : text ≠ []) {tokenTexts : List Text} {tokenCount : Nat}
    (few : tokenTexts.length ≤ tokenCount) :
    (charTokenCounts text tokenTexts tokenCount).sum = tokenCount := by
  have positive := List.length_pos_of_ne_nil nonempty
  rw [charTokenCounts, if_neg nonempty]
  split
  · have spec := assignCounts_spec tokenTexts 0 (List.length_replicate (n := text.length) (a := 0))
    have zero : (List.replicate text.length 0).sum = 0 := by simp
    rw [sum_modify_add _ _ (by omega), spec.2.1, zero]
    omega
  · cases text with
    | nil => exact absurd rfl nonempty
    | cons first rest => simp [List.replicate_succ]

/-- Every character has a count. -/
def Counted (lexer : IncrementalLexer) : Prop :=
  lexer.tokenCounts.length = lexer.buffer.length

/-- Tokens take their counts out of the buffer, and none is empty. -/
structure Conserves (lexer : IncrementalLexer) (fed : Nat)
    (result : List LexToken × IncrementalLexer) : Prop where
  counted : Counted result.2
  sum : (result.1.map LexToken.tokenCount).sum + result.2.tokenCounts.sum =
    lexer.tokenCounts.sum + fed
  nonempty : ∀ token ∈ result.1, token.value ≠ []

variable {lexer : IncrementalLexer}

theorem Conserves.stop (counted : Counted lexer) : Conserves lexer 0 ([], lexer) :=
  ⟨counted, by simp, by simp⟩

theorem Counted.cut (counted : Counted lexer) (terminal : String) (value : Text) :
    Counted (lexer.cut terminal value).2 := by
  rw [Counted, IncrementalLexer.cut, List.length_drop, List.length_drop, counted]

theorem Conserves.cut {terminal : String} {value : Text} {result : List LexToken × IncrementalLexer}
    (nonempty : value ≠ []) (rest : Conserves (lexer.cut terminal value).2 0 result) :
    Conserves lexer 0 ((lexer.cut terminal value).1 :: result.1, result.2) := by
  constructor
  · exact rest.counted
  · have split := List.sum_take_add_sum_drop lexer.tokenCounts value.length
    have later := rest.sum
    simp only [IncrementalLexer.cut, List.map_cons, List.sum_cons] at later ⊢
    omega
  · intro token member
    rcases List.mem_cons.mp member with rfl | later
    · exact nonempty
    · exact rest.nonempty token later

theorem drainLoop_conserves (final : Bool) (fuel : Nat) (counted : Counted lexer) :
    Conserves lexer 0 (drainLoop final fuel lexer) := by
  induction fuel generalizing lexer with
  | zero => exact .stop counted
  | succ fuel inductionHypothesis =>
      rw [drainLoop]
      by_cases empty : lexer.buffer = []
      · rw [if_pos empty]
        exact .stop counted
      rw [if_neg empty]
      split
      · constructor
        · rfl
        · simp [reset]
        · intro token member
          rw [List.mem_singleton.mp member]
          exact empty
      · rw [bestMatch_eq]
        split
        · rename_i literal name found
          split
          · exact .stop counted
          · exact Conserves.cut (longestMatch_spec found).1
              (inductionHypothesis (counted.cut name literal))
        · split
          · exact .stop counted
          · apply Conserves.cut
            · intro none_
              have positive := List.length_pos_of_ne_nil empty
              have short := congrArg List.length none_
              rw [List.length_take, List.length_nil] at short
              split at short <;> omega
            · exact inductionHypothesis (counted.cut ..)

theorem feed_conserves (counted : Counted lexer) {chunk : FedChunk} (nonempty : chunk.text ≠ [])
    (few : chunk.tokenTexts.length ≤ chunk.tokenCount) :
    Conserves lexer chunk.tokenCount (lexer.feed chunk.text chunk.tokenTexts chunk.tokenCount) := by
  have sum := sum_charTokenCounts nonempty few
  rw [feed]
  split
  · constructor
    · exact counted
    · simp only [List.map_cons, List.map_nil, List.sum_cons, List.sum_nil, sum]
      omega
    · intro token member
      rw [List.mem_singleton.mp member]
      exact nonempty
  · have fed : Counted { lexer with
        buffer := lexer.buffer ++ chunk.text
        tokenCounts := lexer.tokenCounts ++
          charTokenCounts chunk.text chunk.tokenTexts chunk.tokenCount } := by
      simp [Counted, length_charTokenCounts, show lexer.tokenCounts.length = _ from counted]
    have conserves := drainLoop_conserves false (lexer.buffer ++ chunk.text).length fed
    constructor
    · exact conserves.counted
    · have kept := conserves.sum
      simp only [List.sum_append, sum] at kept
      exact kept
    · exact conserves.nonempty

theorem flush_conserves (counted : Counted lexer) :
    (lexer.flush.1.map LexToken.tokenCount).sum = lexer.tokenCounts.sum ∧
      ∀ token ∈ lexer.flush.1, token.value ≠ [] := by
  rw [flush]
  by_cases empty : lexer.buffer = []
  · have none_ : lexer.tokenCounts = [] := List.eq_nil_of_length_eq_zero (by
      rw [show lexer.tokenCounts.length = _ from counted, empty, List.length_nil])
    simp [empty, none_]
  · rw [if_pos empty]
    have conserves := drainLoop_conserves true lexer.buffer.length counted
    have done := (drain_drains true lexer).done rfl
    rw [drain] at done ⊢
    generalize drainLoop true lexer.buffer.length lexer = drained at conserves done ⊢
    have none_ : drained.2.tokenCounts = [] := List.eq_nil_of_length_eq_zero (by
      rw [show drained.2.tokenCounts.length = _ from conserves.counted, done, List.length_nil])
    have sum := conserves.sum
    simp only [none_, List.sum_nil, Nat.add_zero] at sum
    simp only [done, ne_eq, not_true_eq_false, if_false]
    exact ⟨sum, conserves.nonempty⟩

end Counts

/-! ## Whole texts -/

section Runs

theorem feedAll_reads (chunks : List FedChunk) (lexer : IncrementalLexer) :
    (feedAll chunks lexer).2.shape = lexer.shape ∧ ∀ future,
      readText lexer.shape (lexer.buffer ++ chunks.flatMap FedChunk.text ++ future) =
        (feedAll chunks lexer).1.flatMap spellToken ++
          readText lexer.shape ((feedAll chunks lexer).2.buffer ++ future) := by
  induction chunks generalizing lexer with
  | nil => simp [feedAll]
  | cons chunk chunks inductionHypothesis =>
      rw [feedAll]
      rcases fedEq : lexer.feed chunk.text chunk.tokenTexts chunk.tokenCount with ⟨tokens, fed⟩
      rcases feed_reads lexer _ _ _ fedEq with ⟨sameShape, reads⟩
      rcases inductionHypothesis fed with ⟨laterShape, later⟩
      refine ⟨laterShape.trans sameShape, ?_⟩
      intro future
      have first := reads (chunks.flatMap FedChunk.text ++ future)
      have rest := later future
      rw [sameShape] at rest
      simp only [List.flatMap_cons, List.flatMap_append, List.append_assoc, ← rest] at first ⊢
      exact first

theorem feedAll_conserves (chunks : List FedChunk)
    (fed : ∀ chunk ∈ chunks, chunk.text ≠ [] ∧ chunk.tokenTexts.length ≤ chunk.tokenCount)
    {lexer : IncrementalLexer} (counted : Counted lexer) :
    Conserves lexer (chunks.map FedChunk.tokenCount).sum (feedAll chunks lexer) := by
  induction chunks generalizing lexer with
  | nil => exact .stop counted
  | cons chunk chunks inductionHypothesis =>
      rcases fed chunk List.mem_cons_self with ⟨nonempty, few⟩
      have first := feed_conserves counted nonempty few
      have rest := inductionHypothesis (fun other member => fed other (List.mem_cons_of_mem _ member))
        first.counted
      rw [feedAll]
      constructor
      · exact rest.counted
      · have taken := first.sum
        have later := rest.sum
        simp only [List.map_append, List.sum_append, List.map_cons, List.sum_cons]
        omega
      · intro token member
        rcases List.mem_append.mp member with early | late
        · exact first.nonempty token early
        · exact rest.nonempty token late

theorem lex_spell (shape : LexerShape) (chunks : List FedChunk) :
    (lex shape chunks).flatMap spellToken = readText shape (chunks.flatMap FedChunk.text) := by
  rcases feedAll_reads chunks { shape := shape } with ⟨sameShape, reads⟩
  rcases flushEq : (feedAll chunks { shape := shape }).2.flush with ⟨tokens, flushed⟩
  rcases flush_reads _ flushEq with ⟨_, _, rest⟩
  have whole := reads []
  simp only [List.append_nil, List.nil_append] at whole
  rw [sameShape] at rest
  rw [whole, rest]
  simp only [lex, flushEq, List.flatMap_append]

/-- Tokens that spell the same read the same text. -/
theorem flatMap_value (tokens : List LexToken) :
    tokens.flatMap LexToken.value = (tokens.flatMap spellToken).flatMap fun
      | .literal _ value => value
      | .symbol char => [char] := by
  rw [List.flatMap_assoc]
  congr 1
  funext token
  rw [spellToken]
  split
  · induction token.value with
    | nil => rfl
    | cons char chars inductionHypothesis =>
        rw [List.map_cons, List.flatMap_cons, ← inductionHypothesis]
        rfl
  · simp

/-- The lexer gives the maximal-munch tokens of the text, up to where content is cut, and hands out
every token count. -/
theorem lex_maximalMunch (patternLength : Text → Nat) (terminals : List (Text × String))
    (chunks : List FedChunk)
    (fed : ∀ chunk ∈ chunks, chunk.text ≠ [] ∧ chunk.tokenTexts.length ≤ chunk.tokenCount) :
    mergeContent (lex (LexerShape.make patternLength terminals) chunks) =
        mergeContent (maximalMunch terminals (chunks.flatMap FedChunk.text)) ∧
      (lex (LexerShape.make patternLength terminals) chunks).flatMap LexToken.value =
        chunks.flatMap FedChunk.text ∧
      ((lex (LexerShape.make patternLength terminals) chunks).map LexToken.tokenCount).sum =
        (chunks.map FedChunk.tokenCount).sum := by
  generalize shapeEq : LexerShape.make patternLength terminals = shape
  have counted : Counted { shape := shape } := rfl
  have conserves := feedAll_conserves chunks fed counted
  rcases flush_conserves conserves.counted with ⟨flushedSum, flushedNonempty⟩
  have spells : (lex shape chunks).flatMap spellToken =
      (maximalMunch terminals (chunks.flatMap FedChunk.text)).flatMap spellToken := by
    rw [lex_spell, maximalMunch_spell, readText, ← shapeEq, lexemes_make]
  refine ⟨?_, ?_, ?_⟩
  · have nonempty : ∀ token ∈ lex shape chunks, token.value ≠ [] := by
      intro token member
      rcases List.mem_append.mp member with early | late
      · exact conserves.nonempty token early
      · exact flushedNonempty token late
    rw [mergeContent_eq nonempty, mergeContent_eq maximalMunch_nonempty, spells]
  · rw [flatMap_value, spells, ← flatMap_value, maximalMunch_text]
  · have sum := conserves.sum
    simp only [List.sum_nil, Nat.zero_add] at sum
    rw [lex, List.map_append, List.sum_append, flushedSum, sum]

/-- A literal that waits for a longer one, cut over three chunks. -/
theorem lex_maximalMunch_split :
    mergeContent (lex (LexerShape.make List.length [(['<', 'a'], "OPEN"), (['<', 'a', '='], "EQ")])
        [⟨['x', '<'], [], 1⟩, ⟨['a'], [], 1⟩, ⟨['y'], [], 1⟩]) =
      mergeContent (maximalMunch [(['<', 'a'], "OPEN"), (['<', 'a', '='], "EQ")]
        ['x', '<', 'a', 'y']) :=
  (lex_maximalMunch List.length [(['<', 'a'], "OPEN"), (['<', 'a', '='], "EQ")]
    [⟨['x', '<'], [], 1⟩, ⟨['a'], [], 1⟩, ⟨['y'], [], 1⟩] (by simp)).1

/-- An empty chunk comes out as an empty token of content without its count. -/
theorem lex_empty_chunk :
    mergeContent (lex (LexerShape.make List.length [(['<'], "OPEN")]) [⟨[], [], 1⟩]) =
        [(contentTerminal, [])] ∧
      mergeContent (maximalMunch [(['<'], "OPEN")] []) = [] ∧
      ((lex (LexerShape.make List.length [(['<'], "OPEN")]) [⟨[], [], 1⟩]).map
        LexToken.tokenCount).sum = 0 := by
  refine ⟨by decide, ?_, by decide⟩
  simp [maximalMunch, mergeContent]

end Runs

end Vllm.Parser.IncrementalLexer
