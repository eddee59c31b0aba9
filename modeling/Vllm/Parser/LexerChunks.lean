import Vllm.Parser.IncrementalLexer

/-!
# The lexer and its chunks

However a text is cut into chunks, the incremental lexer reads the lexemes of the whole text.
-/

namespace Vllm.Parser.IncrementalLexer

open Vllm.Library

/-- A token of the lexer, its content character by character. -/
def spellToken (token : LexToken) : List (Lexeme Char String) :=
  if token.terminal = contentTerminal then token.value.map .symbol
  else [.literal token.terminal token.value]

/-- A lexeme as the tokens show it: a literal named as content is content. -/
def spellLexeme : Lexeme Char String → List (Lexeme Char String)
  | .literal name text => if name = contentTerminal then text.map .symbol else [.literal name text]
  | .symbol char => [.symbol char]

/-- What the lexer reads from a text. -/
def readText (shape : LexerShape) (text : Text) : List (Lexeme Char String) :=
  (lexemes shape.literalStrings text).flatMap spellLexeme

/-! ## Where literals start -/

section Literals

variable {shape : LexerShape} {buffer : Text}

theorem bestMatch_eq : bestMatch shape buffer = longestMatch shape.literalStrings buffer := by
  cases buffer with
  | nil =>
      refine (longestMatch_eq_none fun literal _ nonempty starts => ?_).symm
      exact nonempty (List.prefix_nil.mp starts)
  | cons first rest =>
      rw [bestMatch, LexerShape.literalsByFirst, List.foldl_filter, longestMatch]
      congr 1
      funext best literal
      rcases literal with ⟨text, name⟩
      cases text with
      | nil => simp [keepLonger]
      | cons char others =>
          by_cases same : char = first
          · simp [keepLonger, same]
          · simp [keepLonger, same]

theorem mem_prefixSet : buffer ∈ shape.prefixSet ↔ buffer ≠ [] ∧ Held shape.literalStrings buffer := by
  rw [LexerShape.prefixSet, List.mem_flatMap]
  constructor
  · rintro ⟨literal, inside, member⟩
    rcases List.mem_map.mp member with ⟨count, counted, rfl⟩
    have bounds : 1 ≤ count ∧ count < literal.1.length := by
      rcases List.mem_iff_getElem.mp counted with ⟨index, below, rfl⟩
      simp only [List.length_drop, List.length_range] at below
      simp only [List.getElem_drop, List.getElem_range]
      omega
    constructor
    · apply List.ne_nil_of_length_pos
      rw [List.length_take]
      omega
    · refine ⟨literal, inside, literal.1.drop count, ?_, (List.take_append_drop ..).symm⟩
      apply List.ne_nil_of_length_pos
      rw [List.length_drop]
      omega
  · rintro ⟨nonempty, literal, inside, more, some?, covers⟩
    refine ⟨literal, inside, List.mem_map.mpr ⟨buffer.length, ?_, by rw [covers, List.take_left]⟩⟩
    have positive := List.length_pos_of_ne_nil nonempty
    have longer := List.length_pos_of_ne_nil some?
    rw [List.mem_iff_getElem]
    refine ⟨buffer.length - 1, ?_, ?_⟩
    · simp only [covers, List.length_drop, List.length_range, List.length_append]
      omega
    · simp only [List.getElem_drop, List.getElem_range]
      omega

omit shape buffer in
/-- A text and a prefix of its extension agree as far as both go. -/
theorem take_of_prefix_append {text literal future : Text} (starts : literal <+: text ++ future) :
    text.take (min text.length literal.length) = literal.take (min text.length literal.length) := by
  have covers := List.prefix_iff_eq_take.mp starts
  generalize shorter : min text.length literal.length = length
  calc text.take length
    _ = (text ++ future).take length := (List.take_append_of_le_length (by omega)).symm
    _ = ((text ++ future).take literal.length).take length := by
        rw [List.take_take, Nat.min_eq_left (by omega)]
    _ = literal.take length := by rw [← covers]

/-- Where no literal starts, as far as the buffer goes, none starts whatever follows. -/
theorem longestMatch_of_not_startsAt {index : Nat} (below : index < buffer.length)
    (absent : ¬startsAt shape buffer index = true) (future : Text) :
    longestMatch shape.literalStrings ((buffer ++ future).drop index) = none := by
  apply longestMatch_eq_none
  intro literal inside nonempty starts
  apply absent
  rw [List.drop_append_of_le_length (Nat.le_of_lt below)] at starts
  have agree := take_of_prefix_append starts
  have known : buffer.drop index ≠ [] := by
    apply List.ne_nil_of_length_pos
    rw [List.length_drop]
    omega
  rcases List.exists_cons_of_ne_nil nonempty with ⟨first, rest, spelled⟩
  rcases List.exists_cons_of_ne_nil known with ⟨char, others, cut⟩
  rw [startsAt, Bool.and_eq_true]
  constructor
  · rw [spelled, cut, List.cons_append, List.cons_prefix_cons] at starts
    rw [cut, ← starts.1]
    simp only [List.head?_cons, Option.any_some, List.contains_iff_mem]
    rw [LexerShape.literalFirstChars, List.mem_filterMap]
    exact ⟨literal, inside, by rw [spelled]; rfl⟩
  · rw [List.any_eq_true]
    refine ⟨literal, inside, ?_⟩
    rw [List.length_drop] at agree
    exact beq_iff_eq.mpr agree

end Literals

/-! ## Draining -/

section Draining

variable {shape : LexerShape}

theorem readText_nil : readText shape [] = [] := by
  simp [readText]

variable {text literal buffer future : Text} {lexer : IncrementalLexer}

variable {name : String} {final : Bool} {tokens : List LexToken}

theorem readText_of_match (found : longestMatch shape.literalStrings text = some (literal, name))
    (count : Nat) :
    readText shape text =
      spellToken ⟨name, literal, count⟩ ++ readText shape (text.drop literal.length) := by
  rw [readText, lexemes_of_match found, List.flatMap_cons]
  rfl

variable {length : Nat}

/-- Content is read character by character. -/
theorem readText_plain (within : length ≤ text.length)
    (absent : ∀ index < length, longestMatch shape.literalStrings (text.drop index) = none)
    (count : Nat) :
    readText shape text =
      spellToken ⟨contentTerminal, text.take length, count⟩ ++ readText shape (text.drop length) := by
  have symbols : ∀ chars : Text, (chars.map Lexeme.symbol).flatMap spellLexeme =
      chars.map (Lexeme.symbol (ν := String)) := by
    intro chars
    induction chars with
    | nil => rfl
    | cons char chars ih => rw [List.map_cons, List.flatMap_cons, ih]; rfl
  rw [readText, lexemes_plain within absent, List.flatMap_append, symbols]
  rfl

theorem not_startsAt_of_no_potential (plain : ¬hasPotential shape buffer = true) {index : Nat} :
    ¬startsAt shape buffer index = true := by
  intro starts
  apply plain
  rw [startsAt, Bool.and_eq_true, Option.any_eq_true] at starts
  rcases starts.1 with ⟨char, first, known⟩
  rw [hasPotential, List.any_eq_true]
  exact ⟨char, List.mem_of_mem_drop (List.mem_of_mem_head? first), known⟩

/-- No literal starts inside the content in front of the boundary. -/
theorem findContentBoundary_spec (shape : LexerShape) (nonempty : buffer ≠ []) :
    0 < findContentBoundary shape buffer ∧ findContentBoundary shape buffer ≤ buffer.length ∧
      ∀ index, 0 < index → index < findContentBoundary shape buffer →
        ¬startsAt shape buffer index = true := by
  have positive := List.length_pos_of_ne_nil nonempty
  rw [findContentBoundary, List.range_eq_range', List.drop_range']
  cases found : (List.range' (0 + 1 * 1) (buffer.length - 1)).find? (startsAt shape buffer) with
  | none =>
      rw [List.find?_range'_eq_none] at found
      refine ⟨positive, Nat.le_refl _, fun index after before starts => ?_⟩
      rw [Option.getD_none] at before
      have absent := found index (by omega) (by omega)
      simp [starts] at absent
  | some boundary =>
      rw [List.find?_range'_eq_some] at found
      rcases found with ⟨_, within, none⟩
      rw [List.mem_range'_1] at within
      rw [Option.getD_some]
      refine ⟨by omega, by omega, fun index after before starts => ?_⟩
      have absent := none index (by omega) before
      simp [starts] at absent

/-- The front of a buffer that is not held back, or is not continued, is settled. -/
theorem longestMatch_settled (settled : ¬Held shape.literalStrings buffer ∨ future = []) :
    longestMatch shape.literalStrings (buffer ++ future) =
      longestMatch shape.literalStrings buffer := by
  rcases settled with free | rfl
  · exact longestMatch_append free future
  · rw [List.append_nil]

/-- A literal that may still grow is waited for. -/
theorem longerMatch_of_held
    (found : longestMatch shape.literalStrings buffer = some (literal, name))
    (held : Held shape.literalStrings buffer) : longerMatch shape buffer literal = true := by
  rcases longestMatch_spec found with ⟨nonempty, starts⟩
  rcases held with ⟨longer, inside, more, some?, covers⟩
  cases buffer with
  | nil => exact absurd (List.prefix_nil.mp starts) nonempty
  | cons first rest =>
      rw [longerMatch, List.any_eq_true]
      refine ⟨longer, ?_, ?_⟩
      · rw [LexerShape.literalsByFirst, List.mem_filter]
        exact ⟨inside, by simp [covers]⟩
      · have length := starts.length_le
        have added := List.length_pos_of_ne_nil some?
        rw [decide_eq_true_iff, covers]
        constructor
        · rw [List.length_append]
          simp only at length
          omega
        · exact List.isPrefixOf_iff_prefix.mpr (List.prefix_append _ _)

/-- What draining reads, whatever follows; at the end nothing follows and nothing is kept. -/
structure Drains (final : Bool) (lexer : IncrementalLexer)
    (result : List LexToken × IncrementalLexer) : Prop where
  shape : result.2.shape = lexer.shape
  reads : ∀ future, (final = true → future = []) →
    readText lexer.shape (lexer.buffer ++ future) =
      result.1.flatMap spellToken ++ readText lexer.shape (result.2.buffer ++ future)
  done : final = true → result.2.buffer = []

theorem Drains.stop (done : final = true → lexer.buffer = []) : Drains final lexer ([], lexer) :=
  ⟨rfl, fun _ _ => rfl, done⟩

/-- Cut a settled token and drain the rest. -/
theorem Drains.cut {terminal : String} {value : Text} {result : List LexToken × IncrementalLexer}
    (reads : ∀ future, (final = true → future = []) → ∀ count,
      readText lexer.shape (lexer.buffer ++ future) =
        spellToken ⟨terminal, value, count⟩ ++
          readText lexer.shape (lexer.buffer.drop value.length ++ future))
    (rest : Drains final (lexer.cut terminal value).2 result) :
    Drains final lexer ((lexer.cut terminal value).1 :: result.1, result.2) := by
  constructor
  · exact rest.shape
  · intro future ends
    have first := reads future ends (lexer.tokenCounts.take value.length).sum
    have others := rest.reads future ends
    rw [first, List.flatMap_cons, List.append_assoc]
    congr 1
  · exact rest.done

/-- A settled literal is cut off. -/
theorem reads_literal
    (found : longestMatch lexer.shape.literalStrings lexer.buffer = some (literal, name))
    (settled : final = false → ¬Held lexer.shape.literalStrings lexer.buffer) (future : Text)
    (ends : final = true → future = []) (count : Nat) :
    readText lexer.shape (lexer.buffer ++ future) =
      spellToken ⟨name, literal, count⟩ ++
        readText lexer.shape (lexer.buffer.drop literal.length ++ future) := by
  have within := (longestMatch_spec found).2.length_le
  have free : ¬Held lexer.shape.literalStrings lexer.buffer ∨ future = [] := by
    cases final <;> simp_all
  have matched := longestMatch_settled free
  rw [found] at matched
  rw [readText_of_match matched count, List.drop_append_of_le_length within]

/-- Content in which no literal starts is cut off. -/
theorem reads_content (within : length ≤ buffer.length) (absent : ∀ index < length,
      longestMatch shape.literalStrings ((buffer ++ future).drop index) = none) (count : Nat) :
    readText shape (buffer ++ future) =
      spellToken ⟨contentTerminal, buffer.take length, count⟩ ++
        readText shape (buffer.drop (buffer.take length).length ++ future) := by
  have longer : length ≤ (buffer ++ future).length := by
    rw [List.length_append]
    omega
  rw [readText_plain longer absent count, List.take_append_of_le_length within,
    List.drop_append_of_le_length within, List.length_take, Nat.min_eq_left within]

theorem drainLoop_drains (final : Bool) (fuel : Nat) (lexer : IncrementalLexer)
    (enough : lexer.buffer.length ≤ fuel) : Drains final lexer (drainLoop final fuel lexer) := by
  induction fuel generalizing lexer with
  | zero => exact .stop fun _ => List.eq_nil_of_length_eq_zero (by omega)
  | succ fuel ih =>
      rw [drainLoop]
      by_cases empty : lexer.buffer = []
      · rw [if_pos empty]
        exact .stop fun _ => empty
      rw [if_neg empty]
      split
      case isTrue plain =>
        constructor
        · rfl
        · intro future _
          have absent : ∀ index < lexer.buffer.length, longestMatch lexer.shape.literalStrings
              ((lexer.buffer ++ future).drop index) = none := fun index below =>
            longestMatch_of_not_startsAt below (not_startsAt_of_no_potential plain.2) future
          have content := reads_content (Nat.le_refl _) absent lexer.tokenCounts.sum
          simpa [reset] using content
        · exact fun _ => rfl
      case isFalse =>
        rw [bestMatch_eq]
        split
        case h_1 literal name found =>
          split
          case isTrue waits => exact .stop fun ends => absurd ends waits.2.1
          case isFalse settled =>
            apply Drains.cut
            · apply reads_literal found
              intro ongoing held
              apply settled
              refine ⟨mem_prefixSet.mpr ⟨empty, held⟩, by simp [ongoing], ?_⟩
              exact longerMatch_of_held found held
            · apply ih
              have taken : 0 < literal.length :=
                List.length_pos_of_ne_nil (longestMatch_spec found).1
              rw [cut, List.length_drop]
              omega
        case h_2 absent =>
          split
          case isTrue waits => exact .stop fun ends => absurd ends waits.2
          case isFalse settled =>
            rcases findContentBoundary_spec lexer.shape empty with
              ⟨after, within, inside⟩
            simp only [if_pos after]
            apply Drains.cut
            · intro future ends count
              apply reads_content within
              intro index below
              by_cases first : index = 0
              · rw [first, List.drop_zero, longestMatch_settled, absent]
                cases final with
                | true => exact .inr (ends rfl)
                | false =>
                    exact .inl fun held => settled ⟨mem_prefixSet.mpr ⟨empty, held⟩, by simp⟩
              · exact longestMatch_of_not_startsAt (by omega) (inside index (by omega) below) future
            · apply ih
              rw [cut, List.length_drop, List.length_take]
              omega

theorem drain_drains (final : Bool) (lexer : IncrementalLexer) :
    Drains final lexer (lexer.drain final) :=
  drainLoop_drains final _ lexer (Nat.le_refl _)

/-- Feeding reads on in the text, whatever follows. -/
theorem feed_reads (lexer : IncrementalLexer) (text : Text) (tokenTexts : List Text)
    (tokenCount : Nat) {fed : IncrementalLexer}
    (result : lexer.feed text tokenTexts tokenCount = (tokens, fed)) :
    fed.shape = lexer.shape ∧ ∀ future, readText lexer.shape (lexer.buffer ++ text ++ future) =
      tokens.flatMap spellToken ++ readText lexer.shape (fed.buffer ++ future) := by
  rw [feed] at result
  split at result
  case isTrue plain =>
    cases result
    refine ⟨rfl, fun future => ?_⟩
    have absent : ∀ index < text.length,
        longestMatch lexer.shape.literalStrings ((text ++ future).drop index) = none :=
      fun index below =>
        longestMatch_of_not_startsAt below (not_startsAt_of_no_potential plain.2.2) future
    have content := reads_content (Nat.le_refl _) absent
      (charTokenCounts text tokenTexts tokenCount).sum
    simpa [plain.1] using content
  case isFalse =>
    have drains := drain_drains false
      { lexer with
        buffer := lexer.buffer ++ text
        tokenCounts := lexer.tokenCounts ++ charTokenCounts text tokenTexts tokenCount }
    rw [result] at drains
    exact ⟨drains.shape, fun future => drains.reads future (by simp)⟩

/-- Flushing reads the rest of the text. -/
theorem flush_reads (lexer : IncrementalLexer) {flushed : IncrementalLexer}
    (result : lexer.flush = (tokens, flushed)) :
    flushed.shape = lexer.shape ∧ flushed.buffer = [] ∧
      readText lexer.shape lexer.buffer = tokens.flatMap spellToken := by
  rw [flush] at result
  by_cases empty : lexer.buffer = []
  · simp only [empty, ne_eq, not_true_eq_false, if_false] at result
    cases result
    exact ⟨rfl, empty, by rw [empty, readText_nil, List.flatMap_nil]⟩
  · rw [if_pos empty] at result
    have drains := drain_drains true lexer
    generalize lexer.drain true = drained at result drains
    have done := drains.done rfl
    simp only [done, ne_eq, not_true_eq_false, if_false] at result
    cases result
    have reads := drains.reads [] fun _ => rfl
    rw [done, List.append_nil, List.append_nil, readText_nil, List.append_nil] at reads
    exact ⟨drains.shape, done, reads⟩

end Draining

end Vllm.Parser.IncrementalLexer
