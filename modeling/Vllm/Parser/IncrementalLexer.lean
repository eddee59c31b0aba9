import Mathlib.Data.List.Sort
import Vllm.Library.LongestMatch
import Vllm.Parser.TokenIdScanner

/-!
# The incremental lexer

Text is cut into terminals and content.  Text that may still become a terminal stays in the
buffer until the next chunk decides.
-/

namespace Vllm.Parser

open Vllm.Library

/-- `CONTENT_TERMINAL`. -/
def contentTerminal : String :=
  "__CONTENT__"

/-- `LexToken`. -/
structure LexToken where
  terminal : String
  value : Text
  tokenCount : Nat := 0
deriving DecidableEq, Repr

/-- `LexerShape` of literal terminals, in the order in which they are tried. -/
structure LexerShape where
  literalStrings : List (Text × String)
deriving DecidableEq, Repr

namespace LexerShape

/-- Longer patterns are tried first, stably; the length is that of the escaped literal. -/
def make (patternLength : Text → Nat) (terminals : List (Text × String)) : LexerShape :=
  ⟨terminals.insertionSort fun literal other => patternLength other.1 ≤ patternLength literal.1⟩

/-- `literal_first_chars`. -/
def literalFirstChars (shape : LexerShape) : List Char :=
  shape.literalStrings.filterMap (·.1.head?)

/-- `prefix_set`: the proper prefixes of the literals. -/
def prefixSet (shape : LexerShape) : List Text :=
  shape.literalStrings.flatMap fun literal =>
    ((List.range literal.1.length).drop 1).map literal.1.take

/-- `literals_by_first`. -/
def literalsByFirst (shape : LexerShape) (first : Char) : List (Text × String) :=
  shape.literalStrings.filter fun literal => literal.1.head? = some first

end LexerShape

/-- `IncrementalLexer`. -/
structure IncrementalLexer where
  shape : LexerShape
  buffer : Text := []
  tokenCounts : List Nat := []

namespace IncrementalLexer

/-- `reset`. -/
def reset (lexer : IncrementalLexer) : IncrementalLexer :=
  { lexer with buffer := [], tokenCounts := [] }

/-- The loop of `_char_token_counts` over the token texts: the counts and how many tokens are
assigned to a character. -/
def assignCounts (text : Text) : List Text → Nat → List Nat → List Nat × Nat
  | [], _, counts => (counts, 0)
  | tokenText :: rest, pos, counts =>
      if tokenText = [] then assignCounts text rest pos counts
      else
        match find? tokenText (text.drop pos) with
        | none => assignCounts text rest pos counts
        | some offset =>
            let (counts, assigned) := assignCounts text rest (pos + offset + tokenText.length)
              (counts.modify (pos + offset) (· + 1))
            (counts, assigned + 1)

/-- `_char_token_counts`. -/
def charTokenCounts (text : Text) (tokenTexts : List Text) (tokenCount : Nat) : List Nat :=
  let counts := List.replicate text.length 0
  if text = [] then counts
  else if tokenTexts ≠ [] then
    let (counts, assigned) := assignCounts text tokenTexts 0 counts
    counts.modify 0 (· + (tokenCount - assigned))
  else counts.set 0 tokenCount

/-- Whether a text has a character that starts a literal. -/
def hasPotential (shape : LexerShape) (text : Text) : Bool :=
  text.any shape.literalFirstChars.contains

/-- The literal of `_drain` that starts the buffer: the longest one. -/
def bestMatch (shape : LexerShape) (buffer : Text) : Option (Text × String) :=
  match buffer with
  | [] => none
  | first :: _ =>
      (shape.literalsByFirst first).foldl
        (fun best literal =>
          if literal.1.isPrefixOf buffer ∧ best.all (·.1.length < literal.1.length) then
            some literal
          else best)
        none

/-- A longer literal than the matched one may still come. -/
def longerMatch (shape : LexerShape) (buffer matched : Text) : Bool :=
  match buffer with
  | [] => false
  | first :: _ =>
      (shape.literalsByFirst first).any fun literal =>
        matched.length < literal.1.length ∧ buffer.isPrefixOf literal.1

/-- A literal starts at an index of the buffer, as far as the buffer goes. -/
def startsAt (shape : LexerShape) (buffer : Text) (index : Nat) : Bool :=
  ((buffer.drop index).head?.any shape.literalFirstChars.contains) &&
    shape.literalStrings.any fun literal =>
      let checkLength := min (buffer.length - index) literal.1.length
      (buffer.drop index).take checkLength == literal.1.take checkLength

/-- `_find_content_boundary`. -/
def findContentBoundary (shape : LexerShape) (buffer : Text) : Nat :=
  (((List.range buffer.length).drop 1).find? (startsAt shape buffer)).getD buffer.length

/-- Cut a token off the front of the buffer, with `_pop_token_count`. -/
def cut (lexer : IncrementalLexer) (terminal : String) (value : Text) :
    LexToken × IncrementalLexer :=
  (⟨terminal, value, (lexer.tokenCounts.take value.length).sum⟩, { lexer with
      buffer := lexer.buffer.drop value.length
      tokenCounts := lexer.tokenCounts.drop value.length })

/-- The loop of `_drain`; every round shortens the buffer. -/
def drainLoop (final : Bool) : Nat → IncrementalLexer → List LexToken × IncrementalLexer
  | 0, lexer => ([], lexer)
  | fuel + 1, lexer =>
      if lexer.buffer = [] then ([], lexer)
      else if lexer.shape.literalFirstChars ≠ [] ∧ ¬hasPotential lexer.shape lexer.buffer then
        ([⟨contentTerminal, lexer.buffer, lexer.tokenCounts.sum⟩], lexer.reset)
      else
        match bestMatch lexer.shape lexer.buffer with
        | some (literal, name) =>
            -- A buffer that is a literal and starts a longer one waits for the next chunk.
            if lexer.buffer ∈ lexer.shape.prefixSet ∧ ¬final ∧
                longerMatch lexer.shape lexer.buffer literal then
              ([], lexer)
            else
              let (token, rest) := lexer.cut name literal
              let (tokens, lexer) := drainLoop final fuel rest
              (token :: tokens, lexer)
        | none =>
            if lexer.buffer ∈ lexer.shape.prefixSet ∧ ¬final then ([], lexer)
            else
              let boundary := findContentBoundary lexer.shape lexer.buffer
              let (token, rest) := lexer.cut contentTerminal
                (lexer.buffer.take (if boundary > 0 then boundary else 1))
              let (tokens, lexer) := drainLoop final fuel rest
              (token :: tokens, lexer)

/-- `_drain`. -/
def drain (lexer : IncrementalLexer) (final : Bool) : List LexToken × IncrementalLexer :=
  drainLoop final lexer.buffer.length lexer

/-- `feed`. -/
def feed (lexer : IncrementalLexer) (text : Text) (tokenTexts : List Text) (tokenCount : Nat) :
    List LexToken × IncrementalLexer :=
  let counts := charTokenCounts text tokenTexts tokenCount
  if lexer.buffer = [] ∧ lexer.shape.literalFirstChars ≠ [] ∧ ¬hasPotential lexer.shape text then
    ([⟨contentTerminal, text, counts.sum⟩], lexer)
  else
    drain
      { lexer with
        buffer := lexer.buffer ++ text
        tokenCounts := lexer.tokenCounts ++ counts }
      false

/-- `flush`. -/
def flush (lexer : IncrementalLexer) : List LexToken × IncrementalLexer :=
  let (tokens, lexer) := if lexer.buffer ≠ [] then lexer.drain true else ([], lexer)
  if lexer.buffer ≠ [] then
    (tokens ++ [⟨contentTerminal, lexer.buffer, lexer.tokenCounts.sum⟩], lexer.reset)
  else
    (tokens, lexer)

end IncrementalLexer

end Vllm.Parser
