import Mathlib.Data.List.Infix

/-!
# Longest-match lexing

A text is read from the left: the longest literal that starts it is one lexeme, and an element
that starts no literal is a lexeme of its own.  A text that may still grow into a longer literal
is held; what stands before a held text is read in the same way whatever follows.
-/

namespace Vllm.Library

universe u v

variable {α : Type u} {ν : Type v} [DecidableEq α]

/-- Keep the longer one of two literals if it starts the text; an earlier one wins a tie. -/
def keepLonger (text : List α) (best : Option (List α × ν)) (literal : List α × ν) :
    Option (List α × ν) :=
  if literal.1 ≠ [] ∧ literal.1.isPrefixOf text ∧ best.all (·.1.length < literal.1.length) then
    some literal
  else best

/-- The longest literal that starts a text. -/
def longestMatch (literals : List (List α × ν)) (text : List α) : Option (List α × ν) :=
  literals.foldl (keepLonger text) none

/-- A text may grow into a longer literal. -/
def Held (literals : List (List α × ν)) (text : List α) : Prop :=
  ∃ literal ∈ literals, ∃ more, more ≠ [] ∧ literal.1 = text ++ more

section Matching

variable {literals : List (List α × ν)} {text : List α}

variable {literal : List α × ν}

variable {best : Option (List α × ν)}

theorem foldl_keepLonger_spec
    (valid : ∀ literal, best = some literal → literal.1 ≠ [] ∧ literal.1 <+: text)
    (found : literals.foldl (keepLonger text) best = some literal) :
    literal.1 ≠ [] ∧ literal.1 <+: text := by
  induction literals generalizing best with
  | nil => exact valid literal found
  | cons first rest ih =>
      apply ih _ found
      intro kept keeps
      unfold keepLonger at keeps
      split at keeps
      case isTrue longer =>
        cases keeps
        exact ⟨longer.1, List.isPrefixOf_iff_prefix.mp longer.2.1⟩
      case isFalse => exact valid kept keeps

theorem longestMatch_spec (found : longestMatch literals text = some literal) :
    literal.1 ≠ [] ∧ literal.1 <+: text :=
  foldl_keepLonger_spec (by simp) found

theorem mem_of_foldl_keepLonger (found : literals.foldl (keepLonger text) best = some literal) :
    best = some literal ∨ literal ∈ literals := by
  induction literals generalizing best with
  | nil => exact .inl found
  | cons first rest ih =>
      rcases ih found with kept | inside
      · unfold keepLonger at kept
        split at kept
        · cases kept
          exact .inr List.mem_cons_self
        · exact .inl kept
      · exact .inr (List.mem_cons_of_mem _ inside)

/-- No literal is found where none starts. -/
theorem longestMatch_eq_none (absent : ∀ literal ∈ literals, literal.1 ≠ [] → ¬literal.1 <+: text) :
    longestMatch literals text = none := by
  cases found : longestMatch literals text with
  | none => rfl
  | some literal =>
      exfalso
      have spec := longestMatch_spec found
      rcases mem_of_foldl_keepLonger found with impossible | inside
      · cases impossible
      · exact absent literal inside spec.1 spec.2

omit [DecidableEq α] in
/-- A literal that starts an extension of a text starts the text, unless the text is held. -/
theorem prefix_of_prefix_append (free : ¬Held literals text) (inside : literal ∈ literals)
    {future : List α} (starts : literal.1 <+: text ++ future) : literal.1 <+: text := by
  rcases List.prefix_or_prefix_of_prefix starts (List.prefix_append text future) with
    inText | ⟨more, covers⟩
  · exact inText
  · by_cases ends : more = []
    · rw [ends, List.append_nil] at covers
      exact covers ▸ List.prefix_rfl
    · exact absurd ⟨literal, inside, more, ends, covers.symm⟩ free

/-- What starts a text is settled once the text is not held. -/
theorem longestMatch_append (free : ¬Held literals text) (future : List α) :
    longestMatch literals (text ++ future) = longestMatch literals text := by
  have same : ∀ others, others ⊆ literals → ∀ best,
      others.foldl (keepLonger (text ++ future)) best = others.foldl (keepLonger text) best := by
    intro others
    induction others with
    | nil => exact fun _ _ => rfl
    | cons first rest ih =>
        intro within best
        have inside : first ∈ literals := within List.mem_cons_self
        have starts : first.1.isPrefixOf (text ++ future) = first.1.isPrefixOf text := by
          rw [Bool.eq_iff_iff, List.isPrefixOf_iff_prefix, List.isPrefixOf_iff_prefix]
          constructor
          · exact prefix_of_prefix_append free inside
          · exact fun starts => starts.trans (List.prefix_append text future)
        rw [List.foldl_cons, List.foldl_cons, ih (fun _ member => within (.tail _ member))]
        congr 1
        simp only [keepLonger, starts]
  exact same literals (fun _ member => member) none

end Matching

/-! ## Lexemes -/

/-- A literal, or an element that starts none. -/
inductive Lexeme (α : Type u) (ν : Type v) where
  | literal (name : ν) (text : List α)
  | symbol (element : α)
deriving DecidableEq, Repr

/-- Read a text from the left by longest match. -/
def lexemes (literals : List (List α × ν)) : List α → List (Lexeme α ν)
  | [] => []
  | first :: rest =>
      match _found : longestMatch literals (first :: rest) with
      | some (text, name) =>
          .literal name text :: lexemes literals ((first :: rest).drop text.length)
      | none => .symbol first :: lexemes literals rest
termination_by text => text.length
decreasing_by
  · have positive := List.length_pos_of_ne_nil (longestMatch_spec _found).1
    simp only [List.length_drop, List.length_cons] at positive ⊢
    omega
  · simp

section Lexemes

variable {literals : List (List α × ν)} {text : List α}

@[simp]
theorem lexemes_nil : lexemes literals [] = [] := by
  rw [lexemes]

theorem lexemes_of_match {literal : List α} {name : ν}
    (found : longestMatch literals text = some (literal, name)) :
    lexemes literals text = .literal name literal :: lexemes literals (text.drop literal.length) := by
  cases text with
  | nil =>
      rcases longestMatch_spec found with ⟨nonempty, starts⟩
      exact absurd (List.prefix_nil.mp starts) nonempty
  | cons first rest =>
      rw [lexemes]
      split
      case h_1 _ read =>
        rw [found] at read
        cases read
        rfl
      case h_2 read =>
        rw [found] at read
        cases read

theorem lexemes_of_none {first : α} {rest : List α}
    (absent : longestMatch literals (first :: rest) = none) :
    lexemes literals (first :: rest) = .symbol first :: lexemes literals rest := by
  rw [lexemes]
  split
  case h_1 _ read =>
    rw [absent] at read
    cases read
  case h_2 => rfl

/-- Elements that start no literal are read one by one. -/
theorem lexemes_plain {count : Nat} (within : count ≤ text.length)
    (absent : ∀ index < count, longestMatch literals (text.drop index) = none) :
    lexemes literals text =
      (text.take count).map .symbol ++ lexemes literals (text.drop count) := by
  induction count generalizing text with
  | zero => simp
  | succ count ih =>
      cases text with
      | nil => simp at within
      | cons first rest =>
          have plain : longestMatch literals (first :: rest) = none := absent 0 (Nat.succ_pos _)
          have later : ∀ index < count, longestMatch literals (rest.drop index) = none :=
            fun index below => absent (index + 1) (Nat.succ_lt_succ below)
          have others := ih (Nat.le_of_succ_le_succ within) later
          rw [lexemes_of_none plain, others]
          simp

end Lexemes

end Vllm.Library
