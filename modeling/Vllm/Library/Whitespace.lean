import Mathlib.Data.List.DropRight

/-!
# Whitespace

The ends of a text, as Python strips them.
-/

namespace Vllm.Library

/-- `str.isspace` of a character. -/
def isSpace (char : Char) : Bool :=
  let code := char.toNat
  9 ≤ code ∧ code ≤ 13 ∨ 28 ≤ code ∧ code ≤ 32 ∨ code = 133 ∨ code = 160 ∨ code = 5760 ∨
    8192 ≤ code ∧ code ≤ 8202 ∨ code = 8232 ∨ code = 8233 ∨ code = 8239 ∨ code = 8287 ∨
    code = 12288

/-- `\s` of a regular expression: Unicode white space, without the information separators. -/
def isWhiteSpace (char : Char) : Bool :=
  isSpace char && !(28 ≤ char.toNat ∧ char.toNat ≤ 31)

/-- `str.lstrip`. -/
def lstrip (text : List Char) : List Char :=
  text.dropWhile isSpace

/-- `str.rstrip`. -/
def rstrip (text : List Char) : List Char :=
  text.rdropWhile isSpace

/-- `str.strip`. -/
def strip (text : List Char) : List Char :=
  rstrip (lstrip text)

/-- A text of whitespace only. -/
def IsBlank (text : List Char) : Prop :=
  ∀ char ∈ text, isSpace char = true

instance (text : List Char) : Decidable (IsBlank text) :=
  List.decidableBAll _ _

/-! ## Blank texts -/

section Blank

variable {text more : List Char}

@[simp]
theorem isBlank_nil : IsBlank [] := by
  simp [IsBlank]

@[simp]
theorem isBlank_append : IsBlank (text ++ more) ↔ IsBlank text ∧ IsBlank more := by
  simp [IsBlank, or_imp, forall_and]

theorem rstrip_eq_nil_iff : rstrip text = [] ↔ IsBlank text :=
  List.rdropWhile_eq_nil_iff

theorem lstrip_eq_nil_iff : lstrip text = [] ↔ IsBlank text :=
  List.dropWhile_eq_nil_iff

/-- Whitespace in front of a text is stripped with its own. -/
theorem lstrip_blank_append (blank : IsBlank text) : lstrip (text ++ more) = lstrip more := by
  rw [lstrip, List.dropWhile_append_of_pos blank]
  rfl

theorem strip_eq_nil_iff : strip text = [] ↔ IsBlank text := by
  rw [strip, rstrip_eq_nil_iff]
  constructor
  · intro blank char member
    rw [← List.takeWhile_append_dropWhile (p := isSpace) (l := text)] at member
    rcases List.mem_append.mp member with taken | left
    · exact List.mem_takeWhile_imp taken
    · exact blank char left
  · intro blank char member
    exact blank char ((List.dropWhile_sublist _).subset member)

end Blank

/-! ## Stripping at the end -/

section Rstrip

variable {text more : List Char}

theorem rstrip_prefixed (text : List Char) : rstrip text <+: text :=
  List.rdropWhile_prefix _ _

/-- What is stripped off the end. -/
def trailingSpace (text : List Char) : List Char :=
  text.drop (rstrip text).length

theorem rstrip_append_trailing (text : List Char) : rstrip text ++ trailingSpace text = text := by
  rcases rstrip_prefixed text with ⟨rest, split⟩
  rw [trailingSpace]
  conv_rhs => rw [← split]
  congr 1
  conv_lhs =>
    arg 2
    rw [← split]
  exact List.drop_left

theorem isBlank_trailingSpace (text : List Char) : IsBlank (trailingSpace text) := by
  have same : text.rdropWhile isSpace ++ text.rtakeWhile isSpace = text :=
    List.rdropWhile_append_rtakeWhile
  have trailing : trailingSpace text = text.rtakeWhile isSpace :=
    List.append_cancel_left ((rstrip_append_trailing text).trans same.symm)
  rw [trailing]
  exact fun char member => List.mem_rtakeWhile_imp member

@[simp]
theorem rstrip_rstrip (text : List Char) : rstrip (rstrip text) = rstrip text :=
  List.rdropWhile_idempotent _ _

/-- Whitespace behind a text is stripped with its own. -/
theorem rstrip_append_blank (text : List Char) (blank : IsBlank more) :
    rstrip (text ++ more) = rstrip text := by
  rw [rstrip, rstrip, List.rdropWhile, List.rdropWhile, List.reverse_append,
    List.dropWhile_append_of_pos]
  intro char member
  exact blank char (List.mem_reverse.mp member)

/-- Anything else keeps the text in front. -/
theorem rstrip_append_of_not_blank (text : List Char) (visible : ¬IsBlank more) :
    rstrip (text ++ more) = text ++ rstrip more := by
  rw [rstrip, rstrip, List.rdropWhile, List.rdropWhile, List.reverse_append, List.dropWhile_append]
  split
  case isTrue nothing =>
    rw [List.isEmpty_iff, List.dropWhile_eq_nil_iff] at nothing
    exact absurd (fun char member => nothing char (List.mem_reverse.mpr member)) visible
  case isFalse => simp

/-- A stripped text stays in front of any other. -/
theorem rstrip_append_of_stripped (stripped : rstrip text = text) (more : List Char) :
    rstrip (text ++ more) = text ++ rstrip more := by
  by_cases blank : IsBlank more
  · rw [rstrip_append_blank text blank, stripped, rstrip_eq_nil_iff.mpr blank, List.append_nil]
  · exact rstrip_append_of_not_blank text blank

/-- What is stripped off a text may come back behind it. -/
theorem rstrip_append (text more : List Char) :
    rstrip (text ++ more) = rstrip text ++ rstrip (trailingSpace text ++ more) := by
  rw [← rstrip_append_of_stripped (rstrip_rstrip text), ← List.append_assoc, rstrip_append_trailing]

/-- Stripping twice is stripping once. -/
@[simp]
theorem strip_strip (text : List Char) : strip (strip text) = strip text := by
  by_cases blank : IsBlank text
  · rw [strip_eq_nil_iff.mpr blank]
    rfl
  · have begins : lstrip (strip text) = strip text := by
      have visible : lstrip text ≠ [] := fun none => blank (lstrip_eq_nil_iff.mp none)
      have head := List.head_dropWhile_not isSpace visible
      cases stripped : strip text with
      | nil => exact absurd (strip_eq_nil_iff.mp stripped) blank
      | cons char rest =>
          rcases rstrip_prefixed (lstrip text) with ⟨more, split⟩
          rw [← strip, stripped, List.cons_append] at split
          rw [lstrip, List.dropWhile_cons_of_neg]
          simp only [lstrip] at split
          simpa [← split] using head
    rw [strip, begins, strip, rstrip_rstrip]

end Rstrip

end Vllm.Library
