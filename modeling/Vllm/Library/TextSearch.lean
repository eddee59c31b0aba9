import Mathlib.Data.List.Infix
import Mathlib.Data.Nat.Find

/-!
# Searching a text

The first and the last place at which a pattern occurs in a text, over any alphabet.
-/

namespace Vllm.Library

universe u

variable {α : Type u}

/-- The pattern stands in the text at a place. -/
def OccursAt (pattern text : List α) (place : Nat) : Prop :=
  place ≤ text.length ∧ pattern <+: text.drop place

instance [DecidableEq α] (pattern text : List α) (place : Nat) :
    Decidable (OccursAt pattern text place) :=
  inferInstanceAs (Decidable (_ ∧ _))

namespace OccursAt

variable {pattern text front back : List α} {place : Nat}

theorem length_le (occurs : OccursAt pattern text place) :
    place + pattern.length ≤ text.length := by
  have fits := occurs.2.length_le
  rw [List.length_drop] at fits
  have inside := occurs.1
  omega

/-- Nothing stands in the empty text. -/
theorem not_nil (spelled : pattern ≠ []) : ¬ OccursAt pattern [] place := by
  intro occurs
  have fits := occurs.length_le
  exact spelled (List.eq_nil_of_length_eq_zero
    (Nat.le_zero.mp ((Nat.le_add_left _ _).trans fits)))

theorem append_left (occurs : OccursAt pattern text place) (front : List α) :
    OccursAt pattern (front ++ text) (front.length + place) := by
  constructor
  · rw [List.length_append]
    exact Nat.add_le_add_left occurs.1 _
  · rw [List.drop_append, List.drop_eq_nil_of_le (Nat.le_add_right _ _), List.nil_append,
      Nat.add_sub_cancel_left]
    exact occurs.2

theorem of_prefixed {longer : List α} (occurs : OccursAt pattern text place)
    (extends_ : text <+: longer) : OccursAt pattern longer place := by
  rcases extends_ with ⟨rest, rfl⟩
  constructor
  · rw [List.length_append]
    exact occurs.1.trans (Nat.le_add_right _ _)
  · rw [List.drop_append_of_le_length occurs.1]
    exact occurs.2.trans (List.prefix_append _ _)

/-- An occurrence that ends inside a prefix is one of the prefix. -/
theorem in_prefixed {shorter : List α} (occurs : OccursAt pattern text place)
    (prefixes : shorter <+: text) (inside : place + pattern.length ≤ shorter.length) :
    OccursAt pattern shorter place := by
  rcases prefixes with ⟨rest, rfl⟩
  have le : place ≤ shorter.length := (Nat.le_add_right _ _).trans inside
  refine ⟨le, ?_⟩
  have reads := occurs.2
  rw [List.drop_append_of_le_length le] at reads
  apply List.prefix_of_prefix_length_le reads (List.prefix_append _ _)
  rw [List.length_drop]
  omega

theorem of_append (front pattern back : List α) :
    OccursAt pattern (front ++ pattern ++ back) front.length := by
  constructor
  · simp
  · rw [List.append_assoc, List.drop_left]
    exact List.prefix_append _ _

/-- Part of an occurrence is an occurrence. -/
theorem part {whole : List α} (occurs : OccursAt (front ++ pattern ++ back) whole place) :
    OccursAt pattern whole (place + front.length) := by
  have fits := occurs.length_le
  simp only [List.length_append] at fits
  constructor
  · omega
  · rcases occurs.2 with ⟨rest, reads⟩
    rw [← List.drop_drop, ← reads, List.append_assoc, List.append_assoc, List.drop_left]
    exact List.prefix_append _ _

variable {start : Nat}

/-- Occurrences in the rest of a text. -/
theorem drop (occurs : OccursAt pattern text (start + place)) :
    OccursAt pattern (text.drop start) place := by
  constructor
  · rw [List.length_drop]
    exact Nat.le_sub_of_add_le' occurs.1
  · rw [List.drop_drop]
    exact occurs.2

theorem of_drop (inside : start ≤ text.length) (occurs : OccursAt pattern (text.drop start) place) :
    OccursAt pattern text (start + place) := by
  rcases occurs with ⟨le, reads⟩
  rw [List.length_drop] at le
  rw [List.drop_drop] at reads
  exact ⟨by omega, reads⟩

end OccursAt

variable [DecidableEq α]

/-- `text.find(pattern)`. -/
def find? (pattern text : List α) : Option Nat :=
  (List.range (text.length + 1)).find? fun place => OccursAt pattern text place

/-- `text.rfind(pattern)`. -/
def rfind? (pattern text : List α) : Option Nat :=
  (List.range (text.length + 1)).reverse.find? fun place => OccursAt pattern text place

variable {pattern text : List α}

variable {place : Nat}

theorem find?_eq_some (found : find? pattern text = some place) :
    OccursAt pattern text place ∧ ∀ earlier < place, ¬ OccursAt pattern text earlier := by
  rcases List.find?_range_eq_some.mp found with ⟨occurs, _, first⟩
  exact ⟨of_decide_eq_true occurs, fun earlier below => by simpa using first earlier below⟩

theorem find?_eq_none : find? pattern text = none ↔ ∀ place, ¬ OccursAt pattern text place := by
  rw [find?, List.find?_range_eq_none]
  constructor
  · intro none place occurs
    have absent := none place (Nat.lt_succ_of_le occurs.1)
    simp [occurs] at absent
  · intro none place _
    simp [none place]

theorem rfind?_eq_some (found : rfind? pattern text = some place) :
    OccursAt pattern text place := by
  have occurs := List.find?_some found
  exact of_decide_eq_true occurs

theorem rfind?_eq_none : rfind? pattern text = none ↔ ∀ place, ¬ OccursAt pattern text place := by
  rw [rfind?, List.find?_eq_none]
  constructor
  · intro none place occurs
    have absent := none place
      (List.mem_reverse.mpr (List.mem_range.mpr (Nat.lt_succ_of_le occurs.1)))
    simp [occurs] at absent
  · intro none place _
    simp [none place]

/-- A prefix is found at the beginning. -/
theorem find?_of_prefixed (starts : pattern <+: text) : find? pattern text = some 0 := by
  have occurs : OccursAt pattern text 0 := ⟨Nat.zero_le _, starts⟩
  cases found : find? pattern text with
  | none => exact absurd occurs (find?_eq_none.mp found 0)
  | some place =>
      have first := (find?_eq_some found).2 0
      have start : place = 0 := Nat.eq_zero_of_not_pos fun later => first later occurs
      rw [start]

/-! ## Patterns and what follows -/

omit [DecidableEq α] in
/-- A pattern that does not stand in a word does not begin there if what follows the word cannot
continue it. -/
theorem not_prefix_append {word rest : List α} (absent : ¬ pattern <:+: word)
    (stops : ∀ letter ∈ rest.head?, letter ∉ pattern) : ¬ pattern <+: word ++ rest := by
  intro reads
  rcases Nat.lt_or_ge word.length pattern.length with short | long
  · have begins : word <+: pattern :=
      List.prefix_of_prefix_length_le (List.prefix_append _ _) reads short.le
    rcases begins with ⟨others, split⟩
    rw [← split, List.prefix_append_right_inj] at reads
    cases others with
    | nil =>
        rw [List.append_nil] at split
        rw [split] at short
        exact Nat.lt_irrefl _ short
    | cons letter others =>
        rcases reads with ⟨more, continued⟩
        apply stops letter
        · rw [← continued]
          rfl
        · rw [← split]
          simp
  · have inside := List.prefix_of_prefix_length_le reads (List.prefix_append _ _) long
    exact absent inside.isInfix

/-- A pattern whose first letter stands nowhere else in it is found where it ends a text that does
not contain it. -/
theorem find?_append_self {first : α} {others : List α} (once : first ∉ others)
    (absent : ¬ first :: others <:+: text) (rest : List α) :
    find? (first :: others) (text ++ first :: others ++ rest) = some text.length := by
  have occurs := OccursAt.of_append text (first :: others) rest
  cases found : find? (first :: others) (text ++ first :: others ++ rest) with
  | none => exact absurd occurs (find?_eq_none.mp found _)
  | some place =>
      rcases find?_eq_some found with ⟨here, earliest⟩
      rcases Nat.lt_trichotomy place text.length with before | same | behind
      · exfalso
        have reads := here.2
        rw [List.append_assoc, List.drop_append_of_le_length before.le] at reads
        rcases Nat.lt_or_ge (text.drop place).length (first :: others).length with short | long
        · -- The text ends within the pattern, whose first letter follows.
          have begins : text.drop place <+: first :: others :=
            List.prefix_of_prefix_length_le (List.prefix_append _ _) reads short.le
          rcases begins with ⟨tail, split⟩
          rw [← split, List.prefix_append_right_inj] at reads
          cases tail with
          | nil =>
              rw [List.append_nil] at split
              rw [split] at short
              exact Nat.lt_irrefl _ short
          | cons letter tail =>
              cases ends : text.drop place with
              | nil => exact absurd (List.drop_eq_nil_iff.mp ends) (Nat.not_le.mpr before)
              | cons other front =>
                  rw [ends, List.cons_append, List.cons.injEq] at split
                  have repeated : letter ∈ others := by
                    rw [← split.2]
                    simp
                  rw [ends, List.cons_append, List.cons_append, List.cons_prefix_cons] at reads
                  rw [reads.1, split.1] at repeated
                  exact once repeated
        · have inside := List.prefix_of_prefix_length_le reads (List.prefix_append _ _) long
          exact absent (inside.isInfix.trans (List.drop_suffix _ _).isInfix)
      · rw [same]
      · exact absurd occurs (earliest _ behind)

end Vllm.Library

/-!
## Overlapping markers

Two patterns may share letters of a text.  If no occurrence of the first ends within one of the
second, a text that ends in the first pattern separates the occurrences of the second.
-/
