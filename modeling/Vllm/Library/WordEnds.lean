import Vllm.Library.TextSearch

/-!
# Where words end

The first place of a text at which one of a list of words ends, over any alphabet.  Only the
places behind a given one count, so that a text which grows is searched piece by piece.
-/

namespace Vllm.Library

universe u

variable {α : Type u} [DecidableEq α]

/-- `text.find(pattern, start)`. -/
def findFrom? (pattern text : List α) (start : Nat) : Option Nat :=
  if start ≤ text.length then (find? pattern (text.drop start)).map (start + ·) else none

variable {pattern text : List α}

variable {start place : Nat}

theorem findFrom?_eq_some (found : findFrom? pattern text start = some place) :
    OccursAt pattern text place ∧ start ≤ place ∧
      ∀ earlier, start ≤ earlier → earlier < place → ¬ OccursAt pattern text earlier := by
  unfold findFrom? at found
  split at found
  · next inside =>
    rcases Option.map_eq_some_iff.mp found with ⟨offset, first, rfl⟩
    have spec := find?_eq_some first
    constructor
    · exact spec.1.of_drop inside
    · constructor
      · exact Nat.le_add_right _ _
      · intro earlier after before occurs
        apply spec.2 (earlier - start) (by omega)
        apply OccursAt.drop
        rwa [Nat.add_sub_cancel' after]
  · cases found

theorem findFrom?_eq_none (absent : findFrom? pattern text start = none) (after : start ≤ place) :
    ¬ OccursAt pattern text place := by
  intro occurs
  unfold findFrom? at absent
  rw [if_pos (after.trans occurs.1), Option.map_eq_none_iff] at absent
  apply find?_eq_none.mp absent (place - start)
  apply OccursAt.drop
  rwa [Nat.add_sub_cancel' after]

/-- A word ends at a place of the text. -/
def EndsAt (word text : List α) (stop : Nat) : Prop :=
  word.length ≤ stop ∧ OccursAt word text (stop - word.length)

instance (word text : List α) (stop : Nat) : Decidable (EndsAt word text stop) :=
  inferInstanceAs (Decidable (_ ∧ _))

omit [DecidableEq α] in
theorem OccursAt.endsAt {word : List α} (occurs : OccursAt word text place) :
    EndsAt word text (place + word.length) := by
  constructor
  · exact Nat.le_add_left _ _
  · rwa [Nat.add_sub_cancel]

namespace EndsAt

variable {word text longer : List α} {stop : Nat}

section

omit [DecidableEq α]

theorem le_length (ends : EndsAt word text stop) : stop ≤ text.length := by
  have fits := ends.2.length_le
  have long := ends.1
  omega

theorem of_prefixed (ends : EndsAt word text stop) (grows : text <+: longer) :
    EndsAt word longer stop :=
  ⟨ends.1, ends.2.of_prefixed grows⟩

/-- A word that ends within a prefix ends there in the prefix. -/
theorem in_prefixed (ends : EndsAt word longer stop) (grows : text <+: longer)
    (inside : stop ≤ text.length) : EndsAt word text stop := by
  constructor
  · exact ends.1
  · apply ends.2.in_prefixed grows
    rwa [Nat.sub_add_cancel ends.1]

end

end EndsAt

/-- No word ends behind a place. -/
def NoEnd (words : List (List α)) (text : List α) (after : Nat) : Prop :=
  ∀ word ∈ words, ∀ place, after < place → ¬ EndsAt word text place

/-- The first place behind a given one at which a word ends, and the first word of the list that
ends there. -/
structure FirstEnd (words : List (List α)) (text : List α) (after : Nat) (word : List α)
    (stop : Nat) : Prop where
  after_lt : after < stop
  least : ∀ other ∈ words, ∀ place, after < place → EndsAt other text place → stop ≤ place
  listed : words.find? (fun other => EndsAt other text stop) = some word

omit [DecidableEq α] in
theorem NoEnd.nil (text : List α) (after : Nat) : NoEnd [] text after := by
  intro word listed
  cases listed

omit [DecidableEq α] in
theorem noEnd_append {front back : List (List α)} {after : Nat} :
    NoEnd (front ++ back) text after ↔ NoEnd front text after ∧ NoEnd back text after := by
  simp only [NoEnd, List.mem_append, or_imp, forall_and]

/-- Behind a place no word ends, or one ends first. -/
theorem noEnd_or_firstEnd (words : List (List α)) (text : List α) (after : Nat) :
    NoEnd words text after ∨ ∃ word stop, FirstEnd words text after word stop := by
  by_cases some : ∃ stop, after < stop ∧ ∃ word ∈ words, EndsAt word text stop
  · right
    rcases Nat.find_spec some with ⟨behind, word, listed, ends⟩
    have isFound : (words.find? fun other => EndsAt other text (Nat.find some)).isSome := by
      rw [List.find?_isSome]
      exact ⟨word, listed, decide_eq_true ends⟩
    refine ⟨_, Nat.find some, behind, ?_, (Option.some_get isFound).symm⟩
    intro other otherListed place later otherEnds
    exact Nat.find_min' some ⟨later, other, otherListed, otherEnds⟩
  · left
    intro word listed place behind ends
    exact some ⟨place, behind, word, listed, ends⟩

namespace FirstEnd

variable {words : List (List α)} {text longer : List α} {after middle stop other : Nat}
  {word found : List α}

theorem mem (first : FirstEnd words text after word stop) : word ∈ words :=
  List.mem_of_find?_eq_some first.listed

theorem endsAt (first : FirstEnd words text after word stop) : EndsAt word text stop := by
  have ends := List.find?_some first.listed
  exact of_decide_eq_true ends

theorem le_length (first : FirstEnd words text after word stop) : stop ≤ text.length :=
  first.endsAt.le_length

theorem unique (first : FirstEnd words text after word stop)
    (second : FirstEnd words text after found other) : found = word ∧ other = stop := by
  have same : other = stop := by
    apply Nat.le_antisymm
    · exact second.least word first.mem stop first.after_lt first.endsAt
    · exact first.least found second.mem other second.after_lt second.endsAt
  subst same
  exact ⟨Option.some.inj (second.listed.symm.trans first.listed), rfl⟩

theorem not_noEnd (first : FirstEnd words text after word stop) : ¬ NoEnd words text after :=
  fun none => none word first.mem stop first.after_lt first.endsAt

/-- What has ended first in a prefix of the text has ended first in the text. -/
theorem of_prefixed (first : FirstEnd words text after word stop) (grows : text <+: longer) :
    FirstEnd words longer after word stop := by
  constructor
  · exact first.after_lt
  · intro other listed place behind ends
    rcases Nat.le_total place text.length with inside | outside
    · exact first.least other listed place behind (ends.in_prefixed grows inside)
    · exact first.le_length.trans outside
  · have same : ∀ other, EndsAt other longer stop ↔ EndsAt other text stop := fun other =>
      ⟨fun ends => ends.in_prefixed grows first.le_length, fun ends => ends.of_prefixed grows⟩
    simp only [same]
    exact first.listed

/-- A search may begin behind what was searched before. -/
theorem of_later (first : FirstEnd words text middle word stop) (later : after ≤ middle)
    (none : ∀ other ∈ words, ∀ place, after < place → place ≤ middle → ¬ EndsAt other text place) :
    FirstEnd words text after word stop := by
  constructor
  · exact later.trans_lt first.after_lt
  · intro other listed place behind ends
    rcases Nat.lt_or_ge middle place with beyond | before
    · exact first.least other listed place beyond ends
    · exact absurd ends (none other listed place behind before)
  · exact first.listed

/-- A further word that ends earlier takes over. -/
theorem append_earlier (best : Option Nat)
    (known : ∀ other ∈ words, ∀ place, after < place → EndsAt other text place →
      ∃ bound, best = some bound ∧ bound ≤ place) (behind : after < stop)
    (ends : EndsAt word text stop)
    (first : ∀ place, after < place → EndsAt word text place → stop ≤ place)
    (earlier : ∀ bound, best = some bound → stop < bound) :
    FirstEnd (words ++ [word]) text after word stop := by
  have before : ∀ other ∈ words, ∀ place, after < place → EndsAt other text place →
      stop < place := by
    intro other listed place later ends
    rcases known other listed place later ends with ⟨bound, bounded, le⟩
    exact (earlier bound bounded).trans_le le
  constructor
  · exact behind
  · intro other listed place later found
    rcases List.mem_append.mp listed with old | new
    · exact (before other old place later found).le
    · rw [List.mem_singleton.mp new] at found
      exact first place later found
  · rw [List.find?_append]
    have absent : words.find? (fun other => EndsAt other text stop) = none := by
      rw [List.find?_eq_none]
      intro other listed here
      exact absurd (before other listed stop behind (of_decide_eq_true here)) (lt_irrefl _)
    simp [absent, ends]

/-- A further word that does not end earlier changes nothing. -/
theorem append_later (best : FirstEnd words text after word stop)
    (last : ∀ place, after < place → EndsAt found text place → stop ≤ place) :
    FirstEnd (words ++ [found]) text after word stop := by
  constructor
  · exact best.after_lt
  · intro other listed place behind ends
    rcases List.mem_append.mp listed with old | new
    · exact best.least other old place behind ends
    · rw [List.mem_singleton] at new
      subst new
      exact last place behind ends
  · rw [List.find?_append, best.listed]
    rfl

end FirstEnd

end Vllm.Library
