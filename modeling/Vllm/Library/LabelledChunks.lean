import Mathlib.Data.List.Basic

/-!
# Labelled chunks

A stream of labelled lists.  Some labels mark chunks: how their contents are cut does not matter,
so that adjacent chunks of one label are merged and empty ones dropped.  Two streams that spell
the same, chunk by chunk and element by element, merge to the same stream.
-/

namespace Vllm.Library.Chunks

universe u v

variable {κ : Type u} {α : Type v}

/-- Spell a chunk element by element. -/
def spellOne (isChunk : κ → Bool) (event : κ × List α) : List (κ × List α) :=
  if isChunk event.1 then event.2.map fun element => (event.1, [element]) else [event]

/-- Spell the chunks of a stream. -/
def spell (isChunk : κ → Bool) (events : List (κ × List α)) : List (κ × List α) :=
  events.flatMap (spellOne isChunk)

section Spelling

variable (isChunk : κ → Bool)

@[simp]
theorem spell_nil : spell isChunk ([] : List (κ × List α)) = [] :=
  rfl

theorem spell_cons (event : κ × List α) (events : List (κ × List α)) :
    spell isChunk (event :: events) = spellOne isChunk event ++ spell isChunk events :=
  List.flatMap_cons ..

@[simp]
theorem spell_append (events more : List (κ × List α)) :
    spell isChunk (events ++ more) = spell isChunk events ++ spell isChunk more :=
  List.flatMap_append ..

variable {label : κ}

theorem spellOne_empty (chunk : isChunk label = true) :
    spellOne isChunk (label, ([] : List α)) = [] := by
  simp [spellOne, chunk]

theorem spellOne_cons (chunk : isChunk label = true) (element : α) (rest : List α) :
    spellOne isChunk (label, element :: rest) =
      spellOne isChunk (label, [element]) ++ spellOne isChunk (label, rest) := by
  simp [spellOne, chunk]

/-- The contents of the events under some labels. -/
def contents (keep : κ → Bool) (events : List (κ × List α)) : List α :=
  (events.filter fun event => keep event.1).flatMap (·.2)

theorem contents_append (keep : κ → Bool) (events more : List (κ × List α)) :
    contents keep (events ++ more) = contents keep events ++ contents keep more := by
  simp [contents]

theorem contents_spellOne (keep : κ → Bool) (event : κ × List α) :
    contents keep (spellOne isChunk event) = contents keep [event] := by
  rcases event with ⟨label, elements⟩
  rw [spellOne]
  split
  · cases kept : keep label
    · simp [contents, kept, List.filter_map, Function.comp_def]
    · simp [contents, kept, List.filter_map, List.flatMap_map, Function.comp_def]
  · rfl

/-- Spelling leaves the contents of a label as they are. -/
theorem contents_spell (keep : κ → Bool) (events : List (κ × List α)) :
    contents keep (spell isChunk events) = contents keep events := by
  induction events with
  | nil => rfl
  | cons event events ih =>
      rw [spell_cons, contents_append, contents_spellOne, ih, ← contents_append]
      rfl

end Spelling

/-! ## Merging -/

variable [DecidableEq κ]

/-- Put an event before merged events. -/
def mergeOne (isChunk : κ → Bool) (event : κ × List α) (merged : List (κ × List α)) :
    List (κ × List α) :=
  if isChunk event.1 then
    if event.2.isEmpty then merged
    else
      match merged with
      | [] => [event]
      | next :: rest =>
          if next.1 = event.1 then (event.1, event.2 ++ next.2) :: rest else event :: next :: rest
  else
    event :: merged

/-- Merge adjacent chunks of one label and drop the empty ones. -/
def merge (isChunk : κ → Bool) (events : List (κ × List α)) : List (κ × List α) :=
  events.foldr (mergeOne isChunk) []

section Merging

variable (isChunk : κ → Bool)

/-- A chunk is merged as its first element before its other ones. -/
theorem mergeOne_cons {label : κ} (chunk : isChunk label = true) (element : α) (rest : List α)
    (merged : List (κ × List α)) :
    mergeOne isChunk (label, [element]) (mergeOne isChunk (label, rest) merged) =
      mergeOne isChunk (label, element :: rest) merged := by
  cases rest with
  | nil => simp [mergeOne, chunk]
  | cons second rest =>
      cases merged with
      | nil => simp [mergeOne, chunk]
      | cons next others =>
          by_cases same : next.1 = label
          · simp [mergeOne, chunk, same]
          · simp [mergeOne, chunk, same]

theorem foldr_spellOne (event : κ × List α) (merged : List (κ × List α)) :
    (spellOne isChunk event).foldr (mergeOne isChunk) merged = mergeOne isChunk event merged := by
  rcases event with ⟨label, elements⟩
  by_cases chunk : isChunk label = true
  · induction elements with
    | nil => simp [spellOne_empty isChunk chunk, mergeOne, chunk]
    | cons element rest ih =>
        rw [spellOne_cons isChunk chunk, List.foldr_append, ih, ← mergeOne_cons isChunk chunk]
        simp [spellOne, chunk]
  · simp [spellOne, chunk]

/-- Merging forgets how chunks were cut. -/
theorem merge_spell (events : List (κ × List α)) :
    merge isChunk (spell isChunk events) = merge isChunk events := by
  induction events with
  | nil => rfl
  | cons event events ih =>
      rw [merge] at ih
      rw [merge, spell_cons, List.foldr_append, ih, foldr_spellOne]
      rfl

theorem merge_eq_of_spell_eq {events others : List (κ × List α)}
    (same : spell isChunk events = spell isChunk others) :
    merge isChunk events = merge isChunk others := by
  rw [← merge_spell, same, merge_spell]

end Merging

end Vllm.Library.Chunks
