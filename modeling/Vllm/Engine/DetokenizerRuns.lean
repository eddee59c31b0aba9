import Vllm.Engine.Detokenizer

/-!
# What a detokenizer streams

The stop string and the text of a request do not depend on how its tokens are grouped into
updates, and the texts handed out in delta mode are the final text.
-/

namespace Vllm.Engine

open Vllm.Library

universe u v w

variable {α : Type u} {τ : Type v} {δ : Type w} [DecidableEq α]

section Search

variable {outputText : List α} {after newCharCount : Nat}

variable {word : List α}

theorem startIndex_window {length : Nat} (inside : newCharCount ≤ length) (fresh : newCharCount ≠ 0)
    (spelled : word ≠ []) (place : Nat) :
    startIndex length (1 - newCharCount - word.length) ≤ place ↔
      length - newCharCount < place + word.length := by
  have long : 0 < word.length := List.length_pos_iff.mpr spelled
  have back : (1 - newCharCount - word.length : Int) < 0 := by omega
  rw [startIndex, if_pos back]
  omega

/-- What the loop over the stop strings has found among those it has seen. -/
def Considered (stop : List (List α)) (outputText : List α) (after : Nat) :
    Option (List α × Nat × Nat) → Prop
  | none => NoEnd stop outputText after
  | some (word, index, bestEnd) =>
      FirstEnd stop outputText after word bestEnd ∧ index + word.length = bestEnd

variable {stop : List (List α)}

theorem considerStop_spec (spelled : word ≠ []) (inside : newCharCount ≤ outputText.length)
    (fresh : newCharCount ≠ 0) {best : Option (List α × Nat × Nat)}
    (known : Considered stop outputText (outputText.length - newCharCount) best) :
    Considered (stop ++ [word]) outputText (outputText.length - newCharCount)
      (considerStop outputText newCharCount best word) := by
  have window := startIndex_window inside fresh spelled
  unfold considerStop
  cases found : findFrom? word outputText
      (startIndex outputText.length (1 - newCharCount - word.length)) with
  | none =>
      have absent : ∀ place, outputText.length - newCharCount < place →
          ¬ EndsAt word outputText place := by
        intro place behind ends
        apply findFrom?_eq_none found _ ends.2
        rw [window, Nat.sub_add_cancel ends.1]
        exact behind
      cases best with
      | none =>
          apply noEnd_append.mpr
          constructor
          · exact known
          · intro other listed place behind
            rw [List.mem_singleton.mp listed]
            exact absent place behind
      | some best =>
          constructor
          · apply known.1.append_later
            intro place behind ends
            exact absurd ends (absent place behind)
          · exact known.2
  | some index =>
      rcases findFrom?_eq_some found with ⟨occurs, behind, first⟩
      have least : ∀ place, outputText.length - newCharCount < place →
          EndsAt word outputText place → index + word.length ≤ place := by
        intro place later ends
        by_contra before
        have long := ends.1
        apply first (place - word.length) _ (by omega) ends.2
        rw [window, Nat.sub_add_cancel ends.1]
        exact later
      cases best with
      | none =>
          constructor
          · apply FirstEnd.append_earlier none
            · intro other listed place later ends
              exact absurd ends (known other listed place later)
            · exact (window index).mp behind
            · exact occurs.endsAt
            · exact least
            · simp
          · rfl
      | some best =>
          rcases best with ⟨bestWord, bestIndex, bestEnd⟩
          by_cases earlier : index + word.length < bestEnd
          · simp only [Option.all_some, decide_eq_true_eq]
            rw [if_pos earlier]
            constructor
            · apply FirstEnd.append_earlier (some bestEnd)
              · intro other listed place later ends
                exact ⟨bestEnd, rfl, known.1.least other listed place later ends⟩
              · exact (window index).mp behind
              · exact occurs.endsAt
              · exact least
              · rintro bound ⟨⟩
                exact earlier
            · rfl
          · simp only [Option.all_some, decide_eq_true_eq]
            rw [if_neg earlier]
            constructor
            · apply known.1.append_later
              intro place later ends
              exact (Nat.le_of_not_lt earlier).trans (least place later ends)
            · exact known.2

theorem foldl_considerStop (spelled : ∀ word ∈ stop, word ≠ [])
    (inside : newCharCount ≤ outputText.length) (fresh : newCharCount ≠ 0) :
    Considered stop outputText (outputText.length - newCharCount)
      (stop.foldl (considerStop outputText newCharCount) none) := by
  induction stop using List.reverseRecOn with
  | nil => exact NoEnd.nil _ _
  | append_singleton front word inductionHypothesis =>
      rw [List.foldl_append]
      apply considerStop_spec (spelled word (by simp)) inside fresh
      exact inductionHypothesis fun other listed => spelled other (by simp [listed])

/-- Where the text is cut for a stop string that ends at a place. -/
def cutAt (includeInOutput : Bool) (word : List α) (bestEnd : Nat) : Nat :=
  if includeInOutput then bestEnd else bestEnd - word.length

variable {stop : List (List α)} {includeInOutput : Bool}

theorem checkStopStrings_of_noEnd (spelled : ∀ word ∈ stop, word ≠ [])
    (inside : newCharCount ≤ outputText.length)
    (none : NoEnd stop outputText (outputText.length - newCharCount)) :
    checkStopStrings outputText newCharCount stop includeInOutput = Option.none := by
  unfold checkStopStrings
  split
  · rfl
  · next searched =>
    rw [not_or] at searched
    have spec := foldl_considerStop spelled inside searched.1
    cases found : stop.foldl (considerStop outputText newCharCount) Option.none with
    | none => rfl
    | some best =>
        rw [found] at spec
        exact absurd none spec.1.not_noEnd

theorem checkStopStrings_of_firstEnd (spelled : ∀ word ∈ stop, word ≠ [])
    (inside : newCharCount ≤ outputText.length) {bestEnd : Nat}
    (first : FirstEnd stop outputText (outputText.length - newCharCount) word bestEnd) :
    ∃ truncateTo, checkStopStrings outputText newCharCount stop includeInOutput =
        some (word, truncateTo) ∧
      truncateTo.elim outputText outputText.take =
        outputText.take (cutAt includeInOutput word bestEnd) := by
  have fits := first.le_length
  have behind := first.after_lt
  have listed : stop ≠ [] := List.ne_nil_of_mem first.mem
  have fresh : newCharCount ≠ 0 := by omega
  have spec := foldl_considerStop spelled inside fresh
  rw [checkStopStrings, if_neg (not_or.mpr ⟨fresh, listed⟩)]
  cases found : stop.foldl (considerStop outputText newCharCount) none with
  | none =>
      rw [found] at spec
      exact absurd spec first.not_noEnd
  | some best =>
      rcases best with ⟨bestWord, bestIndex, foundEnd⟩
      rw [found] at spec
      rcases first.unique spec.1 with ⟨rfl, rfl⟩
      have index := spec.2
      cases includeInOutput with
      | true =>
          rcases Nat.lt_or_ge foundEnd outputText.length with shorter | whole
          · exact ⟨some foundEnd, by simp [Nat.not_le.mpr shorter], rfl⟩
          · exact ⟨none, by simp [whole], (List.take_of_length_le whole).symm⟩
      | false =>
          refine ⟨some bestIndex, rfl, ?_⟩
          simp [cutAt, ← index]

end Search

namespace IncrementalDetokenizer

/-- A detokenizer of the same request whose text has grown. -/
structure Grows (before later : IncrementalDetokenizer α τ δ) : Prop where
  stop_eq : later.stop = before.stop
  minTokens_eq : later.minTokens = before.minTokens
  include_eq : later.includeStopStrInOutput = before.includeStopStrInOutput
  offset_eq : later.lastOutputTextOffset = before.lastOutputTextOffset
  text : before.outputText <+: later.outputText
  counted : before.numOutputTokens ≤ later.numOutputTokens

omit [DecidableEq α] in
theorem Grows.refl (self : IncrementalDetokenizer α τ δ) : Grows self self :=
  ⟨rfl, rfl, rfl, rfl, List.prefix_rfl, le_rfl⟩

omit [DecidableEq α] in
theorem Grows.trans {first second third : IncrementalDetokenizer α τ δ}
    (before : Grows first second) (after : Grows second third) : Grows first third where
  stop_eq := after.stop_eq.trans before.stop_eq
  minTokens_eq := after.minTokens_eq.trans before.minTokens_eq
  include_eq := after.include_eq.trans before.include_eq
  offset_eq := after.offset_eq.trans before.offset_eq
  text := before.text.trans after.text
  counted := before.counted.trans after.counted

section Decode

variable {decodeNext : List τ → δ → τ → List α × δ} {self : IncrementalDetokenizer α τ δ}
  {tokens rest : List τ} {token : τ} {offset : Nat} {stopTerminated : Bool}

section

omit [DecidableEq α]

theorem appendToken_numOutputTokens :
    (self.appendToken token).numOutputTokens = self.numOutputTokens + 1 := by
  simp only [numOutputTokens, appendToken, List.length_append, List.length_singleton]
  exact Nat.sub_add_comm self.prompted

theorem appendToken_grows : Grows self (self.appendToken token) :=
  ⟨rfl, rfl, rfl, rfl, List.prefix_rfl, by simp [appendToken_numOutputTokens]⟩

theorem decodeToken_numOutputTokens :
    (self.decodeToken decodeNext token).numOutputTokens = self.numOutputTokens + 1 :=
  appendToken_numOutputTokens

theorem decodeToken_grows : Grows self (self.decodeToken decodeNext token) :=
  ⟨rfl, rfl, rfl, rfl, List.prefix_append _ _, by simp [decodeToken_numOutputTokens]⟩

theorem decodeTokens_grows : Grows self (decodeTokens decodeNext tokens self offset).1 := by
  induction tokens generalizing self offset with
  | nil => exact Grows.refl self
  | cons token rest inductionHypothesis => exact decodeToken_grows.trans inductionHypothesis

/-- The place from which stop strings count does not matter to what is decoded. -/
theorem decodeTokens_fst (offset other : Nat) :
    (decodeTokens decodeNext tokens self offset).1 =
      (decodeTokens decodeNext tokens self other).1 := by
  induction tokens generalizing self offset other with
  | nil => rfl
  | cons token rest inductionHypothesis => exact inductionHypothesis _ _

/-- Once there are `min_tokens` tokens, the place stays. -/
theorem decodeTokens_snd (enough : self.minTokens ≤ self.numOutputTokens) :
    (decodeTokens decodeNext tokens self offset).2 = offset := by
  induction tokens generalizing self offset with
  | nil => rfl
  | cons token rest inductionHypothesis =>
      have more : (self.decodeToken decodeNext token).numOutputTokens =
          self.numOutputTokens + 1 := decodeToken_numOutputTokens
      have same : (self.decodeToken decodeNext token).minTokens = self.minTokens := rfl
      rw [decodeTokens, if_neg (by omega)]
      exact inductionHypothesis (by omega)

theorem le_decodeTokens_offset (before : offset ≤ self.outputText.length) :
    offset ≤ (decodeTokens decodeNext tokens self offset).2 := by
  induction tokens generalizing self offset with
  | nil => exact le_rfl
  | cons token rest inductionHypothesis =>
      have grows : self.outputText.length ≤
          (self.decodeToken decodeNext token).outputText.length :=
        decodeToken_grows.text.length_le
      have reached : offset ≤ (self.decodeToken decodeNext token).outputText.length :=
        before.trans grows
      rw [decodeTokens]
      split
      · exact reached.trans (inductionHypothesis le_rfl)
      · exact inductionHypothesis reached

theorem decodeTokens_offset_le (inside : offset ≤ self.outputText.length) :
    (decodeTokens decodeNext tokens self offset).2 ≤
      (decodeTokens decodeNext tokens self offset).1.outputText.length := by
  induction tokens generalizing self offset with
  | nil => exact inside
  | cons token rest inductionHypothesis =>
      apply inductionHypothesis
      split
      · exact le_rfl
      · exact inside.trans decodeToken_grows.text.length_le

theorem detokenize_grows :
    Grows self (detokenize decodeNext tokens stopTerminated self offset).1 := by
  unfold detokenize
  split
  · have decoded : Grows self (decodeTokens decodeNext tokens.dropLast self offset).1 :=
      decodeTokens_grows
    cases tokens.getLast? with
    | none => exact decoded
    | some last => exact decoded.trans appendToken_grows
  · exact decodeTokens_grows

theorem detokenize_offset_le (inside : offset ≤ self.outputText.length) :
    (detokenize decodeNext tokens stopTerminated self offset).2 ≤
      (detokenize decodeNext tokens stopTerminated self offset).1.outputText.length := by
  have decoded := @decodeTokens_offset_le _ _ _ decodeNext self
  unfold detokenize
  split
  · cases tokens.getLast? with
    | none => exact decoded inside
    | some last => exact decoded inside
  · exact decoded inside

theorem le_detokenize_offset (before : offset ≤ self.outputText.length) :
    offset ≤ (detokenize decodeNext tokens stopTerminated self offset).2 := by
  unfold detokenize
  split
  · exact le_decodeTokens_offset before
  · exact le_decodeTokens_offset before

theorem detokenize_fst (offset other : Nat) :
    (detokenize decodeNext tokens stopTerminated self offset).1 =
      (detokenize decodeNext tokens stopTerminated self other).1 := by
  unfold detokenize
  split
  · dsimp only
    rw [decodeTokens_fst offset other]
  · exact decodeTokens_fst offset other

theorem detokenize_snd (enough : self.minTokens ≤ self.numOutputTokens) :
    (detokenize decodeNext tokens stopTerminated self offset).2 = offset := by
  unfold detokenize
  split
  · exact decodeTokens_snd enough
  · exact decodeTokens_snd enough

theorem detokenize_cons (more : rest ≠ []) :
    detokenize decodeNext (token :: rest) stopTerminated self offset =
      detokenize decodeNext rest stopTerminated (self.decodeToken decodeNext token)
        (if self.minTokens ≠ 0 ∧
            (self.decodeToken decodeNext token).numOutputTokens ≤ self.minTokens then
          (self.decodeToken decodeNext token).outputText.length
        else offset) := by
  cases rest with
  | nil => exact absurd rfl more
  | cons next rest =>
      unfold detokenize
      rw [List.dropLast_cons_of_ne_nil more, List.getLast?_cons_cons]
      rfl

end

end Decode

section Evaluate

variable {self : IncrementalDetokenizer α τ δ} {offset middle stop : Nat} {word : List α}

theorem evaluateStop_early (early : self.numOutputTokens ≤ self.minTokens) :
    self.evaluateStop offset = (none, self) := by
  rw [evaluateStop, if_neg]
  rintro ⟨_, late⟩
  exact absurd late (Nat.not_lt.mpr early)

theorem evaluateStop_of_noEnd (spelled : ∀ word ∈ self.stop, word ≠ [])
    (inside : offset ≤ self.outputText.length) (none : NoEnd self.stop self.outputText offset) :
    self.evaluateStop offset = (Option.none, self) := by
  unfold evaluateStop
  split
  · rw [checkStopStrings_of_noEnd spelled (Nat.sub_le _ _)]
    rwa [Nat.sub_sub_self inside]
  · rfl

theorem evaluateStop_of_firstEnd (spelled : ∀ word ∈ self.stop, word ≠ [])
    (late : self.minTokens < self.numOutputTokens) (inside : offset ≤ self.outputText.length)
    (first : FirstEnd self.stop self.outputText offset word stop) :
    self.evaluateStop offset =
      (some word, { self with
        outputText := self.outputText.take (cutAt self.includeStopStrInOutput word stop) }) := by
  rw [← Nat.sub_sub_self inside] at first
  rcases checkStopStrings_of_firstEnd spelled (Nat.sub_le _ _) first with
    ⟨truncateTo, checked, cut⟩
  rw [evaluateStop, if_pos ⟨List.ne_nil_of_mem first.mem, late⟩, checked, ← cut]
  cases truncateTo with
  | none => rfl
  | some truncateTo => rfl

/-- What was searched before need not be searched again. -/
theorem evaluateStop_later (spelled : ∀ word ∈ self.stop, word ≠ [])
    (later : offset ≤ middle) (inside : middle ≤ self.outputText.length)
    (none : ∀ other ∈ self.stop, ∀ place, offset < place → place ≤ middle →
      ¬ EndsAt other self.outputText place) :
    self.evaluateStop offset = self.evaluateStop middle := by
  rcases Nat.lt_or_ge self.minTokens self.numOutputTokens with late | early
  · rcases noEnd_or_firstEnd self.stop self.outputText middle with absent | ⟨word, stop, first⟩
    · rw [evaluateStop_of_noEnd spelled inside absent,
        evaluateStop_of_noEnd spelled (later.trans inside)]
      intro other listed place behind ends
      rcases Nat.lt_or_ge middle place with beyond | before
      · exact absent other listed place beyond ends
      · exact none other listed place behind before ends
    · rw [evaluateStop_of_firstEnd spelled late inside first,
        evaluateStop_of_firstEnd spelled late (later.trans inside) (first.of_later later none)]
  · rw [evaluateStop_early early, evaluateStop_early early]

end Evaluate

section Updates

variable {decodeNext : List τ → δ → τ → List α × δ} {self : IncrementalDetokenizer α τ δ}
  {tokens rest : List τ} {token : τ} {stopTerminated : Bool}

/-- Two ways to go on from a detokenizer: either nothing stops either of them, or both stop with
the same stop string and text. -/
def SameOutput (one other : Option (List α) × IncrementalDetokenizer α τ δ) : Prop :=
  other.1 = one.1 ∧ other.2.outputText = one.2.outputText

theorem update_of_ne_nil (some : tokens ≠ []) :
    update decodeNext tokens stopTerminated self =
      (detokenize decodeNext tokens stopTerminated self self.outputText.length).1.evaluateStop
        (detokenize decodeNext tokens stopTerminated self self.outputText.length).2 := by
  rw [update, if_neg some]

theorem update_singleton :
    update decodeNext [token] false self =
      (self.decodeToken decodeNext token).evaluateStop
        (if self.minTokens ≠ 0 ∧
            (self.decodeToken decodeNext token).numOutputTokens ≤ self.minTokens then
          (self.decodeToken decodeNext token).outputText.length
        else self.outputText.length) := by
  rfl

/-- The first token of an update may be given by itself: it does not stop and the rest goes on, or
it stops as the whole update does. -/
theorem update_cons (stopTerminated : Bool) (spelled : ∀ word ∈ self.stop, word ≠ [])
    (more : rest ≠ []) :
    update decodeNext [token] false self = (none, self.decodeToken decodeNext token) ∧
        update decodeNext (token :: rest) stopTerminated self =
          update decodeNext rest stopTerminated (self.decodeToken decodeNext token) ∨
      ∃ word, (update decodeNext [token] false self).1 = some word ∧
        SameOutput (update decodeNext [token] false self)
          (update decodeNext (token :: rest) stopTerminated self) := by
  rw [update_singleton, update_of_ne_nil (List.cons_ne_nil _ _), detokenize_cons more,
    update_of_ne_nil more]
  have grows : Grows self (self.decodeToken decodeNext token) := decodeToken_grows
  have counted : (self.decodeToken decodeNext token).numOutputTokens =
      self.numOutputTokens + 1 := decodeToken_numOutputTokens
  generalize self.decodeToken decodeNext token = decoded at grows counted ⊢
  by_cases early : self.minTokens ≠ 0 ∧ decoded.numOutputTokens ≤ self.minTokens
  · -- Nothing is evaluated yet, and the search begins behind this token.
    left
    rw [if_pos early]
    constructor
    · apply evaluateStop_early
      rw [grows.minTokens_eq]
      exact early.2
    · rfl
  · rw [if_neg early]
    have late : decoded.minTokens < decoded.numOutputTokens := by
      rw [grows.minTokens_eq]
      omega
    have seen : Grows decoded
        (detokenize decodeNext rest stopTerminated decoded self.outputText.length).1 :=
      detokenize_grows
    have after : decoded.outputText.length ≤ _ := seen.text.length_le
    rw [detokenize_snd late.le, detokenize_snd late.le,
      detokenize_fst decoded.outputText.length self.outputText.length]
    generalize (detokenize decodeNext rest stopTerminated decoded self.outputText.length).1 = whole
      at seen after ⊢
    have decodedSpelled : ∀ word ∈ decoded.stop, word ≠ [] := by rwa [grows.stop_eq]
    have wholeSpelled : ∀ word ∈ whole.stop, word ≠ [] := by rwa [seen.stop_eq]
    rcases noEnd_or_firstEnd decoded.stop decoded.outputText self.outputText.length with
      absent | ⟨word, stop, first⟩
    · left
      constructor
      · exact evaluateStop_of_noEnd decodedSpelled grows.text.length_le absent
      · apply evaluateStop_later wholeSpelled grows.text.length_le after
        intro other listed place behind before ends
        rw [seen.stop_eq] at listed
        exact absent other listed place behind (ends.in_prefixed seen.text before)
    · right
      have wholeFirst : FirstEnd whole.stop whole.outputText self.outputText.length word stop := by
        rw [seen.stop_eq]
        exact first.of_prefixed seen.text
      have wholeLate : whole.minTokens < whole.numOutputTokens := by
        rw [seen.minTokens_eq]
        exact late.trans_le seen.counted
      rw [evaluateStop_of_firstEnd decodedSpelled late grows.text.length_le first,
        evaluateStop_of_firstEnd wholeSpelled wholeLate (grows.text.length_le.trans after)
          wholeFirst]
      refine ⟨word, rfl, rfl, ?_⟩
      rw [seen.include_eq]
      have cut : cutAt decoded.includeStopStrInOutput word stop ≤ decoded.outputText.length := by
        unfold cutAt
        split
        · exact first.le_length
        · exact (Nat.sub_le _ _).trans first.le_length
      rcases seen.text with ⟨added, grown⟩
      exact (congrArg (List.take _) grown.symm).trans (List.take_append_of_le_length cut)

theorem evaluateStop_stop (self : IncrementalDetokenizer α τ δ) (offset : Nat) :
    (self.evaluateStop offset).2.stop = self.stop := by
  unfold evaluateStop
  split
  · split
    · rfl
    · rfl
    · rfl
  · rfl

theorem update_stop : (update decodeNext tokens stopTerminated self).2.stop = self.stop := by
  unfold update
  split
  · rfl
  · exact (evaluateStop_stop _ _).trans detokenize_grows.stop_eq

/-- An update by single tokens stops exactly when the update does, with the same output. -/
theorem updateAll_singles (spelled : ∀ word ∈ self.stop, word ≠ []) (some : tokens ≠ []) :
    (update decodeNext tokens stopTerminated self).1 = none ∧
        updateAll decodeNext (singles tokens stopTerminated) self =
          update decodeNext tokens stopTerminated self ∨
      ∃ word, (update decodeNext tokens stopTerminated self).1 = Option.some word ∧
        SameOutput (update decodeNext tokens stopTerminated self)
          (updateAll decodeNext (singles tokens stopTerminated) self) := by
  induction tokens generalizing self with
  | nil => exact absurd rfl some
  | cons token rest inductionHypothesis =>
      cases rest with
      | nil =>
          rw [singles, updateAll]
          rcases update decodeNext [token] stopTerminated self with ⟨_ | word, updated⟩
          · left
            exact ⟨rfl, rfl⟩
          · right
            exact ⟨word, rfl, rfl, rfl⟩
      | cons next rest =>
          have more : next :: rest ≠ [] := List.cons_ne_nil _ _
          rw [singles, updateAll]
          rcases update_cons stopTerminated spelled more with
            ⟨passed, goesOn⟩ | ⟨word, stopped, same⟩
          · rw [passed, goesOn]
            exact inductionHypothesis spelled more
          · right
            refine ⟨word, same.1.trans stopped, ?_⟩
            generalize update decodeNext [token] false self = single at same stopped ⊢
            rcases single with ⟨_ | found, updated⟩
            · cases stopped
            · exact ⟨same.1.symm, same.2.symm⟩

theorem updateAll_append (front back : List (List τ × Bool)) :
    updateAll decodeNext (front ++ back) self =
      match updateAll decodeNext front self with
      | (none, updated) => updateAll decodeNext back updated
      | (Option.some word, updated) => (Option.some word, updated) := by
  induction front generalizing self with
  | nil => rfl
  | cons call front inductionHypothesis =>
      rw [List.cons_append, updateAll, updateAll]
      rcases update decodeNext call.1 call.2 self with ⟨_ | word, updated⟩
      · exact inductionHypothesis
      · rfl

/-- The grouping of the tokens into updates does not matter. -/
theorem updateAll_oneAtATime (spelled : ∀ word ∈ self.stop, word ≠ [])
    (calls : List (List τ × Bool)) :
    SameOutput (updateAll decodeNext calls self)
      (updateAll decodeNext (oneAtATime calls) self) := by
  induction calls generalizing self with
  | nil => exact ⟨rfl, rfl⟩
  | cons call calls inductionHypothesis =>
      rcases call with ⟨tokens, stopTerminated⟩
      rw [oneAtATime, List.flatMap_cons, updateAll_append, updateAll]
      have kept : ∀ word ∈ (update decodeNext tokens stopTerminated self).2.stop, word ≠ [] := by
        rwa [update_stop]
      by_cases none : tokens = []
      · subst none
        exact inductionHypothesis spelled
      · rcases updateAll_singles spelled none with ⟨passed, same⟩ | ⟨word, stopped, same⟩
        · dsimp only
          rw [same]
          generalize update decodeNext tokens stopTerminated self = updated at passed kept ⊢
          rcases updated with ⟨_ | word, updated⟩
          · exact inductionHypothesis kept
          · cases passed
        · dsimp only
          generalize updateAll decodeNext (singles tokens stopTerminated) self = single at same ⊢
          generalize update decodeNext tokens stopTerminated self = updated at stopped same kept ⊢
          rcases updated with ⟨_ | word, updated⟩
          · cases stopped
          · rcases single with ⟨_ | found, single⟩
            · cases same.1
            · exact same

end Updates

section Deliveries

variable {decodeNext : List τ → δ → τ → List α × δ} {self : IncrementalDetokenizer α τ δ}
  {tokens : List τ} {stopTerminated : Bool}

/-- The detokenizer when text up to an offset has been handed out. -/
def handedTo (self : IncrementalDetokenizer α τ δ) (offset : Nat) :
    IncrementalDetokenizer α τ δ :=
  { self with lastOutputTextOffset := offset }

omit [DecidableEq α] in
theorem decodeTokens_handedTo (offset checked : Nat) :
    decodeTokens decodeNext tokens (self.handedTo offset) checked =
      ((decodeTokens decodeNext tokens self checked).1.handedTo offset,
        (decodeTokens decodeNext tokens self checked).2) := by
  induction tokens generalizing self checked with
  | nil => rfl
  | cons token rest inductionHypothesis =>
      change decodeTokens decodeNext rest ((self.decodeToken decodeNext token).handedTo offset) _ =
        _
      exact inductionHypothesis _

omit [DecidableEq α] in
theorem detokenize_handedTo (offset checked : Nat) :
    detokenize decodeNext tokens stopTerminated (self.handedTo offset) checked =
      ((detokenize decodeNext tokens stopTerminated self checked).1.handedTo offset,
        (detokenize decodeNext tokens stopTerminated self checked).2) := by
  have same : (self.handedTo offset).includeStopStrInOutput = self.includeStopStrInOutput := rfl
  simp only [detokenize, same, decodeTokens_handedTo]
  split
  · cases tokens.getLast? with
    | none => rfl
    | some last => rfl
  · rfl

theorem evaluateStop_handedTo (offset checked : Nat) :
    (self.handedTo offset).evaluateStop checked =
      ((self.evaluateStop checked).1, (self.evaluateStop checked).2.handedTo offset) := by
  by_cases armed : self.stop ≠ [] ∧ self.numOutputTokens > self.minTokens
  · have one : self.evaluateStop checked = _ := if_pos armed
    have other : (self.handedTo offset).evaluateStop checked = _ := if_pos armed
    rw [one, other]
    simp only [handedTo]
    generalize checkStopStrings self.outputText (self.outputText.length - checked) self.stop
      self.includeStopStrInOutput = stop
    rcases stop with _ | ⟨word, _ | truncateTo⟩
    · rfl
    · rfl
    · rfl
  · have one : self.evaluateStop checked = _ := if_neg armed
    have other : (self.handedTo offset).evaluateStop checked = _ := if_neg armed
    rw [one, other]

theorem update_handedTo (offset : Nat) :
    update decodeNext tokens stopTerminated (self.handedTo offset) =
      ((update decodeNext tokens stopTerminated self).1,
        (update decodeNext tokens stopTerminated self).2.handedTo offset) := by
  unfold update
  split
  · rfl
  · have same : (self.handedTo offset).outputText = self.outputText := rfl
    rw [same, detokenize_handedTo, evaluateStop_handedTo]

/-- What is handed out does not matter to the updates. -/
theorem updateAll_handedTo (calls : List (List τ × Bool)) (offset : Nat) :
    SameOutput (updateAll decodeNext calls self)
      (updateAll decodeNext calls (self.handedTo offset)) := by
  induction calls generalizing self with
  | nil => exact ⟨rfl, rfl⟩
  | cons call calls inductionHypothesis =>
      rw [updateAll, updateAll, update_handedTo]
      rcases update decodeNext call.1 call.2 self with ⟨_ | word, updated⟩
      · exact inductionHypothesis
      · exact ⟨rfl, rfl⟩

/-- The text up to the offset has been handed out, and what is held back is not part of it. -/
def Handed (sent : List α) (self : IncrementalDetokenizer α τ δ) : Prop :=
  sent = self.outputText.take self.lastOutputTextOffset ∧
    self.lastOutputTextOffset ≤ self.outputText.length - self.stopBufferLength

variable {sent : List α}

omit [DecidableEq α] in
theorem Handed.grows {later : IncrementalDetokenizer α τ δ} (handed : Handed sent self)
    (grows : Grows self later) : Handed sent later := by
  rcases grows.text with ⟨added, grown⟩
  have buffer : later.stopBufferLength = self.stopBufferLength := by
    rw [stopBufferLength, stopBufferLength, grows.stop_eq, grows.include_eq]
  constructor
  · rw [handed.1, grows.offset_eq, ← grown]
    exact (List.take_append_of_le_length (handed.2.trans (Nat.sub_le _ _))).symm
  · rw [grows.offset_eq, buffer]
    exact handed.2.trans (Nat.sub_le_sub_right grows.text.length_le _)

/-- An update leaves what was handed out in the text, also where a stop string cuts it. -/
theorem update_handed (spelled : ∀ word ∈ self.stop, word ≠ []) (handed : Handed sent self) :
    Handed sent (update decodeNext tokens stopTerminated self).2 ∨
      ((update decodeNext tokens stopTerminated self).1.isSome ∧
        sent = (update decodeNext tokens stopTerminated self).2.outputText.take
          (update decodeNext tokens stopTerminated self).2.lastOutputTextOffset ∧
        (update decodeNext tokens stopTerminated self).2.lastOutputTextOffset ≤
          (update decodeNext tokens stopTerminated self).2.outputText.length) := by
  unfold update
  split
  · exact Or.inl handed
  · have grows : Grows self
        (detokenize decodeNext tokens stopTerminated self self.outputText.length).1 :=
      detokenize_grows
    have inside :
        (detokenize decodeNext tokens stopTerminated self self.outputText.length).2 ≤ _ :=
      detokenize_offset_le le_rfl
    have behind : _ ≤
        (detokenize decodeNext tokens stopTerminated self self.outputText.length).2 :=
      le_detokenize_offset le_rfl
    generalize detokenize decodeNext tokens stopTerminated self self.outputText.length = seen
      at grows inside behind ⊢
    have seenHanded := handed.grows grows
    have seenSpelled : ∀ word ∈ seen.1.stop, word ≠ [] := by rwa [grows.stop_eq]
    rcases Nat.lt_or_ge seen.1.minTokens seen.1.numOutputTokens with late | early
    · rcases noEnd_or_firstEnd seen.1.stop seen.1.outputText seen.2 with
        absent | ⟨word, stop, first⟩
      · left
        rw [evaluateStop_of_noEnd seenSpelled inside absent]
        exact seenHanded
      · right
        rw [evaluateStop_of_firstEnd seenSpelled late inside first]
        have cut : seen.1.lastOutputTextOffset ≤
            cutAt seen.1.includeStopStrInOutput word stop := by
          have held := handed.2
          have after := first.after_lt
          have short := length_le_longestStop first.mem
          rw [grows.stop_eq] at short
          rw [grows.offset_eq, grows.include_eq]
          have listed : self.stop ≠ [] := by
            rw [← grows.stop_eq]
            exact List.ne_nil_of_mem first.mem
          unfold stopBufferLength at held
          unfold cutAt
          cases including : self.includeStopStrInOutput with
          | true =>
              simp at held ⊢
              omega
          | false =>
              rw [including] at held
              simp [listed] at held ⊢
              omega
        refine ⟨rfl, ?_, ?_⟩
        · rw [List.take_take, Nat.min_eq_left cut]
          exact seenHanded.1
        · rw [List.length_take]
          exact Nat.le_min.mpr ⟨cut, seenHanded.2.trans (Nat.sub_le _ _)⟩
    · left
      rw [evaluateStop_early early]
      exact seenHanded

omit [DecidableEq α] in
/-- The last text handed out completes the text. -/
theorem getNextOutputText_finished (handed : sent = self.outputText.take self.lastOutputTextOffset)
    (inside : self.lastOutputTextOffset ≤ self.outputText.length) :
    sent ++ (self.getNextOutputText true true).1 = self.outputText ∧
      (self.getNextOutputText true true).2.outputText = self.outputText := by
  simp only [getNextOutputText, if_true, Nat.sub_zero]
  split
  · constructor
    · rw [handed, List.take_length, List.take_append_drop]
    · rfl
  · next whole =>
    constructor
    · rw [handed, List.append_nil]
      exact List.take_of_length_le (Nat.le_of_not_lt whole)
    · rfl

omit [DecidableEq α] in
theorem getNextOutputText_unfinished (handed : Handed sent self) :
    Handed (sent ++ (self.getNextOutputText false true).1) (self.getNextOutputText false true).2 ∧
      ∃ offset, (self.getNextOutputText false true).2 = self.handedTo offset := by
  simp only [getNextOutputText, Bool.false_eq_true, if_false, if_true]
  split
  · next more =>
    constructor
    · constructor
      · rw [handed.1]
        have split := List.take_append_drop self.lastOutputTextOffset
          (self.outputText.take (self.outputText.length - self.stopBufferLength))
        rwa [List.take_take, Nat.min_eq_left more.le] at split
      · exact le_rfl
    · exact ⟨_, rfl⟩
  · constructor
    · rw [List.append_nil]
      exact handed
    · exact ⟨self.lastOutputTextOffset, rfl⟩

/-- The texts handed out make up the final text. -/
theorem deliverAll_flatten (spelled : ∀ word ∈ self.stop, word ≠ []) (handed : Handed sent self)
    {calls : List (List τ × Bool)} (some : calls ≠ []) :
    sent ++ (deliverAll decodeNext calls self).1.flatten =
        (deliverAll decodeNext calls self).2.outputText ∧
      (deliverAll decodeNext calls self).2.outputText =
        (updateAll decodeNext calls self).2.outputText := by
  induction calls generalizing self sent with
  | nil => exact absurd rfl some
  | cons call rest inductionHypothesis =>
      rw [deliverAll, updateAll]
      have kept : (update decodeNext call.1 call.2 self).2.stop = self.stop := update_stop
      have outcome : Handed sent (update decodeNext call.1 call.2 self).2 ∨ _ :=
        update_handed spelled handed
      generalize update decodeNext call.1 call.2 self = updated at kept outcome ⊢
      rcases updated with ⟨stopped, updated⟩
      have reached : sent = updated.outputText.take updated.lastOutputTextOffset ∧
          updated.lastOutputTextOffset ≤ updated.outputText.length := by
        rcases outcome with goesOn | ⟨_, cut⟩
        · exact ⟨goesOn.1, goesOn.2.trans (Nat.sub_le _ _)⟩
        · exact cut
      have last := getNextOutputText_finished reached.1 reached.2
      cases stopped with
      | some word =>
          simp only [Option.isSome_some, Bool.true_or, if_true, List.flatten_cons,
            List.flatten_nil, List.append_nil]
          exact ⟨last.1.trans last.2.symm, last.2⟩
      | none =>
          cases rest with
          | nil =>
              simp only [List.isEmpty_nil, Bool.or_true, if_true, List.flatten_cons,
                List.flatten_nil, List.append_nil]
              exact ⟨last.1.trans last.2.symm, last.2⟩
          | cons next rest =>
              have goesOn : Handed sent updated := by
                rcases outcome with goesOn | ⟨stopped, _⟩
                · exact goesOn
                · cases stopped
              simp only [Option.isSome_none, List.isEmpty_cons, Bool.or_self, Bool.false_eq_true,
                if_false, List.flatten_cons]
              rcases getNextOutputText_unfinished goesOn with ⟨handed, offset, same⟩
              rw [← List.append_assoc]
              have keptHere : ∀ word ∈ (updated.getNextOutputText false true).2.stop,
                  word ≠ [] := by
                rw [same]
                change ∀ word ∈ updated.stop, word ≠ []
                rwa [kept]
              have later := inductionHypothesis keptHere handed (List.cons_ne_nil next rest)
              constructor
              · exact later.1
              · rw [later.2, same]
                exact (updateAll_handedTo (next :: rest) offset).2

end Deliveries

/-- For every decoding function and every request with non-empty stop strings, the stop string and
the final text are those of one update for each token, and what is handed out in delta mode, up to
the last text, is the final text. -/
theorem streaming_law (decodeNext : List τ → δ → τ → List α × δ) (params : DetokenizerParams α)
    (spelled : ∀ stopStr ∈ params.stop.strings, stopStr ≠ []) (promptTokenIds : List τ)
    (decoder : δ) (calls : List (List τ × Bool)) (some : calls ≠ []) :
    SameOutput (updateAll decodeNext (oneAtATime calls) (new params promptTokenIds decoder))
        (updateAll decodeNext calls (new params promptTokenIds decoder)) ∧
      (deliverAll decodeNext calls (new params promptTokenIds decoder)).1.flatten =
        (updateAll decodeNext calls (new params promptTokenIds decoder)).2.outputText ∧
      ∀ sent, sent <+: (deliverAll decodeNext calls (new params promptTokenIds decoder)).1 →
        sent.flatten <+:
          (updateAll decodeNext calls (new params promptTokenIds decoder)).2.outputText := by
  have grouped : SameOutput
      (updateAll decodeNext calls (new params promptTokenIds decoder)) _ :=
    updateAll_oneAtATime spelled calls
  have fresh : Handed [] (new params promptTokenIds decoder : IncrementalDetokenizer α τ δ) :=
    ⟨rfl, Nat.zero_le _⟩
  have delivered : _ ++
      (deliverAll decodeNext calls (new params promptTokenIds decoder)).1.flatten = _ ∧ _ :=
    deliverAll_flatten spelled fresh some
  have whole := delivered.1.trans delivered.2
  constructor
  · exact ⟨grouped.1.symm, grouped.2.symm⟩
  · constructor
    · exact whole
    · rintro sent ⟨rest, handed⟩
      rw [← whole, ← handed, List.flatten_append]
      exact List.prefix_append _ _

/-- Three tokens in one update, the second of which completes the stop string. -/
theorem streaming_law_grouped :
    let decodeNext := fun (_ : List Nat) (_ : Unit) token =>
      (if token = 0 then ['a', 'b'] else ['c', 'd'], ())
    let params : DetokenizerParams Char := ⟨.one ['b', 'c'], 0, false⟩
    let calls := [([0, 1, 0], false), ([1], false)]
    (updateAll decodeNext calls (new params [] ())).1 = some ['b', 'c'] ∧
      (deliverAll decodeNext calls (new params [] ())).1.flatten = ['a'] := by
  intro decodeNext params calls
  have law := streaming_law decodeNext params (by decide) [] () calls (by decide)
  constructor
  · decide +kernel
  · rw [law.2.1]
    decide +kernel

end IncrementalDetokenizer

end Vllm.Engine
