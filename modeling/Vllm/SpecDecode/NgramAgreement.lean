import Vllm.SpecDecode.NgramProposerGpu
import Vllm.Library.OptionLists

/-!
# Agreement of the n-gram proposers

Both proposers draft what follows the longest match of a trailing n-gram: the scan finds it by
borders, the kernel by a comparison of all windows.
-/

namespace Vllm.SpecDecode

open Vllm.Library
open List (Forall₂)

/-- The earliest match of one size, as the kernel stores it. -/
def FirstMatch (tokens : List Int) (n : Nat) (position : Int) : Prop :=
  (position = -1 ∧ ∀ place, ¬ RepeatsAt tokens n place) ∨
    ∃ place : Nat, position = place ∧ RepeatsAt tokens n place ∧
      ∀ other < place, ¬ RepeatsAt tokens n other

variable {n place : Nat} {α β : Type}

theorem FirstMatch.nonneg_iff {tokens : List Int} {position : Int}
    (first : FirstMatch tokens n position) : 0 ≤ position ↔ ∃ place, RepeatsAt tokens n place := by
  rcases first with ⟨rfl, nowhere⟩ | ⟨place, rfl, repeats, _⟩
  · constructor
    · intro negative
      omega
    · rintro ⟨place, repeats⟩
      exact absurd repeats (nowhere place)
  · exact ⟨fun _ => ⟨place, repeats⟩, fun _ => Int.natCast_nonneg place⟩

section Row

variable (tokens padding : List Int)

variable {n min_ngram max_ngram : Nat}

/-- The gathered suffix is the trailing n-gram, if the tokens have one. -/
theorem gather_suffix (fits : n ≤ (tokens ++ padding).length) :
    ∃ suffix, gather (tokens ++ padding)
        ((List.range n).map fun j : Nat => max (((tokens.length : Int) - n) + j) 0) = some suffix ∧
      (n ≤ tokens.length → suffix = tokens.drop (tokens.length - n)) := by
  have clamped : ((List.range n).map fun j : Nat => max (((tokens.length : Int) - n) + j) 0) =
      ((List.range n).map fun j => tokens.length + j - n).map fun index : Nat => (index : Int) := by
    rw [List.map_map]
    apply List.map_congr_left
    intro j _
    dsimp only [Function.comp_apply]
    omega
  rw [List.length_append] at fits
  rw [clamped, gather_eq]
  · refine ⟨_, rfl, ?_⟩
    intro long
    apply List.ext_getElem
    · rw [List.length_map, List.length_map, List.length_range, List.length_drop]
      omega
    · intro j front inside
      rw [List.length_map, List.length_map, List.length_range] at front
      rw [List.getElem_map, List.getElem_map, List.getElem_range, List.getElem_drop,
        List.getD_eq_getElem?_getD, List.getElem?_append_left (by omega),
        List.getElem?_eq_getElem (by omega), Option.getD_some]
      congr 1
      omega
  · intro index member
    rcases List.mem_map.mp member with ⟨j, front, rfl⟩
    have front := List.mem_range.mp front
    rw [List.length_append]
    omega

theorem firstMatchPosition_spec (fits : n ≤ (tokens ++ padding).length) :
    ∃ position, firstMatchPosition (tokens ++ padding) tokens.length n = some position ∧
      FirstMatch tokens n position := by
  rcases gather_suffix tokens padding fits with ⟨suffix, gathered, trailing⟩
  have matches_ : ∀ place, place ≤ (tokens ++ padding).length - n →
      ((decide (((tokens ++ padding).drop place).take n = suffix) &&
        decide ((place : Int) ≤ (tokens.length : Int) - n - 1)) = true ↔
          RepeatsAt tokens n place) := by
    intro place _
    rw [Bool.and_eq_true, decide_eq_true_eq, decide_eq_true_eq, RepeatsAt]
    constructor
    · rintro ⟨same, room⟩
      have room : place + n < tokens.length := by omega
      refine ⟨room, ?_⟩
      rw [trailing (by omega), List.drop_append_of_le_length (by omega),
        List.take_append_of_le_length (by rw [List.length_drop]; omega)] at same
      exact same
    · rintro ⟨room, same⟩
      rw [trailing (by omega), List.drop_append_of_le_length (by omega),
        List.take_append_of_le_length (by rw [List.length_drop]; omega)]
      exact ⟨same, by omega⟩
  rw [firstMatchPosition, slidingWindows_eq fits]
  simp only [Option.bind_eq_bind, Option.bind_some, gathered]
  generalize flagged : (List.map (fun window : List Int × Nat => decide (window.1 = suffix) &&
    decide ((window.2 : Int) ≤ (tokens.length : Int) - n - 1)) _) = flags
  have length : flags.length = (tokens ++ padding).length - n + 1 := by
    rw [← flagged]
    simp
  have entry : ∀ place, place ≤ (tokens ++ padding).length - n → ∀ flag,
      flags[place]? = some flag → (flag = true ↔ RepeatsAt tokens n place) := by
    intro place inside flag read
    rw [← matches_ place inside]
    rw [← flagged] at read
    have small : place < (tokens ++ padding).length - n + 1 := Nat.lt_succ_of_le inside
    simp only [List.getElem?_map, List.getElem?_zipIdx, List.getElem?_range small,
      Option.map_some, Option.some.injEq, Nat.zero_add] at read
    rw [← read]
  have beyond : ∀ place, RepeatsAt tokens n place → place ≤ (tokens ++ padding).length - n := by
    intro place repeats
    have room := repeats.1
    rw [List.length_append]
    omega
  have nonempty : flags ≠ [] := List.ne_nil_of_length_pos (by omega)
  rcases argmax_flags nonempty with ⟨flag, read, set, unset⟩
  have inside := List.getElem?_eq_some_iff.mp read
  rcases inside with ⟨inside, _⟩
  rw [read, Option.bind_some]
  refine ⟨_, rfl, ?_⟩
  cases flag with
  | true =>
      refine Or.inr ⟨_, rfl, (entry _ (by omega) true read).mp rfl, ?_⟩
      intro other before repeats
      have cleared := set rfl other before
      exact Bool.false_ne_true ((entry other (by omega) false cleared).mpr repeats)
  | false =>
      refine Or.inl ⟨rfl, ?_⟩
      intro place repeats
      have bound := beyond place repeats
      have here : place < flags.length := by omega
      have set := (entry place bound _ (List.getElem?_eq_getElem here)).mpr repeats
      have clear := unset rfl _ (List.getElem_mem here)
      rw [set] at clear
      cases clear

/-- The flipped search finds the longest size with a match. -/
theorem bestPosition_spec (bounds : min_ngram ≤ max_ngram) {positions : List Int}
    (first : Forall₂ (FirstMatch tokens)
      (List.range' min_ngram (max_ngram + 1 - min_ngram)) positions) :
    ∃ position,
      positions[max_ngram + 1 - min_ngram - 1 - argmax ((positions.map fun position : Int =>
        decide (0 ≤ position)).reverse.map Bool.toNat)]? = some position ∧
      ∃ n, (List.range' min_ngram (max_ngram + 1 - min_ngram))[max_ngram + 1 - min_ngram - 1 -
        argmax ((positions.map fun position : Int =>
          decide (0 ≤ position)).reverse.map Bool.toNat)]? = some n ∧
      ((position < 0 ∧
          ∀ m, min_ngram ≤ m → m ≤ max_ngram → ∀ place, ¬ RepeatsAt tokens m place) ∨
        ∃ place : Nat, position = place ∧ LongestMatch tokens min_ngram max_ngram n place) := by
  have length : positions.length = max_ngram + 1 - min_ngram := by
    rw [← first.length_eq, List.length_range']
  -- The entry of a size says whether the size has a match.
  have sized : ∀ m, min_ngram ≤ m → m ≤ max_ngram → ∃ position : Int,
      positions[m - min_ngram]? = some position ∧ FirstMatch tokens m position := by
    intro m least most
    have inside : m - min_ngram < positions.length := by omega
    have each := first.get (i := m - min_ngram) (by rw [List.length_range']; omega) inside
    rw [List.get_eq_getElem, List.get_eq_getElem, List.getElem_range'] at each
    have size : min_ngram + 1 * (m - min_ngram) = m := by omega
    rw [size] at each
    exact ⟨_, List.getElem?_eq_getElem inside, each⟩
  have flipped : ∀ m, min_ngram ≤ m → m ≤ max_ngram → ∀ flag,
      ((positions.map fun position : Int => decide (0 ≤ position)).reverse)[max_ngram - m]? =
        some flag → (flag = true ↔ ∃ place, RepeatsAt tokens m place) := by
    intro m least most flag read
    rcases sized m least most with ⟨position, entry, single⟩
    rw [List.getElem?_reverse (by rw [List.length_map]; omega), List.length_map, length,
      List.getElem?_map] at read
    have index : max_ngram + 1 - min_ngram - 1 - (max_ngram - m) = m - min_ngram := by omega
    rw [index, entry, Option.map_some, Option.some.injEq] at read
    rw [← read, decide_eq_true_eq]
    exact single.nonneg_iff
  have nonempty : (positions.map fun position : Int => decide (0 ≤ position)).reverse ≠ [] := by
    apply List.ne_nil_of_length_pos
    rw [List.length_reverse, List.length_map]
    omega
  rcases argmax_flags nonempty with ⟨flag, read, set, unset⟩
  rcases List.getElem?_eq_some_iff.mp read with ⟨inside, _⟩
  generalize flags : (positions.map fun position : Int => decide (0 ≤ position)).reverse = found
    at read set unset inside flipped ⊢
  generalize chosen : argmax (found.map Bool.toNat) = flip at read set inside ⊢
  rw [← flags, List.length_reverse, List.length_map, length] at inside
  -- The size that the flip chooses.
  have back : max_ngram - (max_ngram - flip) = flip := by omega
  have index : max_ngram + 1 - min_ngram - 1 - flip = max_ngram - flip - min_ngram := by omega
  rcases sized (max_ngram - flip) (by omega) (by omega) with ⟨position, entry, single⟩
  have here := flipped (max_ngram - flip) (by omega) (by omega) flag (by rwa [back])
  rw [index]
  refine ⟨position, entry, max_ngram - flip, ?_, ?_⟩
  · rw [List.getElem?_range' (by omega)]
    congr 1
    omega
  · cases flag with
    | true =>
        rcases single with ⟨_, nowhere⟩ | ⟨place, at_, repeats, earliest⟩
        · rcases here.mp rfl with ⟨place, repeats⟩
          exact absurd repeats (nowhere place)
        · refine Or.inr ⟨place, at_, by omega, Nat.sub_le _ _, repeats, ?_, earliest⟩
          intro m longer most other again
          have cleared := set rfl (max_ngram - m) (by omega)
          exact Bool.false_ne_true ((flipped m (by omega) most false cleared).mpr ⟨other, again⟩)
    | false =>
        left
        constructor
        · rw [← Int.not_le, single.nonneg_iff, ← here]
          exact Bool.false_ne_true
        · intro m least most place repeats
          have short : max_ngram - m < found.length := by
            rw [← flags, List.length_reverse, List.length_map]
            omega
          have entry := List.getElem?_eq_getElem short
          have clear := unset rfl _ (List.getElem_mem short)
          rw [clear] at entry
          exact Bool.false_ne_true ((flipped m least most false entry).mpr ⟨place, repeats⟩)

/-- The draft of a row: what follows the longest match, then the mark for no token. -/
theorem findFirstAndExtractAllN_spec (positive : 0 < min_ngram) (bounds : min_ngram ≤ max_ngram)
    (wide : max_ngram ≤ (tokens ++ padding).length) (k : Nat) :
    ∃ draft, findFirstAndExtractAllN (tokens ++ padding) tokens.length min_ngram max_ngram k =
        some draft ∧
      ((∀ m, min_ngram ≤ m → m ≤ max_ngram → ∀ place, ¬ RepeatsAt tokens m place) ∧
          draft = List.replicate k (-1) ∨
        ∃ n place, LongestMatch tokens min_ngram max_ngram n place ∧
          draft = (tokens.drop (place + n)).take k ++
            List.replicate (k - (tokens.length - (place + n))) (-1)) := by
  have each : ∀ n ∈ List.range' min_ngram (max_ngram + 1 - min_ngram), ∃ position,
      firstMatchPosition (tokens ++ padding) tokens.length n = some position ∧
        FirstMatch tokens n position := by
    intro n member
    rw [List.mem_range'_1] at member
    exact firstMatchPosition_spec tokens padding (by omega)
  rcases mapM_forall₂ each with ⟨positions, mapped, first⟩
  rcases bestPosition_spec tokens bounds first with ⟨position, best, n, size, found⟩
  rw [findFirstAndExtractAllN]
  simp only [Option.bind_eq_bind, mapped, Option.bind_some, best, size]
  rcases found with ⟨negative, nowhere⟩ | ⟨place, rfl, longest⟩
  · have missing : decide (0 ≤ position) = false := decide_eq_false (Int.not_le.mpr negative)
    have clamped : ((List.range k).map fun j : Nat =>
        min (max ((0 : Int) + j) 0) ((tokens ++ padding).length - 1)) =
        ((List.range k).map fun j => min j ((tokens ++ padding).length - 1)).map
          fun index : Nat => (index : Int) := by
      rw [List.map_map]
      apply List.map_congr_left
      intro j _
      dsimp only [Function.comp_apply]
      omega
    rw [missing]
    simp only [Bool.false_eq_true, if_false, clamped]
    rw [gather_eq (by
      intro index member
      rcases List.mem_map.mp member with ⟨j, _, rfl⟩
      omega)]
    refine ⟨_, rfl, Or.inl ⟨nowhere, ?_⟩⟩
    rw [List.map_const']
    simp
  · have room := longest.repeats.1
    have present : decide (0 ≤ (place : Int)) = true := decide_eq_true (Int.natCast_nonneg place)
    have clamped : ((List.range k).map fun j : Nat =>
        min (max ((place : Int) + n + j) 0) ((tokens ++ padding).length - 1)) =
        ((List.range k).map fun j => min (place + n + j) ((tokens ++ padding).length - 1)).map
          fun index : Nat => (index : Int) := by
      rw [List.map_map]
      apply List.map_congr_left
      intro j _
      dsimp only [Function.comp_apply]
      omega
    rw [present]
    simp only [if_true, clamped]
    rw [gather_eq (by
      intro index member
      rcases List.mem_map.mp member with ⟨j, _, rfl⟩
      omega)]
    refine ⟨_, rfl, Or.inr ⟨n, place, longest, ?_⟩⟩
    apply List.ext_getElem
    · simp
      omega
    · intro j inside _
      simp only [List.length_map, List.length_zipIdx, List.length_range] at inside
      simp only [List.getElem_map, List.getElem_zipIdx, List.getElem_range, Nat.zero_add]
      split
      · rename_i available
        have index : min (place + n + j) ((tokens ++ padding).length - 1) = place + n + j := by
          rw [List.length_append]
          omega
        rw [List.getElem_append_left (by rw [List.length_take, List.length_drop]; omega),
          List.getElem_take, List.getElem_drop, index, List.getD_eq_getElem?_getD,
          List.getElem?_append_left (by omega), List.getElem?_eq_getElem (by omega),
          Option.getD_some]
      · rename_i masked
        rw [List.getElem_append_right (by rw [List.length_take, List.length_drop]; omega),
          List.getElem_replicate]

end Row

/-- Equal tokens repeat at equal places. -/
theorem repeatsAt_map {f : α → β} (injective : Function.Injective f) {tokens : List α} :
    RepeatsAt (tokens.map f) n place ↔ RepeatsAt tokens n place := by
  rw [RepeatsAt, RepeatsAt, List.length_map, ← List.map_drop, ← List.map_take, ← List.map_drop]
  constructor
  · rintro ⟨room, same⟩
    exact ⟨room, injective.list_map same⟩
  · rintro ⟨room, same⟩
    exact ⟨room, congrArg _ same⟩

theorem LongestMatch.of_map {f : α → β} (injective : Function.Injective f) {tokens : List α}
    {min_ngram max_ngram : Nat} (found : LongestMatch (tokens.map f) min_ngram max_ngram n place) :
    LongestMatch tokens min_ngram max_ngram n place where
  at_least := found.at_least
  at_most := found.at_most
  repeats := (repeatsAt_map injective).mp found.repeats
  longest := fun m longer most other repeats =>
    found.longest m longer most other ((repeatsAt_map injective).mpr repeats)
  earliest := fun other before repeats =>
    found.earliest other before ((repeatsAt_map injective).mpr repeats)

/-- The running sum counts the leading valid tokens. -/
theorem numValidDraftTokens_append {valid : List Int} (m : Nat)
    (some_ : ∀ token ∈ valid, token ≠ -1) :
    numValidDraftTokens (valid ++ List.replicate m (-1)) = valid.length := by
  have counted : ∀ position < valid.length + m,
      (decide (((valid ++ List.replicate m (-1)).take (position + 1)).countP
        (fun token => decide (token ≠ -1)) = position + 1) = decide (position < valid.length)) := by
    intro position inside
    rw [decide_eq_decide, List.take_append, List.countP_append, List.take_replicate,
      List.countP_replicate, if_neg (by decide), Nat.add_zero]
    have most := List.countP_le_length (p := fun token : Int => decide (token ≠ -1))
      (l := valid.take (position + 1))
    rw [List.length_take] at most
    constructor
    · intro full
      omega
    · intro front
      have whole : (valid.take (position + 1)).countP (fun token => decide (token ≠ -1)) =
          (valid.take (position + 1)).length := by
        rw [List.countP_eq_length]
        intro token member
        exact decide_eq_true (some_ token (List.mem_of_mem_take member))
      rw [whole, List.length_take]
      omega
  have front : ∀ m, (List.range (valid.length + m)).countP
      (fun position => decide (position < valid.length)) = valid.length := by
    intro m
    induction m with
    | zero =>
        rw [Nat.add_zero, List.countP_eq_length.mpr, List.length_range]
        intro position member
        exact decide_eq_true (List.mem_range.mp member)
    | succ m inductionHypothesis =>
        rw [← Nat.add_assoc, List.range_succ, List.countP_append, inductionHypothesis]
        simp
  rw [numValidDraftTokens, List.length_append, List.length_replicate]
  refine Eq.trans ?_ (front m)
  apply List.countP_congr
  intro position member
  rw [counted position (List.mem_range.mp member)]

theorem numValidDraftTokens_replicate (m : Nat) :
    numValidDraftTokens (List.replicate m (-1)) = 0 := by
  have none_ : ∀ token ∈ ([] : List Int), token ≠ -1 :=
    fun _ member => absurd member List.not_mem_nil
  exact numValidDraftTokens_append m none_

/-- A request's tokens in a row of the batch's width. -/
structure PaddedRow (width : Nat) where
  tokens : List Nat
  padding : List Int
  combined_mask : Bool
  filled : tokens.length + padding.length = width

def PaddedRow.row {width : Nat} (padded : PaddedRow width) : NgramRow where
  token_ids := padded.tokens.map (fun token : Nat => (token : Int)) ++ padded.padding
  num_tokens_no_spec := padded.tokens.length
  combined_mask := padded.combined_mask

/-- The draft of a row is the other proposer's draft. -/
theorem draftRow_spec (kernel : NgramGPUKernel) (positive : 0 < kernel.min_n)
    (bounds : kernel.min_n ≤ kernel.max_n) {width : Nat} (wide : kernel.max_n ≤ width)
    (max_model_len : Int) (padded : PaddedRow width) :
    ∃ draft, kernel.draftRow padded.row = some draft ∧
      draft.1.length = kernel.k ∧
      (draft.1.take draft.2).take (max_model_len - padded.tokens.length).toNat =
        if padded.combined_mask then
          (findLongestMatchedNgramAndProposeTokens padded.tokens kernel.min_n kernel.max_n
            max_model_len kernel.k).map fun token : Nat => (token : Int)
        else [] := by
  have injective : Function.Injective fun token : Nat => (token : Int) :=
    fun _ _ same => Int.ofNat.inj same
  have filled : (padded.tokens.map (fun token : Nat => (token : Int)) ++ padded.padding).length =
      width := by
    rw [List.length_append, List.length_map]
    exact padded.filled
  rcases findFirstAndExtractAllN_spec (padded.tokens.map fun token : Nat => (token : Int))
    padded.padding positive bounds (by rwa [filled]) kernel.k with ⟨results, extracted, found⟩
  rw [List.length_map] at extracted found
  rw [NgramGPUKernel.draftRow, PaddedRow.row]
  simp only [Option.bind_eq_bind, extracted, Option.bind_some]
  refine ⟨_, rfl, ?_, ?_⟩
  · rw [List.length_map]
    rcases found with ⟨_, rfl⟩ | ⟨n, place, _, rfl⟩
    · rw [List.length_replicate]
    · rw [List.length_append, List.length_take, List.length_drop, List.length_map,
        List.length_replicate]
      omega
  · cases padded.combined_mask with
    | false =>
        simp only [Bool.false_eq_true, if_false, List.map_const']
        rw [numValidDraftTokens_replicate, List.take_zero, List.take_nil]
    | true =>
        simp only [if_true, List.map_id']
        rcases found with ⟨nowhere, rfl⟩ | ⟨n, place, longest, rfl⟩
        · rw [numValidDraftTokens_replicate, List.take_zero, List.take_nil,
            propose_of_no_match positive bounds]
          · rfl
          · intro n least most place repeats
            exact nowhere n least most place ((repeatsAt_map injective).mpr repeats)
        · rw [propose_of_match positive bounds max_model_len kernel.k (longest.of_map injective),
            numValidDraftTokens_append, List.take_left, List.take_take, List.map_take,
            List.map_drop]
          · congr 1
            omega
          · intro token member same
            rcases List.mem_map.mp (List.mem_of_mem_drop (List.mem_of_mem_take member)) with
              ⟨origin, _, rfl⟩
            omega

section Proposers

variable {min_n max_n : Nat} (positive : 0 < min_n) (bounds : min_n ≤ max_n)

include positive bounds

/-- The draft is empty exactly without a match or without room for a token. -/
theorem propose_eq_nil_iff {α : Type} [DecidableEq α] (tokens : List α) (max_model_len k : Int) :
    findLongestMatchedNgramAndProposeTokens tokens min_n max_n max_model_len k = [] ↔
      (∀ n, min_n ≤ n → n ≤ max_n → ∀ place, ¬ RepeatsAt tokens n place) ∨
        min k (max_model_len - tokens.length) ≤ 0 := by
  by_cases found : min_n ≤ (NgramScan.start.run tokens.reverse max_n).longest_ngram
  · have longest := (scan_match tokens positive bounds found).2
    have room := longest.repeats.1
    rw [propose_of_match positive bounds max_model_len k longest, List.take_eq_nil_iff,
      List.drop_eq_nil_iff, Int.toNat_eq_zero]
    constructor
    · rintro (none_ | all)
      · exact Or.inr none_
      · omega
    · rintro (nowhere | none_)
      · exact absurd longest.repeats (nowhere _ longest.at_least longest.at_most _)
      · exact Or.inl none_
  · have nowhere : ∀ n, min_n ≤ n → n ≤ max_n → ∀ place, ¬ RepeatsAt tokens n place := by
      intro n least most place repeats
      exact found (least.trans (scan_longest tokens (positive.trans_le bounds) most repeats))
    rw [propose_of_no_match positive bounds max_model_len k nowhere]
    exact ⟨fun _ => Or.inl nowhere, fun _ => rfl⟩

/-- Both proposers draft what follows the earliest occurrence of the longest repeated suffix. -/
theorem proposers_draft (max_model_len : Int) :
    (∀ (tokens : List Nat) (k : Int),
      (findLongestMatchedNgramAndProposeTokens tokens min_n max_n max_model_len k = [] ↔
        (∀ n, min_n ≤ n → n ≤ max_n → ∀ place, ¬ RepeatsAt tokens n place) ∨
          min k (max_model_len - tokens.length) ≤ 0) ∧
      ∀ m, min_n ≤ m → m ≤ max_n → ∀ other, RepeatsAt tokens m other →
        ∃ n place, LongestMatch tokens min_n max_n n place ∧
          findLongestMatchedNgramAndProposeTokens tokens min_n max_n max_model_len k =
            (tokens.drop (place + n)).take (min k (max_model_len - tokens.length)).toNat) ∧
    ∀ (k width : Nat), max_n ≤ width → ∀ batch : List (PaddedRow width),
      ∃ drafts, (NgramGPUKernel.mk min_n max_n k).forward (batch.map PaddedRow.row) = some drafts ∧
        Forall₂ (fun padded draft =>
          (draft.1.take draft.2).take (max_model_len - padded.tokens.length).toNat =
            if padded.combined_mask then
              (findLongestMatchedNgramAndProposeTokens padded.tokens min_n max_n max_model_len
                k).map fun token : Nat => (token : Int)
            else []) batch drafts := by
  constructor
  · intro tokens k
    constructor
    · exact propose_eq_nil_iff positive bounds tokens max_model_len k
    · intro m least most other repeats
      have scanned := scan_longest tokens (positive.trans_le bounds) most repeats
      have found := (scan_match tokens positive bounds (least.trans scanned)).2
      exact ⟨_, _, found, propose_of_match positive bounds max_model_len k found⟩
  · intro k width wide batch
    rw [NgramGPUKernel.forward, List.mapM_map]
    apply mapM_forall₂
    intro padded _
    rcases draftRow_spec ⟨min_n, max_n, k⟩ positive bounds wide max_model_len padded with
      ⟨draft, drawn, _, same⟩
    exact ⟨draft, drawn, same⟩

end Proposers

theorem alternating_longestMatch : LongestMatch [7, 8, 7, 8, 7] 1 2 2 1 := by
  constructor
  · decide
  · decide
  · exact ⟨by decide, rfl⟩
  · intro m longer most
    omega
  · intro other before repeats
    have first : other = 0 := by omega
    subst first
    exact absurd repeats.2 (by decide)

/-- Overlapping occurrences: the pair 8, 7 stands at place 1 already. -/
theorem alternating_proposers_draft :
    findLongestMatchedNgramAndProposeTokens [7, 8, 7, 8, 7] 1 2 9 3 = [8, 7] ∧
      ∃ drafts, (NgramGPUKernel.mk 1 2 3).forward
          [@PaddedRow.row 6 ⟨[7, 8, 7, 8, 7], [0], true, rfl⟩] = some drafts ∧
        Forall₂ (fun padded draft => (draft.1.take draft.2).take
            ((9 : Int) - (@PaddedRow.tokens 6 padded).length).toNat =
          if padded.combined_mask then
            (findLongestMatchedNgramAndProposeTokens padded.tokens 1 2 9 3).map
              fun token : Nat => (token : Int)
          else []) [⟨[7, 8, 7, 8, 7], [0], true, rfl⟩] drafts := by
  have drafted := @proposers_draft 1 2 (by decide) (by decide) 9
  constructor
  · rcases (drafted.1 [7, 8, 7, 8, 7] 3).2 2 (by decide) (by decide) 1
      alternating_longestMatch.repeats with ⟨n, place, found, draft⟩
    rcases found.unique alternating_longestMatch with ⟨rfl, rfl⟩
    exact draft
  · exact drafted.2 3 6 (by decide) [⟨[7, 8, 7, 8, 7], [0], true, rfl⟩]

/-- A full context has no draft, also where a suffix repeats. -/
theorem full_context_no_draft :
    findLongestMatchedNgramAndProposeTokens [7, 8, 7, 8] 1 2 4 1 = [] ∧
      RepeatsAt [7, 8, 7, 8] 2 0 := by
  constructor
  · exact (propose_eq_nil_iff (by decide) (by decide) _ _ _).mpr (Or.inr (by decide))
  · exact ⟨by decide, rfl⟩

end Vllm.SpecDecode
