import Vllm.SpecDecode.NgramProposer
import Vllm.Library.FirstExtremum

/-!
# N-gram proposer on the accelerator

The kernel compares the trailing n-gram of every size with all windows of the padded row at once.
Indices are clamped and invalid entries are masked instead of skipped.
-/

namespace Vllm.SpecDecode

open Vllm.Library

/-- `torch.argmax` takes the first of equal values. -/
def argmax (values : List Nat) : Nat :=
  firstMaximum values

/-- `torch.gather` along a row; an index outside of the row is an error. -/
def gather (row indices : List Int) : Option (List Int) :=
  indices.mapM fun index => if 0 ≤ index then row[index.toNat]? else none

/-- `row.unfold(0, size, 1)`; a size above the row's is an error. -/
def slidingWindows (row : List Int) (size : Nat) : Option (List (List Int)) :=
  if size ≤ row.length then
    some ((List.range (row.length - size + 1)).map fun start => (row.drop start).take size)
  else none

/-- The earliest match of the trailing n-gram of one size; -1 means no match. -/
def firstMatchPosition (token_ids : List Int) (seq_length ngram_len : Nat) : Option Int := do
  let search_windows ← slidingWindows token_ids ngram_len
  let suffix_start : Int := seq_length - ngram_len
  let suffix_indices := (List.range ngram_len).map fun j : Nat => max (suffix_start + j) 0
  let suffix ← gather token_ids suffix_indices
  -- A match leaves room for at least one draft token.
  let max_valid_suffix_start : Int := seq_length - ngram_len - 1
  let final_matches := search_windows.zipIdx.map fun window =>
    decide (window.1 = suffix) && decide ((window.2 : Int) ≤ max_valid_suffix_start)
  let first_match_idx := argmax (final_matches.map Bool.toNat)
  let has_match ← final_matches[first_match_idx]?
  return if has_match then (first_match_idx : Int) else -1

/-- One row of `_find_first_and_extract_all_n_parallel`. -/
def findFirstAndExtractAllN (token_ids : List Int)
    (seq_length min_ngram_len max_ngram_len num_draft_tokens : Nat) : Option (List Int) := do
  let num_ngram_sizes := max_ngram_len + 1 - min_ngram_len
  let ngram_lengths := List.range' min_ngram_len num_ngram_sizes
  let first_match_positions ← ngram_lengths.mapM (firstMatchPosition token_ids seq_length)
  let found := first_match_positions.map fun position => decide (0 ≤ position)
  let best_ngram_idx := num_ngram_sizes - 1 - argmax (found.reverse.map Bool.toNat)
  let best_match_pos ← first_match_positions[best_ngram_idx]?
  let has_any_match := decide (0 ≤ best_match_pos)
  let best_ngram_length ← ngram_lengths[best_ngram_idx]?
  let draft_start : Int := if has_any_match then best_match_pos + best_ngram_length else 0
  let tokens_available := seq_length - draft_start
  let draft_indices := (List.range num_draft_tokens).map fun j : Nat =>
    min (max (draft_start + j) 0) (token_ids.length - 1)
  let draft_tokens ← gather token_ids draft_indices
  let draft_tokens := draft_tokens.zipIdx.map fun draft =>
    if (draft.2 : Int) < tokens_available then draft.1 else -1
  return draft_tokens.map fun token => if has_any_match then token else -1

structure NgramGPUKernel where
  min_n : Nat
  max_n : Nat
  k : Nat

/-- One row of the batch: the padded tokens and the length without the padding. -/
structure NgramRow where
  token_ids : List Int
  num_tokens_no_spec : Nat
  combined_mask : Bool

/-- The count of leading valid tokens, by a comparison of the running sum with the position. -/
def numValidDraftTokens (draft_tokens : List Int) : Nat :=
  (List.range draft_tokens.length).countP fun position =>
    (draft_tokens.take (position + 1)).countP (fun token => decide (token ≠ -1)) = position + 1

def NgramGPUKernel.draftRow (kernel : NgramGPUKernel) (row : NgramRow) :
    Option (List Int × Nat) := do
  let results ← findFirstAndExtractAllN row.token_ids row.num_tokens_no_spec kernel.min_n
    kernel.max_n kernel.k
  let draft_tokens := results.map fun token => if row.combined_mask then token else -1
  return (draft_tokens, numValidDraftTokens draft_tokens)

/-- The draft tokens of each request and the count of its leading valid tokens. -/
def NgramGPUKernel.forward (kernel : NgramGPUKernel) (batch : List NgramRow) :
    Option (List (List Int × Nat)) :=
  batch.mapM kernel.draftRow

/-! ## Operations on rows -/

/-- On flags, the first true one, if there is one. -/
theorem argmax_flags {flags : List Bool} (nonempty : flags ≠ []) :
    ∃ flag, flags[argmax (flags.map Bool.toNat)]? = some flag ∧
      (flag = true → ∀ j < argmax (flags.map Bool.toNat), flags[j]? = some false) ∧
      (flag = false → ∀ other ∈ flags, other = false) := by
  have mapped : flags.map Bool.toNat ≠ [] := fun empty => nonempty (List.map_eq_nil_iff.mp empty)
  have inside := firstMaximum_lt mapped
  have short := inside
  rw [List.length_map] at short
  have read : (flags.map Bool.toNat)[firstMaximum (flags.map Bool.toNat)] =
      flags[firstMaximum (flags.map Bool.toNat)].toNat := List.getElem_map _
  refine ⟨_, List.getElem?_eq_getElem short, ?_, ?_⟩
  · intro _ j before
    have front : j < flags.length := Nat.lt_trans before short
    rcases exists_lt_of_lt_firstMaximum before (by rwa [List.length_map]) with
      ⟨other, member, less⟩
    rcases List.mem_map.mp member with ⟨flag, _, rfl⟩
    rw [List.getElem_map] at less
    rw [List.getElem?_eq_getElem front]
    cases here : flags[j] with
    | false => rfl
    | true =>
        rw [here] at less
        exact absurd less (Nat.not_lt.mpr (Bool.toNat_le flag))
  · intro unset other member
    have below := le_firstMaximum inside (List.mem_map_of_mem member)
    rw [read, unset] at below
    cases other with
    | false => rfl
    | true => exact absurd below (by decide)

variable {row : List Int}

/-- Indices inside of the row are read. -/
theorem gather_eq {indices : List Nat} (inside : ∀ index ∈ indices, index < row.length) :
    gather row (indices.map fun index : Nat => (index : Int)) =
      some (indices.map fun index => row.getD index 0) := by
  induction indices with
  | nil => rfl
  | cons index indices inductionHypothesis =>
      have rest := inductionHypothesis fun other member =>
        inside other (List.mem_cons_of_mem _ member)
      have here := inside index List.mem_cons_self
      simp only [gather, List.map_cons, List.mapM_cons] at rest ⊢
      rw [rest]
      simp [here]

theorem slidingWindows_eq {size : Nat} (fits : size ≤ row.length) :
    slidingWindows row size =
      some ((List.range (row.length - size + 1)).map fun start => (row.drop start).take size) :=
  if_pos fits

end Vllm.SpecDecode
