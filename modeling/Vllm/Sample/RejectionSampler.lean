import Mathlib.Algebra.Order.Field.Basic
import Mathlib.Order.WithBot
import Vllm.Core.Error

/-!
# Rejection sampling

The kernels of `v1/sample/rejection_sampler.py` that accept drafts at random and sample the tokens
that replace them, over any ordered field.  Tensors are functions of their indices; the rows of the
requests follow one another in those of the drafts.
-/

namespace Vllm.Sample

open Vllm.Core

universe u

variable {𝕜 : Type u} [Field 𝕜] [LinearOrder 𝕜]

/-- The first index of a request's drafts. -/
def startIdx (cuNumDraftTokens : Nat → Nat) (reqIdx : Nat) : Nat :=
  if reqIdx = 0 then 0 else cuNumDraftTokens (reqIdx - 1)

section Recovered

variable (cuNumDraftTokens : Nat → Nat) (draftTokenIds : Nat → Int)
  (draftProbs : Option (Nat → Nat → 𝕜)) (targetProbs : Nat → Nat → 𝕜) (invQ : Nat → Nat → 𝕜)
  (vocabSize blockSize : Nat)

/-- The weight of a token in place of a draft: the target probability of any other token where
there are no draft probabilities, else what the target probability has above the draft's. -/
def recoveredProb (tokenIdx v : Nat) : 𝕜 :=
  match draftProbs with
  | none => if (v : Int) ≠ draftTokenIds tokenIdx then targetProbs tokenIdx v else 0
  | some probs => max (targetProbs tokenIdx v - probs tokenIdx v) 0

/-- `tl.max` of a tile with the first index of the maximum. -/
def tileMax (scores : Nat → WithBot 𝕜) : Nat → WithBot 𝕜 × Nat
  | 0 => (⊥, 0)
  | size + 1 =>
      let best := tileMax scores size
      if best.1 < scores size then (scores size, size) else best

/-- The scores of a tile, masked behind the vocabulary. -/
def tileScore (reqIdx tokenIdx v : Nat) : WithBot 𝕜 :=
  if v < vocabSize then
    ((recoveredProb draftTokenIds draftProbs targetProbs tokenIdx v * invQ reqIdx v : 𝕜) :
      WithBot 𝕜)
  else ⊥

/-- The loop of `sample_recovered_tokens_kernel` over the tiles of the vocabulary. -/
def maxScore (reqIdx tokenIdx : Nat) : WithBot 𝕜 × Nat :=
  (List.range (cdiv vocabSize blockSize)).foldl
    (fun best tile =>
      let v := tile * blockSize
      let local_ := tileMax (fun offset => tileScore draftTokenIds draftProbs targetProbs invQ
        vocabSize reqIdx tokenIdx (v + offset)) blockSize
      if best.1 < local_.1 then (local_.1, v + local_.2) else best)
    (⊥, 0)

/-- `sample_recovered_tokens_kernel` of a request and a position of its drafts. -/
def sampleRecoveredTokens (reqIdx pos : Nat) : Nat :=
  min (maxScore draftTokenIds draftProbs targetProbs invQ vocabSize blockSize reqIdx
    (startIdx cuNumDraftTokens reqIdx + pos)).2 (vocabSize - 1)

end Recovered

section Accept

variable (cuNumDraftTokens : Nat → Nat) (draftTokenIds : Nat → Int)
  (draftProbs : Option (Nat → Nat → 𝕜)) (targetProbs : Nat → Nat → 𝕜)
  (bonusTokenIds recoveredTokenIds : Nat → Int) (uniformProbs : Nat → 𝕜) (isGreedy : Nat → Bool)
  (syntheticConditionalRates : Option (Nat → 𝕜))

/-- The acceptance test of `rejection_random_sample_kernel`. -/
def accepted (tokenIdx pos : Nat) : Bool :=
  let draftTokenId := draftTokenIds tokenIdx
  let uniformProb := uniformProbs tokenIdx
  if draftTokenId < 0 then false
  else
    match syntheticConditionalRates with
    | some rates => uniformProb < rates pos
    | none =>
        let draftProb := match draftProbs with
          | none => 1
          | some probs => probs tokenIdx draftTokenId.toNat
        0 < draftProb && targetProbs tokenIdx draftTokenId.toNat / draftProb ≥ uniformProb

/-- The loop over the drafts of a request: the tokens it stores, from a position on. -/
def storeTokens (reqIdx : Nat) : Nat → Nat → List Int
  | 0, _ => [bonusTokenIds reqIdx]
  | count + 1, pos =>
      let tokenIdx := startIdx cuNumDraftTokens reqIdx + pos
      if accepted draftTokenIds draftProbs targetProbs uniformProbs syntheticConditionalRates
          tokenIdx pos then
        draftTokenIds tokenIdx :: storeTokens reqIdx count (pos + 1)
      else [recoveredTokenIds tokenIdx]

/-- `rejection_random_sample_kernel` of a request.  It stores nothing for a greedy one. -/
def rejectionRandomSample (reqIdx : Nat) : List Int :=
  if isGreedy reqIdx then []
  else
    storeTokens cuNumDraftTokens draftTokenIds draftProbs targetProbs bonusTokenIds
      recoveredTokenIds uniformProbs syntheticConditionalRates reqIdx
      (cuNumDraftTokens reqIdx - startIdx cuNumDraftTokens reqIdx) 0

end Accept

section Stored

variable {cuNumDraftTokens : Nat → Nat} {draftTokenIds : Nat → Int}
  {draftProbs : Option (Nat → Nat → 𝕜)} {targetProbs : Nat → Nat → 𝕜}
  {bonusTokenIds recoveredTokenIds : Nat → Int} {uniformProbs : Nat → 𝕜}
  {syntheticConditionalRates : Option (Nat → 𝕜)} {reqIdx : Nat}

/-- A request stores more tokens than a number of its drafts where all of these are accepted. -/
theorem lt_length_storeTokens {stored count pos : Nat} :
    stored < (storeTokens cuNumDraftTokens draftTokenIds draftProbs targetProbs bonusTokenIds
        recoveredTokenIds uniformProbs syntheticConditionalRates reqIdx count pos).length ↔
      stored ≤ count ∧ ∀ i < stored, accepted draftTokenIds draftProbs targetProbs uniformProbs
        syntheticConditionalRates (startIdx cuNumDraftTokens reqIdx + (pos + i)) (pos + i) := by
  induction count generalizing stored pos with
  | zero =>
      rw [storeTokens, List.length_singleton]
      constructor
      · intro none
        have nothing : stored = 0 := by omega
        subst nothing
        exact ⟨Nat.le_refl 0, fun i below => absurd below (Nat.not_lt_zero i)⟩
      · rintro ⟨most, _⟩
        exact Nat.lt_succ_of_le most
  | succ count inductionHypothesis =>
      rw [storeTokens]
      cases stored with
      | zero =>
          constructor
          · intro _
            exact ⟨Nat.zero_le _, fun i below => absurd below (Nat.not_lt_zero i)⟩
          · intro _
            split <;> exact Nat.succ_pos _
      | succ stored =>
          split
          · rename_i passed
            rw [List.length_cons, Nat.succ_lt_succ_iff, inductionHypothesis, Nat.succ_le_succ_iff]
            apply and_congr_right
            intro _
            constructor
            · rintro later (_ | i) below
              · exact passed
              · have next := later i (Nat.lt_of_succ_lt_succ below)
                rwa [Nat.add_assoc pos 1 i, Nat.add_comm 1 i] at next
            · intro all i below
              have next := all (i + 1) (Nat.succ_lt_succ below)
              rwa [← Nat.add_comm 1 i, ← Nat.add_assoc pos 1 i] at next
          · rename_i failed
            constructor
            · intro more
              exact absurd more (Nat.not_lt.mpr (Nat.succ_le_succ (Nat.zero_le stored)))
            · rintro ⟨_, all⟩
              exact absurd (all 0 (Nat.succ_pos stored)) failed

end Stored

section Largest

variable {scores : Nat → WithBot 𝕜} {bound : WithBot 𝕜}

variable {size pos : Nat} {cuNumDraftTokens : Nat → Nat}

theorem tileMax_lt (above : ⊥ < bound) (below : ∀ i < size, scores i < bound) :
    (tileMax scores size).1 < bound := by
  induction size with
  | zero => exact above
  | succ size inductionHypothesis =>
      rw [tileMax]
      split
      · exact below size (Nat.lt_succ_self _)
      · exact inductionHypothesis fun i inside => below i (Nat.lt_succ_of_lt inside)

/-- The one largest score of a tile is found. -/
theorem tileMax_eq {i : Nat} (inside : i < size) (above : ⊥ < scores i)
    (largest : ∀ j < size, j ≠ i → scores j < scores i) : tileMax scores size = (scores i, i) := by
  induction size with
  | zero => exact absurd inside (Nat.not_lt_zero _)
  | succ size inductionHypothesis =>
      rw [tileMax]
      rcases Nat.lt_succ_iff_lt_or_eq.mp inside with earlier | rfl
      · rw [inductionHypothesis earlier fun j below => largest j (Nat.lt_succ_of_lt below)]
        have last := largest size (Nat.lt_succ_self _) earlier.ne'
        rw [if_neg (not_lt.mpr last.le)]
      · have before : (tileMax scores i).1 < scores i :=
          tileMax_lt above fun j below => largest j (Nat.lt_succ_of_lt below) below.ne
        rw [if_pos before]

variable {draftTokenIds : Nat → Int} {draftProbs : Option (Nat → Nat → 𝕜)}
  {targetProbs invQ : Nat → Nat → 𝕜} {vocabSize blockSize reqIdx tokenIdx v : Nat}

/-- The tiles before an index hold no larger score, and the tiles behind it leave it the best. -/
theorem foldl_tileMax {score : Nat → WithBot 𝕜} (tiled : 0 < blockSize) (above : ⊥ < score v)
    (largest : ∀ w, w ≠ v → score w < score v) (tiles : Nat) :
    let best := (List.range tiles).foldl
      (fun best tile =>
        if best.1 < (tileMax (fun offset => score (tile * blockSize + offset)) blockSize).1 then
          ((tileMax (fun offset => score (tile * blockSize + offset)) blockSize).1,
            tile * blockSize +
              (tileMax (fun offset => score (tile * blockSize + offset)) blockSize).2)
        else best) ((⊥ : WithBot 𝕜), 0)
    if v < tiles * blockSize then best = (score v, v) else best.1 < score v := by
  induction tiles with
  | zero => simpa using above
  | succ tiles inductionHypothesis =>
      rw [List.range_succ, List.foldl_append]
      dsimp only [List.foldl_cons, List.foldl_nil] at inductionHypothesis ⊢
      generalize (List.range tiles).foldl _ _ = best at inductionHypothesis ⊢
      have next : (tiles + 1) * blockSize = tiles * blockSize + blockSize := Nat.succ_mul ..
      rcases Nat.lt_or_ge v (tiles * blockSize) with before | from_
      · rw [if_pos before] at inductionHypothesis
        have small : (tileMax (fun offset => score (tiles * blockSize + offset)) blockSize).1 <
            score v := tileMax_lt above fun i _ => largest _ (by omega)
        rw [if_pos (by omega), inductionHypothesis, if_neg (not_lt.mpr small.le)]
      · rw [if_neg (Nat.not_lt.mpr from_)] at inductionHypothesis
        rcases Nat.lt_or_ge v ((tiles + 1) * blockSize) with here | behind
        · have place : tiles * blockSize + (v - tiles * blockSize) = v := by omega
          have found : tileMax (fun offset => score (tiles * blockSize + offset)) blockSize =
              (score v, v - tiles * blockSize) := by
            have tile : tileMax (fun offset => score (tiles * blockSize + offset)) blockSize =
                (score (tiles * blockSize + (v - tiles * blockSize)), v - tiles * blockSize) := by
              apply tileMax_eq
              · omega
              · rwa [place]
              · intro j _ different
                rw [place]
                exact largest _ (by omega)
            rwa [place] at tile
          rw [if_pos here, found, if_pos inductionHypothesis, place]
        · have small : (tileMax (fun offset => score (tiles * blockSize + offset)) blockSize).1 <
              score v := tileMax_lt above fun i inside => largest _ (by omega)
          rw [if_neg (Nat.not_lt.mpr behind)]
          split
          · exact small
          · exact inductionHypothesis

/-- The one largest score of the vocabulary is found, tile by tile. -/
theorem maxScore_eq (tiled : 0 < blockSize) (inside : v < vocabSize)
    (largest : ∀ w < vocabSize, w ≠ v →
      recoveredProb draftTokenIds draftProbs targetProbs tokenIdx w * invQ reqIdx w <
        recoveredProb draftTokenIds draftProbs targetProbs tokenIdx v * invQ reqIdx v) :
    (maxScore draftTokenIds draftProbs targetProbs invQ vocabSize blockSize reqIdx tokenIdx).2 =
      v := by
  have score : tileScore draftTokenIds draftProbs targetProbs invQ vocabSize reqIdx tokenIdx v =
      ((recoveredProb draftTokenIds draftProbs targetProbs tokenIdx v * invQ reqIdx v : 𝕜) :
        WithBot 𝕜) := if_pos inside
  have above : ⊥ <
      tileScore draftTokenIds draftProbs targetProbs invQ vocabSize reqIdx tokenIdx v := by
    rw [score]
    exact WithBot.bot_lt_coe _
  have best := foldl_tileMax tiled above (fun w different => by
    by_cases listed : w < vocabSize
    · rw [score, tileScore, if_pos listed]
      exact WithBot.coe_lt_coe.mpr (largest w listed different)
    · rw [tileScore, if_neg listed]
      exact above) (cdiv vocabSize blockSize)
  have covered : v < cdiv vocabSize blockSize * blockSize :=
    inside.trans_le (le_cdiv_mul tiled vocabSize)
  rw [if_pos covered] at best
  exact congrArg Prod.snd best

/-- The kernel picks the token with the one largest score. -/
theorem sampleRecoveredTokens_eq (tiled : 0 < blockSize) (inside : v < vocabSize)
    (largest : ∀ w < vocabSize, w ≠ v →
      recoveredProb draftTokenIds draftProbs targetProbs
          (startIdx cuNumDraftTokens reqIdx + pos) w * invQ reqIdx w <
        recoveredProb draftTokenIds draftProbs targetProbs
          (startIdx cuNumDraftTokens reqIdx + pos) v * invQ reqIdx v) :
    sampleRecoveredTokens cuNumDraftTokens draftTokenIds draftProbs targetProbs invQ vocabSize
      blockSize reqIdx pos = v := by
  rw [sampleRecoveredTokens, maxScore_eq tiled inside largest]
  omega

theorem sampleRecoveredTokens_lt (some : 0 < vocabSize) :
    sampleRecoveredTokens cuNumDraftTokens draftTokenIds draftProbs targetProbs invQ vocabSize
      blockSize reqIdx pos < vocabSize := by
  rw [sampleRecoveredTokens]
  omega

end Largest

end Vllm.Sample
