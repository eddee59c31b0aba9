import Vllm.Library.ExponentialRace
import Vllm.Library.UniformDraws
import Vllm.Sample.RejectionSampler

/-!
# The law of rejection sampling

A row of drafts is drawn from the draft distributions, the uniform variates and the exponential
clocks are drawn independently, and the kernels emit a row of tokens.  Every emitted token has the
target distribution of its position, given the tokens before it.
-/

namespace Vllm.Sample

open MeasureTheory Vllm.Library
open scoped ENNReal

/-- A probability distribution over a vocabulary. -/
structure Distribution (V : Nat) where
  prob : Fin (V + 1) → ℝ
  nonneg : ∀ token, 0 ≤ prob token
  total : ∑ token, prob token = 1

/-- What the models say behind accepted tokens.  Where no draft probabilities are passed on, a draft
is proposed with certainty. -/
structure Speculation (V : Nat) where
  target : List (Fin (V + 1)) → Distribution V
  draft : List (Fin (V + 1)) → Distribution V
  noDraftProbs : Bool
  certain : noDraftProbs = true → ∀ before token,
    (draft before).prob token = 0 ∨ (draft before).prob token = 1

variable {V : Nat}

namespace Speculation

variable (spec : Speculation V)

/-- The probability of a token id. -/
def probOf (distribution : Distribution V) (token : Nat) : ℝ :=
  if inside : token < V + 1 then distribution.prob ⟨token, inside⟩ else 0

section Tensors

variable (start : Nat) (drafts : List (Fin (V + 1)))

/-- The drafts of a row, in the tensor of all drafts. -/
def draftTokenIds (tokenIdx : Nat) : Int :=
  (drafts[tokenIdx - start]?.map fun token => (token.val : Int)).getD (-1)

/-- The target probabilities of a row: each position is computed behind the drafts before it. -/
noncomputable def targetProbs (tokenIdx v : Nat) : ℝ :=
  probOf (spec.target (drafts.take (tokenIdx - start))) v

noncomputable def draftProbs : Option (Nat → Nat → ℝ) :=
  if spec.noDraftProbs then none
  else some fun tokenIdx v => probOf (spec.draft (drafts.take (tokenIdx - start))) v

/-- `1 / q` for the exponential variates of a request. -/
noncomputable def invQ (clock : Fin (V + 1) → ℝ) (_reqIdx v : Nat) : ℝ :=
  if inside : v < V + 1 then (clock ⟨v, inside⟩)⁻¹ else 0

/-- The uniform variates of a row. -/
noncomputable def uniformProbs (variates : Fin drafts.length → ℝ) (tokenIdx : Nat) : ℝ :=
  if inside : tokenIdx - start < drafts.length then variates ⟨tokenIdx - start, inside⟩ else 0

/-- The row that the kernels emit for drafts, variates, clocks and a bonus token. -/
noncomputable def emitted (cuNumDraftTokens : Nat → Nat) (blockSize reqIdx : Nat)
    (variates : Fin drafts.length → ℝ) (clock : Fin (V + 1) → ℝ) (bonus : Fin (V + 1)) :
    List Int :=
  let start := startIdx cuNumDraftTokens reqIdx
  let recovered := fun tokenIdx => (sampleRecoveredTokens cuNumDraftTokens
    (draftTokenIds start drafts) (spec.draftProbs start drafts) (spec.targetProbs start drafts)
    (invQ clock) (V + 1) blockSize reqIdx (tokenIdx - start) : Int)
  rejectionRandomSample cuNumDraftTokens (draftTokenIds start drafts) (spec.draftProbs start drafts)
    (spec.targetProbs start drafts) (fun _ => (bonus.val : Int)) recovered
    (uniformProbs start drafts variates) (fun _ => false) none reqIdx

end Tensors

/-- The mean over drafts that are drawn one after the other, each behind those before it. -/
noncomputable def expectDrafts : Nat → List (Fin (V + 1)) → (List (Fin (V + 1)) → ℝ≥0∞) → ℝ≥0∞
  | 0, _, value => value []
  | count + 1, before, value =>
      ∑ token, ENNReal.ofReal ((spec.draft before).prob token) *
        expectDrafts count (before ++ [token]) fun drafts => value (token :: drafts)

/-- The first drafts of a row are accepted and are the given ones. -/
def AcceptedDrafts (start : Nat) (first drafts : List (Fin (V + 1)))
    (variates : Fin drafts.length → ℝ) : Prop :=
  drafts.take first.length = first ∧ ∀ pos < first.length,
    accepted (draftTokenIds start drafts) (spec.draftProbs start drafts)
      (spec.targetProbs start drafts) (uniformProbs start drafts variates) none (start + pos) pos

/-- An event of the drafts, their variates and the emitted row. -/
abbrev RowEvent (V : Nat) :=
  (drafts : List (Fin (V + 1))) → (Fin drafts.length → ℝ) → List Int → Prop

/-- The probability of an event, for given drafts: the bonus token is drawn from the target
distribution behind them, and the variates and clocks are independent. -/
noncomputable def rowProbability (cuNumDraftTokens : Nat → Nat) (blockSize reqIdx : Nat)
    (event : RowEvent V) (drafts : List (Fin (V + 1))) : ℝ≥0∞ :=
  ∑ bonus, ENNReal.ofReal ((spec.target drafts).prob bonus) *
    (uniforms drafts.length).prod (clocks (V + 1))
      {draw | event drafts draw.1
        (spec.emitted drafts cuNumDraftTokens blockSize reqIdx draw.1 draw.2 bonus)}

/-- The probability of an event of a request's row. -/
noncomputable def probability (cuNumDraftTokens : Nat → Nat) (blockSize reqIdx : Nat)
    (event : RowEvent V) : ℝ≥0∞ :=
  spec.expectDrafts (cuNumDraftTokens reqIdx - startIdx cuNumDraftTokens reqIdx) []
    (spec.rowProbability cuNumDraftTokens blockSize reqIdx event)

section Emit

/-- The token that replaces a draft. -/
noncomputable def recover (blockSize : Nat) (before : List (Fin (V + 1))) (draft : Fin (V + 1))
    (clock : Fin (V + 1) → ℝ) : Fin (V + 1) :=
  ⟨sampleRecoveredTokens (fun _ => 0) (fun _ => draft.val)
      (if spec.noDraftProbs then none else some fun _ => probOf (spec.draft before))
      (fun _ => probOf (spec.target before)) (invQ clock) (V + 1) blockSize 0 0,
    sampleRecoveredTokens_lt (Nat.succ_pos V)⟩

/-- The test of a draft. -/
noncomputable def accepts (before : List (Fin (V + 1))) (draft : Fin (V + 1)) (variate : ℝ) :
    Bool :=
  let draftProb := if spec.noDraftProbs then 1 else (spec.draft before).prob draft
  0 < draftProb && (spec.target before).prob draft / draftProb ≥ variate

/-- The emitted tokens, one draft after the other. -/
noncomputable def emit (blockSize : Nat) : List (Fin (V + 1)) → (drafts : List (Fin (V + 1))) →
    (Fin drafts.length → ℝ) → (Fin (V + 1) → ℝ) → Fin (V + 1) → List (Fin (V + 1))
  | _, [], _, _, bonus => [bonus]
  | before, draft :: rest, variates, clock, bonus =>
      if spec.accepts before draft (variates 0) then
        draft :: emit blockSize (before ++ [draft]) rest (Fin.tail variates) clock bonus
      else [spec.recover blockSize before draft clock]

variable {spec} {start blockSize reqIdx : Nat} {before rest : List (Fin (V + 1))}
  {draft : Fin (V + 1)} {clock : Fin (V + 1) → ℝ} {bonus : Fin (V + 1)}
  {cuNumDraftTokens : Nat → Nat}

theorem probOf_val (distribution : Distribution V) (token : Fin (V + 1)) :
    probOf distribution token.val = distribution.prob token := by
  rw [probOf, dif_pos token.isLt]

theorem draftTokenIds_here (before rest : List (Fin (V + 1))) (draft : Fin (V + 1)) :
    draftTokenIds start (before ++ draft :: rest) (start + before.length) = draft.val := by
  rw [draftTokenIds, Nat.add_sub_cancel_left, List.getElem?_append_right le_rfl]
  simp

theorem take_here (before rest : List (Fin (V + 1))) (draft : Fin (V + 1)) :
    (before ++ draft :: rest).take (start + before.length - start) = before := by
  rw [Nat.add_sub_cancel_left, List.take_left]

theorem accepted_eq (uniformProbs : Nat → ℝ) (pos : Nat) :
    accepted (draftTokenIds start (before ++ draft :: rest))
        (spec.draftProbs start (before ++ draft :: rest))
        (spec.targetProbs start (before ++ draft :: rest)) uniformProbs none
        (start + before.length) pos =
      spec.accepts before draft (uniformProbs (start + before.length)) := by
  have real : ¬ ((draft.val : Int) < 0) := by omega
  unfold accepted accepts
  simp only [draftTokenIds_here, if_neg real, targetProbs, take_here, Int.toNat_natCast, probOf_val,
    draftProbs]
  cases spec.noDraftProbs with
  | true => rfl
  | false => simp only [Bool.false_eq_true, if_false, take_here, probOf_val]

theorem recovered_eq :
    sampleRecoveredTokens cuNumDraftTokens
        (draftTokenIds (startIdx cuNumDraftTokens reqIdx) (before ++ draft :: rest))
        (spec.draftProbs (startIdx cuNumDraftTokens reqIdx) (before ++ draft :: rest))
        (spec.targetProbs (startIdx cuNumDraftTokens reqIdx) (before ++ draft :: rest))
        (invQ clock) (V + 1) blockSize reqIdx before.length =
      (spec.recover blockSize before draft clock).val := by
  have same : ∀ v, tileScore
      (draftTokenIds (startIdx cuNumDraftTokens reqIdx) (before ++ draft :: rest))
      (spec.draftProbs (startIdx cuNumDraftTokens reqIdx) (before ++ draft :: rest))
      (spec.targetProbs (startIdx cuNumDraftTokens reqIdx) (before ++ draft :: rest))
      (invQ clock) (V + 1) reqIdx (startIdx cuNumDraftTokens reqIdx + before.length) v =
        tileScore (fun _ => (draft.val : Int))
          (if spec.noDraftProbs then none else some fun _ => probOf (spec.draft before))
          (fun _ => probOf (spec.target before)) (invQ clock) (V + 1) 0 0 v := by
    intro v
    unfold tileScore recoveredProb
    simp only [draftProbs]
    cases spec.noDraftProbs with
    | true => simp only [if_true, draftTokenIds_here, targetProbs, take_here]; rfl
    | false => simp only [Bool.false_eq_true, if_false, targetProbs, take_here]; rfl
  unfold recover sampleRecoveredTokens maxScore
  simp only [same]
  rfl

variable {variates : Fin (rest.length + 1) → ℝ}

theorem emit_accept (passed : spec.accepts before draft (variates 0)) :
    spec.emit blockSize before (draft :: rest) variates clock bonus =
      draft :: spec.emit blockSize (before ++ [draft]) rest (Fin.tail variates) clock bonus :=
  if_pos passed

theorem emit_reject (failed : ¬ spec.accepts before draft (variates 0)) :
    spec.emit blockSize before (draft :: rest) variates clock bonus =
      [spec.recover blockSize before draft clock] :=
  if_neg failed

theorem emit_length_pos (drafts : List (Fin (V + 1))) (variates : Fin drafts.length → ℝ) :
    0 < (spec.emit blockSize before drafts variates clock bonus).length := by
  cases drafts with
  | nil => exact Nat.succ_pos 0
  | cons draft rest =>
      by_cases passed : spec.accepts before draft (variates 0)
      · rw [emit_accept passed]
        exact Nat.succ_pos _
      · rw [emit_reject passed]
        exact Nat.succ_pos 0

/-- The kernels emit the drafts up to the first that is rejected, one after the other. -/
theorem storeTokens_eq (uniformProbs : Nat → ℝ) (before drafts : List (Fin (V + 1))) :
    storeTokens cuNumDraftTokens
        (draftTokenIds (startIdx cuNumDraftTokens reqIdx) (before ++ drafts))
        (spec.draftProbs (startIdx cuNumDraftTokens reqIdx) (before ++ drafts))
        (spec.targetProbs (startIdx cuNumDraftTokens reqIdx) (before ++ drafts))
        (fun _ => (bonus.val : Int))
        (fun tokenIdx => (sampleRecoveredTokens cuNumDraftTokens
          (draftTokenIds (startIdx cuNumDraftTokens reqIdx) (before ++ drafts))
          (spec.draftProbs (startIdx cuNumDraftTokens reqIdx) (before ++ drafts))
          (spec.targetProbs (startIdx cuNumDraftTokens reqIdx) (before ++ drafts))
          (invQ clock) (V + 1) blockSize reqIdx
          (tokenIdx - startIdx cuNumDraftTokens reqIdx) : Int))
        uniformProbs none reqIdx drafts.length before.length =
      (spec.emit blockSize before drafts
        (fun i => uniformProbs (startIdx cuNumDraftTokens reqIdx + before.length + i)) clock
        bonus).map fun token => (token.val : Int) := by
  induction drafts generalizing before with
  | nil => rfl
  | cons draft rest inductionHypothesis =>
      change storeTokens _ _ _ _ _ _ _ _ _ (rest.length + 1) _ = _
      rw [storeTokens, accepted_eq, draftTokenIds_here, Nat.add_sub_cancel_left, recovered_eq]
      by_cases passed : spec.accepts before draft
          (uniformProbs (startIdx cuNumDraftTokens reqIdx + before.length))
      · have step := inductionHypothesis (before ++ [draft])
        simp only [List.append_assoc, List.singleton_append, List.length_append,
          List.length_singleton] at step
        rw [if_pos passed, emit_accept passed, step, List.map_cons]
        congr 3
        funext i
        simp only [Fin.tail, Fin.val_succ]
        congr 1
        omega
      · rw [if_neg passed, emit_reject passed]
        rfl

section Row

variable {drafts : List (Fin (V + 1))}
  (count : cuNumDraftTokens reqIdx - startIdx cuNumDraftTokens reqIdx = drafts.length)
  (variates : Fin drafts.length → ℝ)

include count

theorem emitted_eq :
    spec.emitted drafts cuNumDraftTokens blockSize reqIdx variates clock bonus =
      (spec.emit blockSize [] drafts variates clock bonus).map fun token => (token.val : Int) := by
  unfold emitted rejectionRandomSample
  rw [if_neg Bool.false_ne_true, count]
  apply (storeTokens_eq (uniformProbs (startIdx cuNumDraftTokens reqIdx) drafts variates) []
    drafts).trans
  congr 2
  funext i
  have place : startIdx cuNumDraftTokens reqIdx + ([] : List (Fin (V + 1))).length + i.val -
      startIdx cuNumDraftTokens reqIdx = i.val := by
    rw [List.length_nil]
    omega
  simp only [uniformProbs, place, Fin.isLt, dif_pos]

theorem lt_length_emit {stored : Nat} :
    stored < (spec.emit blockSize [] drafts variates clock bonus).length ↔
      stored ≤ drafts.length ∧ ∀ pos < stored,
        accepted (draftTokenIds (startIdx cuNumDraftTokens reqIdx) drafts)
          (spec.draftProbs (startIdx cuNumDraftTokens reqIdx) drafts)
          (spec.targetProbs (startIdx cuNumDraftTokens reqIdx) drafts)
          (uniformProbs (startIdx cuNumDraftTokens reqIdx) drafts variates) none
          (startIdx cuNumDraftTokens reqIdx + pos) pos := by
  have row : spec.emitted drafts cuNumDraftTokens blockSize reqIdx variates clock bonus = _ :=
    emitted_eq count variates
  unfold emitted rejectionRandomSample at row
  rw [if_neg Bool.false_ne_true, count] at row
  rw [← List.length_map (fun token : Fin (V + 1) => (token.val : Int)), ← row,
    lt_length_storeTokens]
  simp only [Nat.zero_add]

omit count in
/-- All but the last emitted token are drafts. -/
theorem emit_getElem? {i : Nat} {variates : Fin drafts.length → ℝ}
    (earlier : i + 1 < (spec.emit blockSize before drafts variates clock bonus).length) :
    (spec.emit blockSize before drafts variates clock bonus)[i]? = drafts[i]? := by
  induction drafts generalizing before i with
  | nil => exact absurd earlier (Nat.not_lt.mpr (Nat.succ_le_succ (Nat.zero_le i)))
  | cons draft rest inductionHypothesis =>
      by_cases passed : spec.accepts before draft (variates 0)
      · rw [emit_accept passed] at earlier ⊢
        cases i with
        | zero => rfl
        | succ i => exact inductionHypothesis (Nat.lt_of_succ_lt_succ earlier)
      · rw [emit_reject passed] at earlier
        exact absurd earlier (Nat.not_lt.mpr (Nat.succ_le_succ (Nat.zero_le i)))

/-- The first drafts are accepted where the row begins with them and goes on. -/
theorem acceptedDrafts_iff {first : List (Fin (V + 1))} :
    spec.AcceptedDrafts (startIdx cuNumDraftTokens reqIdx) first drafts variates ↔
      first <+: spec.emit blockSize [] drafts variates clock bonus ∧
        first.length < (spec.emit blockSize [] drafts variates clock bonus).length := by
  have begins : first.length < (spec.emit blockSize [] drafts variates clock bonus).length →
      (spec.emit blockSize [] drafts variates clock bonus).take first.length =
        drafts.take first.length := by
    intro longer
    apply List.ext_getElem?
    intro i
    rcases Nat.lt_or_ge i first.length with inside | outside
    · rw [List.getElem?_take_of_lt inside, List.getElem?_take_of_lt inside]
      exact emit_getElem? (Nat.lt_of_le_of_lt inside longer)
    · rw [List.getElem?_take_eq_none outside, List.getElem?_take_eq_none outside]
  rw [List.prefix_iff_eq_take]
  constructor
  · rintro ⟨given, all⟩
    have fits : first.length ≤ drafts.length := by
      rw [← given, List.length_take]
      omega
    have longer : first.length <
        (spec.emit blockSize [] drafts variates clock bonus).length :=
      (lt_length_emit count variates).mpr ⟨fits, all⟩
    rw [begins longer]
    exact ⟨given.symm, longer⟩
  · rintro ⟨given, longer⟩
    rw [begins longer] at given
    exact ⟨given.symm, ((lt_length_emit count variates).mp longer).2⟩

end Row

end Emit

end Speculation

end Vllm.Sample
