import Vllm.Sample.SpeculationLaw

/-!
# Rejection sampling is unbiased

Accepting a draft and replacing a rejected one together give every token its target probability.
This holds at each position, so it holds along the rows.
-/

namespace Vllm.Sample

open MeasureTheory Vllm.Library
open scoped ENNReal

variable {V : Nat}

namespace Distribution

variable (distribution : Distribution V)

theorem prob_le_one (token : Fin (V + 1)) : distribution.prob token ≤ 1 := by
  rw [← distribution.total]
  exact Finset.single_le_sum (fun other _ => distribution.nonneg other) (Finset.mem_univ token)

/-- A certain token leaves nothing to the others. -/
theorem prob_eq_zero {token other : Fin (V + 1)} (certain : distribution.prob token = 1)
    (different : other ≠ token) : distribution.prob other = 0 := by
  have total := distribution.total
  rw [← Finset.add_sum_erase _ _ (Finset.mem_univ token), certain] at total
  have rest : ∑ each ∈ Finset.univ.erase token, distribution.prob each = 0 := by linarith
  have each := (Finset.sum_eq_zero_iff_of_nonneg fun each _ => distribution.nonneg each).mp rest
  exact each other (Finset.mem_erase.mpr ⟨different, Finset.mem_univ other⟩)

theorem sum_ofReal : ∑ token, ENNReal.ofReal (distribution.prob token) = 1 := by
  rw [← ENNReal.ofReal_sum_of_nonneg fun token _ => distribution.nonneg token, distribution.total,
    ENNReal.ofReal_one]

end Distribution

namespace Speculation

variable {spec : Speculation V} {before : List (Fin (V + 1))} {draft : Fin (V + 1)}
  {blockSize : Nat}

section Draft

theorem draft_eq_one (absent : spec.noDraftProbs = true)
    (proposed : 0 < (spec.draft before).prob draft) : (spec.draft before).prob draft = 1 := by
  rcases spec.certain absent before draft with never | always
  · exact absurd never proposed.ne'
  · exact always

theorem accepts_iff (proposed : 0 < (spec.draft before).prob draft) (variate : ℝ) :
    spec.accepts before draft variate = true ↔
      variate ≤ (spec.target before).prob draft / (spec.draft before).prob draft := by
  unfold accepts
  cases absent : spec.noDraftProbs with
  | true => simp [draft_eq_one absent proposed]
  | false => simp [proposed]

theorem accepts_eq (proposed : 0 < (spec.draft before).prob draft) :
    {variate | spec.accepts before draft variate = true} =
      Set.Iic ((spec.target before).prob draft / (spec.draft before).prob draft) := by
  ext variate
  exact accepts_iff proposed variate

/-- What a token's target probability has above its draft probability. -/
noncomputable def residual (spec : Speculation V) (before : List (Fin (V + 1)))
    (token : Fin (V + 1)) : ℝ :=
  max ((spec.target before).prob token - (spec.draft before).prob token) 0

theorem residual_nonneg (spec : Speculation V) (before : List (Fin (V + 1)))
    (token : Fin (V + 1)) : 0 ≤ spec.residual before token :=
  le_max_right _ _

/-- The kernel's weights are the residuals, with draft probabilities and without. -/
theorem recoveredProb_eq (proposed : 0 < (spec.draft before).prob draft) (token : Fin (V + 1)) :
    recoveredProb (fun _ => (draft.val : Int))
        (if spec.noDraftProbs then none else some fun _ => probOf (spec.draft before))
        (fun _ => probOf (spec.target before)) 0 token.val = spec.residual before token := by
  unfold recoveredProb residual
  cases absent : spec.noDraftProbs with
  | false => simp [probOf_val]
  | true =>
      have certain := draft_eq_one absent proposed
      simp only [if_true, probOf_val]
      by_cases same : token = draft
      · subst same
        have most := (spec.target before).prob_le_one token
        rw [if_neg (by simp), certain, max_eq_right (by linarith)]
      · have others : ((token.val : Int) ≠ draft.val) := by
          intro equal
          exact same (Fin.ext (Int.ofNat_inj.mp equal))
        rw [if_pos others, (spec.draft before).prob_eq_zero certain same, sub_zero,
          max_eq_left ((spec.target before).nonneg token)]

theorem invQ_val (clock : Fin (V + 1) → ℝ) (reqIdx : Nat) (token : Fin (V + 1)) :
    invQ clock reqIdx token.val = (clock token)⁻¹ := by
  rw [invQ, dif_pos token.isLt]

/-- A rejected draft is replaced in proportion to the residuals. -/
theorem clocks_recover (tiled : 0 < blockSize) (proposed : 0 < (spec.draft before).prob draft)
    (some : 0 < ∑ token, spec.residual before token) (token : Fin (V + 1)) :
    clocks (V + 1) {clock | spec.recover blockSize before draft clock = token} =
      ENNReal.ofReal (spec.residual before token / ∑ other, spec.residual before other) := by
  apply race_law (spec.residual_nonneg before) some
  intro clock winner largest
  apply Fin.ext
  apply sampleRecoveredTokens_eq tiled winner.isLt
  intro other inside different
  have beaten := largest ⟨other, inside⟩ fun equal => different (congrArg Fin.val equal)
  have weight := recoveredProb_eq proposed ⟨other, inside⟩
  have scale := invQ_val clock 0 ⟨other, inside⟩
  simp only [startIdx, if_true, Nat.add_zero]
  rw [weight, scale, recoveredProb_eq proposed, invQ_val]
  exact beaten

end Draft

section Token

variable (spec before) (token : Fin (V + 1))

/-- What the residuals leave of the target probability. -/
theorem min_add_residual :
    min ((spec.target before).prob token) ((spec.draft before).prob token) +
      spec.residual before token = (spec.target before).prob token := by
  unfold residual
  rcases le_total ((spec.target before).prob token) ((spec.draft before).prob token) with
    below | above
  · rw [min_eq_left below, max_eq_right (by linarith), add_zero]
  · rw [min_eq_right above, max_eq_left (by linarith)]
    ring

/-- The probability of a draft and its rejection. -/
theorem sum_rejected :
    ∑ draft, ((spec.draft before).prob draft -
        min ((spec.target before).prob draft) ((spec.draft before).prob draft)) =
      ∑ other, spec.residual before other := by
  have each : ∀ draft, min ((spec.target before).prob draft) ((spec.draft before).prob draft) =
      (spec.target before).prob draft - spec.residual before draft := by
    intro draft
    have parts := spec.min_add_residual before draft
    linarith
  simp only [each, Finset.sum_sub_distrib, (spec.target before).total, (spec.draft before).total]
  ring

variable {spec before token}

theorem ofReal_accepted (proposed : 0 < (spec.draft before).prob draft) :
    ENNReal.ofReal ((spec.draft before).prob draft) *
        uniform {variate | spec.accepts before draft variate = true} =
      ENNReal.ofReal (min ((spec.target before).prob draft) ((spec.draft before).prob draft)) := by
  rw [accepts_eq proposed, uniform_Iic, ← ENNReal.ofReal_mul proposed.le]
  congr 1
  rw [mul_min_of_nonneg _ _ proposed.le, mul_div_cancel₀ _ proposed.ne', mul_one]

theorem ofReal_rejected (proposed : 0 < (spec.draft before).prob draft) :
    ENNReal.ofReal ((spec.draft before).prob draft) *
        (1 - uniform {variate | spec.accepts before draft variate = true}) =
      ENNReal.ofReal ((spec.draft before).prob draft -
        min ((spec.target before).prob draft) ((spec.draft before).prob draft)) := by
  have least : 0 ≤ min ((spec.target before).prob draft) ((spec.draft before).prob draft) :=
    le_min ((spec.target before).nonneg draft) proposed.le
  rw [ENNReal.mul_sub fun _ _ => ENNReal.ofReal_ne_top, mul_one, ofReal_accepted proposed,
    ENNReal.ofReal_sub _ least]

/-- A rejected draft has its token replaced with the probability of what the residuals say. -/
theorem ofReal_replaced (tiled : 0 < blockSize) :
    ENNReal.ofReal ((spec.draft before).prob draft) *
        ((1 - uniform {variate | spec.accepts before draft variate = true}) *
          clocks (V + 1) {clock | spec.recover blockSize before draft clock = token}) =
      ENNReal.ofReal (((spec.draft before).prob draft -
          min ((spec.target before).prob draft) ((spec.draft before).prob draft)) *
        (spec.residual before token / ∑ other, spec.residual before other)) := by
  have parts : ∀ other, 0 ≤ (spec.draft before).prob other -
      min ((spec.target before).prob other) ((spec.draft before).prob other) := fun other =>
    sub_nonneg.mpr (min_le_right _ _)
  rcases ((spec.draft before).nonneg draft).eq_or_lt with never | proposed
  · have rejected := parts draft
    have least : min ((spec.target before).prob draft) ((spec.draft before).prob draft) = 0 := by
      rw [← never, min_eq_right ((spec.target before).nonneg draft)]
    rw [least, ← never, ENNReal.ofReal_zero, sub_zero, zero_mul, zero_mul, ENNReal.ofReal_zero]
  · rw [← mul_assoc, ofReal_rejected proposed, ENNReal.ofReal_mul (parts draft)]
    rcases (Finset.sum_nonneg fun other _ => spec.residual_nonneg before
        other).eq_or_lt with nothing | something
    · have sum := spec.sum_rejected before
      rw [← nothing] at sum
      have each := (Finset.sum_eq_zero_iff_of_nonneg fun other _ => parts other).mp sum
      rw [each draft (Finset.mem_univ draft), ENNReal.ofReal_zero, zero_mul, zero_mul]
    · rw [clocks_recover tiled proposed something]

/-- Drafts that are accepted and replacements together give a token its target probability. -/
theorem sum_accepted_replaced (tiled : 0 < blockSize) :
    ∑ draft, ENNReal.ofReal ((spec.draft before).prob draft) *
        ((if draft = token then uniform {variate | spec.accepts before draft variate = true}
            else 0) +
          (1 - uniform {variate | spec.accepts before draft variate = true}) *
            clocks (V + 1) {clock | spec.recover blockSize before draft clock = token}) =
      ENNReal.ofReal ((spec.target before).prob token) := by
  have least : 0 ≤ min ((spec.target before).prob token) ((spec.draft before).prob token) :=
    le_min ((spec.target before).nonneg token) ((spec.draft before).nonneg token)
  have accepted : ∑ draft, ENNReal.ofReal ((spec.draft before).prob draft) *
      (if draft = token then uniform {variate | spec.accepts before draft variate = true} else 0) =
        ENNReal.ofReal
          (min ((spec.target before).prob token) ((spec.draft before).prob token)) := by
    simp only [mul_ite, mul_zero, Finset.sum_ite_eq', Finset.mem_univ, if_true]
    rcases ((spec.draft before).nonneg token).eq_or_lt with never | proposed
    · rw [← never, min_eq_right ((spec.target before).nonneg token), ENNReal.ofReal_zero, zero_mul]
    · exact ofReal_accepted proposed
  have replaced : ∑ draft, ENNReal.ofReal ((spec.draft before).prob draft) *
      ((1 - uniform {variate | spec.accepts before draft variate = true}) *
        clocks (V + 1) {clock | spec.recover blockSize before draft clock = token}) =
          ENNReal.ofReal (spec.residual before token) := by
    have share : 0 ≤ spec.residual before token / ∑ other, spec.residual before other :=
      div_nonneg (spec.residual_nonneg before token)
        (Finset.sum_nonneg fun other _ => spec.residual_nonneg before other)
    simp only [ofReal_replaced tiled]
    rw [← ENNReal.ofReal_sum_of_nonneg fun draft _ =>
        mul_nonneg (sub_nonneg.mpr (min_le_right _ _)) share, ← Finset.sum_mul,
      spec.sum_rejected before]
    congr 1
    rcases (Finset.sum_nonneg fun other _ => spec.residual_nonneg before
        other).eq_or_lt with nothing | something
    · have each := (Finset.sum_eq_zero_iff_of_nonneg fun other _ =>
        spec.residual_nonneg before other).mp nothing.symm
      rw [each token (Finset.mem_univ token), zero_div, mul_zero]
    · exact mul_div_cancel₀ _ something.ne'
  simp only [mul_add, Finset.sum_add_distrib]
  rw [accepted, replaced, ← ENNReal.ofReal_add least (spec.residual_nonneg before token),
    spec.min_add_residual before token]

end Token

section Expect

variable {count : Nat} {value other : List (Fin (V + 1)) → ℝ≥0∞}

theorem expectDrafts_congr
    (same : ∀ drafts : List (Fin (V + 1)), drafts.length = count → value drafts = other drafts) :
    spec.expectDrafts count before value = spec.expectDrafts count before other := by
  induction count generalizing before value other with
  | zero => exact same [] rfl
  | succ count inductionHypothesis =>
      apply Finset.sum_congr rfl
      intro token _
      congr 1
      apply inductionHypothesis
      intro drafts length
      exact same (token :: drafts) (by rw [List.length_cons, length])

theorem expectDrafts_mul (factor : ℝ≥0∞) :
    spec.expectDrafts count before (fun drafts => factor * value drafts) =
      factor * spec.expectDrafts count before value := by
  induction count generalizing before value with
  | zero => rfl
  | succ count inductionHypothesis =>
      simp only [expectDrafts, inductionHypothesis]
      rw [Finset.mul_sum]
      apply Finset.sum_congr rfl
      intro token _
      ring

theorem expectDrafts_zero : spec.expectDrafts count before (fun _ => 0) = 0 := by
  induction count generalizing before with
  | zero => rfl
  | succ count inductionHypothesis =>
      simp only [expectDrafts, inductionHypothesis, mul_zero, Finset.sum_const_zero]

theorem expectDrafts_one : spec.expectDrafts count before (fun _ => 1) = 1 := by
  induction count generalizing before with
  | zero => rfl
  | succ count inductionHypothesis =>
      simp only [expectDrafts, inductionHypothesis, mul_one]
      exact (spec.draft before).sum_ofReal

end Expect

section Row

/-- The probability of an event of the tokens emitted behind accepted ones. -/
noncomputable def chance (spec : Speculation V) (blockSize count : Nat)
    (before : List (Fin (V + 1))) (event : List (Fin (V + 1)) → Prop) : ℝ≥0∞ :=
  spec.expectDrafts count before fun drafts =>
    ∑ bonus, ENNReal.ofReal ((spec.target (before ++ drafts)).prob bonus) *
      (uniforms drafts.length).prod (clocks (V + 1))
        {draw | event (spec.emit blockSize before drafts draw.1 draw.2 bonus)}

variable {rest : List (Fin (V + 1))} {bonus token : Fin (V + 1)}
  {event : List (Fin (V + 1)) → Prop} {count : Nat}

theorem measurable_accepts (proposed : 0 < (spec.draft before).prob draft) :
    MeasurableSet {variate | spec.accepts before draft variate = true} := by
  rw [accepts_eq proposed]
  exact measurableSet_Iic

/-- A row begins with the draft where it is accepted, with its replacement elsewhere. -/
theorem row_first (proposed : 0 < (spec.draft before).prob draft) :
    (uniforms (rest.length + 1)).prod (clocks (V + 1))
        {draw | (spec.emit blockSize before (draft :: rest) draw.1 draw.2 bonus).head? =
          some token} =
      (if draft = token then uniform {variate | spec.accepts before draft variate = true} else 0) +
        (1 - uniform {variate | spec.accepts before draft variate = true}) *
          clocks (V + 1) {clock | spec.recover blockSize before draft clock = token} := by
  have tested := uniforms_test (clocks (V + 1)) rest.length (measurable_accepts proposed)
    {_draw | draft = token}
    (Set.univ ×ˢ {clock | spec.recover blockSize before draft clock = token})
  rw [Measure.prod_prod, measure_univ, one_mul] at tested
  have kept : uniform {variate | spec.accepts before draft variate = true} *
      (uniforms rest.length).prod (clocks (V + 1)) {_draw | draft = token} =
        if draft = token then uniform {variate | spec.accepts before draft variate = true}
        else 0 := by
    by_cases same : draft = token
    · simp [same]
    · simp [same]
  rw [← kept, ← tested]
  congr 1
  ext draw
  by_cases passed : spec.accepts before draft (draw.1 0) = true
  · simp [emit_accept passed, passed]
  · simp [emit_reject passed, passed]

/-- The first emitted token has the target distribution. -/
theorem chance_first (tiled : 0 < blockSize) (token : Fin (V + 1)) :
    spec.chance blockSize count before (fun out => out.head? = some token) =
      ENNReal.ofReal ((spec.target before).prob token) := by
  unfold chance
  cases count with
  | zero =>
      have each : ∀ bonus : Fin (V + 1),
          (uniforms 0).prod (clocks (V + 1)) {_draw | bonus = token} =
            if bonus = token then 1 else 0 := by
        intro bonus
        by_cases same : bonus = token
        · simp [same]
        · simp [same]
      simp only [expectDrafts, List.append_nil, emit, List.head?_cons, Option.some.injEq]
      change ∑ bonus, _ * (uniforms 0).prod (clocks (V + 1)) {_draw | bonus = token} = _
      simp [each]
  | succ count =>
      rw [← sum_accepted_replaced tiled]
      apply Finset.sum_congr rfl
      intro draft _
      rcases ((spec.draft before).nonneg draft).eq_or_lt with never | proposed
      · rw [← never, ENNReal.ofReal_zero, zero_mul, zero_mul]
      · congr 1
        simp only [List.length_cons, row_first proposed, ← Finset.sum_mul,
          Distribution.sum_ofReal, one_mul]
        rw [← mul_one ((if draft = token then _ else 0) + _), expectDrafts_mul, expectDrafts_one]

/-- Where an event needs a token and then more, the token is an accepted draft. -/
theorem chance_cons (token : Fin (V + 1)) (more : ∀ last, ¬ event [last])
    (starts : ∀ first out, event (first :: out) → first = token) :
    spec.chance blockSize (count + 1) before event =
      ENNReal.ofReal ((spec.draft before).prob token) *
        uniform {variate | spec.accepts before token variate = true} *
          spec.chance blockSize count (before ++ [token]) (fun out => event (token :: out)) := by
  have row : ∀ (draft : Fin (V + 1)) (rest : List (Fin (V + 1))) (bonus : Fin (V + 1)),
      (uniforms (rest.length + 1)).prod (clocks (V + 1))
          {draw | event (spec.emit blockSize before (draft :: rest) draw.1 draw.2 bonus)} =
        if draft = token then
          uniform {variate | spec.accepts before token variate = true} *
            (uniforms rest.length).prod (clocks (V + 1))
              {draw | event
                (token :: spec.emit blockSize (before ++ [token]) rest draw.1 draw.2 bonus)}
        else 0 := by
    intro draft rest bonus
    by_cases same : draft = token
    · subst same
      rw [if_pos rfl, ← uniforms_cons]
      congr 1
      ext draw
      by_cases passed : spec.accepts before draft (draw.1 0) = true
      · simp [emit_accept passed, passed]
      · simp [emit_reject passed, passed, more]
    · rw [if_neg same]
      have never : {draw : (Fin (rest.length + 1) → ℝ) × (Fin (V + 1) → ℝ) |
          event (spec.emit blockSize before (draft :: rest) draw.1 draw.2 bonus)} = ∅ := by
        apply Set.eq_empty_of_forall_notMem
        intro draw happens
        by_cases passed : spec.accepts before draft (draw.1 0) = true
        · rw [Set.mem_ofPred_eq, emit_accept passed] at happens
          exact same (starts draft _ happens)
        · rw [Set.mem_ofPred_eq, emit_reject passed] at happens
          exact more _ happens
      rw [never, measure_empty]
  unfold chance
  simp only [expectDrafts, List.length_cons, row]
  rw [Finset.sum_eq_single token]
  · rw [mul_assoc]
    congr 1
    rw [← expectDrafts_mul]
    apply expectDrafts_congr
    intro drafts _
    rw [Finset.mul_sum]
    apply Finset.sum_congr rfl
    intro bonus _
    rw [if_pos rfl, List.append_assoc, List.singleton_append]
    ring
  · intro draft _ different
    simp only [if_neg different, mul_zero, Finset.sum_const_zero]
    rw [expectDrafts_zero, mul_zero]
  · intro absent
    exact absurd (Finset.mem_univ token) absent

theorem chance_zero (more : ∀ last, ¬ event [last]) : spec.chance blockSize 0 before event = 0 := by
  simp [chance, expectDrafts, emit, more]

theorem chance_nonempty :
    spec.chance blockSize count before (fun out => 0 < out.length) = 1 := by
  have always : ∀ (drafts : List (Fin (V + 1))) (bonus : Fin (V + 1)),
      {draw : (Fin drafts.length → ℝ) × (Fin (V + 1) → ℝ) |
        0 < (spec.emit blockSize before drafts draw.1 draw.2 bonus).length} = Set.univ := by
    intro drafts bonus
    apply Set.eq_univ_of_forall
    intro draw
    exact emit_length_pos drafts draw.1
  simp only [chance, always, measure_univ, mul_one, Distribution.sum_ofReal]
  exact expectDrafts_one

/-- Where rows go on, the next token has the target distribution. -/
theorem chance_next (tiled : 0 < blockSize) (first : List (Fin (V + 1))) (token : Fin (V + 1)) :
    spec.chance blockSize count before (fun out => first <+: out ∧ out[first.length]? = some token) =
      spec.chance blockSize count before (fun out => first <+: out ∧ first.length < out.length) *
        ENNReal.ofReal ((spec.target (before ++ first)).prob token) := by
  induction first generalizing count before with
  | nil =>
      have starts : ∀ out : List (Fin (V + 1)),
          ([] <+: out ∧ out[([] : List (Fin (V + 1))).length]? = some token) =
            (out.head? = some token) := by
        intro out
        rw [List.length_nil, List.head?_eq_getElem?]
        simp
      have goes : ∀ out : List (Fin (V + 1)),
          ([] <+: out ∧ ([] : List (Fin (V + 1))).length < out.length) = (0 < out.length) := by
        intro out
        simp
      simp only [starts, goes]
      rw [chance_first tiled, chance_nonempty, one_mul, List.append_nil]
  | cons accepted first inductionHypothesis =>
      have next : ∀ last, ¬ (accepted :: first <+: [last] ∧
          [last][(accepted :: first).length]? = some token) := by
        simp
      have goes : ∀ last, ¬ (accepted :: first <+: [last] ∧
          (accepted :: first).length < [last].length) := by
        simp
      cases count with
      | zero => rw [chance_zero next, chance_zero goes, zero_mul]
      | succ count =>
          rw [chance_cons accepted next fun head out holds =>
              (List.cons_prefix_cons.mp holds.1).1.symm,
            chance_cons accepted goes fun head out holds =>
              (List.cons_prefix_cons.mp holds.1).1.symm]
          have step : spec.chance blockSize count (before ++ [accepted])
              (fun out => first <+: out ∧ out[first.length]? = some token) = _ :=
            inductionHypothesis
          rw [List.append_assoc, List.singleton_append] at step
          simp only [List.cons_prefix_cons, true_and, List.length_cons, List.getElem?_cons_succ,
            Nat.succ_lt_succ_iff]
          rw [step]
          ring

theorem probability_eq {cuNumDraftTokens : Nat → Nat} {reqIdx : Nat} {event : RowEvent V}
    {ofRow : List (Fin (V + 1)) → Prop}
    (same : ∀ (drafts : List (Fin (V + 1))) (variates : Fin drafts.length → ℝ)
      (clock : Fin (V + 1) → ℝ) (bonus : Fin (V + 1)),
      cuNumDraftTokens reqIdx - startIdx cuNumDraftTokens reqIdx = drafts.length →
        (event drafts variates
          (spec.emitted drafts cuNumDraftTokens blockSize reqIdx variates clock bonus) ↔
            ofRow (spec.emit blockSize [] drafts variates clock bonus))) :
    spec.probability cuNumDraftTokens blockSize reqIdx event =
      spec.chance blockSize (cuNumDraftTokens reqIdx - startIdx cuNumDraftTokens reqIdx) []
        ofRow := by
  apply expectDrafts_congr
  intro drafts length
  apply Finset.sum_congr rfl
  intro bonus _
  congr 2
  ext draw
  exact same drafts draw.1 draw.2 bonus length.symm

end Row

/-- Rejection sampling is unbiased: the first token of a row has the target distribution of the
first position, and where the first drafts are accepted, the token behind them has the target
distribution behind them. -/
theorem unbiased (spec : Speculation V) (cuNumDraftTokens : Nat → Nat) (reqIdx : Nat)
    (tiled : 0 < blockSize) :
    (∀ token : Fin (V + 1), spec.probability cuNumDraftTokens blockSize reqIdx
          (fun _ _ row => row.head? = some (token.val : Int)) =
        ENNReal.ofReal ((spec.target []).prob token)) ∧
    ∀ (first : List (Fin (V + 1))) (token : Fin (V + 1)),
      spec.probability cuNumDraftTokens blockSize reqIdx
          (fun drafts variates row =>
            spec.AcceptedDrafts (startIdx cuNumDraftTokens reqIdx) first drafts variates ∧
              row[first.length]? = some (token.val : Int)) =
        spec.probability cuNumDraftTokens blockSize reqIdx
            (fun drafts variates _ =>
              spec.AcceptedDrafts (startIdx cuNumDraftTokens reqIdx) first drafts variates) *
          ENNReal.ofReal ((spec.target first).prob token) := by
  have value : ∀ {entry : Option (Fin (V + 1))} {token : Fin (V + 1)},
      entry.map (fun each => (each.val : Int)) = some (token.val : Int) ↔
        entry = some token := by
    intro entry token
    constructor
    · intro mapped
      rcases Option.map_eq_some_iff.mp mapped with ⟨each, rfl, equal⟩
      rw [Fin.ext (Int.ofNat_inj.mp equal)]
    · rintro rfl
      rfl
  constructor
  · intro token
    rw [← chance_first tiled token]
    apply probability_eq
    intro drafts variates clock bonus count
    rw [emitted_eq count, List.head?_map, value]
  · intro first token
    have behind : spec.probability cuNumDraftTokens blockSize reqIdx
        (fun drafts variates row =>
          spec.AcceptedDrafts (startIdx cuNumDraftTokens reqIdx) first drafts variates ∧
            row[first.length]? = some (token.val : Int)) =
          spec.chance blockSize (cuNumDraftTokens reqIdx - startIdx cuNumDraftTokens reqIdx) []
            (fun out => first <+: out ∧ out[first.length]? = some token) := by
      apply probability_eq
      intro drafts variates clock bonus count
      rw [emitted_eq count, List.getElem?_map, value, acceptedDrafts_iff count variates]
      constructor
      · rintro ⟨⟨begins, _⟩, next⟩
        exact ⟨begins, next⟩
      · rintro ⟨begins, next⟩
        exact ⟨⟨begins, (List.getElem?_eq_some_iff.mp next).1⟩, next⟩
    have goes : spec.probability cuNumDraftTokens blockSize reqIdx
        (fun drafts variates _ =>
          spec.AcceptedDrafts (startIdx cuNumDraftTokens reqIdx) first drafts variates) =
          spec.chance blockSize (cuNumDraftTokens reqIdx - startIdx cuNumDraftTokens reqIdx) []
            (fun out => first <+: out ∧ first.length < out.length) := by
      apply probability_eq
      intro drafts variates clock bonus count
      exact acceptedDrafts_iff count variates
    rw [behind, goes]
    exact chance_next tiled first token

/-- A coin that is always guessed to show the first side. -/
noncomputable def guessedCoin : Speculation 1 where
  target _ := ⟨fun _ => 1 / 2, fun _ => by norm_num, by norm_num⟩
  draft _ := ⟨fun token => if token = 0 then 1 else 0, fun token => by split <;> norm_num, by simp⟩
  noDraftProbs := true
  certain _ _ token := by
    by_cases first : token = 0
    · exact Or.inr (if_pos first)
    · exact Or.inl (if_neg first)

/-- The other side shows half the time, and half the time behind a guess that is accepted. -/
theorem unbiased_guessedCoin :
    guessedCoin.probability (fun _ => 2) 8192 0 (fun _ _ row => row.head? = some 1) =
        ENNReal.ofReal (1 / 2) ∧
      guessedCoin.probability (fun _ => 2) 8192 0
          (fun drafts variates row =>
            guessedCoin.AcceptedDrafts 0 [0] drafts variates ∧ row[1]? = some 1) =
        guessedCoin.probability (fun _ => 2) 8192 0
            (fun drafts variates _ => guessedCoin.AcceptedDrafts 0 [0] drafts variates) *
          ENNReal.ofReal (1 / 2) :=
  ⟨(unbiased guessedCoin (fun _ => 2) 0 (by decide)).1 1,
    (unbiased guessedCoin (fun _ => 2) 0 (by decide)).2 [0] 1⟩

/-- The probability of tokens that are drafted and accepted one after the other: each has what its
draft and its target probability have in common. -/
noncomputable def overlap (spec : Speculation V) :
    List (Fin (V + 1)) → List (Fin (V + 1)) → ℝ≥0∞
  | _, [] => 1
  | before, token :: rest =>
      ENNReal.ofReal (min ((spec.target before).prob token) ((spec.draft before).prob token)) *
        spec.overlap (before ++ [token]) rest

theorem chance_accepted (count : Nat) (before first : List (Fin (V + 1))) :
    spec.chance blockSize count before (fun out => first <+: out ∧ first.length < out.length) =
      if first.length ≤ count then spec.overlap before first else 0 := by
  induction first generalizing count before with
  | nil =>
      have goes : ∀ out : List (Fin (V + 1)),
          ([] <+: out ∧ ([] : List (Fin (V + 1))).length < out.length) = (0 < out.length) := by
        intro out
        simp
      simp only [goes, chance_nonempty]
      rfl
  | cons token first inductionHypothesis =>
      have goes : ∀ last, ¬ (token :: first <+: [last] ∧ (token :: first).length < [last].length) := by
        simp
      cases count with
      | zero =>
          rw [chance_zero goes]
          rfl
      | succ count =>
          rw [chance_cons token goes fun head out holds => (List.cons_prefix_cons.mp holds.1).1.symm]
          simp only [List.cons_prefix_cons, true_and, List.length_cons, Nat.succ_lt_succ_iff,
            Nat.succ_le_succ_iff, inductionHypothesis]
          rw [mul_ite, mul_zero, overlap]
          congr 2
          rcases ((spec.draft before).nonneg token).eq_or_lt with never | proposed
          · rw [← never, min_eq_right ((spec.target before).nonneg token), ENNReal.ofReal_zero,
              zero_mul]
          · exact ofReal_accepted proposed

/-- The first drafts of a row are accepted and are given tokens with the probability of their
overlap, whatever the size of the tiles is. -/
theorem acceptance_law (spec : Speculation V) (cuNumDraftTokens : Nat → Nat)
    (blockSize reqIdx : Nat) (first : List (Fin (V + 1))) :
    spec.probability cuNumDraftTokens blockSize reqIdx
        (fun drafts variates _ =>
          spec.AcceptedDrafts (startIdx cuNumDraftTokens reqIdx) first drafts variates) =
      if first.length ≤ cuNumDraftTokens reqIdx - startIdx cuNumDraftTokens reqIdx then
        spec.overlap [] first
      else 0 := by
  rw [← chance_accepted]
  apply probability_eq
  intro drafts variates clock bonus count
  exact acceptedDrafts_iff count variates

end Speculation

end Vllm.Sample
