import Mathlib.Logic.Function.Basic
import Vllm.Library.CappedBorders

/-!
# N-gram proposer

The proposer looks for the longest suffix of the tokens that occurs earlier, of a length between
two bounds, and drafts what followed its earliest occurrence.  It scans the reversed tokens with a
prefix function that is capped at the upper bound.
-/

namespace Vllm.SpecDecode

open Vllm.Library

variable {α : Type} [DecidableEq α]

/-- The state of the scan over the reversed tokens. -/
structure NgramScan where
  i : Nat
  prev_lps : Nat
  lps : Nat → Nat
  longest_ngram : Nat
  position : Nat
  below : ∀ j, lps j ≤ j
  ahead : prev_lps < i

def NgramScan.start : NgramScan where
  i := 1
  prev_lps := 0
  lps _ := 0
  longest_ngram := 0
  position := 0
  below _ := Nat.zero_le _
  ahead := Nat.zero_lt_one

/-- The token at `i` extends the prefix. -/
def NgramScan.extend (scan : NgramScan) (max_ngram : Nat) : NgramScan :=
  let prev_lps := scan.prev_lps + 1
  have ahead : prev_lps ≤ scan.i := scan.ahead
  let lps := if scan.i < max_ngram then Function.update scan.lps scan.i prev_lps else scan.lps
  have below : ∀ j, lps j ≤ j := by
    intro j
    dsimp only [lps]
    split
    · by_cases same : j = scan.i
      · subst same
        rw [Function.update_self]
        exact ahead
      · rw [Function.update_of_ne same]
        exact scan.below j
    · exact scan.below j
  { i := scan.i + 1
    -- A full n-gram goes on as its own longest border.
    prev_lps := if prev_lps = max_ngram then lps (max_ngram - 1) else prev_lps
    lps := lps
    longest_ngram := if scan.longest_ngram ≤ prev_lps then prev_lps else scan.longest_ngram
    position := if scan.longest_ngram ≤ prev_lps then scan.i else scan.position
    below := below
    ahead := by
      have capped := below (max_ngram - 1)
      split <;> omega }

/-- Fall back to a shorter prefix. -/
def NgramScan.retreat (scan : NgramScan) : NgramScan :=
  { scan with
    prev_lps := scan.lps (scan.prev_lps - 1)
    ahead := by
      have shorter := scan.below (scan.prev_lps - 1)
      have ahead := scan.ahead
      omega }

/-- Go on without a prefix. -/
def NgramScan.skip (scan : NgramScan) : NgramScan :=
  { scan with
    i := scan.i + 1
    ahead := Nat.lt_succ_of_lt scan.ahead }

/-- The scan of the reversed tokens. -/
def NgramScan.run (tokens : List α) (max_ngram : Nat) (scan : NgramScan) : NgramScan :=
  if scan.i < tokens.length then
    if tokens[scan.prev_lps]? = tokens[scan.i]? then run tokens max_ngram (scan.extend max_ngram)
    else if scan.prev_lps ≠ 0 then run tokens max_ngram scan.retreat
    else run tokens max_ngram scan.skip
  else scan
termination_by (tokens.length - scan.i, scan.prev_lps)
decreasing_by
  · simp only [NgramScan.extend]
    exact Prod.Lex.left _ _ (by omega)
  · have shorter := scan.below (scan.prev_lps - 1)
    exact Prod.Lex.right _ (by simp only [NgramScan.retreat]; omega)
  · exact Prod.Lex.left _ _ (by simp only [NgramScan.skip]; omega)

/-- `_find_longest_matched_ngram_and_propose_tokens`. -/
def findLongestMatchedNgramAndProposeTokens (origin_tokens : List α) (min_ngram max_ngram : Nat)
    (max_model_len k : Int) : List α :=
  let total_token := origin_tokens.length
  if total_token < min_ngram then []
  else
    let k := min k (max_model_len - total_token)
    if k ≤ 0 then []
    else
      let scan := NgramScan.start.run origin_tokens.reverse max_ngram
      if scan.longest_ngram < min_ngram then []
      else
        let start_position := total_token - 1 - scan.position + scan.longest_ngram
        let k := min k.toNat (total_token - start_position)
        (origin_tokens.drop start_position).take k

end Vllm.SpecDecode

/-!
## Runs of the scan

The prefix of the scan is the longest capped border of what it has read; at the end the scan has
found the longest n-gram and its last end.
-/

namespace Vllm.SpecDecode

open Vllm.Library

variable {α : Type} {tokens : List α} {max_ngram : Nat} {scan : NgramScan}

/-- The first `v` tokens end again at a later place. -/
def Recurs (tokens : List α) (v place : Nat) : Prop :=
  v ≤ place ∧ Border (fun j => tokens[j]?) v (place + 1)

/-- What the scan knows of the tokens that it has read. -/
structure NgramScan.Valid (tokens : List α) (max_ngram : Nat) (scan : NgramScan) : Prop where
  border : Border (fun j => tokens[j]?) scan.prev_lps scan.i
  capped : scan.prev_lps < max_ngram
  maximal : ∀ v, scan.prev_lps < v → v < max_ngram → v < scan.i →
    Border (fun j => tokens[j]?) v scan.i → tokens[v]? ≠ tokens[scan.i]?
  table_border : ∀ j < scan.i, j < max_ngram → Border (fun j => tokens[j]?) (scan.lps j) (j + 1)
  table_maximal : ∀ j < scan.i, j < max_ngram → ∀ v, Recurs tokens v j → v ≤ scan.lps j
  unwritten : ∀ j, scan.i ≤ j → scan.lps j = 0
  longest_le : scan.longest_ngram ≤ max_ngram
  found : 0 < scan.longest_ngram → scan.position < tokens.length ∧
    Recurs tokens scan.longest_ngram scan.position
  best : ∀ j < scan.i, ∀ v ≤ max_ngram, Recurs tokens v j → v ≤ scan.longest_ngram
  last : ∀ j < scan.i, 0 < scan.longest_ngram → Recurs tokens scan.longest_ngram j →
    j ≤ scan.position

/-- A capped border at a place extends a shorter one before it. -/
theorem NgramScan.Valid.recurs_succ (valid : scan.Valid tokens max_ngram) {v : Nat}
    (capped : v + 1 ≤ max_ngram) (recurs : Recurs tokens (v + 1) scan.i) : v ≤ scan.prev_lps := by
  rcases recurs with ⟨short, border⟩
  rcases border_succ_iff.mp border with ⟨shorter, same⟩
  by_contra longer
  exact valid.maximal v (by omega) (by omega) (by omega) shorter same

theorem NgramScan.valid_start (positive : 0 < max_ngram) : NgramScan.start.Valid tokens max_ngram where
  border := Border.zero _ _
  capped := positive
  maximal := by
    intro v longer _ short
    have short : v < 1 := short
    omega
  table_border := fun _ _ _ => Border.zero _ _
  table_maximal := by
    intro j inside _ v recurs
    have inside : j < 1 := inside
    have short := recurs.1
    omega
  unwritten := fun _ _ => rfl
  longest_le := Nat.zero_le _
  found := fun positive => absurd positive (Nat.lt_irrefl 0)
  best := by
    intro j inside v _ recurs
    have inside : j < 1 := inside
    have short := recurs.1
    omega
  last := fun _ _ positive => absurd positive (Nat.lt_irrefl 0)

theorem NgramScan.Valid.retreat (valid : scan.Valid tokens max_ngram)
    (differ : tokens[scan.prev_lps]? ≠ tokens[scan.i]?) (some_ : scan.prev_lps ≠ 0) :
    scan.retreat.Valid tokens max_ngram := by
  have ahead := scan.ahead
  have place : scan.prev_lps - 1 + 1 = scan.prev_lps := Nat.succ_pred_eq_of_ne_zero some_
  have shorter := scan.below (scan.prev_lps - 1)
  have capped := valid.capped
  have inner : Border (fun j => tokens[j]?) (scan.lps (scan.prev_lps - 1)) scan.prev_lps := by
    have border := valid.table_border (scan.prev_lps - 1) (by omega) (by omega)
    rwa [place] at border
  constructor
  · exact inner.trans valid.border
  · have less : scan.lps (scan.prev_lps - 1) < max_ngram := by omega
    exact less
  · intro v longer less short border
    have longer : scan.lps (scan.prev_lps - 1) < v := longer
    rcases Nat.lt_trichotomy v scan.prev_lps with under | same | past
    · have within := border.of_le valid.border under.le
      have most := valid.table_maximal (scan.prev_lps - 1) (by omega) (by omega) v
        ⟨by omega, by rwa [place]⟩
      omega
    · rw [same]
      exact differ
    · exact valid.maximal v past less short border
  · exact valid.table_border
  · exact valid.table_maximal
  · exact valid.unwritten
  · exact valid.longest_le
  · exact valid.found
  · exact valid.best
  · exact valid.last

theorem NgramScan.Valid.skip (valid : scan.Valid tokens max_ngram)
    (differ : tokens[scan.prev_lps]? ≠ tokens[scan.i]?) (none_ : scan.prev_lps = 0) :
    scan.skip.Valid tokens max_ngram := by
  -- No prefix ends here.
  have nowhere : ∀ v ≤ max_ngram, Recurs tokens v scan.i → v = 0 := by
    intro v capped recurs
    cases v with
    | zero => rfl
    | succ v =>
        have short := valid.recurs_succ capped recurs
        have zero : v = scan.prev_lps := by omega
        have same := (border_succ_iff.mp recurs.2).2
        rw [zero] at same
        exact absurd same differ
  constructor
  · have empty : scan.skip.prev_lps = 0 := none_
    rw [empty]
    exact Border.zero _ _
  · exact valid.capped
  · intro v longer less short border
    have short : v < scan.i + 1 := short
    have zero := nowhere v less.le ⟨by omega, border⟩
    omega
  · intro j inside capped
    have inside : j < scan.i + 1 := inside
    by_cases here : j = scan.i
    · have unwritten : scan.skip.lps j = 0 := valid.unwritten j here.ge
      rw [unwritten]
      exact Border.zero _ _
    · exact valid.table_border j (by omega) capped
  · intro j inside capped v recurs
    have inside : j < scan.i + 1 := inside
    by_cases here : j = scan.i
    · subst here
      have short := recurs.1
      rw [nowhere v (by omega) recurs]
      exact Nat.zero_le _
    · exact valid.table_maximal j (by omega) capped v recurs
  · intro j beyond
    have beyond : scan.i + 1 ≤ j := beyond
    exact valid.unwritten j (by omega)
  · exact valid.longest_le
  · exact valid.found
  · intro j inside v capped recurs
    have inside : j < scan.i + 1 := inside
    by_cases here : j = scan.i
    · subst here
      rw [nowhere v capped recurs]
      exact Nat.zero_le _
    · exact valid.best j (by omega) v capped recurs
  · intro j inside positive recurs
    have inside : j < scan.i + 1 := inside
    have positive : 0 < scan.longest_ngram := positive
    by_cases here : j = scan.i
    · subst here
      have zero := nowhere _ valid.longest_le recurs
      omega
    · exact valid.last j (by omega) positive recurs

section Extend

variable (scan max_ngram)

variable {j : Nat}

theorem NgramScan.extend_lps_of_lt (before : j < scan.i) :
    (scan.extend max_ngram).lps j = scan.lps j := by
  simp only [NgramScan.extend]
  split
  · exact Function.update_of_ne before.ne _ _
  · rfl

theorem NgramScan.extend_lps_self (capped : scan.i < max_ngram) :
    (scan.extend max_ngram).lps scan.i = scan.prev_lps + 1 := by
  simp only [NgramScan.extend, if_pos capped, Function.update_self]

theorem NgramScan.extend_lps_of_gt (after : scan.i < j) :
    (scan.extend max_ngram).lps j = scan.lps j := by
  simp only [NgramScan.extend]
  split
  · exact Function.update_of_ne after.ne' _ _
  · rfl

theorem NgramScan.extend_prev_lps_of_ne (short : scan.prev_lps + 1 ≠ max_ngram) :
    (scan.extend max_ngram).prev_lps = scan.prev_lps + 1 := by
  simp only [NgramScan.extend, if_neg short]

/-- A full n-gram goes on with the table's longest border. -/
theorem NgramScan.extend_prev_lps_of_eq (full : scan.prev_lps + 1 = max_ngram) :
    (scan.extend max_ngram).prev_lps = scan.lps scan.prev_lps := by
  have ahead := scan.ahead
  have place : max_ngram - 1 = scan.prev_lps := by omega
  have old := scan.extend_lps_of_lt max_ngram ahead
  simp only [NgramScan.extend] at old ⊢
  rw [if_pos full, place, old]

theorem NgramScan.extend_longest_ngram : (scan.extend max_ngram).longest_ngram =
    if scan.longest_ngram ≤ scan.prev_lps + 1 then scan.prev_lps + 1 else scan.longest_ngram :=
  rfl

theorem NgramScan.extend_position : (scan.extend max_ngram).position =
    if scan.longest_ngram ≤ scan.prev_lps + 1 then scan.i else scan.position :=
  rfl

end Extend

theorem NgramScan.Valid.extend (valid : scan.Valid tokens max_ngram)
    (inside : scan.i < tokens.length) (same : tokens[scan.prev_lps]? = tokens[scan.i]?) :
    (scan.extend max_ngram).Valid tokens max_ngram := by
  have ahead := scan.ahead
  have capped := valid.capped
  have here : Recurs tokens (scan.prev_lps + 1) scan.i :=
    ⟨ahead, border_succ_iff.mpr ⟨valid.border, same⟩⟩
  -- The prefix is the longest that ends here.
  have most : ∀ v ≤ max_ngram, Recurs tokens v scan.i → v ≤ scan.prev_lps + 1 := by
    intro v capped recurs
    cases v with
    | zero => exact Nat.zero_le _
    | succ v => exact Nat.succ_le_succ (valid.recurs_succ capped recurs)
  have full_table : scan.prev_lps + 1 = max_ngram →
      Border (fun j => tokens[j]?) (scan.lps scan.prev_lps) (scan.prev_lps + 1) ∧
        ∀ v, Recurs tokens v scan.prev_lps → v ≤ scan.lps scan.prev_lps := fun _ =>
    ⟨valid.table_border _ ahead capped, valid.table_maximal _ ahead capped⟩
  constructor
  · by_cases full : scan.prev_lps + 1 = max_ngram
    · rw [NgramScan.extend_prev_lps_of_eq _ _ full]
      exact (full_table full).1.trans here.2
    · rw [NgramScan.extend_prev_lps_of_ne _ _ full]
      exact here.2
  · by_cases full : scan.prev_lps + 1 = max_ngram
    · rw [NgramScan.extend_prev_lps_of_eq _ _ full]
      have shorter := scan.below scan.prev_lps
      omega
    · rw [NgramScan.extend_prev_lps_of_ne _ _ full]
      omega
  · intro v longer less short border
    have short : v < scan.i + 1 := short
    have recurs : Recurs tokens v scan.i := ⟨by omega, border⟩
    have bound := most v less.le recurs
    by_cases full : scan.prev_lps + 1 = max_ngram
    · rw [NgramScan.extend_prev_lps_of_eq _ _ full] at longer
      have within := border.of_le here.2 bound
      have table := (full_table full).2 v ⟨by omega, within⟩
      omega
    · rw [NgramScan.extend_prev_lps_of_ne _ _ full] at longer
      omega
  · intro j inside below
    have inside : j < scan.i + 1 := inside
    by_cases now : j = scan.i
    · subst now
      rw [NgramScan.extend_lps_self _ _ below]
      exact here.2
    · rw [NgramScan.extend_lps_of_lt _ _ (by omega)]
      exact valid.table_border j (by omega) below
  · intro j inside below v recurs
    have inside : j < scan.i + 1 := inside
    by_cases now : j = scan.i
    · subst now
      rw [NgramScan.extend_lps_self _ _ below]
      have short := recurs.1
      exact most v (by omega) recurs
    · rw [NgramScan.extend_lps_of_lt _ _ (by omega)]
      exact valid.table_maximal j (by omega) below v recurs
  · intro j beyond
    have beyond : scan.i + 1 ≤ j := beyond
    rw [NgramScan.extend_lps_of_gt _ _ (by omega)]
    exact valid.unwritten j (by omega)
  · rw [NgramScan.extend_longest_ngram]
    split
    · exact capped
    · exact valid.longest_le
  · intro positive
    rw [NgramScan.extend_longest_ngram] at positive ⊢
    rw [NgramScan.extend_position]
    split
    · exact ⟨inside, here⟩
    · rename_i shorter
      rw [if_neg shorter] at positive
      exact valid.found positive
  · intro j inside v below recurs
    have inside : j < scan.i + 1 := inside
    have bound : v ≤ scan.prev_lps + 1 ∨ v ≤ scan.longest_ngram := by
      by_cases now : j = scan.i
      · subst now
        exact Or.inl (most v below recurs)
      · exact Or.inr (valid.best j (by omega) v below recurs)
    rw [NgramScan.extend_longest_ngram]
    split <;> omega
  · intro j inside positive recurs
    have inside : j < scan.i + 1 := inside
    rw [NgramScan.extend_longest_ngram] at positive recurs
    rw [NgramScan.extend_position]
    split
    · omega
    · rename_i shorter
      rw [if_neg shorter] at positive recurs
      by_cases now : j = scan.i
      · subst now
        have bound := most _ valid.longest_le recurs
        omega
      · exact valid.last j (by omega) positive recurs

/-- A whole run keeps what the scan knows, and reads all tokens. -/
theorem NgramScan.run_valid [DecidableEq α] (tokens : List α) (max_ngram : Nat) (scan : NgramScan)
    (valid : scan.Valid tokens max_ngram) :
    (scan.run tokens max_ngram).Valid tokens max_ngram ∧
      tokens.length ≤ (scan.run tokens max_ngram).i := by
  fun_induction NgramScan.run tokens max_ngram scan with
  | case1 scan inside same inductionHypothesis =>
      exact inductionHypothesis (valid.extend inside same)
  | case2 scan _ differ some_ inductionHypothesis =>
      exact inductionHypothesis (valid.retreat differ some_)
  | case3 scan _ differ none_ inductionHypothesis =>
      exact inductionHypothesis (valid.skip differ (not_not.mp none_))
  | case4 scan done => exact ⟨valid, Nat.not_lt.mp done⟩

/-! ## Earlier occurrences -/

/-- The last `n` tokens stand also at an earlier place. -/
def RepeatsAt (tokens : List α) (n place : Nat) : Prop :=
  place + n < tokens.length ∧ (tokens.drop place).take n = tokens.drop (tokens.length - n)

variable {n place : Nat}

theorem repeatsAt_iff : RepeatsAt tokens n place ↔
    place + n < tokens.length ∧ ∀ j < n, tokens[place + j]? = tokens[tokens.length - n + j]? := by
  constructor
  · rintro ⟨inside, same⟩
    refine ⟨inside, ?_⟩
    intro j front
    have entry := congrArg (fun window : List α => window[j]?) same
    simp only [List.getElem?_take_of_lt front, List.getElem?_drop] at entry
    exact entry
  · rintro ⟨inside, same⟩
    refine ⟨inside, ?_⟩
    apply List.ext_getElem?
    intro j
    by_cases front : j < n
    · rw [List.getElem?_take_of_lt front, List.getElem?_drop, List.getElem?_drop]
      exact same j front
    · rw [List.getElem?_take_eq_none (Nat.not_lt.mp front), List.getElem?_drop,
        List.getElem?_eq_none (by omega)]

/-- An earlier place is a later end in the reversed tokens. -/
theorem repeatsAt_iff_recurs (inside : place < tokens.length) :
    RepeatsAt tokens n place ↔ Recurs tokens.reverse n (tokens.length - 1 - place) := by
  rw [repeatsAt_iff, Recurs, Border]
  have read : ∀ j < tokens.length, tokens.reverse[j]? = tokens[tokens.length - 1 - j]? :=
    fun j small => List.getElem?_reverse small
  constructor
  · rintro ⟨room, same⟩
    refine ⟨by omega, by omega, ?_⟩
    intro j front
    rw [read j (by omega), read _ (by omega)]
    have entry := same (n - 1 - j) (by omega)
    have left : tokens.length - n + (n - 1 - j) = tokens.length - 1 - j := by omega
    have right : place + (n - 1 - j) =
        tokens.length - 1 - (tokens.length - 1 - place + 1 - n + j) := by omega
    rw [← left, ← right]
    exact entry.symm
  · rintro ⟨room, _, same⟩
    refine ⟨by omega, ?_⟩
    intro j front
    have entry := same (n - 1 - j) (by omega)
    rw [read _ (by omega), read _ (by omega)] at entry
    have left : tokens.length - 1 - (n - 1 - j) = tokens.length - n + j := by omega
    have right : tokens.length - 1 - (tokens.length - 1 - place + 1 - n + (n - 1 - j)) =
        place + j := by omega
    rw [left, right] at entry
    exact entry.symm

/-- The longest suffix within the bounds that stands earlier, and its earliest place. -/
structure LongestMatch (tokens : List α) (min_ngram max_ngram n place : Nat) : Prop where
  at_least : min_ngram ≤ n
  at_most : n ≤ max_ngram
  repeats : RepeatsAt tokens n place
  longest : ∀ m, n < m → m ≤ max_ngram → ∀ other, ¬ RepeatsAt tokens m other
  earliest : ∀ other < place, ¬ RepeatsAt tokens n other

theorem LongestMatch.unique {min_ngram m other : Nat}
    (first : LongestMatch tokens min_ngram max_ngram n place)
    (second : LongestMatch tokens min_ngram max_ngram m other) : n = m ∧ place = other := by
  have same : n = m := by
    rcases Nat.lt_trichotomy n m with less | same | less
    · exact absurd second.repeats (first.longest m less second.at_most other)
    · exact same
    · exact absurd first.repeats (second.longest n less first.at_most place)
  subst same
  rcases Nat.lt_trichotomy place other with less | same | less
  · exact absurd first.repeats (second.earliest place less)
  · exact ⟨rfl, same⟩
  · exact absurd second.repeats (first.earliest other less)

section Scan

variable [DecidableEq α] {min_ngram : Nat}

variable {n place : Nat}

/-- The scan of the reversed tokens finds the longest match, if there is one. -/
theorem scan_longest (tokens : List α) (positive : 0 < max_ngram) (capped : n ≤ max_ngram)
    (repeats : RepeatsAt tokens n place) :
    n ≤ (NgramScan.start.run tokens.reverse max_ngram).longest_ngram := by
  rcases NgramScan.run_valid tokens.reverse max_ngram _ (NgramScan.valid_start positive) with
    ⟨valid, all⟩
  have room := repeats.1
  rw [List.length_reverse] at all
  apply valid.best (tokens.length - 1 - place) (by omega) n capped
  exact (repeatsAt_iff_recurs (by omega)).mp repeats

theorem scan_match (tokens : List α) (positive : 0 < min_ngram) (bounds : min_ngram ≤ max_ngram)
    (found : min_ngram ≤ (NgramScan.start.run tokens.reverse max_ngram).longest_ngram) :
    (NgramScan.start.run tokens.reverse max_ngram).position < tokens.length ∧
      LongestMatch tokens min_ngram max_ngram
        (NgramScan.start.run tokens.reverse max_ngram).longest_ngram
        (tokens.length - 1 - (NgramScan.start.run tokens.reverse max_ngram).position) := by
  have longest : ∀ {n place : Nat}, n ≤ max_ngram → RepeatsAt tokens n place →
      n ≤ (NgramScan.start.run tokens.reverse max_ngram).longest_ngram :=
    scan_longest tokens (positive.trans_le bounds)
  rcases NgramScan.run_valid tokens.reverse max_ngram _
    (NgramScan.valid_start (positive.trans_le bounds)) with ⟨valid, all⟩
  rw [List.length_reverse] at all
  generalize NgramScan.start.run tokens.reverse max_ngram = scan at found longest valid all ⊢
  have some_ : 0 < scan.longest_ngram := positive.trans_le found
  rcases valid.found some_ with ⟨inside, recurs⟩
  rw [List.length_reverse] at inside
  have mirror : tokens.length - 1 - (tokens.length - 1 - scan.position) = scan.position := by
    omega
  refine ⟨inside, found, valid.longest_le, ?_, ?_, ?_⟩
  · rw [repeatsAt_iff_recurs (by omega), mirror]
    exact recurs
  · intro m longer capped other repeats
    exact absurd (longest capped repeats) (Nat.not_le.mpr longer)
  · intro other earlier repeats
    rw [repeatsAt_iff_recurs (by omega)] at repeats
    have last := valid.last (tokens.length - 1 - other) (by omega) some_ repeats
    omega

/-- The proposer drafts what follows the longest match. -/
theorem propose_of_match (positive : 0 < min_ngram) (bounds : min_ngram ≤ max_ngram)
    (max_model_len k : Int) (found : LongestMatch tokens min_ngram max_ngram n place) :
    findLongestMatchedNgramAndProposeTokens tokens min_ngram max_ngram max_model_len k =
      (tokens.drop (place + n)).take (min k (max_model_len - tokens.length)).toNat := by
  have room := found.repeats.1
  have long := found.at_least
  have scanned : min_ngram ≤ (NgramScan.start.run tokens.reverse max_ngram).longest_ngram :=
    long.trans (scan_longest tokens (positive.trans_le bounds) found.at_most found.repeats)
  rcases scan_match tokens positive bounds scanned with ⟨inside, match_⟩
  rcases match_.unique found with ⟨same, there⟩
  rw [findLongestMatchedNgramAndProposeTokens]
  dsimp only
  rw [if_neg (by omega)]
  by_cases none_ : min k (max_model_len - tokens.length) ≤ 0
  · rw [if_pos none_, Int.toNat_eq_zero.mpr none_, List.take_zero]
  · rw [if_neg none_, if_neg (Nat.not_lt.mpr scanned), same, there]
    rw [← List.length_drop, ← List.take_eq_take_min]

/-- Without a match there is no draft. -/
theorem propose_of_no_match (positive : 0 < min_ngram) (bounds : min_ngram ≤ max_ngram)
    (max_model_len k : Int)
    (nowhere : ∀ n, min_ngram ≤ n → n ≤ max_ngram → ∀ place, ¬ RepeatsAt tokens n place) :
    findLongestMatchedNgramAndProposeTokens tokens min_ngram max_ngram max_model_len k = [] := by
  rw [findLongestMatchedNgramAndProposeTokens]
  dsimp only
  split
  · rfl
  · split
    · rfl
    · rw [if_pos]
      rw [← Nat.not_le]
      intro scanned
      have match_ := (scan_match tokens positive bounds scanned).2
      exact nowhere _ match_.at_least match_.at_most _ match_.repeats

end Scan

end Vllm.SpecDecode
