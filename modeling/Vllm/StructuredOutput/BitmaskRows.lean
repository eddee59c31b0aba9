import Vllm.StructuredOutput.Manager

/-!
# The rows of a grammar bitmask

What the rows of a request have to be: at each position the mask of the grammar behind the drafts
before it, as far as these are content of the grammar.  The loops over the drafts, the requests and
the batches fill just these rows and give every grammar back as it was.
-/

namespace Vllm.StructuredOutput

open Vllm.Core Vllm.Library

variable {γ μ κ : Type}

section Rows

/-- Whether the bitmask applies behind a draft.  Padding ends it, and the end of reasoning begins
it. -/
def appliesNext (ends : List Int → Int → Bool) (before : List Int) (applies : Bool)
    (token : Int) : Bool :=
  if token = -1 then false else applies || ends before token

/-- Whether the bitmask applies behind drafts. -/
def appliesAfter (ends : List Int → Int → Bool) : List Int → Bool → List Int → Bool
  | _, applies, [] => applies
  | before, applies, token :: rest =>
      appliesAfter ends (before ++ [token]) (appliesNext ends before applies token) rest

/-- The drafts that are content of the grammar: those at which the bitmask applies. -/
def content (ends : List Int → Int → Bool) : List Int → Bool → List Int → List Int
  | _, _, [] => []
  | before, applies, token :: rest =>
      (if applies ∧ token ≠ -1 then [token] else []) ++
        content ends (before ++ [token]) (appliesNext ends before applies token) rest

variable (backend : StructuredOutputGrammar γ μ)

/-- Whether a grammar moves on with a token.  Where tokens are tolerated they have to be valid. -/
def takes (tolerant : Bool) (state : γ) (token : Int) : Bool :=
  !backend.isTerminated state &&
    (!tolerant || !(backend.validateTokens state [token]).isEmpty) &&
    (backend.acceptTokens state [token]).1

/-- The state behind the tokens that a grammar moves on with. -/
def follow (tolerant : Bool) : γ → List Int → γ
  | state, [] => state
  | state, token :: rest =>
      follow tolerant
        (if takes backend tolerant state token then (backend.acceptTokens state [token]).2
        else state) rest

/-- A grammar that has not terminated rejects one of the tokens. -/
def refuses : γ → List Int → Bool
  | _, [] => false
  | state, token :: rest =>
      if backend.isTerminated state then false
      else if (backend.acceptTokens state [token]).1 then
        refuses (backend.acceptTokens state [token]).2 rest
      else true

theorem follow_append (tolerant : Bool) (state : γ) (front back : List Int) :
    follow backend tolerant state (front ++ back) =
      follow backend tolerant (follow backend tolerant state front) back := by
  induction front generalizing state with
  | nil => rfl
  | cons token front inductionHypothesis => exact inductionHypothesis _

variable {backend}

variable {state : γ}

theorem follow_of_terminated (terminated : backend.isTerminated state = true) (tolerant : Bool)
    (tokens : List Int) : follow backend tolerant state tokens = state := by
  induction tokens with
  | nil => rfl
  | cons token tokens inductionHypothesis => simpa [follow, takes, terminated] using inductionHypothesis

theorem refuses_of_terminated (terminated : backend.isTerminated state = true) (tokens : List Int) :
    refuses backend state tokens = false := by
  cases tokens with
  | nil => rfl
  | cons token tokens => simp [refuses, terminated]

theorem refuses_append (state : γ) (front back : List Int) :
    refuses backend state (front ++ back) =
      (refuses backend state front || refuses backend (follow backend false state front) back) := by
  induction front generalizing state with
  | nil => rfl
  | cons token front inductionHypothesis =>
      by_cases terminated : backend.isTerminated state = true
      · rw [refuses_of_terminated terminated, refuses_of_terminated terminated,
          follow_of_terminated terminated, refuses_of_terminated terminated]
        rfl
      · by_cases accepted : (backend.acceptTokens state [token]).1 = true
        · simpa [refuses, follow, takes, terminated, accepted] using inductionHypothesis _
        · simp [refuses, terminated, accepted]

/-- The tokens a grammar moves on with are accepted one after the other. -/
theorem acceptEach_follow (tolerant : Bool) (state : γ) (token : Int) :
    backend.acceptEach state (if takes backend tolerant state token then [token] else []) =
      some (follow backend tolerant state [token]) := by
  cases moves : takes backend tolerant state token with
  | true =>
      have accepted : (backend.acceptTokens state [token]).1 = true := by
        simp only [takes, Bool.and_eq_true] at moves
        exact moves.2
      simp [StructuredOutputGrammar.acceptEach, follow, moves, accepted]
  | false => simp [StructuredOutputGrammar.acceptEach, follow, moves]

theorem acceptEach_append {middle : γ} {front : List Int}
    (first : backend.acceptEach state front = some middle) (back : List Int) :
    backend.acceptEach state (front ++ back) = backend.acceptEach middle back := by
  induction front generalizing state with
  | nil =>
      cases first
      rfl
  | cons token front inductionHypothesis =>
      rw [StructuredOutputGrammar.acceptEach] at first
      rw [List.cons_append, StructuredOutputGrammar.acceptEach]
      split at first
      · next accepted =>
        rw [if_pos accepted]
        exact inductionHypothesis first
      · cases first

variable (backend)

namespace StructuredOutputManager

variable (manager : StructuredOutputManager κ μ) (request : Request γ κ)

/-- The rows behind the first drafts, from any state. -/
def rowsFrom (tolerant : Bool) (ends : List Int → Int → Bool) (before : List Int) (applies : Bool)
    (state : γ) (drafts : List Int) : List μ :=
  (List.range drafts.length).map fun j =>
    manager.row backend
      (follow backend tolerant state (content ends before applies (drafts.take j)))
      (appliesAfter ends before applies (drafts.take j))

theorem rowsFrom_cons (tolerant : Bool) (ends : List Int → Int → Bool) (before : List Int)
    (applies : Bool) (state : γ) (token : Int) (rest : List Int) :
    manager.rowsFrom backend tolerant ends before applies state (token :: rest) =
      manager.row backend state applies ::
        manager.rowsFrom backend tolerant ends (before ++ [token])
          (appliesNext ends before applies token)
          (follow backend tolerant state (if applies ∧ token ≠ -1 then [token] else [])) rest := by
  rw [rowsFrom, List.length_cons, List.range_succ_eq_map, List.map_cons, List.map_map]
  congr 1
  apply List.map_congr_left
  intro j _
  simp only [Function.comp_apply, Nat.succ_eq_add_one, List.take_succ_cons, content, appliesAfter,
    follow_append]

/-- The end of reasoning among the drafts, where the step begins within reasoning. -/
def draftEnds (before : List Int) (token : Int) : Bool :=
  !(manager.shouldFillBitmask request).1 &&
    endsReasoning (manager.getReasoner request) request.allTokenIds before token

/-- The state of a request's grammar behind drafts. -/
def stateAfter (drafts : List Int) : γ :=
  follow backend (!(manager.shouldFillBitmask request).1) request.grammar
    (content (manager.draftEnds request) [] (manager.shouldFillBitmask request).1 drafts)

/-- The row behind drafts. -/
def rowAfter (drafts : List Int) : μ :=
  manager.row backend (manager.stateAfter backend request drafts)
    (appliesAfter (manager.draftEnds request) [] (manager.shouldFillBitmask request).1 drafts)

/-- The row of the bonus token, which is constrained whenever the step began behind reasoning. -/
def bonusRow (drafts : List Int) : μ :=
  manager.row backend (manager.stateAfter backend request drafts)
    ((manager.shouldFillBitmask request).1 ||
      appliesAfter (manager.draftEnds request) [] (manager.shouldFillBitmask request).1 drafts)

/-- The rows of a request: one for each draft and one for the bonus token, which diffusion models
do not sample behind drafts. -/
def requestRows (drafts : List Int) : List μ :=
  (List.range drafts.length).map (fun j => manager.rowAfter backend request (drafts.take j)) ++
    if manager.isDiffusion ∧ drafts ≠ [] then [] else [manager.bonusRow backend request drafts]

/-- The grammar of a request that is constrained from the start rejects one of its drafts. -/
def refusesDrafts (drafts : List Int) : Bool :=
  (manager.shouldFillBitmask request).1 &&
    refuses backend request.grammar
      (content (manager.draftEnds request) [] (manager.shouldFillBitmask request).1 drafts)

end StructuredOutputManager

end Rows

namespace StructuredOutputManager

variable {backend : StructuredOutputGrammar γ μ} {manager : StructuredOutputManager κ μ}

section Drafts

variable {reasoner : Option ReasoningParser} {allTokenIds before rest : List Int} {token : Int}
  {tolerant : Bool} {window : DraftWindow γ μ}

/-- Drafts are tolerated when the bitmask applies because reasoning has ended among them. -/
def Tolerates (tolerant : Bool) (reasoner : Option ReasoningParser) (window : DraftWindow γ μ) :
    Prop :=
  if tolerant then window.applyBitmask = true → window.postReasoningEndInWindow = true
  else reasoner = none ∧ window.postReasoningEndInWindow = false

/-- The window behind a draft that is not refused. -/
def nextWindow (backend : StructuredOutputGrammar γ μ) (manager : StructuredOutputManager κ μ)
    (tolerant : Bool) (ends : List Int → Int → Bool) (before : List Int) (token : Int)
    (window : DraftWindow γ μ) : DraftWindow γ μ where
  grammar :=
    follow backend tolerant window.grammar
      (if window.applyBitmask ∧ token ≠ -1 then [token] else [])
  applyBitmask := appliesNext ends before window.applyBitmask token
  postReasoningEndInWindow := window.postReasoningEndInWindow ||
    decide (token ≠ -1 ∧ !window.applyBitmask ∧ ends before token)
  stateAdvancements := window.stateAdvancements +
    if window.applyBitmask ∧ token ≠ -1 ∧ takes backend tolerant window.grammar token then 1 else 0
  bitmask := window.bitmask.set window.cumulativeIndex
    (manager.row backend window.grammar window.applyBitmask)
  cumulativeIndex := window.cumulativeIndex + 1

theorem appliesNext_eq (applies : Bool) :
    (if token = -1 then false
      else applies || decide (token ≠ -1 ∧ !applies ∧ endsReasoning reasoner allTokenIds before token))
      = appliesNext (endsReasoning reasoner allTokenIds) before applies token := by
  unfold appliesNext
  by_cases padding : token = -1
  · simp [padding]
  · cases applies
    · simp [padding]
    · simp [padding]

theorem fillDraft_ok (lawful : backend.Lawful)
    (room : window.cumulativeIndex < window.bitmask.length)
    (tolerates : Tolerates tolerant reasoner window)
    (kept : tolerant = false → refuses backend window.grammar
      (if window.applyBitmask ∧ token ≠ -1 then [token] else []) = false) :
    manager.fillDraft backend reasoner allTokenIds before token window =
      .ok (nextWindow backend manager tolerant (endsReasoning reasoner allTokenIds) before token
        window) := by
  have filled : manager.fillBitmask backend window.bitmask
      ⟨window.grammar, window.cumulativeIndex, window.applyBitmask⟩ = .ok _ := if_pos room
  unfold fillDraft nextWindow
  rw [filled]
  simp only [bind, Except.bind, appliesNext_eq]
  by_cases advances : window.applyBitmask = true ∧ token ≠ -1
  · rw [if_pos advances] at kept ⊢
    have applies := advances.1
    by_cases terminated : backend.isTerminated window.grammar = true
    · have stays : takes backend tolerant window.grammar token = false := by
        simp [takes, terminated]
      rw [if_neg (by simp [terminated])]
      simp [follow, stays, applies]
    · rw [if_pos ⟨advances, by simpa using terminated⟩]
      cases tolerant with
      | true =>
          have post : window.postReasoningEndInWindow = true := tolerates applies
          by_cases valid : (backend.validateTokens window.grammar [token]).isEmpty = true
          · have stays : takes backend true window.grammar token = false := by
              simp [takes, valid]
            simp [follow, stays, applies, post, valid]
          · have accepted : (backend.acceptTokens window.grammar [token]).1 = true :=
              lawful.accept_of_validate _ _ (by simpa using valid)
            have moves : takes backend true window.grammar token = true := by
              simp [takes, valid, accepted, terminated]
            simp [follow, moves, applies, post, valid, accepted, advances.2]
      | false =>
          have accepted : (backend.acceptTokens window.grammar [token]).1 = true := by
            simpa [refuses, terminated] using kept rfl
          have moves : takes backend false window.grammar token = true := by
            simp [takes, accepted, terminated]
          rcases tolerates with ⟨rfl, post⟩
          simp [follow, moves, applies, post, accepted, advances.2]
  · rw [if_neg (fun both => advances both.1), if_neg advances,
      if_neg (fun both => advances ⟨both.1, both.2.1⟩)]
    rfl

theorem fillDraft_error (room : window.cumulativeIndex < window.bitmask.length)
    (tolerates : Tolerates false reasoner window) (refused : refuses backend window.grammar
      (if window.applyBitmask ∧ token ≠ -1 then [token] else []) = true) :
    manager.fillDraft backend reasoner allTokenIds before token window =
      .error .assertionError := by
  have filled : manager.fillBitmask backend window.bitmask
      ⟨window.grammar, window.cumulativeIndex, window.applyBitmask⟩ = .ok _ := if_pos room
  unfold fillDraft
  rw [filled]
  simp only [bind, Except.bind, appliesNext_eq]
  by_cases advances : window.applyBitmask = true ∧ token ≠ -1
  · rw [if_pos advances] at refused
    have terminated : backend.isTerminated window.grammar = false := by
      by_contra terminated
      simp [refuses, terminated] at refused
    have rejected : (backend.acceptTokens window.grammar [token]).1 = false := by
      by_contra accepted
      simp [refuses, accepted] at refused
    rcases tolerates with ⟨rfl, post⟩
    rw [if_pos ⟨advances, by simpa using terminated⟩]
    simp [post, rejected, advances.1]
  · rw [if_neg advances] at refused
    cases refused

theorem nextWindow_tolerates (tolerates : Tolerates tolerant reasoner window) :
    Tolerates tolerant reasoner (nextWindow backend manager tolerant
      (endsReasoning reasoner allTokenIds) before token window) := by
  cases tolerant with
  | true =>
      change window.applyBitmask = true → window.postReasoningEndInWindow = true at tolerates
      intro applies
      unfold nextWindow appliesNext at applies
      by_cases padding : token = -1
      · simp [padding] at applies
      · cases begun : window.applyBitmask with
        | true => simp [nextWindow, tolerates begun]
        | false => simpa [nextWindow, padding, begun] using Or.inr applies
  | false =>
      rcases tolerates with ⟨rfl, post⟩
      exact ⟨rfl, by simp [nextWindow, post, endsReasoning]⟩

/-- What the loop over drafts has done to a window. -/
structure Filled (backend : StructuredOutputGrammar γ μ) (manager : StructuredOutputManager κ μ)
    (tolerant : Bool) (ends : List Int → Int → Bool) (before drafts : List Int)
    (window filled : DraftWindow γ μ) : Prop where
  grammar : filled.grammar =
    follow backend tolerant window.grammar (content ends before window.applyBitmask drafts)
  applies : filled.applyBitmask = appliesAfter ends before window.applyBitmask drafts
  taken : ∃ taken, backend.acceptEach window.grammar taken = some filled.grammar ∧
    filled.stateAdvancements = window.stateAdvancements + taken.length
  length : filled.bitmask.length = window.bitmask.length
  rows : filled.bitmask.take filled.cumulativeIndex =
    window.bitmask.take window.cumulativeIndex ++
      manager.rowsFrom backend tolerant ends before window.applyBitmask window.grammar drafts
  cumulativeIndex : filled.cumulativeIndex = window.cumulativeIndex + drafts.length

theorem Filled.cons {ends : List Int → Int → Bool} {filled : DraftWindow γ μ}
    (room : window.cumulativeIndex < window.bitmask.length)
    (later : Filled backend manager tolerant ends (before ++ [token]) rest
      (nextWindow backend manager tolerant ends before token window) filled) :
    Filled backend manager tolerant ends before (token :: rest) window filled where
  grammar := by
    rw [later.grammar, content, follow_append]
    rfl
  applies := later.applies
  taken := by
    rcases later.taken with ⟨taken, accepted, counted⟩
    by_cases advances : window.applyBitmask = true ∧ token ≠ -1
    · have first : backend.acceptEach window.grammar _ = _ :=
        acceptEach_follow tolerant window.grammar token
      have reached : (nextWindow backend manager tolerant ends before token window).grammar =
          follow backend tolerant window.grammar [token] := by
        simp only [nextWindow, if_pos advances]
      rw [reached] at accepted
      refine ⟨_, (acceptEach_append first taken).trans accepted, ?_⟩
      rw [counted]
      cases moves : takes backend tolerant window.grammar token with
      | true => simp [nextWindow, advances.1, advances.2, moves]; omega
      | false => simp [nextWindow, moves]
    · have stays : (nextWindow backend manager tolerant ends before token window).grammar =
          window.grammar := by
        simp only [nextWindow, if_neg advances]
        rfl
      rw [stays] at accepted
      refine ⟨taken, accepted, ?_⟩
      rw [counted]
      have none : ¬ (window.applyBitmask = true ∧ token ≠ -1 ∧
          takes backend tolerant window.grammar token = true) := fun all =>
        advances ⟨all.1, all.2.1⟩
      simp only [nextWindow, if_neg none, Nat.add_zero]
  length := by
    rw [later.length]
    exact List.length_set
  rows := by
    rw [later.rows, rowsFrom_cons]
    simp only [nextWindow]
    rw [List.take_succ_eq_append_getElem (by simpa using room), List.take_set_of_le (Nat.le_refl _),
      List.getElem_set_self, List.append_assoc]
    rfl
  cumulativeIndex := by
    rw [later.cumulativeIndex, List.length_cons]
    simp only [nextWindow]
    omega

variable {drafts : List Int}

theorem fillDrafts_ok (lawful : backend.Lawful)
    (room : window.cumulativeIndex + drafts.length ≤ window.bitmask.length)
    (tolerates : Tolerates tolerant reasoner window)
    (kept : tolerant = false → refuses backend window.grammar
      (content (endsReasoning reasoner allTokenIds) before window.applyBitmask drafts) = false) :
    ∃ filled, manager.fillDrafts backend reasoner allTokenIds before drafts window = .ok filled ∧
      Filled backend manager tolerant (endsReasoning reasoner allTokenIds) before drafts window
        filled := by
  induction drafts generalizing before window with
  | nil =>
      refine ⟨window, rfl, rfl, rfl, ⟨[], rfl, rfl⟩, rfl, ?_, rfl⟩
      simp [rowsFrom]
  | cons token rest inductionHypothesis =>
      rw [List.length_cons] at room
      have here : window.cumulativeIndex < window.bitmask.length := by omega
      have next : manager.fillDraft backend reasoner allTokenIds before token window =
          .ok (nextWindow backend manager tolerant (endsReasoning reasoner allTokenIds) before token
            window) := by
        apply fillDraft_ok lawful here tolerates
        intro strict
        have keeps := kept strict
        rw [content, refuses_append, Bool.or_eq_false_iff] at keeps
        exact keeps.1
      rw [fillDrafts, next]
      set after := nextWindow backend manager tolerant (endsReasoning reasoner allTokenIds) before
        token window with afterEq
      have roomNext : after.cumulativeIndex + rest.length ≤ after.bitmask.length := by
        simp only [afterEq, nextWindow, List.length_set]
        omega
      have keptNext : tolerant = false → refuses backend after.grammar
          (content (endsReasoning reasoner allTokenIds) (before ++ [token]) after.applyBitmask
            rest) = false := by
        rintro rfl
        have keeps := kept rfl
        rw [content, refuses_append, Bool.or_eq_false_iff] at keeps
        exact keeps.2
      rcases inductionHypothesis roomNext (nextWindow_tolerates tolerates) keptNext with
        ⟨filled, ran, later⟩
      exact ⟨filled, ran, later.cons here⟩

theorem fillDrafts_error (lawful : backend.Lawful)
    (room : window.cumulativeIndex + drafts.length ≤ window.bitmask.length)
    (tolerates : Tolerates false reasoner window) (refused : refuses backend window.grammar
      (content (endsReasoning reasoner allTokenIds) before window.applyBitmask drafts) = true) :
    manager.fillDrafts backend reasoner allTokenIds before drafts window =
      .error .assertionError := by
  induction drafts generalizing before window with
  | nil => cases refused
  | cons token rest inductionHypothesis =>
      rw [List.length_cons] at room
      have here : window.cumulativeIndex < window.bitmask.length := by omega
      rw [content, refuses_append, Bool.or_eq_true] at refused
      rw [fillDrafts]
      cases first : refuses backend window.grammar
          (if window.applyBitmask ∧ token ≠ -1 then [token] else []) with
      | true => rw [fillDraft_error here tolerates first]; rfl
      | false =>
          rw [first] at refused
          rw [fillDraft_ok lawful here tolerates fun _ => first]
          apply inductionHypothesis _ (nextWindow_tolerates tolerates)
          · exact refused.resolve_left Bool.false_ne_true
          · simp only [nextWindow, List.length_set]
            omega

end Drafts

section Requests

/-- A request that has been asked whether its bitmask is filled. -/
structure Asked (manager : StructuredOutputManager κ μ) (request asked : Request γ κ) : Prop where
  again : manager.shouldFillBitmask asked = ((manager.shouldFillBitmask request).1, asked)
  reasoner : manager.getReasoner asked = manager.getReasoner request
  allTokenIds : asked.allTokenIds = request.allTokenIds
  grammar : asked.grammar = request.grammar

theorem shouldFillBitmask_asked (manager : StructuredOutputManager κ μ) (request : Request γ κ) :
    Asked manager request (manager.shouldFillBitmask request).2 := by
  by_cases always : manager.enableInReasoning = true ∨ request.reasoningEnded = some true
  · have asks : manager.shouldFillBitmask request = (true, request) := if_pos always
    rw [asks]
    exact ⟨by rw [asks], rfl, rfl, rfl⟩
  · have asks : manager.shouldFillBitmask request = _ := if_neg always
    cases parser : manager.getReasoner request with
    | none =>
        rw [parser] at asks
        rw [asks]
        exact ⟨by rw [asks], rfl, rfl, rfl⟩
    | some reasoner =>
        cases known : request.reasoningEnded with
        | some ended =>
            rw [parser, known] at asks
            rw [asks]
            exact ⟨by rw [asks], rfl, rfl, rfl⟩
        | none =>
            rw [parser, known] at asks
            rw [asks]
            refine ⟨?_, rfl, rfl, rfl⟩
            rw [asks]
            dsimp only
            generalize reasoner.isReasoningEnd (request.promptTokenIds.getD []) = ended
            have same : manager.getReasoner (request.setReasoningEnded ended) = some reasoner :=
              parser
            have now : (request.setReasoningEnded ended).reasoningEnded = some ended := rfl
            unfold shouldFillBitmask
            rw [same, now]
            cases ended with
            | true => simp
            | false =>
                simpa using fun enabled => always (Or.inl enabled)

variable {request asked : Request γ κ}

theorem Asked.draftEnds (asks : Asked manager request asked) :
    manager.draftEnds asked = manager.draftEnds request := by
  funext before token
  rw [StructuredOutputManager.draftEnds, StructuredOutputManager.draftEnds, asks.again,
    asks.reasoner, asks.allTokenIds]

theorem Asked.refusesDrafts (asks : Asked manager request asked) (drafts : List Int) :
    manager.refusesDrafts backend asked drafts = manager.refusesDrafts backend request drafts := by
  rw [StructuredOutputManager.refusesDrafts, StructuredOutputManager.refusesDrafts, asks.again,
    asks.draftEnds, asks.grammar]

theorem Asked.requestRows (asks : Asked manager request asked) (drafts : List Int) :
    manager.requestRows backend asked drafts = manager.requestRows backend request drafts := by
  simp only [StructuredOutputManager.requestRows, rowAfter, bonusRow, stateAfter, asks.again,
    asks.draftEnds, asks.grammar]

theorem requestRows_length (drafts : List Int) :
    (manager.requestRows backend request drafts).length =
      drafts.length + if manager.isDiffusion ∧ drafts ≠ [] then 0 else 1 := by
  rw [StructuredOutputManager.requestRows, List.length_append, List.length_map, List.length_range]
  split
  · rfl
  · rfl

theorem restored_eq (lawful : backend.Lawful) {state accepted : γ} {taken : List Int}
    (moved : backend.acceptEach state taken = some accepted) :
    (if taken.length > 0 then backend.rollback accepted taken.length else accepted) = state := by
  cases taken with
  | nil =>
      cases moved
      rfl
  | cons token rest =>
      exact lawful.rollback_acceptEach _ _ _ moved

/-- The window in which the drafts of a request are looked at. -/
def startWindow (manager : StructuredOutputManager κ μ) (request : Request γ κ)
    (bitmask : List μ) (cumulativeIndex : Nat) : DraftWindow γ μ :=
  ⟨request.grammar, (manager.shouldFillBitmask request).1, false, 0, bitmask, cumulativeIndex⟩

/-- The reasoner that looks for the end of reasoning among the drafts. -/
def windowReasoner (manager : StructuredOutputManager κ μ) (request : Request γ κ) :
    Option ReasoningParser :=
  if (manager.shouldFillBitmask request).1 = true then none
  else manager.getReasoner (manager.shouldFillBitmask request).2

theorem startWindow_tolerates (bitmask : List μ) (cumulativeIndex : Nat) :
    Tolerates (!(manager.shouldFillBitmask request).1) (manager.windowReasoner request)
      (manager.startWindow request bitmask cumulativeIndex) := by
  unfold windowReasoner startWindow
  cases (manager.shouldFillBitmask request).1 with
  | true => exact ⟨rfl, rfl⟩
  | false =>
      intro applies
      cases applies

theorem endsReasoning_eq :
    endsReasoning (manager.windowReasoner request)
      (manager.shouldFillBitmask request).2.allTokenIds = manager.draftEnds request := by
  have asks := shouldFillBitmask_asked manager request
  funext before token
  rw [StructuredOutputManager.draftEnds, windowReasoner, asks.reasoner, asks.allTokenIds]
  cases (manager.shouldFillBitmask request).1 with
  | true => rfl
  | false => rfl

variable {drafts : List Int} {bitmask : List μ} {cumulativeIndex : Nat}

theorem startWindow_ok (lawful : backend.Lawful)
    (room : cumulativeIndex + drafts.length ≤ bitmask.length)
    (kept : manager.refusesDrafts backend request drafts = false) :
    ∃ filled, manager.fillDrafts backend (manager.windowReasoner request)
        (manager.shouldFillBitmask request).2.allTokenIds [] drafts
        (manager.startWindow request bitmask cumulativeIndex) = .ok filled ∧
      Filled backend manager (!(manager.shouldFillBitmask request).1) (manager.draftEnds request) []
        drafts (manager.startWindow request bitmask cumulativeIndex) filled := by
  rw [← endsReasoning_eq]
  apply fillDrafts_ok lawful room (startWindow_tolerates bitmask cumulativeIndex)
  intro strict
  rw [StructuredOutputManager.refusesDrafts, ← endsReasoning_eq, Bool.and_eq_false_iff] at kept
  rcases kept with tolerant | keeps
  · rw [tolerant] at strict
    cases strict
  · exact keeps

theorem startWindow_error (lawful : backend.Lawful)
    (room : cumulativeIndex + drafts.length ≤ bitmask.length)
    (refused : manager.refusesDrafts backend request drafts = true) :
    manager.fillDrafts backend (manager.windowReasoner request)
        (manager.shouldFillBitmask request).2.allTokenIds [] drafts
        (manager.startWindow request bitmask cumulativeIndex) = .error .assertionError := by
  rw [StructuredOutputManager.refusesDrafts, ← endsReasoning_eq, Bool.and_eq_true] at refused
  have tolerates : Tolerates (!(manager.shouldFillBitmask request).1) _
      (manager.startWindow request bitmask cumulativeIndex) :=
    startWindow_tolerates bitmask cumulativeIndex
  rw [refused.1] at tolerates
  exact fillDrafts_error lawful room tolerates refused.2

/-- The rest of the serial path for a request whose drafts have been looked at. -/
def closeWindow (backend : StructuredOutputGrammar γ μ) (manager : StructuredOutputManager κ μ)
    (request : Request γ κ) (drafts : List Int) (window : DraftWindow γ μ) :
    Except PyError (Request γ κ × List μ × Nat) :=
  let asked := (manager.shouldFillBitmask request).2
  let again := manager.shouldFillBitmask asked
  let restored := if window.stateAdvancements > 0 then
      backend.rollback window.grammar window.stateAdvancements
    else window.grammar
  if manager.isDiffusion ∧ drafts ≠ [] then
    .ok (again.2.setGrammar restored, window.bitmask, window.cumulativeIndex)
  else
    (manager.fillBitmask backend window.bitmask
      ⟨window.grammar, window.cumulativeIndex, again.1 || window.applyBitmask⟩).bind fun filled =>
      .ok (again.2.setGrammar restored, filled, window.cumulativeIndex + 1)

theorem fillRequest_eq (drafts : List Int) (bitmask : List μ) (cumulativeIndex : Nat) :
    manager.fillRequest backend request drafts bitmask cumulativeIndex =
      (manager.fillDrafts backend (manager.windowReasoner request)
        (manager.shouldFillBitmask request).2.allTokenIds [] drafts
        (manager.startWindow request bitmask cumulativeIndex)).bind
        (manager.closeWindow backend request drafts) := by
  have asks := shouldFillBitmask_asked manager request
  unfold startWindow
  rw [← asks.grammar]
  rfl

/-- A request of the serial path fills its rows and gets its grammar back. -/
theorem fillRequest_ok (lawful : backend.Lawful)
    (room : cumulativeIndex + (drafts.length + 1) ≤ bitmask.length)
    (kept : manager.refusesDrafts backend request drafts = false) :
    ∃ filled, manager.fillRequest backend request drafts bitmask cumulativeIndex =
        .ok ((manager.shouldFillBitmask request).2, filled,
          cumulativeIndex + (manager.requestRows backend request drafts).length) ∧
      filled.length = bitmask.length ∧
      filled.take (cumulativeIndex + (manager.requestRows backend request drafts).length) =
        bitmask.take cumulativeIndex ++ manager.requestRows backend request drafts := by
  have asks := shouldFillBitmask_asked manager request
  have fits : cumulativeIndex + drafts.length ≤ bitmask.length := by omega
  rcases startWindow_ok lawful fits kept with ⟨window, ran, spec⟩
  have restores : (manager.shouldFillBitmask request).2.setGrammar request.grammar =
      (manager.shouldFillBitmask request).2 := by
    rw [← asks.grammar]
    rfl
  have restored : (if window.stateAdvancements > 0 then
      backend.rollback window.grammar window.stateAdvancements else window.grammar) =
        request.grammar := by
    rcases spec.taken with ⟨taken, moved, counted⟩
    have all : window.stateAdvancements = taken.length := counted.trans (Nat.zero_add _)
    rw [all]
    exact restored_eq lawful moved
  have index : window.cumulativeIndex = cumulativeIndex + drafts.length := spec.cumulativeIndex
  have length : window.bitmask.length = bitmask.length := spec.length
  have rows : window.bitmask.take window.cumulativeIndex = bitmask.take cumulativeIndex ++
      (List.range drafts.length).map fun j => manager.rowAfter backend request (drafts.take j) :=
    spec.rows
  have bonus : manager.row backend window.grammar
      ((manager.shouldFillBitmask request).1 || window.applyBitmask) =
        manager.bonusRow backend request drafts := by
    rw [spec.grammar, spec.applies]
    rfl
  rw [fillRequest_eq, ran, requestRows_length]
  simp only [Except.bind, closeWindow, asks.again, restored, restores]
  by_cases diffuses : manager.isDiffusion = true ∧ drafts ≠ []
  · refine ⟨window.bitmask, ?_, length, ?_⟩
    · rw [if_pos diffuses, if_pos diffuses, index, Nat.add_zero]
    · rw [if_pos diffuses, Nat.add_zero, ← index, rows, StructuredOutputManager.requestRows,
        if_pos diffuses, List.append_nil]
  · have here : window.cumulativeIndex < window.bitmask.length := by omega
    refine ⟨window.bitmask.set window.cumulativeIndex (manager.bonusRow backend request drafts),
      ?_, ?_, ?_⟩
    · rw [if_neg diffuses, if_neg diffuses, fillBitmask, if_pos here, bonus, index]
      rfl
    · rw [List.length_set, length]
    · rw [if_neg diffuses, ← Nat.add_assoc, ← index,
        List.take_succ_eq_append_getElem (by simpa using here),
        List.take_set_of_le (Nat.le_refl _), List.getElem_set_self, rows,
        StructuredOutputManager.requestRows, if_neg diffuses, List.append_assoc]

theorem fillRequest_error (lawful : backend.Lawful)
    (room : cumulativeIndex + (drafts.length + 1) ≤ bitmask.length)
    (refused : manager.refusesDrafts backend request drafts = true) :
    manager.fillRequest backend request drafts bitmask cumulativeIndex =
      .error .assertionError := by
  have fits : cumulativeIndex + drafts.length ≤ bitmask.length := by omega
  rw [fillRequest_eq, startWindow_error lawful fits refused]
  rfl

end Requests

end StructuredOutputManager

end Vllm.StructuredOutput
