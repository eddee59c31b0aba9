import Vllm.StructuredOutput.Manager

/-!
# The tokens behind the end of reasoning

A run keeps one of three phases: the request began behind its reasoning, it still reasons, or its
reasoning has ended among its output.  In each of them the grammar has been fed what it should.
-/

namespace Vllm.StructuredOutput

variable {γ μ κ : Type}

namespace Request

/-- A new request, whose tokens are those of its prompt or zeros for a prompt of embeddings. -/
def new (promptTokenIds : Option (List Int)) (numPromptTokens : Nat) (grammar : γ)
    (reasoningEnded : Option Bool) (reasoningParserKwargs : κ) : Request γ κ where
  promptTokenIds := promptTokenIds
  allTokenIds := promptTokenIds.getD (List.replicate numPromptTokens 0)
  numComputedTokens := 0
  numOutputPlaceholders := 0
  structuredOutputRequest := ⟨grammar, reasoningEnded, none, reasoningParserKwargs⟩

/-- Reasoning is over before the output: the frontend has said so, or the prompt ends it. -/
def endedBefore (request : Request γ κ) (reasoner : ReasoningParser) : Bool :=
  request.reasoningEnded.getD (reasoner.isReasoningEnd (request.promptTokenIds.getD []))

/-- The request with further tokens. -/
def append (request : Request γ κ) (tokenIds : List Int) : Request γ κ :=
  { request with allTokenIds := request.allTokenIds ++ tokenIds }

def endIndex (request : Request γ κ) : Option Int :=
  request.structuredOutputRequest.reasoningEndTokenIndex

theorem updateWithOutput_eq (checkStop : Request γ κ → Bool) (tokenIds : List Int)
    (request : Request γ κ) :
    (request.updateWithOutput checkStop tokenIds).2.2 =
      request.append (request.updateWithOutput checkStop tokenIds).1 := by
  induction tokenIds generalizing request with
  | nil => simp [updateWithOutput, append]
  | cons tokenId tokenIds inductionHypothesis =>
      rw [updateWithOutput]
      split
      · rfl
      · rw [inductionHypothesis]
        simp [append, appendOutputTokenId]

end Request

namespace Advance

/-- Where a run of a request stands. -/
inductive Phase (manager : StructuredOutputManager κ μ) (reasoner : ReasoningParser)
    (start : List Int) (behind : Bool) (outputs : List Int) (request : Request γ κ)
    (fed : List Int) : Prop
  | behind (begins : behind = true)
      (ended : manager.enableInReasoning = true ∨ request.reasoningEnded = some true)
      (index : request.endIndex = none) (feeds : fed = outputs)
  | reasoning (begins : behind = false) (disabled : manager.enableInReasoning = false)
      (known : request.reasoningEnded = some false) (index : request.endIndex = none)
      (goesOn : endsWithin reasoner start outputs = false) (feeds : fed = [])
  | ended (begins : behind = false) (known : request.reasoningEnded = some true)
      (index : ∃ endIdx : Int, request.endIndex = some endIdx ∧
        endIdx < request.allTokenIds.length)
      (past : endsWithin reasoner start outputs = true)
      (feeds : fed = afterReasoning reasoner start outputs)

/-- What a run keeps: the parser, the output behind the prompt, and a phase. -/
structure Follows (manager : StructuredOutputManager κ μ) (reasoner : ReasoningParser)
    (start : List Int) (behind : Bool) (outputs : List Int) (request : Request γ κ)
    (fed : List Int) : Prop where
  parser : manager.getReasoner request = some reasoner
  tokens : request.allTokenIds = start ++ outputs
  phase : Phase manager reasoner start behind outputs request fed

variable {backend : StructuredOutputGrammar γ μ} {manager : StructuredOutputManager κ μ}
  {checkStop : Request γ κ → Bool} {reasoner : ReasoningParser} {start outputs fed : List Int}
  {behind : Bool} {request : Request γ κ} {newTokenIds : List Int}

theorem shouldAdvance_of_ended
    (ended : manager.enableInReasoning = true ∨ request.reasoningEnded = some true) :
    manager.shouldAdvance request newTokenIds = (true, request) :=
  if_pos ended

/-- While a request reasons, a step advances its grammar if reasoning ends within its tokens. -/
theorem shouldAdvance_of_reasoning (single : CutsSingly reasoner)
    (parser : manager.getReasoner request = some reasoner)
    (disabled : manager.enableInReasoning = false) (known : request.reasoningEnded = some false)
    (some : newTokenIds ≠ []) :
    manager.shouldAdvance (request.append newTokenIds) newTokenIds =
      if endsWithin reasoner request.allTokenIds newTokenIds = true then
        (true, ((request.append newTokenIds).setReasoningEnded true).setReasoningEndTokenIndex
          (findReasoningEndIndex reasoner (request.allTokenIds ++ newTokenIds)
            request.allTokenIds.length))
      else (false, request.append newTokenIds) := by
  have sameParser : manager.getReasoner (request.append newTokenIds) = Option.some reasoner :=
    parser
  have reasons : ¬ (manager.enableInReasoning = true ∨
      (request.append newTokenIds).reasoningEnded = Option.some true) := by
    change ¬ (manager.enableInReasoning = true ∨ request.reasoningEnded = Option.some true)
    simp [disabled, known]
  have begins : StructuredOutputManager.deltaStart (request.append newTokenIds) newTokenIds =
      request.allTokenIds.length := by
    rw [StructuredOutputManager.deltaStart, if_pos some]
    simp [Request.append]
  unfold StructuredOutputManager.shouldAdvance
  rw [if_neg reasons, sameParser]
  dsimp only
  rw [if_pos some, begins, ← single]
  rfl

/-- The index of the end of reasoning leaves of a step's tokens what comes behind it. -/
theorem trim_of_ended (past : endsWithin reasoner request.allTokenIds newTokenIds = true) :
    ∃ endIdx : Int, findReasoningEndIndex reasoner (request.allTokenIds ++ newTokenIds)
        request.allTokenIds.length = endIdx ∧
      endIdx < (request.append newTokenIds).allTokenIds.length ∧
      StructuredOutputManager.trimReasoningForAdvance
          (((request.append newTokenIds).setReasoningEnded true).setReasoningEndTokenIndex endIdx)
          newTokenIds = afterReasoning reasoner request.allTokenIds newTokenIds := by
  rcases findEndFrom_of_ended past with ⟨index, found, below, cut⟩
  have total : (request.append newTokenIds).allTokenIds.length =
      request.allTokenIds.length + newTokenIds.length := List.length_append
  refine ⟨((request.allTokenIds.length + index : Nat) : Int), ?_, by omega, ?_⟩
  · rw [findReasoningEndIndex, List.take_left, List.drop_left, found]
    rfl
  · rw [← cut]
    have count : ((request.allTokenIds.length + index : Nat) : Int) + 1 -
        ((request.append newTokenIds).allTokenIds.length - newTokenIds.length) =
          ((index + 1 : Nat) : Int) := by
      omega
    change (if ((request.allTokenIds.length + index : Nat) : Int) + 1 -
        ((request.append newTokenIds).allTokenIds.length - newTokenIds.length) ≤ 0 then newTokenIds
      else newTokenIds.drop (((request.allTokenIds.length + index : Nat) : Int) + 1 -
        ((request.append newTokenIds).allTokenIds.length - newTokenIds.length)).toNat) = _
    rw [count, if_neg (by omega), Int.toNat_natCast]

/-- Steps behind the end of reasoning are fed as they are. -/
theorem trim_of_behind
    (index : request.endIndex = none ∨
      ∃ endIdx : Int, request.endIndex = some endIdx ∧ endIdx < request.allTokenIds.length) :
    StructuredOutputManager.trimReasoningForAdvance (request.append newTokenIds) newTokenIds =
      newTokenIds := by
  have same : (request.append newTokenIds).structuredOutputRequest.reasoningEndTokenIndex =
      request.endIndex := rfl
  unfold StructuredOutputManager.trimReasoningForAdvance
  rw [same]
  rcases index with none | ⟨endIdx, some, below⟩
  · rw [none]
  · rw [some]
    have total : (request.append newTokenIds).allTokenIds.length =
        request.allTokenIds.length + newTokenIds.length := List.length_append
    dsimp only
    rw [if_pos (by rw [total]; omega)]

/-- Feeding tokens to the grammar changes neither the tokens nor the phase of a request. -/
theorem Follows.setGrammar (follows : Follows manager reasoner start behind outputs request fed)
    (state : γ) : Follows manager reasoner start behind outputs (request.setGrammar state) fed where
  parser := follows.parser
  tokens := follows.tokens
  phase := by
    cases follows.phase with
    | behind begins ended index feeds => exact .behind begins ended index feeds
    | reasoning begins disabled known index goesOn feeds =>
        exact .reasoning begins disabled known index goesOn feeds
    | ended begins known index past feeds => exact .ended begins known index past feeds

theorem advanceGrammar_of_shouldAdvance {asking asked : Request γ κ} {stopped : Bool}
    {advanceTokenIds : List Int} (some : newTokenIds ≠ [])
    (advances : manager.shouldAdvance asking newTokenIds = (true, asked))
    (trimmed : StructuredOutputManager.trimReasoningForAdvance asked newTokenIds = advanceTokenIds)
    (follows : Follows manager reasoner start behind outputs asked (fed ++ advanceTokenIds)) :
    Follows manager reasoner start behind outputs
      (advanceGrammar backend manager newTokenIds ⟨asking, fed, stopped⟩).request
      (advanceGrammar backend manager newTokenIds ⟨asking, fed, stopped⟩).fed := by
  unfold advanceGrammar
  rw [if_neg some, advances]
  dsimp only
  rw [if_pos rfl, trimmed]
  by_cases none : advanceTokenIds = []
  · rw [if_pos none]
    rwa [none, List.append_nil] at follows
  · rw [if_neg none]
    exact follows.setGrammar _

/-- The tokens of a step keep the phases in order. -/
theorem advanceGrammar_follows (single : CutsSingly reasoner)
    (follows : Follows manager reasoner start behind outputs request fed) (stopped : Bool) :
    Follows manager reasoner start behind (outputs ++ newTokenIds)
      (advanceGrammar backend manager newTokenIds
        ⟨request.append newTokenIds, fed, stopped⟩).request
      (advanceGrammar backend manager newTokenIds
        ⟨request.append newTokenIds, fed, stopped⟩).fed := by
  have tokens : (request.append newTokenIds).allTokenIds = start ++ (outputs ++ newTokenIds) := by
    rw [← List.append_assoc, ← follows.tokens]
    rfl
  by_cases some : newTokenIds = []
  · have unchanged : request.append newTokenIds = request := by
      rw [some, Request.append, List.append_nil]
    unfold advanceGrammar
    rw [if_pos some, unchanged, some, List.append_nil]
    exact follows
  · cases follows.phase with
    | behind begins ended index feeds =>
        have asks : manager.shouldAdvance (request.append newTokenIds) newTokenIds =
            (true, request.append newTokenIds) := shouldAdvance_of_ended ended
        apply advanceGrammar_of_shouldAdvance some asks (trim_of_behind (Or.inl index))
        constructor
        · exact follows.parser
        · exact tokens
        · apply Phase.behind
          · exact begins
          · exact ended
          · exact index
          · rw [feeds]
    | ended begins known index past feeds =>
        have asks : manager.shouldAdvance (request.append newTokenIds) newTokenIds =
            (true, request.append newTokenIds) := shouldAdvance_of_ended (Or.inr known)
        apply advanceGrammar_of_shouldAdvance some asks (trim_of_behind (Or.inr index))
        rcases index with ⟨endIdx, found, below⟩
        constructor
        · exact follows.parser
        · exact tokens
        · apply Phase.ended
          · exact begins
          · exact known
          · refine ⟨endIdx, found, ?_⟩
            rw [tokens, ← List.append_assoc, ← follows.tokens, List.length_append]
            omega
          · rw [endsWithin_append, past, Bool.true_or]
          · rw [feeds, afterReasoning_append_of_ended past]
    | reasoning begins disabled known index goesOn feeds =>
        have asks := shouldAdvance_of_reasoning single follows.parser disabled known some
        by_cases past : endsWithin reasoner request.allTokenIds newTokenIds = true
        · rw [if_pos past] at asks
          rcases trim_of_ended past with ⟨endIdx, found, below, trimmed⟩
          rw [found] at asks
          apply advanceGrammar_of_shouldAdvance some asks trimmed
          constructor
          · exact follows.parser
          · exact tokens
          · apply Phase.ended
            · exact begins
            · rfl
            · exact ⟨endIdx, rfl, below⟩
            · rw [endsWithin_append, ← follows.tokens, past, Bool.or_true]
            · rw [feeds, afterReasoning_append_of_not_ended goesOn, ← follows.tokens]
              rfl
        · rw [if_neg past] at asks
          unfold advanceGrammar
          rw [if_neg some, asks]
          constructor
          · exact follows.parser
          · exact tokens
          · apply Phase.reasoning
            · exact begins
            · exact disabled
            · exact known
            · exact index
            · rw [endsWithin_append, goesOn, ← follows.tokens]
              simpa using past
            · exact feeds

/-- Filling a bitmask changes nothing any more. -/
theorem shouldFillBitmask_follows
    (follows : Follows manager reasoner start behind outputs request fed) :
    (manager.shouldFillBitmask request).2 = request := by
  unfold StructuredOutputManager.shouldFillBitmask
  split
  · rfl
  · next reasons =>
    rw [follows.parser]
    cases follows.phase with
    | behind begins ended index feeds => exact absurd ended reasons
    | ended begins known index past feeds => exact absurd (Or.inr known) reasons
    | reasoning begins disabled known index goesOn feeds => rw [known]

/-- The counts of a request do not matter to its phase. -/
theorem Follows.setCounts (follows : Follows manager reasoner start behind outputs request fed)
    (numComputedTokens numOutputPlaceholders : Int) :
    Follows manager reasoner start behind outputs
      (request.setCounts numComputedTokens numOutputPlaceholders) fed where
  parser := follows.parser
  tokens := follows.tokens
  phase := by
    cases follows.phase with
    | behind begins ended index feeds => exact .behind begins ended index feeds
    | reasoning begins disabled known index goesOn feeds =>
        exact .reasoning begins disabled known index goesOn feeds
    | ended begins known index past feeds => exact .ended begins known index past feeds

/-- Nothing in the output has ended reasoning, wherever a window begins. -/
theorem quiet_window (single : CutsSingly reasoner)
    (goesOn : endsWithin reasoner start outputs = false)
    {first : Nat} (inside : start.length ≤ first) :
    reasoner.isReasoningEndStreaming (start ++ outputs) ((start ++ outputs).drop first) = false := by
  have split := single ((start ++ outputs).take first) ((start ++ outputs).drop first)
  rw [List.take_append_drop] at split
  have parts : endsWithin reasoner start _ = _ :=
    endsWithin_append start (outputs.take (first - start.length))
      (outputs.drop (first - start.length))
  rw [List.take_append_drop, goesOn] at parts
  rw [split, List.take_append, List.drop_append, List.take_of_length_le inside,
    List.drop_eq_nil_of_le inside, List.nil_append]
  exact (Bool.or_eq_false_iff.mp parts.symm).2

/-- A draft update whose window lies in the output has nothing to find. -/
theorem drafts_follows (single : CutsSingly reasoner)
    (follows : Follows manager reasoner start behind outputs request fed)
    (window : (start.length : Int) ≤ request.numComputedTokens - request.numOutputPlaceholders) :
    (manager.shouldAdvance request []).2 = request := by
  cases follows.phase with
  | behind begins ended index feeds => rw [shouldAdvance_of_ended ended]
  | ended begins known index past feeds => rw [shouldAdvance_of_ended (Or.inr known)]
  | reasoning begins disabled known index goesOn feeds =>
      have begin : StructuredOutputManager.deltaStart request [] =
          (request.numComputedTokens - request.numOutputPlaceholders).toNat := by
        rw [StructuredOutputManager.deltaStart, if_neg (by simp)]
        exact if_pos (by omega)
      have inside : start.length ≤
          (request.numComputedTokens - request.numOutputPlaceholders).toNat := by omega
      have quiet := quiet_window single goesOn inside
      rw [← follows.tokens] at quiet
      have reasons : ¬ (manager.enableInReasoning = true ∨
          request.reasoningEnded = some true) := by
        simp [disabled, known]
      unfold StructuredOutputManager.shouldAdvance
      rw [if_neg reasons, follows.parser]
      simp [begin, quiet]

/-- An event keeps the phases in order, with the tokens it adds to the output. -/
theorem handle_follows (single : CutsSingly reasoner) {state : Advance γ κ}
    (follows : Follows manager reasoner start behind outputs state.request state.fed)
    {event : Event} (window : ∀ numComputedTokens numOutputPlaceholders,
      event = .drafts numComputedTokens numOutputPlaceholders →
        (start.length : Int) ≤ numComputedTokens - numOutputPlaceholders) :
    ∃ added, Follows manager reasoner start behind (outputs ++ added)
      (handle backend manager checkStop state event).request
      (handle backend manager checkStop state event).fed := by
  unfold handle
  split
  · refine ⟨[], ?_⟩
    rwa [List.append_nil]
  · cases event with
    | fill =>
        refine ⟨[], ?_⟩
        rwa [List.append_nil, shouldFillBitmask_follows follows]
    | output generatedTokenIds =>
        dsimp only
        rw [Request.updateWithOutput_eq]
        exact ⟨_, advanceGrammar_follows single follows _⟩
    | drafts numComputedTokens numOutputPlaceholders =>
        have counted := follows.setCounts numComputedTokens numOutputPlaceholders
        refine ⟨[], ?_⟩
        dsimp only
        rw [List.append_nil, drafts_follows single counted (window _ _ rfl)]
        exact counted

theorem foldl_handle_follows (single : CutsSingly reasoner) {events : List Event}
    (window : ∀ numComputedTokens numOutputPlaceholders,
      .drafts numComputedTokens numOutputPlaceholders ∈ events →
        (start.length : Int) ≤ numComputedTokens - numOutputPlaceholders) {state : Advance γ κ}
    (follows : Follows manager reasoner start behind outputs state.request state.fed) :
    ∃ added, Follows manager reasoner start behind (outputs ++ added)
      (events.foldl (handle backend manager checkStop) state).request
      (events.foldl (handle backend manager checkStop) state).fed := by
  induction events generalizing state outputs with
  | nil =>
      refine ⟨[], ?_⟩
      rwa [List.append_nil]
  | cons event events inductionHypothesis =>
      have here : ∃ added, Follows manager reasoner start behind (outputs ++ added)
          (handle backend manager checkStop state event).request _ :=
        handle_follows single follows fun computed placeholders same =>
          window computed placeholders (same ▸ List.mem_cons_self)
      rcases here with ⟨first, follows⟩
      rcases inductionHypothesis
          (fun computed placeholders member =>
            window computed placeholders (List.mem_cons_of_mem _ member)) follows with
        ⟨later, follows⟩
      refine ⟨first ++ later, ?_⟩
      rwa [← List.append_assoc]

variable {promptTokenIds : Option (List Int)} {numPromptTokens : Nat} {grammar : γ}
  {reasoningEnded : Option Bool} {kwargs : κ}

/-- The first bitmask decides whether the request begins behind its reasoning. -/
theorem fill_follows (parser : manager.getReasoner request = some reasoner)
    (fresh : request.endIndex = none) :
    Follows manager reasoner request.allTokenIds
      (manager.enableInReasoning || request.endedBefore reasoner) []
      (manager.shouldFillBitmask request).2 [] := by
  by_cases ended : manager.enableInReasoning = true ∨ request.reasoningEnded = some true
  · have asks : manager.shouldFillBitmask request = (true, request) := if_pos ended
    rw [asks]
    constructor
    · exact parser
    · exact (List.append_nil _).symm
    · apply Phase.behind
      · rcases ended with enabled | ended
        · rw [enabled, Bool.true_or]
        · rw [Request.endedBefore, ended, Option.getD_some, Bool.or_true]
      · exact ended
      · exact fresh
      · rfl
  · have asks : manager.shouldFillBitmask request = _ := if_neg ended
    rw [parser] at asks
    have disabled : manager.enableInReasoning = false := by
      rw [← Bool.not_eq_true]
      exact fun enabled => ended (Or.inl enabled)
    cases known : request.reasoningEnded with
    | some past =>
        rw [known] at asks ended
        have reasons : past = false := by
          rw [← Bool.not_eq_true]
          rintro rfl
          exact ended (Or.inr rfl)
        rw [asks]
        constructor
        · exact parser
        · exact (List.append_nil _).symm
        · apply Phase.reasoning
          · rw [disabled, Request.endedBefore, known, Option.getD_some, reasons]
            rfl
          · exact disabled
          · rw [known, reasons]
          · exact fresh
          · rfl
          · rfl
    | none =>
        dsimp only at asks
        rw [asks, Request.endedBefore, known, Option.getD_none, disabled, Bool.false_or]
        generalize reasoner.isReasoningEnd (request.promptTokenIds.getD []) = past
        constructor
        · exact parser
        · exact (List.append_nil _).symm
        · cases past with
          | true =>
              apply Phase.behind
              · rfl
              · exact Or.inr rfl
              · exact fresh
              · rfl
          | false =>
              apply Phase.reasoning
              · rfl
              · exact disabled
              · rfl
              · exact fresh
              · rfl
              · rfl

/-- However the output tokens of a request with a reasoning parser are grouped into steps, with
bitmasks and draft updates in between, its grammar is fed the output tokens behind the end of
reasoning, in order and each once; where grammars hold within reasoning too, or reasoning is over
before the output, it is fed them all. -/
theorem run_fed (backend : StructuredOutputGrammar γ μ) (manager : StructuredOutputManager κ μ)
    (checkStop : Request γ κ → Bool) (promptTokenIds : Option (List Int)) (numPromptTokens : Nat)
    (grammar : γ) (reasoningEnded : Option Bool) (kwargs : κ) (reasoner : ReasoningParser)
    (parser : manager.getReasoner
      (Request.new promptTokenIds numPromptTokens grammar reasoningEnded kwargs) = some reasoner)
    (single : CutsSingly reasoner) (events : List Event)
    (window : ∀ numComputedTokens numOutputPlaceholders,
      .drafts numComputedTokens numOutputPlaceholders ∈ events →
        ((Request.new promptTokenIds numPromptTokens grammar reasoningEnded
          kwargs).allTokenIds.length : Int) ≤ numComputedTokens - numOutputPlaceholders) :
    let request := Request.new promptTokenIds numPromptTokens grammar reasoningEnded kwargs
    let final := run backend manager checkStop request events
    ∃ outputs, final.request.allTokenIds = request.allTokenIds ++ outputs ∧
      final.fed =
        if manager.enableInReasoning ∨ request.endedBefore reasoner then outputs
        else afterReasoning reasoner request.allTokenIds outputs := by
  intro request final
  have begins := fill_follows parser rfl
  have runs : ∃ added, Follows manager reasoner request.allTokenIds
      (manager.enableInReasoning || request.endedBefore reasoner) ([] ++ added) final.request
      final.fed := foldl_handle_follows single window begins
  rcases runs with ⟨outputs, follows⟩
  rw [List.nil_append] at follows
  refine ⟨outputs, follows.tokens, ?_⟩
  cases follows.phase with
  | behind begins ended index feeds =>
      rw [if_pos (by simpa using begins)]
      exact feeds
  | reasoning begins disabled known index goesOn feeds =>
      rw [if_neg (by simpa using begins), feeds, afterReasoning_of_not_ended goesOn]
  | ended begins known index past feeds =>
      rw [if_neg (by simpa using begins)]
      exact feeds

/-- A reasoning parser with the end marker 9. -/
def markedReasoner : ReasoningParser where
  isReasoningEnd inputIds := inputIds.contains 9
  isReasoningEndStreaming _ deltaIds := deltaIds.contains 9

theorem markedReasoner_cutsSingly : CutsSingly markedReasoner := by
  intro before delta
  induction delta generalizing before with
  | nil => rfl
  | cons token delta inductionHypothesis =>
      rw [endsWithin, ← inductionHypothesis]
      simp [markedReasoner]

/-- A grammar that accepts every token. -/
def permissive : StructuredOutputGrammar Unit Unit where
  acceptTokens _ _ := (true, ())
  validateTokens _ tokens := tokens
  rollback _ _ := ()
  fillBitmask _ := ()
  isTerminated _ := false

def markedManager (enableInReasoning : Bool) : StructuredOutputManager Unit Unit :=
  ⟨some fun _ => markedReasoner, enableInReasoning, 1, 1, false, (), none, by rintro _ ⟨⟩⟩

def markedRequest : Request Unit Unit :=
  Request.new (some [1]) 1 () none ()

/-- The end marker stands within a step. -/
theorem run_fed_marked :
    ∃ outputs, (run permissive (markedManager false) (fun _ => false) markedRequest
        [.output [5, 9, 7], .drafts 3 0, .output [9]]).request.allTokenIds = [1] ++ outputs ∧
      (run permissive (markedManager false) (fun _ => false) markedRequest
        [.output [5, 9, 7], .drafts 3 0, .output [9]]).fed =
          afterReasoning markedReasoner [1] outputs := by
  have fed := run_fed permissive (markedManager false) (fun _ => false) (some [1]) 1 () none ()
    markedReasoner rfl markedReasoner_cutsSingly [.output [5, 9, 7], .drafts 3 0, .output [9]]
    (by
      intro computed placeholders member
      simp only [List.mem_cons, reduceCtorEq, Event.drafts.injEq, List.not_mem_nil, or_false,
        false_or] at member
      rw [member.1, member.2]
      decide)
  rcases fed with ⟨outputs, tokens, fed⟩
  exact ⟨outputs, tokens, fed⟩

/-- Where grammars hold within reasoning too, reasoning is fed to them as well. -/
theorem enableInReasoning_feeds :
    (run permissive (markedManager true) (fun _ => false) markedRequest
      [.output [5, 9, 7]]).request.allTokenIds = [1] ++ [5, 9, 7] ∧
    (run permissive (markedManager true) (fun _ => false) markedRequest
      [.output [5, 9, 7]]).fed ≠ afterReasoning markedReasoner [1] [5, 9, 7] := by
  decide

end Advance

end Vllm.StructuredOutput
