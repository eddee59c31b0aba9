import Vllm.Parser.EngineRuns

/-!
# The numbers of the tool calls

However the output is cut, the tool calls of the events are numbered one after the other, and every
event carries the number of the last call that has begun.
-/

namespace Vllm.Parser

/-- The events carry the numbers from one on, and the last number is another. -/
def Numbered : Int → List SemanticEvent → Int → Prop
  | first, [], last => last = first
  | first, event :: rest, last =>
      event.toolIndex = (if event.type = .toolCallStart then first + 1 else first) ∧
        Numbered event.toolIndex rest last

variable {first middle last : Int} {events more : List SemanticEvent}

theorem Numbered.append (left : Numbered first events middle) (right : Numbered middle more last) :
    Numbered first (events ++ more) last := by
  induction events generalizing first with
  | nil =>
      cases left
      exact right
  | cons event rest inductionHypothesis => exact ⟨left.1, inductionHypothesis left.2⟩

theorem Numbered.last_eq (numbered : Numbered first events last) :
    last = first + (events.countP fun event => event.type = .toolCallStart : Nat) := by
  induction events generalizing first with
  | nil => simpa [Numbered] using numbered
  | cons event rest inductionHypothesis =>
      rw [inductionHypothesis numbered.2, numbered.1, List.countP_cons]
      by_cases starts : event.type = .toolCallStart
      · simp [starts]
        omega
      · simp [starts]

namespace EventMachine

/-- The events of a step are numbered up to the next machine's number. -/
def Numbers (first : Int) (out : List SemanticEvent × EventMachine) : Prop :=
  Numbered first out.1 out.2.toolIndex

variable {machine : EventMachine}

theorem Numbers.none (same : machine.toolIndex = first) : Numbers first ([], machine) :=
  same

theorem Numbers.single {type : EventType} {text : Text} {count : Nat}
    (other : type ≠ .toolCallStart) (same : machine.toolIndex = first) :
    Numbers first ([⟨type, text, first, count⟩], machine) := by
  simp [Numbers, Numbered, other, same]

theorem emitArgs_numbers (same : machine.toolIndex = first) : Numbers first machine.emitArgs := by
  subst same
  unfold emitArgs flushSafeArgs
  split
  · exact .none rfl
  · exact .single (by decide) rfl

theorem feedArgsText_numbers (text : Text) :
    Numbers machine.toolIndex (machine.feedArgsText text) := by
  induction text generalizing machine with
  | nil => exact .none rfl
  | cons char text inductionHypothesis =>
      have step : Numbers machine.toolIndex (machine.feedArgsChar char) := by
        unfold feedArgsChar
        dsimp only
        repeat' split
        all_goals first | exact Numbers.none rfl | exact emitArgs_numbers rfl
      exact step.append inductionHypothesis

section Content

variable {rules : EngineRules}
  (quiet : ∀ state, rules.config.contentEvents.get? state ≠ some .toolCallStart)

include quiet

theorem emitForState_numbers (same : machine.toolIndex = first) (text : Text) (tokenCount : Nat) :
    Numbers first (machine.emitForState rules text tokenCount) := by
  subst same
  unfold emitForState
  split
  · exact .none rfl
  · split
    · split
      · exact feedArgsText_numbers text
      · exact .single (by decide) rfl
    · split
      · rename_i type found
        exact .single (fun starts => quiet _ (starts ▸ found)) rfl
      · exact .none rfl

omit quiet in
theorem applyTransition_numbers (transition : Transition) (value : Text) (tokenCount : Nat) :
    Numbers machine.toolIndex (machine.applyTransition transition value tokenCount) := by
  have each : ∀ (header : Option (Text × Nat)) (types : List EventType) (first : Int),
      Numbered first (transitionEvents header value tokenCount types first).1
        (transitionEvents header value tokenCount types first).2 := by
    intro header types
    induction types with
    | nil => exact fun _ => rfl
    | cons type rest inductionHypothesis =>
        intro first
        by_cases text : type = .textChunk
        · subst text
          simp only [transitionEvents, reduceCtorEq, if_false, if_true, true_and]
          split
          · exact inductionHypothesis first
          · exact ⟨rfl, inductionHypothesis first⟩
        · simp only [transitionEvents, text, if_false, false_and]
          exact ⟨rfl, inductionHypothesis _⟩
  have flush : ∀ (value : Text) {last : Int} {events : List SemanticEvent},
      Numbered machine.toolIndex events last →
        Numbered machine.toolIndex (⟨.argValueChunk, value, machine.toolIndex, 0⟩ :: events) last :=
    fun _ _ _ numbered => ⟨rfl, numbered⟩
  unfold applyTransition Numbers
  dsimp only
  repeat' split
  all_goals first | exact each _ _ _ | exact flush _ (each _ _ _)

theorem onTerminal_numbers (terminal : String) (value : Text) (tokenCount : Nat) :
    Numbers machine.toolIndex (machine.onTerminal rules terminal value tokenCount) := by
  have skips : ∀ (transition : Transition) (isExit : Bool),
      Numbers machine.toolIndex (machine.skipToolTerminal rules transition isExit value) := by
    intro transition isExit
    unfold skipToolTerminal Numbers
    dsimp only
    repeat' split
    all_goals try first | rfl | exact ⟨rfl, rfl⟩ | exact ⟨rfl, rfl, rfl⟩
    all_goals
      rename_i type found
      exact Numbers.single (fun starts => quiet _ (starts ▸ found)) rfl
  unfold onTerminal
  dsimp only
  split
  · split
    · exact .none rfl
    · apply emitForState_numbers quiet
      split <;> rfl
  · split
    · exact skips _ _
    · split
      · exact emitForState_numbers quiet rfl value tokenCount
      · exact applyTransition_numbers _ value tokenCount

theorem processLexTokens_numbers (tokens : List LexToken) :
    Numbers machine.toolIndex (machine.processLexTokens rules tokens) := by
  induction tokens generalizing machine with
  | nil => exact .none rfl
  | cons token tokens inductionHypothesis =>
      have step : Numbers machine.toolIndex (machine.onLexToken rules token) := by
        unfold onLexToken onContent
        split
        · split
          · exact .none rfl
          · exact emitForState_numbers quiet rfl _ _
        · exact onTerminal_numbers quiet _ _ _
      exact step.append inductionHypothesis

theorem processFedTokens_numbers (tokens : List LexToken) :
    Numbers machine.toolIndex (machine.processFedTokens rules tokens) := by
  unfold processFedTokens
  split
  · split
    · exact emitForState_numbers quiet rfl _ _
    · exact processLexTokens_numbers quiet _
  · exact processLexTokens_numbers quiet _

omit quiet in
theorem finish_numbers : Numbers machine.toolIndex machine.finish := by
  unfold finish Numbers
  dsimp only
  repeat' split
  all_goals first | exact ⟨rfl, rfl, rfl⟩ | exact ⟨rfl, rfl⟩ | rfl

end Content

end EventMachine

namespace StreamingParserEngine

open EventMachine

/-- No content is reported as the beginning of a tool call. -/
def Quiet (engine : StreamingParserEngine) : Prop :=
  ∀ state, engine.rules.config.contentEvents.get? state ≠ some .toolCallStart

/-- A step of the engine. -/
def Numbers (engine : StreamingParserEngine)
    (out : List SemanticEvent × StreamingParserEngine) : Prop :=
  Numbered engine.machine.toolIndex out.1 out.2.machine.toolIndex ∧
    out.2.rules.config = engine.rules.config

variable {engine : StreamingParserEngine}

theorem processScannerItems_numbers (quiet : engine.Quiet) (items : List LexerInput) :
    engine.Numbers (engine.processScannerItems items) := by
  induction items generalizing engine with
  | nil => exact ⟨rfl, rfl⟩
  | cons item items inductionHypothesis =>
      have further : ∀ {events : List SemanticEvent} {next : StreamingParserEngine},
          engine.Numbers (events, next) → engine.Numbers
            (events ++ (next.processScannerItems items).1, (next.processScannerItems items).2) := by
        intro events next step
        have rest := @inductionHypothesis next (by rw [Quiet, step.2]; exact quiet)
        exact ⟨step.1.append rest.1, rest.2.trans step.2⟩
      unfold processScannerItems
      cases item with
      | terminal item =>
          exact further ⟨(processLexTokens_numbers quiet _).append (onTerminal_numbers quiet _ _ _),
            rfl⟩
      | text item =>
          dsimp only
          split
          · exact further ⟨emitForState_numbers quiet rfl _ _, rfl⟩
          · exact further ⟨processLexTokens_numbers quiet _, rfl⟩

theorem feed_numbers (quiet : engine.Quiet) (deltaText : Text) (deltaTokenIds : List TokenId) :
    engine.Numbers (engine.feed deltaText deltaTokenIds) := by
  have noted : (engine.noteTokenIds deltaTokenIds).machine = engine.machine ∧
      (engine.noteTokenIds deltaTokenIds).rules.config = engine.rules.config := by
    unfold noteTokenIds
    split <;> exact ⟨rfl, rfl⟩
  have quiet : (engine.noteTokenIds deltaTokenIds).Quiet := by
    rw [Quiet, noted.2]
    exact quiet
  have step : (engine.noteTokenIds deltaTokenIds).Numbers (engine.feed deltaText deltaTokenIds) := by
    unfold feed
    dsimp only
    split
    · exact ⟨emitForState_numbers quiet rfl _ _, rfl⟩
    · split
      · exact ⟨processFedTokens_numbers quiet _, rfl⟩
      · have items := @processScannerItems_numbers { engine.noteTokenIds deltaTokenIds with
          scanner := ((engine.noteTokenIds deltaTokenIds).scanner.scan deltaText deltaTokenIds).2 }
          quiet
        exact ⟨(items _).1, (items _).2⟩
  exact ⟨noted.1 ▸ step.1, step.2.trans noted.2⟩

/-- However an output is cut and whatever is held back, the tool calls of its events are numbered
one after the other from the first one, and the events between them carry their numbers. -/
theorem feedAll_numbered (engine : StreamingParserEngine) (quiet : engine.Quiet)
    (deltas : List (Text × List TokenId)) :
    Numbered engine.machine.toolIndex (engine.feedAll deltas) (engine.machine.toolIndex +
      ((engine.feedAll deltas).countP fun event => event.type = .toolCallStart : Nat)) := by
  have ends : ∃ last, Numbered engine.machine.toolIndex (engine.feedAll deltas) last := by
    induction deltas generalizing engine with
    | nil =>
        have pending := @processScannerItems_numbers
          { engine with scanner := engine.scanner.flushPending.2 } quiet
          engine.scanner.flushPending.1
        exact ⟨_, (pending.1.append (processLexTokens_numbers (pending.2 ▸ quiet) _)).append
          finish_numbers⟩
    | cons delta deltas inductionHypothesis =>
        have step := feed_numbers quiet delta.1 delta.2
        rcases inductionHypothesis (engine.feed delta.1 delta.2).2
          (by rw [Quiet, step.2]; exact quiet) with ⟨last, rest⟩
        exact ⟨last, step.1.append rest⟩
  rcases ends with ⟨last, numbered⟩
  rw [← numbered.last_eq]
  exact numbered

/-- The tool call begins in the second delta. -/
theorem feedAll_numbered_cut :
    Numbered (-1) ((make List.length twoTerminals none none false).feedAll
      [(['a', '<', 't'], []), (['t', '>', 'f'], [])]) 0 := by
  have numbered := feedAll_numbered (make List.length twoTerminals none none false)
    (by intro state; cases state <;> decide) [(['a', '<', 't'], []), (['t', '>', 'f'], [])]
  rwa [show List.countP _ _ = 1 by decide +kernel] at numbered

end StreamingParserEngine

end Vllm.Parser
