import Vllm.Parser.DeepSeekV4
import Vllm.Parser.ParserStreams

/-!
# Streamed content

Text behind the tool calls of a call is deferred to a later call, and whitespace is deferred until
it is known whether tool calls follow.  No content is lost in a stream whose calls defer nothing
that comes too late.
-/

namespace Vllm.Parser

open Vllm.Core
open Vllm.Library

variable {ν : Type} [DecidableEq ν] [SchemaCoercion ν]

/-! ## What may be dropped -/

section Dropped

variable (tool : SemanticEvent → Bool)

/-- The text behind the last tool event. -/
def textBehindTools (events : List SemanticEvent) : Text :=
  eventText .textChunk (events.rtakeWhile (!tool ·))

/-- The text in front of the last tool event. -/
def textBeforeTools (events : List SemanticEvent) : Text :=
  eventText .textChunk (events.rdropWhile (!tool ·))

/-- The content has all text, except for some whitespace in front of a tool call when nothing
else is in front of it. -/
def KeepsContent (events : List SemanticEvent) (content : Text) : Prop :=
  ∃ blank kept rest, eventText .textChunk events = blank ++ rest ∧ content = kept ++ rest ∧
      IsBlank blank ∧ kept.Sublist blank ∧
      (kept = blank ∨ blank.length ≤ (textBeforeTools tool events).length)

variable {tool}

theorem text_before_behind (events : List SemanticEvent) :
    textBeforeTools tool events ++ textBehindTools tool events = eventText .textChunk events := by
  rw [textBeforeTools, textBehindTools, ← eventText_append, List.rdropWhile_append_rtakeWhile]

/-- Up to leading whitespace the content is the text. -/
theorem KeepsContent.lstrip_eq {events : List SemanticEvent} {content : Text}
    (keeps : KeepsContent tool events content) :
    lstrip content = lstrip (eventText .textChunk events) := by
  rcases keeps with ⟨blank, kept, rest, text, rfl, white, sub, _⟩
  have whiteKept : IsBlank kept := fun char member => white char (sub.subset member)
  rw [text, lstrip_blank_append whiteKept, lstrip_blank_append white]

variable {more : List SemanticEvent}

theorem textBeforeTools_append_quiet (events : List SemanticEvent) (quiet : more.any tool = false) :
    textBeforeTools tool (events ++ more) = textBeforeTools tool events := by
  rw [textBeforeTools, textBeforeTools, List.rdropWhile, List.rdropWhile, List.reverse_append,
    List.dropWhile_append_of_pos]
  intro event member
  have other := List.any_eq_false.mp quiet event (List.mem_reverse.mp member)
  simpa using other

theorem textBeforeTools_append_tool (events : List SemanticEvent) (some : more.any tool = true) :
    textBeforeTools tool (events ++ more) =
      eventText .textChunk events ++ textBeforeTools tool more := by
  rw [textBeforeTools, textBeforeTools, List.rdropWhile, List.rdropWhile, List.reverse_append,
    List.dropWhile_append]
  split
  case isTrue nothing =>
    rw [List.isEmpty_iff, List.dropWhile_eq_nil_iff] at nothing
    rcases List.any_eq_true.mp some with ⟨event, member, holds⟩
    have other := nothing event (List.mem_reverse.mpr member)
    simp [holds] at other
  case isFalse => simp

/-- What is in front of a tool event stays there. -/
theorem length_textBeforeTools_le (events more : List SemanticEvent) :
    (textBeforeTools tool events).length ≤ (textBeforeTools tool (events ++ more)).length := by
  cases some : more.any tool with
  | false => rw [textBeforeTools_append_quiet events some]
  | true =>
      rw [textBeforeTools_append_tool events some, ← @text_before_behind tool events]
      simp only [List.length_append]
      omega

end Dropped

namespace DeltaConverter

/-! ## What a call keeps -/

section Calls

variable (converter : DeltaConverter ν) (events : List SemanticEvent)

/-- The events that the converter reads as those of tool calls. -/
def tool : SemanticEvent → Bool :=
  readsAsTool converter.suppressToolCalls

/-- The tool calls and their deltas behind the events of a call. -/
def toolOutcome : Except PyError (ToolCalls ν × List DeltaToolCall) :=
  Conversion.readToolEvents converter.settings (converter.calls, [])
    (events.filter converter.tool)

/-- A call reports deltas of tool calls. -/
def reportsCalls : Bool :=
  match converter.toolOutcome events with
  | .ok (_, deltas) => deltas ≠ []
  | .error _ => false

/-- There are tool calls behind the events of a call. -/
def hasCalls : Bool :=
  match converter.toolOutcome events with
  | .ok (calls, _) => calls.slots ≠ []
  | .error _ => false

/-- The text in front of the tool events of a call. -/
def textAhead : Text :=
  eventText .textChunk (eventsAhead converter.tool false events)

/-- The text behind the first tool event of a call. -/
def textBehind : Text :=
  eventText .textChunk (eventsBehind converter.tool false events)

/-- A call drops a text: all content so far is whitespace, and there are tool calls. -/
def Drops (text : Text) : Prop :=
  converter.settings.dropWhitespaceOnlyContentBeforeTools ∧ ¬converter.contentHasNonws ∧
    text ≠ [] ∧ IsBlank text ∧ converter.hasCalls events

instance (text : Text) : Decidable (converter.Drops events text) :=
  inferInstanceAs (Decidable (_ ∧ _))

/-- A call keeps its text.  In front of deltas of tool calls either nothing is deferred or there
is no new text, and without them there is no text on both sides of tool events; whitespace is
dropped in front of tool calls only; the last call does not defer what no call reports. -/
def CallKeeps (spoken : List SemanticEvent) (finished toolsFollow : Bool) : Prop :=
  if converter.reportsCalls events then
    (converter.deferredContent = [] ∨ converter.textAhead events = []) ∧
      (finished → converter.deferredContent ++ converter.textBehind events = [] ∨
        (¬converter.contentHasNonws ∧
          IsBlank (converter.deferredContent ++ converter.textAhead events ++
            converter.textBehind events) ∧
          textBehindTools converter.tool (spoken ++ events) = []))
  else
    (converter.textAhead events = [] ∨ converter.textBehind events = []) ∧
      (converter.Drops events (converter.deferredContent ++ converter.textBehind events ++
          converter.textAhead events) →
        textBehindTools converter.tool (spoken ++ events) = [] ∨ toolsFollow)

instance (spoken : List SemanticEvent) (finished toolsFollow : Bool) :
    Decidable (converter.CallKeeps events spoken finished toolsFollow) :=
  inferInstanceAs (Decidable (ite _ _ _))

end Calls

/-- A property of the value of a result, if it has one. -/
def OnValue {α : Type} (result : Except PyError α) (property : α → Prop) : Prop :=
  match result with
  | .ok value => property value
  | .error _ => True

instance {α : Type} (result : Except PyError α) (property : α → Prop) [DecidablePred property] :
    Decidable (OnValue result property) :=
  match result with
  | .ok value => inferInstanceAs (Decidable (property value))
  | .error _ => .isTrue trivial

/-- All calls of a stream keep their text. -/
def StreamKeeps (request : ParserRequest ν) (converter : DeltaConverter ν)
    (spoken : List SemanticEvent) : List (List SemanticEvent) → Prop
  | [] => True
  | events :: batches =>
      converter.CallKeeps events spoken batches.isEmpty (batches.flatten.any converter.tool) ∧
        OnValue (converter.convert request events batches.isEmpty) fun run =>
          StreamKeeps request run.2 (spoken ++ events) batches

instance decidableStreamKeeps (request : ParserRequest ν) :
    (batches : List (List SemanticEvent)) → (converter : DeltaConverter ν) →
      (spoken : List SemanticEvent) → Decidable (StreamKeeps request converter spoken batches)
  | [], _, _ => .isTrue trivial
  | events :: batches, converter, spoken =>
      have (run : Option DeltaMessage × DeltaConverter ν) :
          Decidable (StreamKeeps request run.2 (spoken ++ events) batches) :=
        decidableStreamKeeps request batches run.2 (spoken ++ events)
      inferInstanceAs (Decidable (_ ∧ OnValue (converter.convert request events batches.isEmpty)
        fun run => StreamKeeps request run.2 (spoken ++ events) batches))

/-! ## What a call reports -/

section Reports

variable {converter next : DeltaConverter ν} {events spoken : List SemanticEvent}

/-- What becomes of the content of a call. -/
inductive Settles (converter : DeltaConverter ν) (content : Text) (finished : Bool) :
    Text × DeltaConverter ν → Prop
  | reported (next : DeltaConverter ν)
      (deferred : next.deferredContent = converter.deferredContent)
      (nonws : next.contentHasNonws = (converter.contentHasNonws || !decide (IsBlank content))) :
      Settles converter content finished (content, next)
  | dropped (drop : converter.settings.dropWhitespaceOnlyContentBeforeTools = true)
      (blankSoFar : converter.contentHasNonws = false) (some : content ≠ [])
      (blank : IsBlank content) (slots : converter.calls.slots ≠ []) :
      Settles converter content finished ([], converter)
  | deferred (blankSoFar : converter.contentHasNonws = false) (blank : IsBlank content)
      (slots : converter.calls.slots = []) (open_ : finished = false) :
      Settles converter content finished ([], { converter with deferredContent := content })

omit [DecidableEq ν] [SchemaCoercion ν] in
theorem settleContent_settles (converter : DeltaConverter ν) (content : Text) (finished : Bool) :
    Settles converter content finished (converter.settleContent content finished) := by
  rw [settleContent]
  split
  case isTrue plain =>
    apply Settles.reported
    · rfl
    · rcases plain with nonws | none
      · simp [nonws]
      · simp [none]
  case isFalse pending =>
    have blankSoFar : converter.contentHasNonws = false := by
      cases nonws : converter.contentHasNonws with
      | false => rfl
      | true => exact absurd (.inl nonws) pending
    have some : content ≠ [] := fun none => pending (.inr none)
    split
    case isTrue visible =>
      rw [ne_eq, strip_eq_nil_iff] at visible
      apply Settles.reported
      · rfl
      · simp [visible]
    case isFalse white =>
      rw [ne_eq, not_not, strip_eq_nil_iff] at white
      split
      case isTrue slots =>
        split
        case isTrue drop => exact .dropped drop blankSoFar some white slots
        case isFalse =>
          apply Settles.reported
          · rfl
          · simp [white]
      case isFalse slots =>
        split
        case isTrue unfinished =>
          exact .deferred blankSoFar white (not_not.mp slots) (by simpa using unfinished)
        case isFalse =>
          apply Settles.reported
          · rfl
          · simp [white]

theorem makeDelta_content (content reasoning : Text) (toolCalls : List DeltaToolCall) :
    messageContent (makeDelta content reasoning toolCalls) = content := by
  rw [makeDelta]
  split
  case isTrue =>
    rw [messageContent, Option.bind_some, orNone_getD]
  case isFalse nothing =>
    by_contra some
    exact nothing (.inl (Ne.symm some))

section

omit [DecidableEq ν] [SchemaCoercion ν]

theorem suppressReasoning_content (request : ParserRequest ν) (delta : Option DeltaMessage) :
    messageContent (suppressReasoning request delta) = messageContent delta := by
  rw [suppressReasoning]
  split
  · rfl
  · rcases delta with _ | delta
    · rfl
    · dsimp only [Option.bind_some]
      split
      case isTrue nothing => exact nothing.1.symm
      case isFalse => rfl

theorem stripTrailingReasoning_content (converter : DeltaConverter ν)
    (delta : Option DeltaMessage) :
    messageContent (converter.stripTrailingReasoning delta).1 = messageContent delta ∧
      (converter.stripTrailingReasoning delta).2.deferredContent = converter.deferredContent ∧
      (converter.stripTrailingReasoning delta).2.contentHasNonws = converter.contentHasNonws := by
  rw [stripTrailingReasoning]
  split
  · exact ⟨rfl, rfl, rfl⟩
  · split
    · refine ⟨?_, rfl, rfl⟩
      rcases delta with _ | delta
      · rfl
      · dsimp only [Option.bind_some]
        split
        case isTrue nothing =>
          rw [messageContent, messageContent, Option.bind_some, nothing.2.1]
          rfl
        case isFalse => rfl
    · split
      · exact ⟨rfl, rfl, rfl⟩
      · exact ⟨rfl, rfl, rfl⟩

end

/-- What is reported has a slot. -/
theorem readToolEvents_slots {settings : ParserSettings ν}
    {state last : ToolCalls ν × List DeltaToolCall}
    (ran : Conversion.readToolEvents settings state events = .ok last) :
    state.1.slots.length ≤ last.1.slots.length ∧ (last.2 = state.2 ∨ last.1.slots ≠ []) := by
  induction events generalizing state with
  | nil =>
      cases ran
      exact ⟨Nat.le_refl _, .inl rfl⟩
  | cons event events ih =>
      rcases bind_eq_ok.mp ran with ⟨middle, called, ran⟩
      rcases ToolCalls.onToolEvent_slots called with ⟨grows, reports⟩
      rcases ih ran with ⟨growsOn, reportsOn⟩
      refine ⟨grows.trans growsOn, ?_⟩
      rcases reportsOn with same | slots
      · rcases reports with unchanged | slots
        · exact .inl (same.trans unchanged)
        · exact .inr (List.ne_nil_of_length_pos
            ((List.length_pos_of_ne_nil slots).trans_le growsOn))
      · exact .inr slots

/-- The state in which a call settles its content, and the content. -/
structure Collects (converter : DeltaConverter ν) (events : List SemanticEvent)
    (start : DeltaConverter ν) (content : Text) : Prop where
  deferred : start.deferredContent =
    if converter.reportsCalls events then
      converter.deferredContent ++ converter.textBehind events
    else []
  content : content =
    if converter.reportsCalls events then converter.textAhead events
    else converter.deferredContent ++ converter.textBehind events ++ converter.textAhead events
  nonws : start.contentHasNonws = converter.contentHasNonws
  settings : start.settings = converter.settings
  slots : start.calls.slots ≠ [] ↔ converter.hasCalls events = true
  reports : converter.reportsCalls events = true → start.calls.slots ≠ []

/-- A conversion settles the content that it collects. -/
theorem concludeDelta_collects {conversion : Conversion ν} (finished : Bool)
    (looped : converter.convertEvents events = .ok conversion) :
    ∃ start content, Collects converter events start content ∧
      Settles start content finished
        (messageContent (converter.concludeDelta conversion finished).1,
          (converter.concludeDelta conversion finished).2) := by
  have reads := convertEvents_reads looped
  have outcome : converter.toolOutcome events =
      .ok (conversion.calls, conversion.toolCallDeltas) := reads.tools
  have reported : converter.reportsCalls events = true ↔ conversion.deltas ≠ [] := by
    rw [reportsCalls, outcome, Conversion.deltas]
    rw [decide_eq_true_iff]
    split
    · exact not_congr coalesceToolCallDeltas_eq_nil.symm
    · exact Iff.rfl
  have silent : ¬conversion.seenToolEvent = true → conversion.deltas = [] := by
    intro unseen
    have none : events.filter converter.tool = [] := by
      have quiet := reads.seen
      rw [Bool.not_eq_true] at unseen
      rw [unseen, Bool.false_or] at quiet
      exact List.filter_eq_nil_iff.mpr fun event member =>
        List.any_eq_false.mp quiet.symm event member
    rw [toolOutcome, none] at outcome
    have empty : conversion.toolCallDeltas = [] :=
      (congrArg Prod.snd (Except.ok.inj outcome)).symm
    rw [Conversion.deltas, empty]
    rfl
  have parts : conversion.contentParts = converter.textAhead events := reads.content
  have deferred : conversion.deferredContent =
      converter.deferredContent ++ converter.textBehind events := reads.deferred
  refine ⟨{ converter with
    calls := conversion.calls
    deferredContent := conversion.stillDeferred
    reasoningEnded := conversion.reasoningEnded }, conversion.contentStr, ?_, ?_⟩
  · have released : conversion.releases = true ↔
        conversion.deferredContent ≠ [] ∧ ¬converter.reportsCalls events = true := by
      rw [Conversion.releases, decide_eq_true_iff, reported, not_not]
      constructor
      · rintro ⟨some, unseen | none⟩
        · exact ⟨some, silent unseen⟩
        · exact ⟨some, none⟩
      · rintro ⟨some, none⟩
        exact ⟨some, .inr none⟩
    constructor
    · dsimp only
      rw [Conversion.stillDeferred, ← deferred]
      cases reports : converter.reportsCalls events with
      | true => rw [if_neg (fun releases => (released.mp releases).2 reports), if_pos rfl]
      | false =>
          by_cases none : conversion.deferredContent = []
          · simp [none]
          · rw [if_pos (released.mpr ⟨none, by simp [reports]⟩), if_neg (by simp)]
    · rw [Conversion.contentStr, ← deferred, ← parts]
      cases reports : converter.reportsCalls events with
      | true => rw [if_neg (fun releases => (released.mp releases).2 reports), if_pos rfl]
      | false =>
          by_cases none : conversion.deferredContent = []
          · simp [none]
          · rw [if_pos (released.mpr ⟨none, by simp [reports]⟩), if_neg (by simp)]
    · rfl
    · rfl
    · rw [hasCalls, outcome]
      exact (decide_eq_true_iff).symm
    · intro reports
      rcases readToolEvents_slots outcome with ⟨_, same | slots⟩
      · rw [reportsCalls, outcome, decide_eq_true_iff] at reports
        exact absurd same reports
      · exact slots
  · have settles := settleContent_settles { converter with
      calls := conversion.calls
      deferredContent := conversion.stillDeferred
      reasoningEnded := conversion.reasoningEnded } conversion.contentStr finished
    rw [concludeDelta, makeDelta_content]
    exact settles

/-- A call settles the content that it collects. -/
theorem convert_settles {request : ParserRequest ν} {finished : Bool}
    {message : Option DeltaMessage}
    (ran : converter.convert request events finished = .ok (message, next)) :
    ∃ start content settled, Collects converter events start content ∧
      Settles start content finished settled ∧ messageContent message = settled.1 ∧
      next.deferredContent = settled.2.deferredContent ∧
      next.contentHasNonws = settled.2.contentHasNonws := by
  rcases convert_eq_ok.mp ran with ⟨conversion, looped, rfl, rfl⟩
  rcases concludeDelta_collects finished looped with ⟨start, content, collects, settles⟩
  rcases stripTrailingReasoning_content (converter.concludeDelta conversion finished).2
    (converter.concludeDelta conversion finished).1 with ⟨stripped, deferred, nonws⟩
  exact ⟨start, content, _, collects, settles,
    (suppressReasoning_content _ _).trans stripped, deferred, nonws⟩

end Reports

/-! ## Runs -/

section Runs

variable {tool : SemanticEvent → Bool} {spoken events : List SemanticEvent}
variable {deferred content : Text} {nonws : Bool} {follows : Prop}

/-- What a stream has said so far: all text, except for dropped whitespace in front of tool calls
and what is still deferred. -/
def Said (tool : SemanticEvent → Bool) (spoken : List SemanticEvent) (deferred : Text)
    (nonws : Bool) (content : Text) (follows : Prop) : Prop :=
  ∃ blank kept rest,
    eventText .textChunk spoken = blank ++ rest ++ deferred ∧ content = kept ++ rest ∧
      IsBlank blank ∧ kept.Sublist blank ∧ (nonws = false → IsBlank rest) ∧
      (kept = blank ∨ blank.length ≤ (textBeforeTools tool spoken).length ∨ follows)

/-- Whitespace dropped in front of a tool call that follows is in front of it when it comes. -/
theorem length_before_of_follows {blank rest : Text}
    (text : eventText .textChunk spoken = blank ++ rest)
    (before : blank.length ≤ (textBeforeTools tool spoken).length ∨
      events.any tool = true ∨ follows) :
    blank.length ≤ (textBeforeTools tool (spoken ++ events)).length ∨ follows := by
  rcases before with old | some | later
  · exact .inl (old.trans (length_textBeforeTools_le spoken events))
  · left
    rw [textBeforeTools_append_tool spoken some, text]
    simp only [List.length_append]
    omega
  · exact .inr later

/-- The text in front of the first tool event is in front of the last one. -/
theorem length_ahead_le (some : events.any tool = true) :
    (eventText .textChunk (eventsAhead tool false events)).length ≤
      (textBeforeTools tool events).length := by
  have split := ahead_append_behind tool false events
  have behind : (eventsBehind tool false events).any tool = true := by
    rcases List.any_eq_true.mp some with ⟨event, member, holds⟩
    rw [← split] at member
    rcases List.mem_append.mp member with early | late
    · have other := List.mem_takeWhile_imp early
      simp [holds] at other
    · exact List.any_eq_true.mpr ⟨event, late, holds⟩
  rw [← split, textBeforeTools_append_tool _ behind, split, List.length_append]
  omega

variable {converter start : DeltaConverter ν} {finished toolsFollow : Bool}
  {collected : Text} {settled : Text × DeltaConverter ν}

omit [DecidableEq ν] [SchemaCoercion ν] in
theorem text_call (converter : DeltaConverter ν) (events : List SemanticEvent) :
    eventText .textChunk events = converter.textAhead events ++ converter.textBehind events := by
  rw [textAhead, textBehind, ← eventText_append, ahead_append_behind]

/-- Deltas of tool calls come with tool events. -/
theorem any_tool_of_reports (reports : converter.reportsCalls events = true) :
    events.any converter.tool = true := by
  by_contra none
  have quiet : events.filter converter.tool = [] := by
    rw [Bool.not_eq_true] at none
    exact List.filter_eq_nil_iff.mpr fun event member =>
      (Bool.not_eq_true _).mpr (by simpa using List.any_eq_false.mp none event member)
  rw [reportsCalls, toolOutcome, quiet] at reports
  simp [Conversion.readToolEvents, pure, Except.pure] at reports

/-- One call. -/
theorem Said.call (said : Said converter.tool spoken converter.deferredContent
      converter.contentHasNonws content (events.any converter.tool = true ∨ toolsFollow = true))
    (keeps : converter.CallKeeps events spoken finished toolsFollow)
    (collects : Collects converter events start collected)
    (settles : Settles start collected finished settled) :
    Said converter.tool (spoken ++ events) settled.2.deferredContent settled.2.contentHasNonws
      (content ++ settled.1) (toolsFollow = true) := by
  rcases said with ⟨blank, kept, rest, text, rfl, white, sub, quiet, before⟩
  have whole : eventText .textChunk (spoken ++ events) =
      blank ++ rest ++ converter.deferredContent ++
        (converter.textAhead events ++ converter.textBehind events) := by
    rw [eventText_append, text, text_call converter events]
  have promise : kept = blank ∨ blank.length ≤
      (textBeforeTools converter.tool (spoken ++ events)).length ∨ toolsFollow = true := by
    rw [List.append_assoc] at text
    exact before.imp_right (length_before_of_follows text)
  rw [CallKeeps] at keeps
  cases reports : converter.reportsCalls events with
  | true =>
      -- Deltas of tool calls keep the deferred text behind the text of the call.
      rw [if_pos reports] at keeps
      have collected_ := collects.content
      have held := collects.deferred
      rw [if_pos reports] at collected_ held
      have order : eventText .textChunk (spoken ++ events) =
          blank ++ (rest ++ collected) ++ start.deferredContent := by
        rw [whole, collected_, held]
        rcases keeps.1 with none | none
        · simp [none]
        · simp [none]
      cases settles with
      | reported next same nonws =>
          refine ⟨blank, kept, rest ++ collected, ?_, ?_, white, sub, ?_, promise⟩
          · rw [order, same]
          · rw [List.append_assoc]
          · intro blankSoFar
            rw [nonws, collects.nonws, Bool.or_eq_false_iff] at blankSoFar
            exact isBlank_append.mpr ⟨quiet blankSoFar.1, by simpa using blankSoFar.2⟩
      | dropped drop blankSoFar some blankText slots =>
          rw [collects.nonws] at blankSoFar
          refine ⟨blank ++ rest ++ collected, kept ++ rest, [], ?_, ?_, ?_, ?_, ?_, .inr (.inl ?_)⟩
          · simpa using order
          · simp
          · exact isBlank_append.mpr
              ⟨isBlank_append.mpr ⟨white, quiet blankSoFar⟩, blankText⟩
          · exact (sub.append (List.Sublist.refl rest)).trans (List.sublist_append_left _ _)
          · exact fun _ => isBlank_nil
          · have none : converter.deferredContent = [] := by
              rcases keeps.1 with none | none
              · exact none
              · exact absurd (collected_.trans none) some
            have ahead := length_ahead_le (any_tool_of_reports reports)
            rw [textBeforeTools_append_tool spoken (any_tool_of_reports reports), text, none,
              collected_, textAhead]
            simp only [List.length_append, List.append_nil] at ahead ⊢
            omega
      | deferred blankSoFar blankText slots open_ =>
          exact absurd slots (collects.reports reports)
  | false =>
      -- Otherwise all text is collected, in order.
      rw [if_neg (by simp [reports])] at keeps
      have collected_ := collects.content
      have held := collects.deferred
      rw [if_neg (by simp [reports])] at collected_ held
      have order : eventText .textChunk (spoken ++ events) = blank ++ (rest ++ collected) := by
        rw [whole, collected_]
        rcases keeps.1 with none | none
        · simp [none]
        · simp [none]
      cases settles with
      | reported next same nonws =>
          refine ⟨blank, kept, rest ++ collected, ?_, ?_, white, sub, ?_, promise⟩
          · rw [order, same, held, List.append_nil]
          · rw [List.append_assoc]
          · intro blankSoFar
            rw [nonws, collects.nonws, Bool.or_eq_false_iff] at blankSoFar
            exact isBlank_append.mpr ⟨quiet blankSoFar.1, by simpa using blankSoFar.2⟩
      | dropped drop blankSoFar some blankText slots =>
          rw [collects.nonws] at blankSoFar
          rw [collects.settings] at drop
          have drops : converter.Drops events (converter.deferredContent ++
              converter.textBehind events ++ converter.textAhead events) := by
            rw [← collected_]
            exact ⟨drop, by simp [blankSoFar], some, blankText, collects.slots.mp slots⟩
          refine ⟨blank ++ rest ++ collected, kept ++ rest, [], ?_, ?_, ?_, ?_, ?_, .inr ?_⟩
          · rw [order, held]
            simp
          · simp
          · exact isBlank_append.mpr
              ⟨isBlank_append.mpr ⟨white, quiet blankSoFar⟩, blankText⟩
          · exact (sub.append (List.Sublist.refl rest)).trans (List.sublist_append_left _ _)
          · exact fun _ => isBlank_nil
          · refine (keeps.2 drops).imp_left fun nothing => ?_
            have split := @text_before_behind converter.tool (spoken ++ events)
            rw [nothing, List.append_nil, order] at split
            rw [split, List.append_assoc]
      | deferred blankSoFar blankText slots open_ =>
          refine ⟨blank, kept, rest, ?_, ?_, white, sub, ?_, promise⟩
          · rw [order, List.append_assoc]
          · rw [List.append_nil]
          · intro blankSoFar
            rw [show start.contentHasNonws = converter.contentHasNonws from collects.nonws]
              at blankSoFar
            exact quiet blankSoFar

/-- The last call. -/
theorem Said.finish (said : Said converter.tool spoken converter.deferredContent
      converter.contentHasNonws content (events.any converter.tool = true ∨ false = true))
    (keeps : converter.CallKeeps events spoken true false)
    (collects : Collects converter events start collected)
    (settles : Settles start collected true settled) :
    KeepsContent converter.tool (spoken ++ events) (content ++ settled.1) := by
  rcases said.call keeps collects settles with
    ⟨blank, kept, rest, text, same, white, sub, quiet, before⟩
  have held : settled.2.deferredContent = start.deferredContent := by
    cases settles with
    | reported next unchanged nonws => exact unchanged
    | dropped drop blankSoFar some blankText slots => rfl
    | deferred blankSoFar blankText slots open_ => exact absurd open_ (by simp)
  have promise : kept = blank ∨
      blank.length ≤ (textBeforeTools converter.tool (spoken ++ events)).length := by
    simpa using before
  by_cases none : start.deferredContent = []
  · rw [held, none, List.append_nil] at text
    exact ⟨blank, kept, rest, text, same, white, sub, promise⟩
  · have reports : converter.reportsCalls events = true := by
      by_contra silent
      exact none (by rw [collects.deferred, if_neg silent])
    rw [CallKeeps, if_pos reports] at keeps
    rw [collects.deferred, if_pos reports] at none
    rcases keeps.2 rfl with nothing | ⟨blankSoFar, blankCall, nothing⟩
    · exact absurd nothing none
    · simp only [isBlank_append] at blankCall
      have ahead := collects.content
      rw [if_pos reports] at ahead
      have still : settled.2.contentHasNonws = false := by
        cases settles with
        | reported next same nonws =>
            rw [nonws, collects.nonws, ahead]
            simp [blankSoFar, blankCall.1.2]
        | dropped drop blank some blankText slots => exact blank
        | deferred blankSoFar blankText slots open_ => exact blankSoFar
      refine ⟨eventText .textChunk (spoken ++ events), content ++ settled.1, [], by simp, by simp,
        ?_, ?_, .inr ?_⟩
      · rw [text, held, collects.deferred, if_pos reports]
        simp only [isBlank_append]
        exact ⟨⟨white, quiet still⟩, blankCall.1.1, blankCall.2⟩
      · rw [text, same]
        exact (sub.append (List.Sublist.refl rest)).trans (List.sublist_append_left _ _)
      · have split := @text_before_behind converter.tool (spoken ++ events)
        rw [nothing, List.append_nil] at split
        rw [split]

variable {messages : List (Option DeltaMessage)}

variable {request : ParserRequest ν} {batches : List (List SemanticEvent)} {last : DeltaConverter ν}

/-- A stream whose calls keep their text reports all of it. -/
theorem Said.stream
    (said : Said converter.tool spoken converter.deferredContent converter.contentHasNonws
      content (batches.flatten.any converter.tool = true)) (some : batches ≠ [])
    (keeps : StreamKeeps request converter spoken batches)
    (ran : converter.convertStream request batches = .ok (messages, last)) :
    KeepsContent converter.tool (spoken ++ batches.flatten)
      (content ++ messages.flatMap messageContent) := by
  induction batches generalizing converter spoken content messages with
  | nil => exact absurd rfl some
  | cons events batches ih =>
      rcases bind_eq_ok.mp ran with ⟨⟨message, middle⟩, converted, ran⟩
      rcases bind_eq_ok.mp ran with ⟨⟨more, final⟩, rest, ran⟩
      cases ran
      rcases keeps with ⟨call, later⟩
      rw [converted, OnValue] at later
      rcases convert_settles converted with
        ⟨start, collected, settled, collects, settles, reported, deferred, nonws⟩
      rw [List.flatMap_cons, reported]
      rw [List.flatten_cons, List.any_append, Bool.or_eq_true] at said
      cases batches with
      | nil =>
          cases rest
          rw [List.flatMap_nil, List.append_nil, List.flatten_cons, List.flatten_nil,
            List.append_nil]
          exact said.finish call collects settles
      | cons following batches =>
          have same : middle.tool = converter.tool := by
            rw [tool, tool, (convert_same converted).suppress]
          have next := said.call call collects settles
          rw [← deferred, ← nonws, ← same] at next
          have reports := ih next (List.cons_ne_nil _ _) later rest
          rw [same, List.append_assoc, List.append_assoc] at reports
          exact reports

/-- From the start. -/
theorem convertStream_keeps (fresh : converter.deferredContent = []) (some : batches ≠ [])
    (keeps : StreamKeeps request converter [] batches)
    (ran : converter.convertStream request batches = .ok (messages, last)) :
    KeepsContent converter.tool batches.flatten (messages.flatMap messageContent) := by
  have said : Said converter.tool [] converter.deferredContent converter.contentHasNonws []
      (batches.flatten.any converter.tool = true) := by
    rw [fresh]
    exact ⟨[], [], [], rfl, rfl, isBlank_nil, List.Sublist.refl _, fun _ => isBlank_nil, .inl rfl⟩
  exact said.stream some keeps ran

end Runs

end DeltaConverter

/-! ## Streams and one pass -/

section Stripping

theorem stripContentWhitespace_strip (settings : ParserSettings ν) (content : Text)
    (toolsCalled : Bool) :
    strip ((DeltaConverter.stripContentWhitespace settings content toolsCalled).getD []) =
      strip content := by
  rw [DeltaConverter.stripContentWhitespace, orNone_getD]
  split
  · split
    · exact strip_strip content
    · split
      case isTrue blank => rw [blank.2, ← blank.2, strip_strip]
      case isFalse => rfl
  · rfl

/-- Up to whitespace at its ends the content is the text. -/
theorem KeepsContent.strip_eq {tool : SemanticEvent → Bool} {events : List SemanticEvent}
    {content : Text} (keeps : KeepsContent tool events content) :
    strip content = strip (eventText .textChunk events) := by
  rw [strip, keeps.lstrip_eq, strip]

end Stripping

namespace ParserEngine

variable {parser : ParserEngine ν} {request : ParserRequest ν}

/-- One pass whose only call keeps its text reports all of it, stripped as configured. -/
theorem onePass_content {converter last : DeltaConverter ν} {events : List SemanticEvent}
    {result : ParseResult} (fresh : converter.deferredContent = [])
    (keeps : converter.CallKeeps events [] true false)
    (ran : converter.convertOutput events = .ok (result, last)) :
    ∃ content, KeepsContent converter.tool events content ∧
      result.content = if content = [] then none
        else DeltaConverter.stripContentWhitespace converter.settings content
          result.toolCallInfo.toolsCalled := by
  rcases DeltaConverter.convertOutput_inv ran with ⟨conversion, looped, _, reported⟩
  rcases DeltaConverter.concludeDelta_collects true looped with
    ⟨start, collected, collects, settles⟩
  have said : DeltaConverter.Said converter.tool [] converter.deferredContent
      converter.contentHasNonws [] (events.any converter.tool = true ∨ false = true) := by
    rw [fresh]
    exact ⟨[], [], [], rfl, rfl, isBlank_nil, List.Sublist.refl _, fun _ => isBlank_nil, .inl rfl⟩
  have kept := said.finish keeps collects settles
  exact ⟨_, kept, reported⟩

/-- A call of a tool without arguments. -/
def emptyCall : Text :=
  DeepSeekV4.toolStart ++ DeepSeekV4.invokePrefix ++ "f".toList ++ DeepSeekV4.invokeNameEnd ++
    DeepSeekV4.invokeEnd ++ DeepSeekV4.toolEnd

/-- Text in front of a tool call, cut there. -/
def earlyText : List (Text × List TokenId) :=
  [("hi ".toList, []), (emptyCall, [])]

end ParserEngine

end Vllm.Parser
