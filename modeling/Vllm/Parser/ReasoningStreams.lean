import Vllm.Parser.DeepSeekV4
import Vllm.Parser.ParserStreams

/-!
# Streamed reasoning

Whitespace at the end of reasoning is held back until more reasoning follows.  A call without
reasoning after reasoning has ended discards what is held back, and a later block of reasoning
misses it.
-/

namespace Vllm.Parser

open Vllm.Core
open Vllm.Library

variable {ν : Type} [DecidableEq ν] [SchemaCoercion ν]

/-! ## Held back whitespace -/

section Held

/-- What a call reports of its reasoning, and what it then holds back. -/
def stripHeld (held : Text) (ended : Bool) (reasoning : Text) : Text × Text :=
  if reasoning = [] then ([], if ended then [] else held)
  else (rstrip (held ++ reasoning), trailingSpace (held ++ reasoning))

/-- Whether reasoning has ended behind some events. -/
def endedAfter (ended : Bool) (events : List SemanticEvent) : Bool :=
  ended || events.any (·.type = .reasoningEnd)

/-- The reasoning that a stream reports for its batches. -/
def strippedStream (held : Text) (ended : Bool) : List (List SemanticEvent) → Text
  | [] => []
  | events :: batches =>
      let ended := endedAfter ended events
      let (reported, held) := stripHeld held ended (eventText .reasoningChunk events)
      reported ++ strippedStream held ended batches

/-- No call that discards whitespace is followed by visible reasoning. -/
def KeepsHeld (held : Text) (ended : Bool) : List (List SemanticEvent) → Prop
  | [] => True
  | events :: batches =>
      let ended := endedAfter ended events
      let reasoning := eventText .reasoningChunk events
      (reasoning = [] ∧ ended ∧ held ≠ [] → IsBlank (eventText .reasoningChunk batches.flatten)) ∧
        KeepsHeld (stripHeld held ended reasoning).2 ended batches

/-- The reasoning of a stream is part of the stripped reasoning. -/
theorem strippedStream_sublist (held : Text) (ended : Bool) (batches : List (List SemanticEvent)) :
    (strippedStream held ended batches).Sublist
      (rstrip (held ++ eventText .reasoningChunk batches.flatten)) := by
  induction batches generalizing held ended with
  | nil => exact List.nil_sublist _
  | cons events batches ih =>
      rw [strippedStream, List.flatten_cons, eventText_append]
      dsimp only
      generalize endedAfter ended events = ended
      generalize eventText .reasoningChunk events = reasoning
      rw [stripHeld]
      split
      case isTrue none =>
        rw [none, List.nil_append, List.nil_append]
        split
        · have rest := ih [] ended
          by_cases blank : IsBlank (eventText .reasoningChunk batches.flatten)
          · rw [List.nil_append, rstrip_eq_nil_iff.mpr blank] at rest
            exact rest.trans (List.nil_sublist _)
          · rw [rstrip_append_of_not_blank held blank]
            exact rest.trans (List.sublist_append_right _ _)
        · exact ih held ended
      case isFalse some =>
        rw [← List.append_assoc, rstrip_append (held ++ reasoning)]
        exact List.Sublist.append (List.Sublist.refl _) (ih _ ended)

/-- A stream reports all of its stripped reasoning exactly when it discards nothing in front of
visible reasoning. -/
theorem strippedStream_eq_iff {held : Text} (ended : Bool)
    (batches : List (List SemanticEvent)) (blank : IsBlank held) :
    strippedStream held ended batches =
        rstrip (held ++ eventText .reasoningChunk batches.flatten) ↔
      KeepsHeld held ended batches := by
  induction batches generalizing held ended with
  | nil => simp [strippedStream, KeepsHeld, rstrip_eq_nil_iff.mpr blank]
  | cons events batches ih =>
      rw [strippedStream, KeepsHeld, List.flatten_cons, eventText_append]
      dsimp only
      generalize endedAfter ended events = ended
      generalize eventText .reasoningChunk events = reasoning
      rw [stripHeld]
      split
      case isTrue none =>
        rw [none, List.nil_append, List.nil_append]
        cases ended with
        | false => simpa using ih false blank
        | true =>
            have rest := ih true isBlank_nil
            rw [List.nil_append] at rest
            rw [if_pos rfl]
            by_cases later : IsBlank (eventText .reasoningChunk batches.flatten)
            · rw [rstrip_append_blank held later, rstrip_eq_nil_iff.mpr blank, ← rest,
                rstrip_eq_nil_iff.mpr later]
              simp [later]
            · rw [rstrip_append_of_not_blank held later]
              by_cases nothing : held = []
              · simpa [nothing] using rest
              · have short := (strippedStream_sublist [] true batches).length_le
                rw [List.nil_append] at short
                constructor
                · intro same
                  rw [same, List.length_append] at short
                  exact absurd (List.length_eq_zero_iff.mp (by omega)) nothing
                · intro keeps
                  exact absurd (keeps.1 ⟨rfl, rfl, nothing⟩) later
      case isFalse some =>
        rw [← List.append_assoc, rstrip_append (held ++ reasoning), List.append_cancel_left_eq,
          ih ended (isBlank_trailingSpace _)]
        simp [some]

end Held

/-! ## What a call reports -/

namespace DeltaConverter

variable {converter next : DeltaConverter ν} {events : List SemanticEvent}

omit [DecidableEq ν] [SchemaCoercion ν] in
theorem settleContent_reasoning (converter : DeltaConverter ν) (content : Text) (finished : Bool) :
    (converter.settleContent content finished).2.deferredReasoning =
        converter.deferredReasoning ∧
      (converter.settleContent content finished).2.reasoningEnded = converter.reasoningEnded := by
  rw [settleContent]
  split
  · exact ⟨rfl, rfl⟩
  · split
    · exact ⟨rfl, rfl⟩
    · split
      · exact ⟨rfl, rfl⟩
      · split
        · exact ⟨rfl, rfl⟩
        · exact ⟨rfl, rfl⟩

theorem makeDelta_reasoning (content reasoning : Text) (toolCalls : List DeltaToolCall) :
    (makeDelta content reasoning toolCalls).bind DeltaMessage.reasoning = orNone reasoning := by
  rw [makeDelta]
  split
  case isTrue => rfl
  case isFalse nothing =>
    have none : reasoning = [] := by
      by_contra some
      exact nothing (.inr (.inr some))
    rw [none]
    rfl

/-- The raw reasoning of a conversion. -/
theorem concludeDelta_reasoning (finished : Bool) {conversion : Conversion ν}
    (ran : converter.convertEvents events = .ok conversion) :
    (converter.concludeDelta conversion finished).1.bind DeltaMessage.reasoning =
        orNone (eventText .reasoningChunk events) ∧
      (converter.concludeDelta conversion finished).2.deferredReasoning =
        converter.deferredReasoning ∧
      (converter.concludeDelta conversion finished).2.reasoningEnded =
        endedAfter converter.reasoningEnded events := by
  have reads := convertEvents_reads ran
  rcases settleContent_reasoning { converter with
    calls := conversion.calls
    deferredContent := conversion.stillDeferred
    reasoningEnded := conversion.reasoningEnded } conversion.contentStr finished
    with ⟨held, ended⟩
  refine ⟨?_, held, ended.trans reads.ended⟩
  rw [concludeDelta, makeDelta_reasoning, reads.reasoning]
  rfl

section

omit [DecidableEq ν] [SchemaCoercion ν]

/-- The reasoning of a message behind `_strip_trailing_reasoning`. -/
theorem stripTrailingReasoning_reports (strips : converter.settings.stripTrailingReasoningWhitespace)
    {delta : Option DeltaMessage} {reasoning : Text}
    (raw : delta.bind DeltaMessage.reasoning = orNone reasoning) :
    (messageReasoning (converter.stripTrailingReasoning delta).1,
        (converter.stripTrailingReasoning delta).2.deferredReasoning) =
      stripHeld converter.deferredReasoning converter.reasoningEnded reasoning := by
  rw [stripTrailingReasoning, if_neg (not_not_intro strips), raw, stripHeld]
  by_cases none : reasoning = []
  · rw [none] at raw ⊢
    have silent : messageReasoning delta = [] := by rw [messageReasoning, raw]; rfl
    dsimp only [orNone]
    rw [if_pos rfl, if_pos rfl]
    dsimp only
    split
    case isTrue discards => rw [silent, if_pos discards.2]
    case isFalse keeps =>
      rw [silent]
      cases ended : converter.reasoningEnded with
      | false => rfl
      | true =>
          have nothing : converter.deferredReasoning = [] := by simpa [ended] using keeps
          rw [nothing]
          rfl
  · rcases delta with _ | delta
    · simp [orNone, none] at raw
    · rw [orNone, if_neg none, if_neg none]
      dsimp only [Option.bind_some]
      by_cases blank : rstrip (converter.deferredReasoning ++ reasoning) = []
      · rw [trailingSpace, blank]
        split
        · rfl
        · rfl
      · simp [blank, messageReasoning, orNone, trailingSpace]

theorem stripTrailingReasoning_ended (converter : DeltaConverter ν) (delta : Option DeltaMessage) :
    (converter.stripTrailingReasoning delta).2.reasoningEnded = converter.reasoningEnded := by
  rw [stripTrailingReasoning]
  split
  · rfl
  · split
    · rfl
    · split
      · rfl
      · rfl

theorem suppressReasoning_reasoning (request : ParserRequest ν) (delta : Option DeltaMessage) :
    messageReasoning (suppressReasoning request delta) =
      if request.includeReasoning then messageReasoning delta else [] := by
  rw [suppressReasoning]
  split
  · rfl
  · rcases delta with _ | delta
    · rfl
    · dsimp only [Option.bind_some]
      split
      · rfl
      · rfl

end

variable {request : ParserRequest ν}

/-- A call reports its reasoning stripped. -/
theorem convert_reasoning {finished : Bool} {message : Option DeltaMessage}
    (strips : converter.settings.stripTrailingReasoningWhitespace)
    (ran : converter.convert request events finished = .ok (message, next)) :
    (messageReasoning message, next.deferredReasoning) =
        (if request.includeReasoning then
          (stripHeld converter.deferredReasoning (endedAfter converter.reasoningEnded events)
            (eventText .reasoningChunk events)).1
        else [], (stripHeld converter.deferredReasoning (endedAfter converter.reasoningEnded events)
          (eventText .reasoningChunk events)).2) ∧
      next.reasoningEnded = endedAfter converter.reasoningEnded events := by
  rcases convert_eq_ok.mp ran with ⟨conversion, looped, rfl, rfl⟩
  have same := concludeDelta_same finished looped
  rcases concludeDelta_reasoning finished looped with ⟨raw, held, ended⟩
  have kept : (converter.concludeDelta conversion
      finished).2.settings.stripTrailingReasoningWhitespace := by rw [same.settings]; exact strips
  have reports := stripTrailingReasoning_reports kept raw
  rw [held, ended] at reports
  constructor
  · rw [suppressReasoning_reasoning, ← reports]
  · rw [stripTrailingReasoning_ended, ended]

/-- A stream reports its reasoning stripped, unless the request leaves it out. -/
theorem convertStream_reasoning {batches : List (List SemanticEvent)}
    {messages : List (Option DeltaMessage)}
    (strips : converter.settings.stripTrailingReasoningWhitespace)
    (ran : converter.convertStream request batches = .ok (messages, next)) :
    messages.flatMap messageReasoning =
      if request.includeReasoning then
        strippedStream converter.deferredReasoning converter.reasoningEnded batches
      else [] := by
  induction batches generalizing converter messages with
  | nil =>
      cases ran
      simp [strippedStream]
  | cons events batches ih =>
      rcases bind_eq_ok.mp ran with ⟨⟨message, middle⟩, converted, ran⟩
      rcases bind_eq_ok.mp ran with ⟨⟨more, last⟩, rest, ran⟩
      cases ran
      rcases convert_reasoning strips converted with ⟨reports, ended⟩
      rcases Prod.mk.inj reports with ⟨reported, held⟩
      have later := ih (by rw [(convert_same converted).settings]; exact strips) rest
      rw [List.flatMap_cons, reported, later, held, ended, strippedStream]
      cases request.includeReasoning with
      | false => rfl
      | true => rfl

/-- One pass reports the reasoning of all events stripped. -/
theorem convertOutput_reasoning {result : ParseResult}
    (ran : converter.convertOutput events = .ok (result, next)) :
    result.reasoning = orNone (
      if converter.settings.stripTrailingReasoningWhitespace then
        rstrip (eventText .reasoningChunk events)
      else eventText .reasoningChunk events) := by
  rcases convertOutput_inv ran with ⟨conversion, looped, reasoning, _⟩
  rw [reasoning, messageReasoning, (concludeDelta_reasoning _ looped).1, orNone_getD]

end DeltaConverter

/-! ## Streams and one pass -/

namespace ParserEngine

variable {parser : ParserEngine ν} {request : ParserRequest ν}

/-- What a stream reports as reasoning is what one pass reports exactly when no held back
whitespace is discarded in front of visible reasoning; a request that leaves reasoning out gets none
in a stream. -/
theorem streamed_reasoning_iff {deltas : List (Text × List TokenId)}
    {messages : List (Option DeltaMessage)} {result : ParseResult}
    (strips : parser.converter.settings.stripTrailingReasoningWhitespace = true)
    (some : deltas ≠ [])
    (cut : (∀ delta ∈ deltas, StreamingParserEngine.Decodes parser.tokenizer delta) ∨
      ∀ delta ∈ deltas, delta.2 = [])
    (streamed : ((parser.reset none).parseDeltas request deltas).map Prod.fst = .ok messages)
    (parsed : (parser.parse request
      (deltas.flatMap Prod.fst, deltas.flatMap Prod.snd)).map Prod.fst = .ok result) :
    messages.flatMap messageReasoning = result.reasoning.getD [] ↔
      if request.includeReasoning then
        KeepsHeld [] (!hasReasoning parser.config)
          (streamEvents (parser.reset none).engine deltas)
      else
        IsBlank (eventText .reasoningChunk
          (streamEvents (parser.reset none).engine deltas).flatten) := by
  rcases parseDeltas_inv some streamed with ⟨last, converts⟩
  rcases parse_inv parsed with ⟨after, converted⟩
  have once := DeltaConverter.convertOutput_reasoning converted
  rw [prepare_reset_settings, if_pos strips, ← eventText_reset parser none _ some cut] at once
  have prepared := (prepare_converter request (parser.reset none)).1
  have kept : ((parser.reset none).prepare
      request).converter.settings.stripTrailingReasoningWhitespace := by
    rw [prepared]
    exact strips
  rw [DeltaConverter.convertStream_reasoning kept converts, once, orNone_getD, prepared]
  cases request.includeReasoning with
  | false =>
      rw [← rstrip_eq_nil_iff]
      exact eq_comm
  | true =>
      have reported := strippedStream_eq_iff (!hasReasoning parser.config)
        (streamEvents (parser.reset none).engine deltas) isBlank_nil
      exact reported

/-- The output of two blocks of reasoning, cut so that a call reports only content. -/
def twoBlocks : List (Text × List TokenId) :=
  [("<think>a \n</think>".toList, []), ("c".toList, []), ("<think>b".toList, [])]

/-- The stream misses the whitespace between the blocks. -/
theorem twoBlocks_differ :
    ((plainV4.reset none).parseDeltas {} twoBlocks).map
        (fun run => run.1.flatMap messageReasoning) = .ok "ab".toList ∧
      (plainV4.parse {} (twoBlocks.flatMap Prod.fst, [])).map
        (fun run => run.1.reasoning) = .ok (some "a \nb".toList) := by
  decide +kernel

/-- The call between the blocks discards the whitespace in front of the second one. -/
theorem twoBlocks_discards :
    ¬KeepsHeld [] (!hasReasoning plainV4.config)
      (streamEvents (plainV4.reset none).engine twoBlocks) := by
  intro keeps
  have streamed : ((plainV4.reset none).parseDeltas {} twoBlocks).map Prod.fst =
      .ok [some { reasoning := some "a".toList }, some { content := some "c".toList },
        some { reasoning := some "b".toList }] := by
    decide +kernel
  have parsed : (plainV4.parse {}
      (twoBlocks.flatMap Prod.fst, twoBlocks.flatMap Prod.snd)).map Prod.fst =
      .ok ⟨some "a \nb".toList, some "c".toList, ⟨false, [], none⟩⟩ := by
    decide +kernel
  have same := (streamed_reasoning_iff (by rfl) (by decide) (.inr (by decide))
    streamed parsed).mpr keeps
  exact absurd same (by decide)

end ParserEngine

end Vllm.Parser
