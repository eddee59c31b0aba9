import Vllm.Engine.DetokenizerRuns
import Vllm.Engine.OutputProcessor

/-!
# The stream interval

With a stream interval an output of a request is made when the request has finished, for its
first tokens, and when enough tokens have come since.  A request is followed through its calls of
`make_request_output`, with the detokenizer and the log probabilities that its outputs read.
-/

namespace Vllm.Engine

open Vllm.Core Vllm.Library

/-- How texts and log probabilities are made: `decode_next`, the entry and the score of one row of
log probabilities behind the entries before it, and the array operations. -/
structure Reading (π : Payload) where
  Decoder : Type
  decodeNext : List Nat → Decoder → Nat → List Char × Decoder
  Row : Type
  entry : List π.Logprob → Row → π.Logprob
  score : π.Score → Row → π.Score
  concatenate : List π.Experts → π.Experts
  MaskChunk : Type
  mergeMasks : List MaskChunk → π.Mask

variable {π : Payload} {reading : Reading π} {κ : Type}

/-- The detokenizer of a request, which only lists the tokens where there is no tokenizer. -/
inductive RequestDetokenizer (δ : Type) where
  | listing (tokenIds : List Nat)
  | decoding (detokenizer : IncrementalDetokenizer Char Nat δ)

namespace RequestDetokenizer

variable {δ : Type}

/-- `from_new_request`, with what a tokenizer gives. -/
def fromNewRequest (tokenizer : Option (DetokenizerParams Char × List Nat × δ)) :
    RequestDetokenizer δ :=
  match tokenizer with
  | none => listing []
  | some (params, promptTokenIds, decoder) => decoding (.new params promptTokenIds decoder)

/-- `update`. -/
def update (decodeNext : List Nat → δ → Nat → List Char × δ) (newTokenIds : List Nat)
    (stopTerminated : Bool) : RequestDetokenizer δ → Option (List Char) × RequestDetokenizer δ
  | listing tokenIds => (none, listing (tokenIds ++ newTokenIds))
  | decoding detokenizer =>
      let updated := IncrementalDetokenizer.update decodeNext newTokenIds stopTerminated detokenizer
      (updated.1, decoding updated.2)

/-- `get_next_output_text`. -/
def getNextOutputText (finished delta : Bool) :
    RequestDetokenizer δ → List Char × RequestDetokenizer δ
  | listing tokenIds => ([], listing tokenIds)
  | decoding detokenizer =>
      let next := detokenizer.getNextOutputText finished delta
      (next.1, decoding next.2)

/-- `output_token_ids`. -/
def outputTokenIds : RequestDetokenizer δ → List Nat
  | listing tokenIds => tokenIds
  | decoding detokenizer => detokenizer.tokenIds.drop detokenizer.promptLen

/-- `output_text`. -/
def outputText : RequestDetokenizer δ → List Char
  | listing _ => []
  | decoding detokenizer => detokenizer.outputText

end RequestDetokenizer

/-- `LogprobsProcessor`, without the log probabilities of the prompt. -/
structure LogprobsProcessor (π : Payload) where
  logprobs : Option (List π.Logprob)
  cumulativeLogprob : Option π.Score

namespace LogprobsProcessor

/-- `from_new_request`, with the score 0.0 where log probabilities are asked for. -/
def fromNewRequest (zero : Option π.Score) : LogprobsProcessor π where
  logprobs := zero.map fun _ => []
  cumulativeLogprob := zero

/-- `update_from_output`, up to its assertions. -/
def updateFromOutput (reading : Reading π) (self : LogprobsProcessor π)
    (newLogprobs : Option (List reading.Row)) : LogprobsProcessor π :=
  (newLogprobs.getD []).foldl
    (fun self row =>
      { logprobs := self.logprobs.map fun known => known ++ [reading.entry known row]
        cumulativeLogprob := self.cumulativeLogprob.map fun score => reading.score score row })
    self

end LogprobsProcessor

/-- The processors of a request. -/
def Reading.processing (reading : Reading π) : Processing π where
  Detokenizer := RequestDetokenizer reading.Decoder
  update detokenizer newTokenIds stopTerminated :=
    detokenizer.update reading.decodeNext newTokenIds stopTerminated
  getNextOutputText detokenizer finished delta := detokenizer.getNextOutputText finished delta
  outputTokenIds := RequestDetokenizer.outputTokenIds
  EngineLogprobs := List reading.Row
  LogprobsProcessor := LogprobsProcessor π
  updateFromOutput := LogprobsProcessor.updateFromOutput reading
  logprobs := LogprobsProcessor.logprobs
  cumulativeLogprob := LogprobsProcessor.cumulativeLogprob
  concatenate := reading.concatenate
  MaskChunk := reading.MaskChunk
  mergeMasks := reading.mergeMasks

/-! ## Calls -/

/-- A call of `make_request_output`: the tokens that came with it, whether it has a finish reason,
and what it returned. -/
structure OutputCall (π : Payload) where
  newTokenIds : List Nat
  finished : Bool
  report : Option (Report π)

/-- The engine sends one row of log probabilities for each token where they are asked for. -/
structure EngineCoreOutput.Supplied (output : EngineCoreOutput reading.processing)
    (logprobsProcessor : LogprobsProcessor π) : Prop where
  completion : output.poolingOutput = none
  rows : if logprobsProcessor.logprobs.isSome then
      ((output.newLogprobs : Option (List reading.Row)).getD []).length = output.newTokenIds.length
    else output.newLogprobs = none

/-- The parent object of a child that streams still waits for it. -/
def RequestState.Awaited {ρ : Processing π} (state : RequestState ρ κ)
    (parents : Dict String (ParentRequest π)) : Prop :=
  ∀ id, state.parentReq = some id → ∃ parent, parents.get? id = some parent ∧
    parent.samplingParams.outputKind ≠ .finalOnly ∧ state.requestId ∈ parent.childRequests

/-- The calls for a request, each after an output of the engine or for an abort, up to the one that
finishes it.  The parent objects may change between the calls. -/
inductive Streams (start : RequestState reading.processing κ) :
    List (OutputCall π) → RequestState reading.processing κ → Prop
  | start : Streams start [] start
  | output {calls : List (OutputCall π)} {state taken next : RequestState reading.processing κ}
      {detokenizer : RequestDetokenizer reading.Decoder} {logprobsProcessor : LogprobsProcessor π}
      {output : EngineCoreOutput reading.processing} {finishReason : Option FinishReason}
      {stopReason : Option (Int ⊕ String)} {parents left : Dict String (ParentRequest π)}
      {report : Option (Report π)} (streams : Streams start calls state)
      (running : ∀ call ∈ calls, call.finished = false)
      (processors : state.processors = some (detokenizer, logprobsProcessor))
      (supplied : output.Supplied logprobsProcessor) (awaited : state.Awaited parents)
      (took : OutputProcessor.takeOutput state output = .ok (taken, finishReason, stopReason))
      (made : taken.makeRequestOutput parents output.newTokenIds output.poolingOutput finishReason
        stopReason output.kvTransferParams output.ecTransferParams = .ok (report, next, left)) :
      Streams start (calls ++ [⟨output.newTokenIds, finishReason.isSome, report⟩]) next
  | abort {calls : List (OutputCall π)} {state next : RequestState reading.processing κ}
      {parents left : Dict String (ParentRequest π)} {report : Option (Report π)}
      (streams : Streams start calls state) (running : ∀ call ∈ calls, call.finished = false)
      (awaited : state.Awaited parents)
      (made : state.makeRequestOutput parents [] none (some .abort) none none none =
        .ok (report, next, left)) :
      Streams start (calls ++ [⟨[], true, report⟩]) next

/-- The tokens that came with the calls. -/
def allTokenIds (calls : List (OutputCall π)) : List Nat :=
  calls.flatMap (·.newTokenIds)

/-- The completions that were returned. -/
def completions (calls : List (OutputCall π)) : List (CompletionOutput π) :=
  calls.flatMap fun call =>
    match call.report with
    | some (.completions _ outputs ..) => outputs.filterMap id
    | _ => []

/-- The number of tokens that came since the last returned output. -/
def unsentTokens (calls : List (OutputCall π)) : Nat :=
  calls.foldl (fun unsent call =>
    if call.report.isSome then 0 else unsent + call.newTokenIds.length) 0

/-- A property of every call and of the calls before it. -/
def EachCall (property : List (OutputCall π) → OutputCall π → Prop)
    (calls : List (OutputCall π)) : Prop :=
  ∀ place call, calls[place]? = some call → property (calls.take place) call

/-- An output is returned only when the request has finished, when none was returned before, or
when enough tokens have come since the last one. -/
def OnlyWhenDue (streamInterval : Nat) : List (OutputCall π) → Prop :=
  EachCall fun earlier call => call.report.isSome → call.finished = true ∨
    (∀ call ∈ earlier, call.report = none) ∨
    streamInterval ≤ unsentTokens earlier + call.newTokenIds.length

/-- Every later call of a cumulative request, and every later call that has no token before it,
finishes the request or brings as many tokens as the interval asks for. -/
def Paced (outputKind : RequestOutputKind) (streamInterval : Nat) : List (OutputCall π) → Prop :=
  EachCall fun earlier call => earlier ≠ [] →
    (outputKind = .cumulative ∨ allTokenIds earlier = []) →
    call.finished = true ∨ streamInterval ≤ call.newTokenIds.length

/-- The completions make up all tokens and the final text, each with the log probabilities of its
own tokens. -/
structure Concatenated (calls : List (OutputCall π))
    (detokenizer : RequestDetokenizer reading.Decoder) (logprobsProcessor : LogprobsProcessor π) :
    Prop where
  tokenIds : (completions calls).flatMap (·.tokenIds) = allTokenIds calls
  text : (completions calls).flatMap (·.text) = detokenizer.outputText
  logprobs : (completions calls).flatMap (·.logprobs.getD []) =
    logprobsProcessor.logprobs.getD []
  own : ∀ completion ∈ completions calls, completion.logprobs.map List.length =
    logprobsProcessor.logprobs.map fun _ => completion.tokenIds.length
  rows : ∀ known, logprobsProcessor.logprobs = some known →
    known.length = (allTokenIds calls).length

/-! ## The processors -/

namespace IncrementalDetokenizer

section

variable {δ : Type} (decodeNext : List Nat → δ → Nat → List Char × δ)
  (self : IncrementalDetokenizer Char Nat δ)

/-- Two detokenizers of one prompt, the later one with more tokens. -/
def Lists (later : IncrementalDetokenizer Char Nat δ) (tokens : List Nat) : Prop :=
  later.promptLen = self.promptLen ∧ later.tokenIds = self.tokenIds ++ tokens

theorem decodeTokens_lists (tokens : List Nat) (offset : Nat) :
    self.Lists (decodeTokens decodeNext tokens self offset).1 tokens := by
  induction tokens generalizing self offset with
  | nil => exact ⟨rfl, (List.append_nil _).symm⟩
  | cons token rest inductionHypothesis =>
      rcases inductionHypothesis (self.decodeToken decodeNext token) _ with ⟨prompt, listed⟩
      exact ⟨prompt, listed.trans (List.append_assoc self.tokenIds [token] rest)⟩

theorem detokenize_lists (tokens : List Nat) (stopTerminated : Bool) (offset : Nat) :
    self.Lists (detokenize decodeNext tokens stopTerminated self offset).1 tokens := by
  unfold detokenize
  split
  · rcases decodeTokens_lists decodeNext self tokens.dropLast offset with ⟨prompt, listed⟩
    rcases List.eq_nil_or_concat tokens with rfl | ⟨front, last, rfl⟩
    · exact ⟨prompt, listed⟩
    · simp only [List.dropLast_concat, List.concat_eq_append, List.getLast?_concat]
        at prompt listed ⊢
      refine ⟨prompt, ?_⟩
      change _ ++ [last] = _
      rw [listed, List.append_assoc]
  · exact decodeTokens_lists decodeNext self tokens offset

theorem evaluateStop_lists (offset : Nat) : self.Lists (self.evaluateStop offset).2 [] := by
  unfold evaluateStop
  split
  · split
    · exact ⟨rfl, (List.append_nil _).symm⟩
    · exact ⟨rfl, (List.append_nil _).symm⟩
    · exact ⟨rfl, (List.append_nil _).symm⟩
  · exact ⟨rfl, (List.append_nil _).symm⟩

theorem update_lists (tokens : List Nat) (stopTerminated : Bool) :
    self.Lists (update decodeNext tokens stopTerminated self).2 tokens := by
  unfold update
  split
  · next empty =>
    rw [empty]
    exact ⟨rfl, (List.append_nil _).symm⟩
  · have decoded := detokenize_lists decodeNext self tokens stopTerminated
      self.outputText.length
    generalize detokenize decodeNext tokens stopTerminated self self.outputText.length = seen
      at decoded ⊢
    rcases evaluateStop_lists seen.1 seen.2 with ⟨prompt, listed⟩
    exact ⟨prompt.trans decoded.1, by rw [listed, decoded.2, List.append_nil]⟩

variable {decodeNext self}

/-- The stop string that an update finds is one of the request's. -/
theorem update_stop_mem {tokens : List Nat} {stopTerminated : Bool} {word : List Char}
    (spelled : ∀ word ∈ self.stop, word ≠ [])
    (found : (update decodeNext tokens stopTerminated self).1 = some word) : word ∈ self.stop := by
  unfold update at found
  split at found
  · cases found
  · have grows : Grows self
        (detokenize decodeNext tokens stopTerminated self self.outputText.length).1 :=
      detokenize_grows
    have inside : (detokenize decodeNext tokens stopTerminated self self.outputText.length).2 ≤ _ :=
      detokenize_offset_le le_rfl
    generalize detokenize decodeNext tokens stopTerminated self self.outputText.length = seen
      at grows inside found
    have seenSpelled : ∀ word ∈ seen.1.stop, word ≠ [] := by rwa [grows.stop_eq]
    rcases Nat.lt_or_ge seen.1.minTokens seen.1.numOutputTokens with late | early
    · rcases noEnd_or_firstEnd seen.1.stop seen.1.outputText seen.2 with
        absent | ⟨other, stop, first⟩
      · rw [evaluateStop_of_noEnd seenSpelled inside absent] at found
        cases found
      · rw [evaluateStop_of_firstEnd seenSpelled late inside first] at found
        cases found
        rw [← grows.stop_eq]
        exact first.mem
    · rw [evaluateStop_early early] at found
      cases found

end

end IncrementalDetokenizer

namespace RequestDetokenizer

variable {δ : Type} {decodeNext : List Nat → δ → Nat → List Char × δ}

/-- `SamplingParams` refuses empty stop strings. -/
def Spelled : RequestDetokenizer δ → Prop
  | listing _ => True
  | decoding detokenizer => ∀ word ∈ detokenizer.stop, word ≠ []

/-- The text handed out so far, in a request that goes on. -/
def Handed (sent : List Char) : RequestDetokenizer δ → Prop
  | listing _ => sent = []
  | decoding detokenizer => detokenizer.Handed sent

/-- The text handed out so far, of which nothing is cut off. -/
def Reached (sent : List Char) : RequestDetokenizer δ → Prop
  | listing _ => sent = []
  | decoding detokenizer =>
      sent = detokenizer.outputText.take detokenizer.lastOutputTextOffset ∧
        detokenizer.lastOutputTextOffset ≤ detokenizer.outputText.length

variable {detokenizer : RequestDetokenizer δ}

variable {sent : List Char}

theorem Handed.reached (handed : detokenizer.Handed sent) :
    detokenizer.Reached sent := by
  cases detokenizer with
  | listing tokenIds => exact handed
  | decoding detokenizer => exact ⟨handed.1, handed.2.trans (Nat.sub_le _ _)⟩

/-- An update lists the tokens and keeps what was handed out; a text that it cuts ends there. -/
theorem update_spec (decodeNext : List Nat → δ → Nat → List Char × δ) (sent : List Char)
    (newTokenIds : List Nat) (stopTerminated : Bool) (spelled : detokenizer.Spelled) :
    let updated := detokenizer.update decodeNext newTokenIds stopTerminated
    updated.2.Spelled ∧
      updated.2.outputTokenIds = detokenizer.outputTokenIds ++ newTokenIds ∧
      updated.1 ≠ some [] ∧
      (detokenizer.Handed sent → updated.2.Reached sent ∧
        (updated.1 = none → updated.2.Handed sent)) := by
  cases detokenizer with
  | listing tokenIds => exact ⟨trivial, rfl, nofun, fun handed => ⟨handed, fun _ => handed⟩⟩
  | decoding detokenizer =>
      dsimp only [update]
      have listed := IncrementalDetokenizer.update_lists decodeNext detokenizer newTokenIds
        stopTerminated
      refine ⟨?_, ?_, ?_, ?_⟩
      · change ∀ word ∈ (IncrementalDetokenizer.update decodeNext newTokenIds stopTerminated
          detokenizer).2.stop, word ≠ []
        rw [IncrementalDetokenizer.update_stop]
        exact spelled
      · simp only [outputTokenIds, listed.1, listed.2]
        exact List.drop_append_of_le_length detokenizer.prompted
      · intro found
        exact spelled [] (IncrementalDetokenizer.update_stop_mem spelled found) rfl
      · intro handed
        have outcome : (IncrementalDetokenizer.update decodeNext newTokenIds stopTerminated
            detokenizer).2.Handed sent ∨ _ := IncrementalDetokenizer.update_handed spelled handed
        rcases outcome with goesOn | ⟨stopped, cut⟩
        · exact ⟨Handed.reached goesOn, fun _ => goesOn⟩
        · constructor
          · exact cut
          · intro found
            rw [found] at stopped
            cases stopped

/-- Handing out text keeps the tokens. -/
theorem getNextOutputText_keeps (detokenizer : RequestDetokenizer δ) (finished delta : Bool) :
    (detokenizer.getNextOutputText finished delta).2.outputTokenIds = detokenizer.outputTokenIds ∧
      ((detokenizer.getNextOutputText finished delta).2.Spelled ↔ detokenizer.Spelled) := by
  cases detokenizer with
  | listing tokenIds => exact ⟨rfl, .rfl⟩
  | decoding detokenizer =>
      have kept : ∃ offset, (detokenizer.getNextOutputText finished delta).2 =
          detokenizer.handedTo offset := by
        unfold IncrementalDetokenizer.getNextOutputText
        dsimp only
        generalize (if finished then 0 else detokenizer.stopBufferLength) = bufferLength
        split
        · split
          · exact ⟨_, rfl⟩
          · exact ⟨detokenizer.lastOutputTextOffset, rfl⟩
        · exact ⟨detokenizer.lastOutputTextOffset, rfl⟩
      rcases kept with ⟨offset, same⟩
      simp only [getNextOutputText, outputTokenIds, Spelled, same]
      exact ⟨rfl, .rfl⟩

/-- What is handed out in delta mode is the next text, and the rest of it at the end. -/
theorem getNextOutputText_spec (finished : Bool) (reached : detokenizer.Reached sent)
    (handed : finished = false → detokenizer.Handed sent) :
    let next := detokenizer.getNextOutputText finished true
    (finished = false → next.2.Handed (sent ++ next.1)) ∧
      (finished = true → sent ++ next.1 = next.2.outputText) := by
  cases detokenizer with
  | listing tokenIds =>
      constructor
      · exact fun _ => (List.append_nil sent).trans reached
      · exact fun _ => (List.append_nil sent).trans reached
  | decoding detokenizer =>
      constructor
      · rintro rfl
        exact (IncrementalDetokenizer.getNextOutputText_unfinished (handed rfl)).1
      · rintro rfl
        have last := IncrementalDetokenizer.getNextOutputText_finished reached.1 reached.2
        exact last.1.trans last.2.symm

end RequestDetokenizer

/-- Every row adds one entry behind those known before. -/
theorem LogprobsProcessor.updateFromOutput_spec (self : LogprobsProcessor π)
    (rows : Option (List reading.Row)) :
    match self.logprobs with
    | none => (self.updateFromOutput reading rows).logprobs = none
    | some known => ∃ added, (self.updateFromOutput reading rows).logprobs = some (known ++ added) ∧
        added.length = (rows.getD []).length := by
  unfold updateFromOutput
  generalize rows.getD [] = rows
  induction rows generalizing self with
  | nil =>
      cases known : self.logprobs with
      | none => exact known
      | some known => exact ⟨[], by simpa using known, rfl⟩
  | cons row rows inductionHypothesis =>
      have later := inductionHypothesis
        { logprobs := self.logprobs.map fun known => known ++ [reading.entry known row]
          cumulativeLogprob := self.cumulativeLogprob.map fun score => reading.score score row }
      cases known : self.logprobs with
      | none => simpa [known] using later
      | some entries =>
          simp only [known, Option.map_some] at later
          rcases later with ⟨added, grown, counted⟩
          refine ⟨reading.entry entries row :: added, ?_, ?_⟩
          · simpa [known] using grown
          · rw [List.length_cons, counted, List.length_cons]

/-! ## One call -/

theorem eachCall_concat {property : List (OutputCall π) → OutputCall π → Prop}
    {calls : List (OutputCall π)} {last : OutputCall π} :
    EachCall property (calls ++ [last]) ↔ EachCall property calls ∧ property calls last := by
  constructor
  · intro each
    constructor
    · intro place call found
      have inside := (List.getElem?_eq_some_iff.mp found).1
      have here := each place call (by rw [List.getElem?_append_left inside, found])
      rwa [List.take_append_of_le_length inside.le] at here
    · have here := each calls.length last (by simp)
      rwa [List.take_left] at here
  · rintro ⟨before, atLast⟩ place call found
    rcases Nat.lt_or_ge place calls.length with inside | beyond
    · rw [List.getElem?_append_left inside] at found
      rw [List.take_append_of_le_length inside.le]
      exact before place call found
    · have bound := (List.getElem?_eq_some_iff.mp found).1
      rw [List.length_append, List.length_singleton] at bound
      have same : place = calls.length := Nat.le_antisymm (Nat.le_of_lt_succ bound) beyond
      subst same
      rw [List.getElem?_concat_length] at found
      cases found
      rw [List.take_left]
      exact atLast

namespace RequestState

section

variable {ρ : Processing π} {state taken next : RequestState ρ κ}
  {detokenizer : ρ.Detokenizer} {logprobsProcessor : ρ.LogprobsProcessor}

variable {finishReason : Option FinishReason} {stopReason : Option (Int ⊕ String)}

/-- What a request takes in of an output: its tokens and their log probabilities. -/
theorem takeOutput_spec {output : EngineCoreOutput ρ}
    (processors : state.processors = some (detokenizer, logprobsProcessor))
    (completion : output.poolingOutput = none)
    (took : OutputProcessor.takeOutput state output = .ok (taken, finishReason, stopReason)) :
    let updated := ρ.update detokenizer output.newTokenIds (output.finishReason = some .stop)
    taken.outputKind = state.outputKind ∧ taken.streamInterval = state.streamInterval ∧
      taken.sentTokensOffset = state.sentTokensOffset ∧ taken.parentReq = state.parentReq ∧
      taken.requestId = state.requestId ∧
      taken.processors = some (updated.2, ρ.updateFromOutput logprobsProcessor output.newLogprobs) ∧
      (finishReason = none → updated.1 = none ∨ updated.1 = some []) := by
  unfold OutputProcessor.takeOutput at took
  simp only [completion, processors] at took
  intro updated
  split at took
  · rename_i found
    cases took
    exact ⟨rfl, rfl, rfl, rfl, rfl, rfl, fun _ => .inl found⟩
  · rename_i found
    cases took
    exact ⟨rfl, rfl, rfl, rfl, rfl, rfl, fun _ => .inr found⟩
  · cases took
    exact ⟨rfl, rfl, rfl, rfl, rfl, rfl, by rintro ⟨⟩⟩

/-- Whether the stream interval lets an output out. -/
def Due (state : RequestState ρ κ) (total : Nat) (finished : Bool) : Prop :=
  finished = true ∨ state.sentTokensOffset = 0 ∨
    state.sentTokensOffset + state.streamInterval ≤ total

theorem intervalTokens_spec (newTokenIds : List Nat) (finished : Bool)
    (processors : state.processors = some (detokenizer, logprobsProcessor))
    (long : 2 ≤ state.streamInterval) :
    (¬ state.Due (ρ.outputTokenIds detokenizer).length finished ∧
      state.intervalTokens newTokenIds finished = .ok none) ∨
    (state.Due (ρ.outputTokenIds detokenizer).length finished ∧
      state.intervalTokens newTokenIds finished = .ok (some
        (if state.outputKind = .delta then
          ((ρ.outputTokenIds detokenizer).drop state.sentTokensOffset,
            { state with sentTokensOffset := (ρ.outputTokenIds detokenizer).length })
        else (newTokenIds, state)))) := by
  unfold intervalTokens
  rw [if_pos (show state.streamInterval > 1 from long), processors]
  by_cases due : state.Due (ρ.outputTokenIds detokenizer).length finished
  · right
    refine ⟨due, ?_⟩
    have opened : (!(finished || decide (state.sentTokensOffset = 0) ||
        decide (state.sentTokensOffset + state.streamInterval ≤
          (ρ.outputTokenIds detokenizer).length))) = false := by
      rcases due with finished | first | enough
      · simp [finished]
      · simp [first]
      · simp [enough]
    simp only [opened, Bool.false_eq_true, if_false]
    split
    · rfl
    · rfl
  · left
    refine ⟨due, ?_⟩
    have closed : (!(finished || decide (state.sentTokensOffset = 0) ||
        decide (state.sentTokensOffset + state.streamInterval ≤
          (ρ.outputTokenIds detokenizer).length))) = true := by
      simp only [Due, not_or] at due
      simp [due]
    simp only [closed, if_true]
    rfl

/-- A call returns one completion when an output is due, and nothing otherwise. -/
theorem makeRequestOutput_spec {parents left : Dict String (ParentRequest π)}
    {newTokenIds : List Nat} {kvTransferParams ecTransferParams : Option π.Params}
    {report : Option (Report π)}
    (processors : state.processors = some (detokenizer, logprobsProcessor))
    (awaited : state.Awaited parents) (streaming : state.outputKind ≠ .finalOnly)
    (long : 2 ≤ state.streamInterval)
    (made : state.makeRequestOutput parents newTokenIds none finishReason stopReason
      kvTransferParams ecTransferParams = .ok (report, next, left)) :
    let total := ρ.outputTokenIds detokenizer
    let text := ρ.getNextOutputText detokenizer finishReason.isSome (state.outputKind = .delta)
    (¬ state.Due total.length finishReason.isSome ∧ report = none ∧ next = state) ∨
    (state.Due total.length finishReason.isSome ∧
      (∃ requestId completion finished, report = some (.completions requestId [some completion]
          finished kvTransferParams ecTransferParams) ∧
        (state.outputKind = .delta → completion.tokenIds = total.drop state.sentTokensOffset ∧
          completion.text = text.1 ∧
          completion.logprobs = (ρ.logprobs logprobsProcessor).map fun known =>
            known.drop (known.length - (total.drop state.sentTokensOffset).length))) ∧
      next.outputKind = state.outputKind ∧ next.streamInterval = state.streamInterval ∧
      next.sentTokensOffset =
        (if state.outputKind = .delta then total.length else state.sentTokensOffset) ∧
      next.processors = some (text.2, logprobsProcessor)) := by
  intro total text
  have notFinal : (!finishReason.isSome && decide (state.outputKind = .finalOnly)) = false := by
    simp [streaming]
  unfold makeRequestOutput at made
  simp only [notFinal, Bool.false_eq_true, if_false] at made
  rcases intervalTokens_spec newTokenIds finishReason.isSome processors long with
    ⟨due, waits⟩ | ⟨due, sent⟩
  · left
    rw [waits] at made
    cases made
    exact ⟨due, rfl, rfl⟩
  · right
    refine ⟨due, ?_⟩
    generalize pair : (if state.outputKind = .delta then
        (total.drop state.sentTokensOffset, { state with sentTokensOffset := total.length })
      else (newTokenIds, state)) = pairs at sent
    rcases pairs with ⟨tokenIds, middle⟩
    have same : middle.outputKind = state.outputKind ∧
        middle.streamInterval = state.streamInterval ∧ middle.parentReq = state.parentReq ∧
        middle.requestId = state.requestId ∧ middle.processors = state.processors ∧
        middle.sentTokensOffset =
          (if state.outputKind = .delta then total.length else state.sentTokensOffset) ∧
        (state.outputKind = .delta → tokenIds = total.drop state.sentTokensOffset) := by
      by_cases delta : state.outputKind = .delta
      · rw [if_pos delta] at pair ⊢
        cases pair
        exact ⟨rfl, rfl, rfl, rfl, rfl, rfl, fun _ => rfl⟩
      · rw [if_neg delta] at pair ⊢
        cases pair
        exact ⟨rfl, rfl, rfl, rfl, rfl, rfl, fun now => absurd now delta⟩
    rcases same with ⟨kind, interval, parentReq, requestId, both, offset, drops⟩
    rw [sent] at made
    simp only [bind, Except.bind, both, processors] at made
    have texts : (middle.newCompletionOutput detokenizer logprobsProcessor tokenIds finishReason
        stopReason).2 = text.2 := by
      rw [newCompletionOutput, kind]
    have contents : state.outputKind = .delta →
        (middle.newCompletionOutput detokenizer logprobsProcessor tokenIds finishReason
          stopReason).1.tokenIds = total.drop state.sentTokensOffset ∧
        (middle.newCompletionOutput detokenizer logprobsProcessor tokenIds finishReason
          stopReason).1.text = text.1 ∧
        (middle.newCompletionOutput detokenizer logprobsProcessor tokenIds finishReason
          stopReason).1.logprobs = (ρ.logprobs logprobsProcessor).map fun known =>
            known.drop (known.length - (total.drop state.sentTokensOffset).length) := by
      intro delta
      simp only [newCompletionOutput, kind, delta, decide_true, if_true, drops delta, text,
        and_self]
    rw [texts] at made
    generalize (middle.newCompletionOutput detokenizer logprobsProcessor tokenIds finishReason
      stopReason).1 = completion at made contents
    rcases single : state.parentReq with _ | id
    · simp only [parentReq.trans single, Option.bind_none] at made
      cases made
      exact ⟨⟨_, completion, _, rfl, contents⟩, kind, interval, offset, rfl⟩
    · rcases awaited id single with ⟨parent, found, streams, waits⟩
      simp only [parentReq.trans single, Option.bind_some, found, Option.map_some] at made
      have listed : parent.childRequests.contains middle.requestId = true := by
        rw [requestId]
        exact List.contains_iff_mem.mpr waits
      simp only [ParentRequest.getOutputs, listed, Bool.not_true, Bool.and_false,
        Bool.false_eq_true, if_false, if_pos streams, pure, Except.pure] at made
      cases made
      exact ⟨⟨_, completion, _, rfl, contents⟩, kind, interval, offset, rfl⟩

end

end RequestState

/-! ## Runs -/

/-- What the outputs of a delta request have carried, with the tokens up to an offset. -/
structure Delivered (calls : List (OutputCall π)) (offset : Nat)
    (detokenizer : RequestDetokenizer reading.Decoder) (logprobsProcessor : LogprobsProcessor π) :
    Prop where
  tokenIds : (completions calls).flatMap (·.tokenIds) = (allTokenIds calls).take offset
  logprobs : (completions calls).flatMap (·.logprobs.getD []) =
    (logprobsProcessor.logprobs.getD []).take offset
  own : ∀ completion ∈ completions calls, completion.logprobs.map List.length =
    logprobsProcessor.logprobs.map fun _ => completion.tokenIds.length
  running : (∀ call ∈ calls, call.finished = false) →
    detokenizer.Handed ((completions calls).flatMap (·.text))
  ended : (∃ call ∈ calls, call.finished = true) →
    (completions calls).flatMap (·.text) = detokenizer.outputText ∧
      offset = (allTokenIds calls).length

/-- The state of a request between two calls: the offset is zero for cumulative requests and
before the first token, and else counts the tokens that were sent. -/
structure Streaming (start : RequestState reading.processing κ) (calls : List (OutputCall π))
    (state : RequestState reading.processing κ)
    (detokenizer : RequestDetokenizer reading.Decoder) (logprobsProcessor : LogprobsProcessor π) :
    Prop where
  outputKind : state.outputKind = start.outputKind
  streamInterval : state.streamInterval = start.streamInterval
  processors : state.processors = some (detokenizer, logprobsProcessor)
  idle : state.sentTokensOffset = 0 ↔
    start.outputKind = .cumulative ∨ allTokenIds calls = []
  sent : state.sentTokensOffset = 0 → unsentTokens calls = 0
  unsent : start.outputKind = .delta →
    state.sentTokensOffset + unsentTokens calls = (allTokenIds calls).length
  answered : calls ≠ [] → ∃ call ∈ calls, call.report.isSome
  listed : detokenizer.outputTokenIds = allTokenIds calls
  spelled : detokenizer.Spelled
  rows : ∀ known, logprobsProcessor.logprobs = some known →
    known.length = (allTokenIds calls).length
  delivered : start.outputKind = .delta →
    Delivered calls state.sentTokensOffset detokenizer logprobsProcessor

section Runs

variable {start state taken next : RequestState reading.processing κ} {calls : List (OutputCall π)}
  {detokenizer updated : RequestDetokenizer reading.Decoder}
  {logprobsProcessor grown : LogprobsProcessor π}

theorem allTokenIds_concat (calls : List (OutputCall π)) (last : OutputCall π) :
    allTokenIds (calls ++ [last]) = allTokenIds calls ++ last.newTokenIds := by
  rw [allTokenIds, List.flatMap_append, List.flatMap_singleton]
  rfl

theorem unsentTokens_concat (calls : List (OutputCall π)) (last : OutputCall π) :
    unsentTokens (calls ++ [last]) =
      if last.report.isSome then 0 else unsentTokens calls + last.newTokenIds.length := by
  rw [unsentTokens, List.foldl_append]
  rfl

/-- What a request has taken in before its call: the new tokens, with their log probabilities,
and a text that keeps what was handed out. -/
structure Took (state taken : RequestState reading.processing κ) (newTokenIds : List Nat)
    (finished : Bool) (calls : List (OutputCall π))
    (detokenizer updated : RequestDetokenizer reading.Decoder)
    (logprobsProcessor grown : LogprobsProcessor π) : Prop where
  outputKind : taken.outputKind = state.outputKind
  streamInterval : taken.streamInterval = state.streamInterval
  sentTokensOffset : taken.sentTokensOffset = state.sentTokensOffset
  processors : taken.processors = some (updated, grown)
  listed : updated.outputTokenIds = detokenizer.outputTokenIds ++ newTokenIds
  spelled : updated.Spelled
  reached : ∀ sent, detokenizer.Handed sent → updated.Reached sent ∧
    (finished = false → updated.Handed sent)
  rows : match logprobsProcessor.logprobs with
    | none => grown.logprobs = none
    | some known => ∃ added, grown.logprobs = some (known ++ added) ∧
        added.length = newTokenIds.length

variable {newTokenIds : List Nat} {kvTransferParams ecTransferParams : Option π.Params}

variable {offset : Nat}

/-- An output that is returned in delta mode carries all that was not carried before. -/
theorem Delivered.returned {finished closed : Bool} {requestId : String}
    {completion : CompletionOutput π}
    (delivered : Delivered calls offset detokenizer logprobsProcessor)
    (took : Took state taken newTokenIds finished calls detokenizer updated logprobsProcessor grown)
    (inside : offset ≤ (allTokenIds calls).length)
    (rows : ∀ known, logprobsProcessor.logprobs = some known →
      known.length = (allTokenIds calls).length) (running : ∀ call ∈ calls, call.finished = false)
    (tokenIds : completion.tokenIds = (allTokenIds calls ++ newTokenIds).drop offset)
    (text : completion.text = (updated.getNextOutputText finished true).1)
    (logprobs : completion.logprobs = grown.logprobs.map fun known =>
      known.drop (known.length - ((allTokenIds calls ++ newTokenIds).drop offset).length)) :
    Delivered (calls ++ [⟨newTokenIds, finished, some (.completions requestId [some completion]
        closed kvTransferParams ecTransferParams)⟩])
      (allTokenIds calls ++ newTokenIds).length (updated.getNextOutputText finished true).2
      grown := by
  have more : completions (calls ++ [⟨newTokenIds, finished, some (.completions requestId
      [some completion] closed kvTransferParams ecTransferParams)⟩]) =
        completions calls ++ [completion] := by
    rw [completions, List.flatMap_append, List.flatMap_singleton]
    rfl
  rcases took.reached _ (delivered.running running) with ⟨reached, handed⟩
  rcases RequestDetokenizer.getNextOutputText_spec finished reached handed with ⟨goesOn, ends⟩
  have known := took.rows
  constructor
  · rw [more, List.flatMap_append, delivered.tokenIds, List.flatMap_singleton, tokenIds,
      allTokenIds_concat, List.take_length]
    have known : (allTokenIds calls ++ newTokenIds).take offset = (allTokenIds calls).take offset :=
      List.take_append_of_le_length inside
    rw [← known, List.take_append_drop]
  · rw [more, List.flatMap_append, delivered.logprobs, List.flatMap_singleton, logprobs]
    cases before : logprobsProcessor.logprobs with
    | none =>
        rw [before] at known
        simp [known]
    | some entries =>
        rw [before] at known
        rcases known with ⟨added, grows, counted⟩
        have length := rows entries before
        have place : (entries ++ added).length -
            ((allTokenIds calls ++ newTokenIds).drop offset).length = offset := by
          rw [List.length_append, List.length_drop, List.length_append, length, counted]
          omega
        simp only [grows, Option.map_some, Option.getD_some, place]
        have front : (entries ++ added).take offset = entries.take offset :=
          List.take_append_of_le_length (length ▸ inside)
        rw [← front, List.take_append_drop, List.take_of_length_le]
        rw [List.length_append, List.length_append, length, counted]
  · intro other member
    rw [more] at member
    rcases List.mem_append.mp member with earlier | here
    · rw [delivered.own other earlier]
      cases before : logprobsProcessor.logprobs with
      | none =>
          rw [before] at known
          rw [known]
      | some entries =>
          rw [before] at known
          rcases known with ⟨added, grows, -⟩
          rw [grows]
          rfl
    · rw [List.mem_singleton.mp here, logprobs, tokenIds]
      cases before : logprobsProcessor.logprobs with
      | none =>
          rw [before] at known
          rw [known]
          rfl
      | some entries =>
          rw [before] at known
          rcases known with ⟨added, grows, counted⟩
          rw [grows]
          simp only [Option.map_some, List.length_drop, List.length_append,
            rows entries before, counted]
          congr 1
          omega
  · intro open_
    rw [more, List.flatMap_append, List.flatMap_singleton, text]
    exact goesOn (open_ _ (List.mem_append_right _ List.mem_cons_self))
  · rintro ⟨call, member, closes⟩
    have last : finished = true := by
      rcases List.mem_append.mp member with earlier | here
      · rw [running call earlier] at closes
        cases closes
      · rw [List.mem_singleton.mp here] at closes
        exact closes
    constructor
    · rw [more, List.flatMap_append, List.flatMap_singleton, text]
      exact ends last
    · rw [allTokenIds_concat]

/-- A call that returns nothing in delta mode keeps what was carried. -/
theorem Delivered.waits (delivered : Delivered calls offset detokenizer logprobsProcessor)
    (took : Took state taken newTokenIds false calls detokenizer updated logprobsProcessor grown)
    (inside : offset ≤ (allTokenIds calls).length)
    (rows : ∀ known, logprobsProcessor.logprobs = some known →
      known.length = (allTokenIds calls).length) (running : ∀ call ∈ calls, call.finished = false) :
    Delivered (calls ++ [⟨newTokenIds, false, none⟩]) offset updated grown := by
  have same : completions (calls ++ [⟨newTokenIds, false, none⟩]) = completions calls := by
    rw [completions, List.flatMap_append, List.flatMap_singleton]
    exact List.append_nil _
  have known := took.rows
  constructor
  · rw [same, delivered.tokenIds, allTokenIds_concat, List.take_append_of_le_length inside]
  · rw [same, delivered.logprobs]
    cases before : logprobsProcessor.logprobs with
    | none =>
        rw [before] at known
        rw [known]
    | some entries =>
        rw [before] at known
        rcases known with ⟨added, grows, -⟩
        rw [grows, Option.getD_some, Option.getD_some,
          List.take_append_of_le_length (rows entries before ▸ inside)]
  · intro other member
    rw [same] at member
    rw [delivered.own other member]
    cases before : logprobsProcessor.logprobs with
    | none =>
        rw [before] at known
        rw [known]
    | some entries =>
        rw [before] at known
        rcases known with ⟨added, grows, -⟩
        rw [grows]
        rfl
  · intro _
    rw [same]
    exact (took.reached _ (delivered.running running)).2 rfl
  · rintro ⟨call, member, closes⟩
    rcases List.mem_append.mp member with earlier | here
    · rw [running call earlier] at closes
      cases closes
    · rw [List.mem_singleton.mp here] at closes
      cases closes

variable {finishReason : Option FinishReason} {stopReason : Option (Int ⊕ String)}

/-- Every call keeps the state of the request, and its output is due exactly when it is paced. -/
theorem Streaming.called {parents left : Dict String (ParentRequest π)} {report : Option (Report π)}
    (streaming : Streaming start calls state detokenizer logprobsProcessor)
    (intermediate : start.outputKind ≠ .finalOnly) (long : 2 ≤ start.streamInterval)
    (running : ∀ call ∈ calls, call.finished = false)
    (took : Took state taken newTokenIds finishReason.isSome calls detokenizer updated
      logprobsProcessor grown) (awaited : taken.Awaited parents)
    (made : taken.makeRequestOutput parents newTokenIds none finishReason stopReason
      kvTransferParams ecTransferParams = .ok (report, next, left)) :
    (∃ later, Streaming start (calls ++ [⟨newTokenIds, finishReason.isSome, report⟩]) next later
      grown) ∧
    ((report.isSome → finishReason.isSome = true ∨ (∀ call ∈ calls, call.report = none) ∨
        start.streamInterval ≤ unsentTokens calls + newTokenIds.length) ↔
      (calls ≠ [] → (start.outputKind = .cumulative ∨ allTokenIds calls = []) →
        finishReason.isSome = true ∨ start.streamInterval ≤ newTokenIds.length)) := by
  have kind := took.outputKind.trans streaming.outputKind
  have interval := took.streamInterval.trans streaming.streamInterval
  have offset := took.sentTokensOffset
  have total : (reading.processing.outputTokenIds updated) = allTokenIds calls ++ newTokenIds := by
    change updated.outputTokenIds = _
    rw [took.listed, streaming.listed]
  have inside : start.outputKind = .delta →
      state.sentTokensOffset ≤ (allTokenIds calls).length := by
    intro delta
    rw [← streaming.unsent delta]
    exact Nat.le_add_right _ _
  have other : start.outputKind ≠ .cumulative → start.outputKind = .delta := by
    intro streams
    cases same : start.outputKind with
    | cumulative => exact absurd same streams
    | delta => rfl
    | finalOnly => exact absurd same intermediate
  have rows : ∀ known, grown.logprobs = some known →
      known.length = (allTokenIds calls ++ newTokenIds).length := by
    intro entries found
    have known := took.rows
    cases before : logprobsProcessor.logprobs with
    | none =>
        rw [before] at known
        rw [known] at found
        cases found
    | some earlier =>
        rw [before] at known
        rcases known with ⟨added, grows, counted⟩
        rw [grows] at found
        cases found
        rw [List.length_append, List.length_append, streaming.rows earlier before, counted]
  rcases RequestState.makeRequestOutput_spec took.processors awaited (kind ▸ intermediate)
    (interval ▸ long) made with ⟨waits, rfl, rfl⟩ | ⟨due, ⟨requestId, completion, closed, rfl,
      contents⟩, kind', interval', offset', processors'⟩
  · rw [RequestState.Due, offset, interval, total] at waits
    simp only [not_or, Bool.not_eq_true] at waits
    rcases waits with ⟨open_, later, short⟩
    have busy : ¬ (start.outputKind = .cumulative ∨ allTokenIds calls = []) :=
      fun idle => later (streaming.idle.mpr idle)
    have delta := other fun cumulative => busy (.inl cumulative)
    have some_ : calls ≠ [] := by
      rintro rfl
      exact busy (.inr rfl)
    rw [open_] at took ⊢
    constructor
    · refine ⟨updated, kind, interval, took.processors, ?_, ?_, ?_, ?_, ?_, took.spelled, ?_, ?_⟩
      · rw [offset, allTokenIds_concat]
        constructor
        · exact fun zero => absurd zero later
        · rintro (cumulative | empty)
          · exact absurd (.inl cumulative) busy
          · exact absurd (.inr (List.append_eq_nil_iff.mp empty).1) busy
      · exact fun zero => absurd (offset ▸ zero) later
      · intro _
        rw [unsentTokens_concat, allTokenIds_concat, offset, List.length_append,
          ← streaming.unsent delta]
        exact (Nat.add_assoc _ _ _).symm
      · intro _
        rcases streaming.answered some_ with ⟨call, member, answered⟩
        exact ⟨call, List.mem_append_left _ member, answered⟩
      · rw [took.listed, streaming.listed, allTokenIds_concat]
      · rw [allTokenIds_concat]
        exact rows
      · intro _
        rw [offset]
        exact (streaming.delivered delta).waits took (inside delta) streaming.rows running
    · constructor
      · exact fun _ _ idle => absurd idle busy
      · exact fun _ => nofun
  · rw [RequestState.Due, offset, interval, total, List.length_append] at due
    rw [kind, offset, total] at offset'
    constructor
    · refine ⟨_, kind'.trans kind, interval'.trans interval, processors', ?_, ?_, ?_, ?_, ?_, ?_,
        ?_, ?_⟩
      · rw [offset', allTokenIds_concat]
        by_cases delta : start.outputKind = .delta
        · rw [if_pos delta, List.length_eq_zero_iff]
          simp [delta]
        · have cumulative : start.outputKind = .cumulative := by
            by_contra streams
            exact delta (other streams)
          rw [if_neg delta, streaming.idle]
          simp [cumulative]
      · intro _
        rw [unsentTokens_concat]
        rfl
      · intro delta
        rw [offset', if_pos delta, unsentTokens_concat, allTokenIds_concat]
        rfl
      · intro _
        exact ⟨_, List.mem_append_right _ List.mem_cons_self, rfl⟩
      · rw [allTokenIds_concat, ← total]
        exact (updated.getNextOutputText_keeps _ _).1
      · exact (updated.getNextOutputText_keeps _ _).2.mpr took.spelled
      · rw [allTokenIds_concat]
        exact rows
      · intro delta
        rcases contents (kind.trans delta) with ⟨tokenIds, text, logprobs⟩
        rw [offset, total] at tokenIds logprobs
        rw [kind] at text ⊢
        rw [offset', if_pos delta]
        simp only [delta, decide_true] at text ⊢
        exact (streaming.delivered delta).returned took (inside delta) streaming.rows running
          tokenIds text logprobs
    · constructor
      · intro onlyWhenDue some_ idle
        rcases streaming.answered some_ with ⟨call, member, answered⟩
        rcases onlyWhenDue rfl with finished | none_ | enough
        · exact .inl finished
        · rw [none_ call member] at answered
          cases answered
        · right
          rwa [streaming.sent (streaming.idle.mpr idle), Nat.zero_add] at enough
      · intro paced _
        rcases eq_or_ne calls [] with rfl | some_
        · exact .inr (.inl nofun)
        by_cases idle : start.outputKind = .cumulative ∨ allTokenIds calls = []
        · rcases paced some_ idle with finished | enough
          · exact .inl finished
          · exact .inr (.inr (enough.trans (Nat.le_add_left _ _)))
        · have delta := other fun cumulative => idle (.inl cumulative)
          rcases due with finished | zero | enough
          · exact .inl finished
          · exact absurd (streaming.idle.mp zero) idle
          · right
            right
            have balance := streaming.unsent delta
            omega

/-- What an output brings is taken in. -/
theorem Streaming.takes {output : EngineCoreOutput reading.processing}
    (streaming : Streaming start calls state detokenizer logprobsProcessor)
    (supplied : output.Supplied logprobsProcessor)
    (took : OutputProcessor.takeOutput state output = .ok (taken, finishReason, stopReason)) :
    (∃ updated, Took state taken output.newTokenIds finishReason.isSome calls detokenizer updated
      logprobsProcessor (logprobsProcessor.updateFromOutput reading output.newLogprobs)) ∧
    taken.parentReq = state.parentReq ∧ taken.requestId = state.requestId := by
  rcases RequestState.takeOutput_spec streaming.processors supplied.completion took with
    ⟨outputKind, streamInterval, sentTokensOffset, parentReq, requestId, processors, goesOn⟩
  refine ⟨⟨_, outputKind, streamInterval, sentTokensOffset, processors, ?_, ?_, ?_, ?_⟩, parentReq,
    requestId⟩
  · exact (RequestDetokenizer.update_spec _ [] _ _ streaming.spelled).2.1
  · exact (RequestDetokenizer.update_spec _ [] _ _ streaming.spelled).1
  · intro sent handed
    rcases RequestDetokenizer.update_spec reading.decodeNext sent output.newTokenIds
      (output.finishReason = some .stop) streaming.spelled with ⟨-, -, spelled, kept⟩
    constructor
    · exact (kept handed).1
    · intro open_
      apply (kept handed).2
      rcases goesOn (Option.isSome_eq_false_iff.mp open_ |> Option.isNone_iff_eq_none.mp) with
        none_ | empty
      · exact none_
      · exact absurd empty spelled
  · have grows := LogprobsProcessor.updateFromOutput_spec logprobsProcessor
      (output.newLogprobs : Option (List reading.Row))
    have counted := supplied.rows
    cases known : logprobsProcessor.logprobs with
    | none =>
        rw [known] at grows
        exact grows
    | some entries =>
        rw [known] at grows counted
        rcases grows with ⟨added, grown, length⟩
        exact ⟨added, grown, length.trans counted⟩

/-- An abort brings nothing. -/
theorem Streaming.aborts (streaming : Streaming start calls state detokenizer logprobsProcessor) :
    Took state state [] true calls detokenizer detokenizer logprobsProcessor logprobsProcessor where
  outputKind := rfl
  streamInterval := rfl
  sentTokensOffset := rfl
  processors := streaming.processors
  listed := (List.append_nil _).symm
  spelled := streaming.spelled
  reached _ handed := ⟨handed.reached, nofun⟩
  rows := by
    cases known : logprobsProcessor.logprobs with
    | none => rfl
    | some entries => exact ⟨[], by rw [List.append_nil], rfl⟩

/-- The state of a request in every run, and which runs send outputs only when they are due. -/
theorem streams_spec (intermediate : start.outputKind ≠ .finalOnly)
    (long : 2 ≤ start.streamInterval)
    (fresh : Streaming start [] start detokenizer logprobsProcessor)
    (streams : Streams start calls state) :
    (∃ later grown, Streaming start calls state later grown) ∧
      (OnlyWhenDue start.streamInterval calls ↔
        Paced start.outputKind start.streamInterval calls) := by
  induction streams with
  | start =>
      refine ⟨⟨_, _, fresh⟩, ?_⟩
      constructor
      · intro _ place call found
        cases found
      · intro _ place call found
        cases found
  | output streams running processors supplied awaited took made inductionHypothesis =>
      rcases inductionHypothesis with ⟨⟨detokenizer, logprobsProcessor, streaming⟩, earlier⟩
      have same := processors.symm.trans streaming.processors
      cases same
      rcases streaming.takes supplied took with ⟨⟨updated, took'⟩, parentReq, requestId⟩
      rw [supplied.completion] at made
      rcases streaming.called intermediate long running took'
        (by rw [RequestState.Awaited, parentReq, requestId]; exact awaited) made with
        ⟨⟨later, next⟩, due⟩
      refine ⟨⟨later, _, next⟩, ?_⟩
      rw [OnlyWhenDue, Paced, eachCall_concat, eachCall_concat]
      exact and_congr earlier due
  | abort streams running awaited made inductionHypothesis =>
      rcases inductionHypothesis with ⟨⟨detokenizer, logprobsProcessor, streaming⟩, earlier⟩
      rcases streaming.called intermediate long running streaming.aborts awaited made with
        ⟨⟨later, next⟩, due⟩
      refine ⟨⟨later, _, next⟩, ?_⟩
      rw [OnlyWhenDue, Paced, eachCall_concat, eachCall_concat]
      exact and_congr earlier due

end Runs

/-- A request as `from_new_request` makes it for a tokenizer and its sampling parameters. -/
def startedRequest (reading : Reading π) (requestId : RequestId) (externalReqId : String)
    (samplingParams : SamplingParams)
    (tokenizer : Option (DetokenizerParams Char × List Nat × reading.Decoder))
    (zero : Option π.Score) (parentReq : Option String) (requestIndex : Nat) (queue : Option κ)
    (streamInterval : Nat) : RequestState reading.processing κ :=
  RequestState.fromNewRequest
    { requestId, externalReqId, samplingParams
      processors := some (RequestDetokenizer.fromNewRequest tokenizer,
        LogprobsProcessor.fromNewRequest zero) }
    parentReq requestIndex queue streamInterval

/-- For every request with a stream interval that is not final-only, and every run of its calls:
outputs are returned only when they are due, and those of a finished delta request make up all its
tokens, its text and its log probabilities, exactly when the calls are paced. -/
theorem stream_interval_law (reading : Reading π) (requestId : RequestId) (externalReqId : String)
    (samplingParams : SamplingParams)
    (tokenizer : Option (DetokenizerParams Char × List Nat × reading.Decoder))
    (zero : Option π.Score) (parentReq : Option String) (requestIndex : Nat) (queue : Option κ)
    (streamInterval : Nat)
    (spelled : ∀ params ∈ tokenizer, ∀ stopStr ∈ params.1.stop.strings, stopStr ≠ [])
    (intermediate : samplingParams.outputKind ≠ .finalOnly)
    (long : 2 ≤ (samplingParams.streamInterval.elim streamInterval fun interval =>
      max interval streamInterval))
    {calls : List (OutputCall π)} {state : RequestState reading.processing κ}
    (streams : Streams (startedRequest reading requestId externalReqId samplingParams tokenizer zero
      parentReq requestIndex queue streamInterval) calls state) :
    (OnlyWhenDue state.streamInterval calls ∧
      (samplingParams.outputKind = .delta → (∃ call ∈ calls, call.finished = true) →
        ∃ detokenizer logprobsProcessor, state.processors = some (detokenizer, logprobsProcessor) ∧
          Concatenated calls detokenizer logprobsProcessor)) ↔
      Paced samplingParams.outputKind state.streamInterval calls := by
  have fresh : Streaming (startedRequest reading requestId externalReqId samplingParams tokenizer
      zero parentReq requestIndex queue streamInterval) [] (startedRequest reading requestId
        externalReqId samplingParams tokenizer zero parentReq requestIndex queue streamInterval)
      (RequestDetokenizer.fromNewRequest tokenizer) (LogprobsProcessor.fromNewRequest zero) := by
    refine ⟨rfl, rfl, rfl, ⟨fun _ => .inr rfl, fun _ => rfl⟩, fun _ => rfl, fun _ => rfl,
      fun some_ => absurd rfl some_, ?_, ?_, ?_, ?_⟩
    · cases tokenizer with
      | none => rfl
      | some tokenizer => exact List.drop_length
    · cases tokenizer with
      | none => trivial
      | some tokenizer => exact spelled tokenizer rfl
    · cases zero with
      | none => exact nofun
      | some zero =>
          rintro known ⟨⟩
          rfl
    · intro _
      refine ⟨rfl, rfl, nofun, fun _ => ?_, nofun⟩
      cases tokenizer with
      | none => exact (rfl : ([] : List Char) = [])
      | some tokenizer => exact ⟨rfl, Nat.zero_le _⟩
  rcases streams_spec intermediate long fresh streams with
    ⟨⟨detokenizer, logprobsProcessor, streaming⟩, law⟩
  rw [streaming.streamInterval]
  refine Iff.trans ⟨And.left, fun due => ⟨due, fun delta finished => ?_⟩⟩ law
  have delivered := streaming.delivered delta
  rcases delivered.ended finished with ⟨text, whole⟩
  refine ⟨detokenizer, logprobsProcessor, streaming.processors, ?_, text, ?_, delivered.own,
    streaming.rows⟩
  · rw [delivered.tokenIds, whole, List.take_length]
  · rw [delivered.logprobs, whole]
    cases known : logprobsProcessor.logprobs with
    | none => exact List.take_nil
    | some entries =>
        rw [Option.getD_some, List.take_of_length_le (Nat.le_of_eq (streaming.rows _ known))]

/-- Each token is a letter, and nothing else is carried. -/
def letterReading : Reading ⟨Unit, Unit, Unit, Unit, Unit, Unit, Unit, Unit⟩ where
  Decoder := Unit
  decodeNext _ _ token := (if token = 0 then ['a'] else ['b'], ())
  Row := Unit
  entry _ _ := ()
  score _ _ := ()
  concatenate _ := ()
  MaskChunk := Unit
  mergeMasks _ := ()

/-- A request for the letters up to "bb", with an interval of two tokens. -/
def letterRequest (outputKind : RequestOutputKind) : RequestState letterReading.processing Unit :=
  startedRequest letterReading (.request "letters") "letters" { outputKind }
    (some (⟨.one ['b', 'b'], 0, false⟩, [7], ())) (some ()) none 0 none 2

/-- An output of one token with its log probability. -/
def letterOutput (token : Nat) : EngineCoreOutput letterReading.processing where
  requestId := .request "letters"
  newTokenIds := [token]
  newLogprobs := some [()]

theorem letterOutput_supplied (token : Nat) {logprobsProcessor : LogprobsProcessor _}
    (asked : logprobsProcessor.logprobs.isSome) :
    (letterOutput token).Supplied logprobsProcessor where
  completion := rfl
  rows := by
    rw [if_pos asked]
    rfl

theorem letterRequest_awaited {state : RequestState letterReading.processing Unit}
    (single : state.parentReq = none) : state.Awaited Dict.empty := by
  intro id child
  rw [single] at child
  cases child

/-- The second token of a cumulative request is sent although the interval is two. -/
theorem stream_interval_fails_cumulative :
    ∃ calls state, Streams (letterRequest .cumulative) calls state ∧ state.streamInterval = 2 ∧
      ¬ OnlyWhenDue 2 calls := by
  have first := Streams.output .start nofun rfl (letterOutput_supplied 0 rfl)
    (@letterRequest_awaited (letterRequest .cumulative) rfl) rfl rfl
  refine ⟨_, _, .output first ?_ rfl (letterOutput_supplied 1 rfl)
    (letterRequest_awaited rfl) rfl rfl, rfl, ?_⟩
  · simp [letterOutput]
  · intro onlyWhenDue
    have second := onlyWhenDue 1 _ rfl rfl
    simp [unsentTokens, letterOutput] at second

/-- In delta mode the third token sends the second one too, and the stop string ends the text. -/
theorem stream_interval_law_letters :
    ∃ calls state, Streams (letterRequest .delta) calls state ∧ OnlyWhenDue 2 calls ∧
      (completions calls).map (·.text) = [[], ['a']] := by
  have streams : ∃ calls state, Streams (letterRequest .delta) calls state ∧
      state.streamInterval = 2 ∧ Paced .delta 2 calls ∧
      (completions calls).map (·.text) = [[], ['a']] := by
    have first := Streams.output .start nofun rfl (letterOutput_supplied 0 rfl)
      (@letterRequest_awaited (letterRequest .delta) rfl) rfl rfl
    have second := Streams.output first (by simp [letterOutput]) rfl (letterOutput_supplied 1 rfl)
      (letterRequest_awaited rfl) rfl rfl
    refine ⟨_, _, .output second ?_ rfl (letterOutput_supplied 1 rfl) (letterRequest_awaited rfl)
      rfl rfl, rfl, ?_, rfl⟩
    · simp [letterOutput]
    · rintro place call found later (⟨⟨⟩⟩ | empty)
      rcases place with _ | place
      · exact absurd rfl later
      · simp [allTokenIds, letterOutput] at empty
  rcases streams with ⟨calls, state, streams, interval, paced, texts⟩
  refine ⟨calls, state, streams, ?_, texts⟩
  rw [← interval] at paced ⊢
  exact ((stream_interval_law letterReading (.request "letters") "letters"
    { outputKind := .delta } (some (⟨.one ['b', 'b'], 0, false⟩, [7], ())) (some ()) none 0 none 2
    (by simp [StopParam.strings]) (by decide) (by decide) streams).mpr paced).1

end Vllm.Engine
