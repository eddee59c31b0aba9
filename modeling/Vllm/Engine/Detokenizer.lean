import Vllm.Library.WordEnds

/-!
# Incremental detokenization

`IncrementalDetokenizer` of `v1/engine/detokenizer.py`: the text grows token by token, is searched
for stop strings behind what was searched before, and is handed out with a tail held back.  The
texts are lists over any alphabet, and `decode_next` is a parameter: it reads the token ids and a
decoder of its own, and adds some text.
-/

namespace Vllm.Engine

open Vllm.Library

universe u v w

/-- `SamplingParams.stop`. -/
inductive StopParam (α : Type u) where
  | none
  | one (stop : List α)
  | many (stops : List (List α))

/-- What the detokenizer reads of `SamplingParams`. -/
structure DetokenizerParams (α : Type u) where
  stop : StopParam α
  minTokens : Nat
  includeStopStrInOutput : Bool

/-- `BaseIncrementalDetokenizer`.  The token ids begin with the prompt's where there is one, as
those of the slow detokenizer do. -/
structure IncrementalDetokenizer (α : Type u) (τ : Type v) (δ : Type w) where
  stop : List (List α)
  minTokens : Nat
  includeStopStrInOutput : Bool
  lastOutputTextOffset : Nat
  outputText : List α
  promptLen : Nat
  tokenIds : List τ
  decoder : δ
  prompted : promptLen ≤ tokenIds.length

variable {α : Type u} {τ : Type v} {δ : Type w}

def StopParam.strings : StopParam α → List (List α)
  | none => []
  | one stop => [stop]
  | many stops => stops

/-- `max(len(s) for s in stop)`. -/
def longestStop (stop : List (List α)) : Nat :=
  stop.foldr (fun word longest => max word.length longest) 0

theorem length_le_longestStop {stop : List (List α)} {word : List α} (listed : word ∈ stop) :
    word.length ≤ longestStop stop := by
  induction stop with
  | nil => cases listed
  | cons first rest inductionHypothesis =>
      rcases List.mem_cons.mp listed with rfl | later
      · exact Nat.le_max_left _ _
      · exact (inductionHypothesis later).trans (Nat.le_max_right _ _)

/-- The index from the front that a Python slice or search starts at. -/
def startIndex (length : Nat) (start : Int) : Nat :=
  if start < 0 then (length + start).toNat else start.toNat

section Search

variable [DecidableEq α]

/-- One turn of the loop of `check_stop_strings`: the best stop string so far, its index and its
end. -/
def considerStop (outputText : List α) (newCharCount : Nat)
    (best : Option (List α × Nat × Nat)) (stopStr : List α) : Option (List α × Nat × Nat) :=
  match findFrom? stopStr outputText
      (startIndex outputText.length (1 - newCharCount - stopStr.length)) with
  | none => best
  | some stopIndex =>
      if best.all fun found => stopIndex + stopStr.length < found.2.2 then
        some (stopStr, stopIndex, stopIndex + stopStr.length)
      else best

/-- `check_stop_strings`: the stop string and where to truncate, with `none` for no truncation. -/
def checkStopStrings (outputText : List α) (newCharCount : Nat) (stop : List (List α))
    (includeInOutput : Bool) : Option (List α × Option Nat) :=
  if newCharCount = 0 ∨ stop = [] then none
  else
    match stop.foldl (considerStop outputText newCharCount) none with
    | none => none
    | some (bestStopStr, bestStopIndex, bestEnd) =>
        if includeInOutput then
          if bestEnd ≥ outputText.length then some (bestStopStr, none)
          else some (bestStopStr, some bestEnd)
        else some (bestStopStr, some bestStopIndex)

end Search

namespace IncrementalDetokenizer

/-- `BaseIncrementalDetokenizer.__init__`, with the prompt's token ids for the slow one. -/
def new (params : DetokenizerParams α) (promptTokenIds : List τ) (decoder : δ) :
    IncrementalDetokenizer α τ δ where
  stop := params.stop.strings
  minTokens := params.minTokens
  includeStopStrInOutput := params.includeStopStrInOutput
  lastOutputTextOffset := 0
  outputText := []
  promptLen := promptTokenIds.length
  tokenIds := promptTokenIds
  decoder := decoder
  prompted := le_rfl

def stopBufferLength (self : IncrementalDetokenizer α τ δ) : Nat :=
  if self.stop ≠ [] ∧ !self.includeStopStrInOutput then longestStop self.stop - 1 else 0

def numOutputTokens (self : IncrementalDetokenizer α τ δ) : Nat :=
  self.tokenIds.length - self.promptLen

/-- `self.token_ids.append(token)`. -/
def appendToken (self : IncrementalDetokenizer α τ δ) (token : τ) :
    IncrementalDetokenizer α τ δ :=
  { self with
    tokenIds := self.tokenIds ++ [token]
    prompted := self.prompted.trans (by simp) }

section Update

variable (decodeNext : List τ → δ → τ → List α × δ)

/-- One token of the decoding loop of `update`. -/
def decodeToken (self : IncrementalDetokenizer α τ δ) (token : τ) :
    IncrementalDetokenizer α τ δ :=
  let listed := self.appendToken token
  let decoded := decodeNext listed.tokenIds listed.decoder token
  { listed with outputText := listed.outputText ++ decoded.1, decoder := decoded.2 }

/-- The decoding loop of `update`, with `stop_check_offset`. -/
def decodeTokens : List τ → IncrementalDetokenizer α τ δ → Nat →
    IncrementalDetokenizer α τ δ × Nat
  | [], self, stopCheckOffset => (self, stopCheckOffset)
  | token :: rest, self, stopCheckOffset =>
      let decoded := self.decodeToken decodeNext token
      decodeTokens rest decoded
        (if decoded.minTokens ≠ 0 ∧ decoded.numOutputTokens ≤ decoded.minTokens then
          decoded.outputText.length
        else stopCheckOffset)

/-- `update` up to the evaluation of the stop strings.  A token that terminates is not decoded
where stop strings are left out. -/
def detokenize (newTokenIds : List τ) (stopTerminated : Bool)
    (self : IncrementalDetokenizer α τ δ) (stopCheckOffset : Nat) :
    IncrementalDetokenizer α τ δ × Nat :=
  if stopTerminated && !self.includeStopStrInOutput then
    let decoded := decodeTokens decodeNext newTokenIds.dropLast self stopCheckOffset
    (newTokenIds.getLast?.elim decoded.1 decoded.1.appendToken, decoded.2)
  else decodeTokens decodeNext newTokenIds self stopCheckOffset

variable [DecidableEq α]

/-- The end of `update`: the stop strings are evaluated and the text is truncated. -/
def evaluateStop (self : IncrementalDetokenizer α τ δ) (stopCheckOffset : Nat) :
    Option (List α) × IncrementalDetokenizer α τ δ :=
  if self.stop ≠ [] ∧ self.numOutputTokens > self.minTokens then
    match checkStopStrings self.outputText (self.outputText.length - stopCheckOffset) self.stop
        self.includeStopStrInOutput with
    | none => (none, self)
    | some (stopString, none) => (some stopString, self)
    | some (stopString, some truncateTo) =>
        (some stopString, { self with outputText := self.outputText.take truncateTo })
  else (none, self)

/-- `update`. -/
def update (newTokenIds : List τ) (stopTerminated : Bool)
    (self : IncrementalDetokenizer α τ δ) :
    Option (List α) × IncrementalDetokenizer α τ δ :=
  if newTokenIds = [] then (none, self)
  else
    let detokenized := detokenize decodeNext newTokenIds stopTerminated self
      self.outputText.length
    detokenized.1.evaluateStop detokenized.2

end Update

/-- `get_next_output_text`. -/
def getNextOutputText (finished delta : Bool) (self : IncrementalDetokenizer α τ δ) :
    List α × IncrementalDetokenizer α τ δ :=
  let bufferLength := if finished then 0 else self.stopBufferLength
  let length := self.outputText.length - bufferLength
  if delta then
    if self.lastOutputTextOffset < length then
      ((self.outputText.take length).drop self.lastOutputTextOffset,
        { self with lastOutputTextOffset := length })
    else ([], self)
  else (self.outputText.take length, self)

section Runs

variable [DecidableEq α] (decodeNext : List τ → δ → τ → List α × δ)

/-- The updates of a request, each with its tokens and whether a stop token ended them, up to the
first stop string. -/
def updateAll : List (List τ × Bool) → IncrementalDetokenizer α τ δ →
    Option (List α) × IncrementalDetokenizer α τ δ
  | [], self => (none, self)
  | call :: rest, self =>
      match update decodeNext call.1 call.2 self with
      | (none, updated) => updateAll rest updated
      | (some stopString, updated) => (some stopString, updated)

/-- The same with the text that is handed out after each update in delta mode.  The last one is
finished. -/
def deliverAll : List (List τ × Bool) → IncrementalDetokenizer α τ δ →
    List (List α) × IncrementalDetokenizer α τ δ
  | [], self => ([], self)
  | call :: rest, self =>
      let updated := update decodeNext call.1 call.2 self
      let finished := updated.1.isSome || rest.isEmpty
      let handed := updated.2.getNextOutputText finished true
      if finished then ([handed.1], handed.2)
      else
        let later := deliverAll rest handed.2
        (handed.1 :: later.1, later.2)

end Runs

/-- The tokens of an update one at a time. -/
def singles : List τ → Bool → List (List τ × Bool)
  | [], _ => []
  | [token], stopTerminated => [([token], stopTerminated)]
  | token :: next :: rest, stopTerminated =>
      ([token], false) :: singles (next :: rest) stopTerminated

def oneAtATime (calls : List (List τ × Bool)) : List (List τ × Bool) :=
  calls.flatMap fun call => singles call.1 call.2

end IncrementalDetokenizer

end Vllm.Engine
