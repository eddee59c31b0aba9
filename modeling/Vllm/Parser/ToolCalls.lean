import Vllm.Core.Error
import Vllm.Parser.TokenIdScanner
import Vllm.Parser.ToolSchema

/-!
# Tool calls

The slots in which a parser collects the tool calls of a response, and the deltas that it reports
for them.
-/

namespace Vllm.Parser

open Vllm.Core
open Vllm.Library

/-! ## The streamable prefix of arguments -/

/-- The variables of the loop of `_safe_arg_prefix`. -/
structure ArgScan where
  lastColon : Option Nat := none
  lastKey : Option Text := none
  pendingKey : Option Text := none
  inString : Bool := false
  escape : Bool := false
  stringStart : Option Nat := none
  depth : Int := 0
deriving DecidableEq, Repr

/-- The body of the loop of `_safe_arg_prefix`. -/
def ArgScan.step (json : Text) (scan : ArgScan) (entry : Char × Nat) : ArgScan :=
  let (char, index) := entry
  if scan.escape then { scan with escape := false }
  else if scan.inString then
    if char = '\\' then { scan with escape := true }
    else if char = '"' then
      match scan.stringStart with
      | some start =>
          if scan.depth = 1 then
            { scan with
              inString := false
              pendingKey := some ((json.take index).drop (start + 1)) }
          else { scan with inString := false }
      | none => { scan with inString := false }
    else scan
  else if char = '"' then { scan with inString := true, stringStart := some index }
  else if char = '{' ∨ char = '[' then { scan with depth := scan.depth + 1 }
  else if char = '}' ∨ char = ']' then { scan with depth := scan.depth - 1 }
  else if char = ':' ∧ scan.depth = 1 then
    { scan with lastColon := some index, lastKey := scan.pendingKey, pendingKey := none }
  else scan

/-- Where the string ends whose content is given. -/
def closingQuote : Bool → Text → Option Nat
  | _, [] => none
  | true, _ :: rest => (closingQuote false rest).map (· + 1)
  | false, char :: rest =>
      if char = '\\' then (closingQuote true rest).map (· + 1)
      else if char = '"' then some 0
      else (closingQuote false rest).map (· + 1)

/-- `_safe_arg_prefix`. -/
def safeArgPrefix (json : Text) (stringKeys : Option (List Text)) : Text :=
  let scan := json.zipIdx.foldl (ArgScan.step json) {}
  match scan.lastColon with
  | none => []
  | some lastColon =>
      let spaces := ((json.drop (lastColon + 1)).takeWhile fun char =>
        char ∈ [' ', '\t', '\n', '\r']).length
      let stop := lastColon + 1 + spaces
      if json[stop]? ≠ some '"' then json.take stop
      else if stringKeys.any fun keys => scan.lastKey.all (· ∉ keys) then json.take stop
      else
        match closingQuote false (json.drop (stop + 1)) with
        | some offset => json.take (stop + 1 + offset)
        | none => json

variable {ν : Type} [DecidableEq ν] [SchemaCoercion ν]

/-- `_streamable_string_keys`. -/
def streamableStringKeys (properties : List (Text × Json ν)) : Option (List Text) :=
  if properties = [] then none
  else some ((properties.filter fun property =>
    extractTypesFromSchema property.2 = ["string".toList]).map (·.1))

/-! ## Slots and settings -/

/-- `ToolCallSlot`. -/
structure ToolCallSlot where
  id : Text := []
  name : Text := []
  args : Text := []
  nameSent : Bool := false
  stringKeys : Option (List Text) := none
  streamedJson : Text := []
deriving DecidableEq, Repr

/-- `append_args`. -/
def ToolCallSlot.appendArgs (slot : ToolCallSlot) (value : Text) : ToolCallSlot :=
  { slot with args := slot.args ++ value }

/-- An argument converter.  One that is a method of a parser reads its tools and slots; it returns
nothing when it raises an exception that its callers catch. -/
abbrev ArgConverter (ν : Type) :=
  List (Tool ν) → List ToolCallSlot → Text → Bool → Option Text

/-- What the conversion to deltas reads of a configuration and of the class of the parser:
`cleanName` is how the class cleans a tool name, `makeToolCallId` makes the next id. -/
structure ParserSettings (ν : Type) where
  argConverter : Option (ArgConverter ν) := none
  argStructuralChars : Option (List Char) := none
  streamArgDeltas : Bool := true
  stripTrailingReasoningWhitespace : Bool := true
  dropWhitespaceOnlyContentBeforeTools : Bool := true
  stripContentWhitespaceWithTools : Bool := true
  validateToolNames : Bool := false
  cleanName : Text → Text := id
  makeToolCallId : Text → Nat → Text

/-- `DeltaToolCall` with its `DeltaFunctionCall`. -/
structure DeltaToolCall where
  index : Int
  id : Option Text := none
  type : Option String := none
  name : Option Text := none
  arguments : Option Text := none
deriving DecidableEq, Repr

/-- The tool calls of a parser: its tools, the slots, and how many calls have an id. -/
structure ToolCalls (ν : Type) where
  tools : List (Tool ν)
  slots : List ToolCallSlot := []
  historyToolCallCnt : Nat := 0

namespace ToolCalls

variable (settings : ParserSettings ν) (calls : ToolCalls ν)

/-- `self._tool_slots[idx]`. -/
def slot (idx : Int) : Except PyError ToolCallSlot :=
  pyIndex calls.slots (pyNormalizeIndex calls.slots idx)

/-- Write the slot of an index. -/
def setSlot (idx : Int) (slot : ToolCallSlot) : ToolCalls ν :=
  { calls with slots := calls.slots.set (pyNormalizeIndex calls.slots idx) slot }

/-- `_ensure_slot`. -/
def ensureSlot (idx : Int) : ToolCalls ν :=
  { calls with
    slots := calls.slots ++ List.replicate ((idx + 1).toNat - calls.slots.length) {} }

/-- `_ensure_tool_id` on a slot: the slot and the next count. -/
def ensureToolId (slot : ToolCallSlot) (name : Text) : ToolCallSlot × Nat :=
  if slot.id = [] then
    ({ slot with id := settings.makeToolCallId name calls.historyToolCallCnt },
      calls.historyToolCallCnt + 1)
  else (slot, calls.historyToolCallCnt)

/-- `_accept_tool_name` and `_is_valid_tool_name`. -/
def acceptToolName (name : Text) : Bool :=
  name ≠ [] && (!settings.validateToolNames || calls.tools = [] ||
    findToolName calls.tools name)

/-- `_handle_tool_name`. -/
def handleToolName (event : SemanticEvent) : Except PyError (ToolCalls ν) := do
  let slot ← calls.slot event.toolIndex
  return calls.setSlot event.toolIndex { slot with name := slot.name ++ event.value }

/-- A name is accepted: the slot is named, gets its id and the keys whose strings stream. -/
def acceptName (idx : Int) (slot : ToolCallSlot) (name : Text) (arguments : Option Text) :
    ToolCalls ν × DeltaToolCall :=
  let named := { slot with
    name := name
    nameSent := true
    stringKeys := streamableStringKeys (findToolProperties calls.tools name) }
  let (identified, count) := calls.ensureToolId settings named name
  ({ calls.setSlot idx identified with historyToolCallCnt := count },
    { index := idx, id := some identified.id, type := some "function", name := some name
      arguments := arguments })

/-- `_emit_name_delta`. -/
def emitNameDelta (idx : Int) (deltas : List DeltaToolCall) (name : Option Text) :
    Except PyError (ToolCalls ν × List DeltaToolCall) := do
  match name.map settings.cleanName with
  | none => return (calls, deltas)
  | some name =>
      if calls.acceptToolName settings name then
        let slot ← calls.slot idx
        let (calls, delta) := calls.acceptName settings idx slot name none
        return (calls, deltas ++ [delta])
      else return (calls, deltas)

/-- `_NAME_RE` at the beginning of a text: a quoted text behind `"name"` and a colon. -/
def matchName (text : Text) : Option Text :=
  let key := "\"name\"".toList
  if key.isPrefixOf text then
    match (text.drop key.length).dropWhile isWhiteSpace with
    | ':' :: rest =>
        match rest.dropWhile isWhiteSpace with
        | '"' :: rest =>
            if '"' ∈ rest then some (rest.takeWhile (· ≠ '"')) else none
        | _ => none
    | _ => none
  else none

/-- `_try_extract_name`: the first match of `_NAME_RE`, unless it is empty. -/
def tryExtractName (args : Text) : Option Text :=
  (args.tails.findSome? matchName).filter (· ≠ [])

/-- `_compute_arg_delta`. -/
def computeArgDelta (idx : Int) (slot : ToolCallSlot) (rawDelta : Text) :
    Option Text × ToolCalls ν :=
  match settings.argConverter with
  | none => (some rawDelta, calls)
  | some converter =>
      if ¬settings.streamArgDeltas then (none, calls)
      else if settings.argStructuralChars.any fun structural =>
          rawDelta.all (· ∉ structural) then (none, calls)
      else
        match converter calls.tools calls.slots slot.args true with
        | none => (none, calls)
        | some currentJson =>
            if currentJson = [] then (none, calls)
            else
              let currentJson :=
                if slot.name ≠ [] then fixArgTypes calls.tools currentJson slot.name
                else currentJson
              let previous := slot.streamedJson
              let safeJson := safeArgPrefix currentJson slot.stringKeys
              if safeJson = [] ∨ safeJson = previous ∨ ¬previous.isPrefixOf safeJson then
                (none, calls)
              else
                (some (safeJson.drop previous.length),
                  calls.setSlot idx { slot with streamedJson := safeJson })

/-- `_flush_arg_converter`. -/
def flushArgConverter (idx : Int) (slot : ToolCallSlot) : Option Text × ToolCalls ν :=
  match settings.argConverter with
  | none => (none, calls)
  | some converter =>
      match converter calls.tools calls.slots slot.args false with
      | none => (none, calls)
      | some finalJson =>
          let finalJson :=
            if finalJson ≠ [] then fixArgTypes calls.tools finalJson slot.name else finalJson
          let previous := slot.streamedJson
          if finalJson ≠ [] ∧ previous.length < finalJson.length ∧
              previous.isPrefixOf finalJson then
            (some (finalJson.drop previous.length),
              calls.setSlot idx { slot with streamedJson := finalJson })
          else (none, calls)

/-- `_handle_arg_chunk`. -/
def handleArgChunk (event : SemanticEvent) (deltas : List DeltaToolCall) :
    Except PyError (ToolCalls ν × List DeltaToolCall) := do
  let idx := event.toolIndex
  let slot ← calls.slot idx
  let slot := slot.appendArgs event.value
  let calls := calls.setSlot idx slot
  if ¬slot.nameSent then
    if slot.name ≠ [] then calls.emitNameDelta settings idx deltas (some slot.name)
    else if event.value ≠ [] then
      -- The name is not known yet: it may stand in the arguments so far.
      calls.emitNameDelta settings idx deltas (tryExtractName slot.args)
    else return (calls, deltas)
  else if event.value ≠ [] then
    match calls.computeArgDelta settings idx slot event.value with
    | (some argDelta, calls) =>
        if argDelta ≠ [] then
          return (calls, deltas ++ [{ index := idx, arguments := some argDelta }])
        else return (calls, deltas)
    | (none, calls) => return (calls, deltas)
  else return (calls, deltas)

/-- `_handle_tool_end`. -/
def handleToolEnd (event : SemanticEvent) (deltas : List DeltaToolCall) :
    Except PyError (ToolCalls ν × List DeltaToolCall) := do
  let idx := event.toolIndex
  if idx ≥ calls.slots.length then return (calls, deltas)
  else
    let slot ← calls.slot idx
    -- A class that cleans names does so in front of the flush.
    let slot := { slot with name := settings.cleanName slot.name }
    let calls := calls.setSlot idx slot
    let (remaining, calls) := calls.flushArgConverter settings idx slot
    let slot ← calls.slot idx
    let name := if slot.name ≠ [] then slot.name else (tryExtractName slot.args).getD []
    if ¬slot.nameSent ∧ calls.acceptToolName settings name then
      let (calls, delta) := calls.acceptName settings idx slot name (some (remaining.getD []))
      return (calls, deltas ++ [delta])
    else
      match remaining with
      | some remaining =>
          if remaining ≠ [] ∧ slot.nameSent then
            return (calls, deltas ++ [{ index := idx, arguments := some remaining }])
          else return (calls, deltas)
      | none => return (calls, deltas)

end ToolCalls

/-- Merge a delta into an earlier one of the same index. -/
def DeltaToolCall.absorb (existing next : DeltaToolCall) : DeltaToolCall :=
  { existing with
    id := existing.id <|> next.id
    type := existing.type <|> next.type
    name := existing.name <|> next.name
    arguments :=
      match existing.arguments, next.arguments with
      | some arguments, some more => some (arguments ++ more)
      | some arguments, none => some arguments
      | none, arguments => arguments }

/-- `_coalesce_tool_call_deltas`. -/
def coalesceToolCallDeltas (deltas : List DeltaToolCall) : List DeltaToolCall :=
  let merged : Dict Int DeltaToolCall := deltas.foldl
    (fun merged delta =>
      match merged.get? delta.index with
      | none => merged.insert delta.index delta
      | some existing => merged.insert delta.index (existing.absorb delta))
    .empty
  if merged.size = deltas.length then deltas else merged.entries.map (·.2)

end Vllm.Parser
