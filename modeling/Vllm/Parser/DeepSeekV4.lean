import Mathlib.Data.List.Dedup
import Vllm.Library.TextSearch
import Vllm.Parser.ParserEngine

/-!
# The DeepSeek parsers

The configurations of DeepSeek V3.2 and V4, and how their tool arguments in DSML are converted.
-/

namespace Vllm.Parser.DeepSeekV4

open Vllm.Library

/-- `_DSML`. -/
def dsml : Text :=
  "｜DSML｜".toList

def thinkStart : Text :=
  "<think>".toList

def thinkEnd : Text :=
  "</think>".toList

def toolStart : Text :=
  "<｜DSML｜tool_calls>".toList

def toolEnd : Text :=
  "</｜DSML｜tool_calls>".toList

def invokePrefix : Text :=
  "<｜DSML｜invoke name=\"".toList

def invokeNameEnd : Text :=
  "\">".toList

def invokeEnd : Text :=
  "</｜DSML｜invoke>".toList

def paramClose : Text :=
  "</｜DSML｜parameter>".toList

/-! ## Arguments -/

/-- A match of a parameter: its name, whether it is a string, and its value. -/
structure Param where
  name : Text
  isStr : Bool
  value : Text
deriving DecidableEq, Repr

/-- `\s+`: what follows at least one character of white space. -/
def afterSpaces : Text → Option Text
  | [] => none
  | char :: text => if isWhiteSpace char then some (text.dropWhile isWhiteSpace) else none

/-- The opening tag of a parameter at the beginning of a text, and what follows it. -/
def matchOpening (text : Text) : Option (Text × Bool × Text) := do
  let text ← text.dropPrefix? ("<".toList ++ dsml ++ "parameter".toList)
  let text ← afterSpaces text
  let text ← text.dropPrefix? "name=\"".toList
  let name := text.takeWhile (· ≠ '"')
  if name = [] then none
  else
    let text ← (text.drop name.length).dropPrefix? "\"".toList
    let text ← afterSpaces text
    let text ← text.dropPrefix? "string=\"".toList
    match text.dropPrefix? "true\">".toList, text.dropPrefix? "false\">".toList with
    | some text, _ => some (name, true, text)
    | none, some text => some (name, false, text)
    | none, none => none

/-- `_PARAM_RE` at the beginning of a text, and what follows the match. -/
def matchParam (text : Text) : Option (Param × Text) := do
  let (name, isStr, text) ← matchOpening text
  let place ← find? paramClose text
  return (⟨name, isStr, text.take place⟩, text.drop (place + paramClose.length))

/-- `_PARAM_RE.finditer`: the matches, and what follows the last one.  A match is not empty, so
that the length of the text bounds their number. -/
def findParams : Nat → Text → List Param × Text
  | 0, text => ([], text)
  | fuel + 1, text =>
      match text.tails.findSome? matchParam with
      | none => ([], text)
      | some (param, rest) =>
          let (params, last) := findParams fuel rest
          (param :: params, last)

/-- `_PARTIAL_PARAM_RE.search`. -/
def searchPartialParam (text : Text) : Option Param :=
  (text.tails.findSome? matchOpening).map fun (name, isStr, value) => ⟨name, isStr, value⟩

variable {ν : Type}

/-- `params[name] = value`. -/
def setParam (name : Text) (value : Json ν) : List (Text × Json ν) → List (Text × Json ν)
  | [] => [(name, value)]
  | entry :: entries =>
      if entry.1 = name then (name, value) :: entries else entry :: setParam name value entries

variable [DecidableEq ν] [SchemaCoercion ν]

/-- The value of a complete parameter. -/
def paramValue (param : Param) : Json ν :=
  if param.isStr then .string param.value
  else (JsonText.loads param.value).getD (.string param.value)

/-- The value of a parameter that is not closed yet, if it has one. -/
def partialValue (param : Param) : Option (Json ν) :=
  if param.isStr then some (.string param.value) else JsonText.loads param.value

/-- The parameters that `_dsml_arg_converter` collects. -/
def collectParams (rawArgs : Text) (isPartial : Bool) : List (Text × Json ν) :=
  let (params, rest) := findParams rawArgs.length rawArgs
  let collected := params.foldl (fun collected param =>
    setParam param.name (paramValue param) collected) []
  if isPartial then
    match searchPartialParam rest with
    | some param =>
        match partialValue param with
        | some value => setParam param.name value collected
        | none => collected
    | none => collected
  else collected

variable (ν) in
/-- `_dsml_arg_converter`. -/
def dsmlArgConverter (rawArgs : Text) (isPartial : Bool) : Text :=
  JsonText.dumps (.object (collectParams (ν := ν) rawArgs isPartial))

/-! ## Wrapper arguments -/

/-- The loop of `_unwrap_wrapper_args` over the names of wrappers: the object inside. -/
def unwrapArgs (allowed : List Text) (args : List (Text × Json ν)) :
    List Text → Option (List (Text × Json ν))
  | [] => none
  | wrapper :: wrappers =>
      if (args.map (·.1)).dedup ≠ [wrapper] ∨ wrapper ∈ allowed then
        unwrapArgs allowed args wrappers
      else
        match Json.get? args wrapper with
        | some (.string inner) =>
            match JsonText.loads inner with
            | none => none
            | some (.object inner) =>
                if (inner.map (·.1)).all (· ∈ allowed) then some inner
                else unwrapArgs allowed args wrappers
            | some _ => unwrapArgs allowed args wrappers
        | some (.object inner) =>
            if (inner.map (·.1)).all (· ∈ allowed) then some inner
            else unwrapArgs allowed args wrappers
        | _ => unwrapArgs allowed args wrappers

/-- The object to which `_unwrap_wrapper_args` unwraps the arguments of a function. -/
def unwrapped (argsJson : Text) (tools : List (Tool ν)) (funcName : Option Text) :
    Option (List (Text × Json ν)) :=
  match funcName with
  | none => none
  | some funcName =>
      if tools = [] ∨ funcName = [] then none
      else
        match (JsonText.loads argsJson : Option (Json ν)) with
        | some (.object args) =>
            let properties := findToolProperties tools funcName
            if properties = [] then none
            else unwrapArgs (properties.map (·.1)) args ["arguments".toList, "input".toList]
        | _ => none

/-- `_unwrap_wrapper_args`. -/
def unwrapWrapperArgs (argsJson : Text) (tools : List (Tool ν)) (funcName : Option Text) : Text :=
  match unwrapped argsJson tools funcName with
  | some inner => JsonText.dumps (.object inner)
  | none => argsJson

/-- The name that `_convert_args` looks up for raw arguments. -/
def lookupName (slots : List ToolCallSlot) (rawArgs : Text) : Option Text :=
  (slots.find? (·.args = rawArgs)).map (·.name)

/-- `_convert_args`. -/
def convertArgs : ArgConverter ν := fun tools slots rawArgs isPartial =>
  let result := dsmlArgConverter ν rawArgs isPartial
  some (if tools = [] then result
    else unwrapWrapperArgs result tools (lookupName slots rawArgs))

variable (ν) in
/-- What the parsers of DeepSeek V3.2 and V4 set; the ids are those of `make_tool_call_id`. -/
def settings (makeToolCallId : Text → Nat → Text) : ParserSettings ν where
  argConverter := some convertArgs
  argStructuralChars := some ['>']
  stripContentWhitespaceWithTools := false
  makeToolCallId := makeToolCallId

/-! ## Configurations -/

/-- The transitions of tool calls, which both configurations share. -/
def toolTransitions : List ((ParserState × String) × Transition) :=
  [((.content, "TOOL_START"), ⟨.toolPreamble, [], false⟩),
    ((.toolPreamble, "INVOKE_PREFIX"), ⟨.toolName, [.toolCallStart], false⟩),
    ((.toolName, "INVOKE_NAME_END"), ⟨.toolArgs, [], false⟩),
    ((.toolArgs, "INVOKE_END"), ⟨.toolBetween, [.toolCallEnd], false⟩),
    ((.toolArgs, "TOOL_END"), ⟨.content, [.toolCallEnd], false⟩),
    ((.toolBetween, "INVOKE_PREFIX"), ⟨.toolName, [.toolCallStart], false⟩),
    ((.toolBetween, "TOOL_END"), ⟨.content, [], false⟩)]

/-- The transitions of reasoning. -/
def reasoningTransitions : List ((ParserState × String) × Transition) :=
  [((.content, "THINK_START"), ⟨.reasoning, [.reasoningStart], false⟩),
    ((.content, "THINK_END"), ⟨.content, [], false⟩),
    ((.reasoning, "THINK_START"), ⟨.reasoning, [], false⟩),
    ((.reasoning, "THINK_END"), ⟨.content, [.reasoningEnd], false⟩),
    ((.reasoning, "TOOL_START"), ⟨.toolPreamble, [.reasoningEnd], false⟩)]

/-- `deepseek_v4_config`. -/
def deepseekV4Config (thinking : Bool) : ParserEngineConfig where
  terminals := ⟨[("THINK_START", thinkStart), ("THINK_END", thinkEnd), ("TOOL_START", toolStart),
    ("TOOL_END", toolEnd), ("INVOKE_PREFIX", invokePrefix), ("INVOKE_NAME_END", invokeNameEnd),
    ("INVOKE_END", invokeEnd), ("PARAM_CLOSE", paramClose)], by decide⟩
  tokenIdTerminals := ⟨[("THINK_START", thinkStart), ("THINK_END", thinkEnd),
    ("TOOL_START", toolStart), ("TOOL_END", toolEnd)], by decide⟩
  transitions := ⟨reasoningTransitions ++ toolTransitions, by decide⟩
  contentEvents := ⟨[(.content, .textChunk), (.reasoning, .reasoningChunk),
    (.toolName, .toolName), (.toolArgs, .argValueChunk)], defaultContentEvents.nodupKeys⟩
  initialState := if thinking then .reasoning else .content
  toolArgsJson := false

end Vllm.Parser.DeepSeekV4

namespace Vllm.Parser.ParserEngine

/-- A parser of DeepSeek V4 that does not begin with reasoning. -/
def plainV4 : ParserEngine Empty :=
  make (DeepSeekV4.settings Empty fun _ _ => "call".toList) List.length
    (DeepSeekV4.deepseekV4Config false) none []

end Vllm.Parser.ParserEngine

/-!
## Unwrapping wrapper arguments

Whether the arguments of a call are unwrapped depends on a function; what they are unwrapped to
does not.  Correcting the types of arguments keeps their keys, so that unwrapped arguments are
told from those that are not.
-/
