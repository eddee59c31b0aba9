import Vllm.Library.PlainJson
import Vllm.Library.Whitespace
import Vllm.Parser.TokenIdScanner

/-!
# Tool schemas

The tools of a request and how the types of arguments follow their schemas.
-/

namespace Vllm.Parser

open Vllm.Library

variable {ν : Type}

/-- A tool as its function infos, name and parameters: one for a function, those of all its
functions under their flat names for a namespace. -/
structure Tool (ν : Type) where
  functions : List (Text × Option (Json ν))

/-- `(params or {}).get("properties", {})`. -/
def propertiesOf (parameters : Option (Json ν)) : List (Text × Json ν) :=
  match parameters.bind Json.entries? with
  | some entries => ((Json.get? entries "properties".toList).bind Json.entries?).getD []
  | none => []

/-- `find_tool_properties`. -/
def findToolProperties (tools : List (Tool ν)) (toolName : Text) : List (Text × Json ν) :=
  match (tools.flatMap Tool.functions).find? (·.1 = toolName) with
  | some function => propertiesOf function.2
  | none => []

/-- `find_tool_name`. -/
def findToolName (tools : List (Tool ν)) (toolName : Text) : Bool :=
  (tools.flatMap Tool.functions).any (·.1 = toolName)

/-! ## Types of a schema -/

/-- The type of a member of an enumeration. -/
def enumType [JsonText ν] : Json ν → Text
  | .null => "null".toList
  | .bool _ => "boolean".toList
  | .number value => if JsonText.isInteger value then "integer".toList else "number".toList
  | .string _ => "string".toList
  | .array _ => "array".toList
  | .object _ => "object".toList

/-- The types that a schema states by `type` and `enum`. -/
def statedTypes [JsonText ν] (schema : List (Text × Json ν)) : List Text :=
  (match Json.get? schema "type".toList with
    | some (.string type) => [type]
    | some (.array types) => types.filterMap fun
        | .string type => some type
        | _ => none
    | _ => []) ++
  (match Json.get? schema "enum".toList with
    | some (.array values) => values.map enumType
    | _ => [])

mutual

/-- `extract_types_from_schema`; the order of the types is left open by the source. -/
def extractTypesFromSchema [JsonText ν] : Json ν → List Text
  | .object schema =>
      let types := (statedTypes schema ++ choiceTypes schema).dedup
      if types ≠ [] then types else ["string".toList]
  | _ => ["string".toList]

/-- The types of the choices `anyOf`, `oneOf` and `allOf`. -/
def choiceTypes [JsonText ν] : List (Text × Json ν) → List Text
  | [] => []
  | (field, .array choices) :: rest =>
      if field ∈ ["anyOf".toList, "oneOf".toList, "allOf".toList] then
        allTypes choices ++ choiceTypes rest
      else choiceTypes rest
  | _ :: rest => choiceTypes rest

/-- The types of all schemas of a list. -/
def allTypes [JsonText ν] : List (Json ν) → List Text
  | [] => []
  | schema :: rest => extractTypesFromSchema schema ++ allTypes rest

end

/-! ## Schema-aware type correction -/

/-- `coerce_to_schema_type`: the coercion of a single value. -/
class SchemaCoercion (ν : Type) extends JsonText ν where
  coerceToSchemaType : Text → List Text → Json ν

/-- Coercion without numbers. -/
instance : SchemaCoercion Empty where
  coerceToSchemaType text types :=
    if types = ["string".toList] then .string text
    else (PlainJson.load text).getD (.string text)

variable [DecidableEq ν] [SchemaCoercion ν]

mutual

/-- `_coerce_value`: the value and whether it changed. -/
def coerceValue (schema : List (Text × Json ν)) : Json ν → Json ν × Bool
  | .object entries =>
      match Json.get? schema "properties".toList with
      | some (.object properties) =>
          let (entries, changed) := coerceEntries properties entries
          (.object entries, changed)
      | _ => (.object entries, false)
  | .array items =>
      match Json.get? schema "items".toList with
      | some (.object schema) =>
          let (items, changed) := coerceItems schema items
          (.array items, changed)
      | _ => (.array items, false)
  | .string value =>
      let coerced := SchemaCoercion.coerceToSchemaType value
        (extractTypesFromSchema (.object schema))
      if Json.sameScalar coerced (.string value) then (.string value, false) else (coerced, true)
  | value =>
      let coerced := SchemaCoercion.coerceToSchemaType (JsonText.dumps value)
        (extractTypesFromSchema (.object schema))
      if Json.sameScalar coerced value then (value, false) else (coerced, true)

/-- `_coerce_dict`. -/
def coerceEntries (properties : List (Text × Json ν)) :
    List (Text × Json ν) → List (Text × Json ν) × Bool
  | [] => ([], false)
  | (key, value) :: rest =>
      let (rest, changed) := coerceEntries properties rest
      match Json.get? properties key with
      | some (.object schema) =>
          let (value, valueChanged) := coerceValue schema value
          ((key, value) :: rest, valueChanged || changed)
      | _ => ((key, value) :: rest, changed)

/-- The items of an array in `_coerce_value`. -/
def coerceItems (schema : List (Text × Json ν)) : List (Json ν) → List (Json ν) × Bool
  | [] => ([], false)
  | value :: rest =>
      let (value, valueChanged) := coerceValue schema value
      let (rest, changed) := coerceItems schema rest
      (value :: rest, valueChanged || changed)

end

/-- `_fix_arg_types`. -/
def fixArgTypes (tools : List (Tool ν)) (argsJson funcName : Text) : Text :=
  if tools = [] ∨ funcName = [] then argsJson
  else
    match (JsonText.loads argsJson : Option (Json ν)) with
    | some (.object args) =>
        let properties := findToolProperties tools funcName
        if properties = [] then argsJson
        else
          let (args, changed) := coerceEntries properties args
          if changed then JsonText.dumps (.object args) else argsJson
    | _ => argsJson

end Vllm.Parser
