import Mathlib.Data.List.Basic

/-!
# JSON values

The values of Python's `json` module.  Numbers are those of the host language.
-/

namespace Vllm.Library

/-- A JSON value; the entries of an object stand in insertion order. -/
inductive Json (ν : Type) where
  | null
  | bool (value : Bool)
  | number (value : ν)
  | string (value : List Char)
  | array (items : List (Json ν))
  | object (entries : List (List Char × Json ν))

namespace Json

variable {ν : Type}

/-- `dict.get` on the entries of an object. -/
def get? (entries : List (List Char × Json ν)) (key : List Char) : Option (Json ν) :=
  (entries.find? (·.1 = key)).map (·.2)

/-- The entries of an object. -/
def entries? : Json ν → Option (List (List Char × Json ν))
  | .object entries => some entries
  | _ => none

/-- Whether two values are the same scalar. -/
def sameScalar [DecidableEq ν] : Json ν → Json ν → Bool
  | .null, .null => true
  | .bool first, .bool second => first == second
  | .number first, .number second => decide (first = second)
  | .string first, .string second => first == second
  | _, _ => false

end Json

/-- `json.loads`, `json.dumps`, and what numbers are: an `int` or a `float`, zero or not. -/
class JsonText (ν : Type) where
  loads : List Char → Option (Json ν)
  dumps : Json ν → List Char
  isInteger : ν → Bool
  isZero : ν → Bool

/-- The truth value of an object that `json.loads` makes. -/
def Json.truthy {ν : Type} [JsonText ν] : Json ν → Bool
  | .null => false
  | .bool value => value
  | .number value => !JsonText.isZero value
  | .string value => value ≠ []
  | .array items => !items.isEmpty
  | .object entries => !entries.isEmpty

end Vllm.Library
