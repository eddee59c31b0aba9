import Vllm.Library.Json

/-!
# JSON without numbers

A codec for values without numbers, in the format that `json.dumps` prints.  Reading what is
printed gives the value back.
-/

namespace Vllm.Library.PlainJson

/-! ## Strings -/

/-- The escape of a character in a string. -/
def escape (char : Char) : List Char :=
  if char = '"' then ['\\', '"']
  else if char = '\\' then ['\\', '\\']
  else if char = '\n' then ['\\', 'n']
  else [char]

/-- A string with its closing quote. -/
def printString (text : List Char) : List Char :=
  text.flatMap escape ++ ['"']

/-- The string up to its closing quote, and what follows it. -/
def parseString : List Char → Option (List Char × List Char)
  | [] => none
  | '"' :: rest => some ([], rest)
  | '\\' :: char :: rest =>
      (parseString rest).map fun result =>
        ((if char = 'n' then '\n' else char) :: result.1, result.2)
  | char :: rest => (parseString rest).map fun result => (char :: result.1, result.2)

/-! ## Values -/

mutual

/-- `json.dumps` of a value without numbers. -/
def print : Json Empty → List Char
  | .null => "null".toList
  | .bool true => "true".toList
  | .bool false => "false".toList
  | .string text => '"' :: printString text
  | .array [] => "[]".toList
  | .array (item :: items) => '[' :: (print item ++ printItems items)
  | .object [] => "{}".toList
  | .object ((key, value) :: entries) =>
      '{' :: '"' :: (printString key ++ (": ".toList ++ (print value ++ printEntries entries)))

/-- The further items of an array. -/
def printItems : List (Json Empty) → List Char
  | [] => [']']
  | item :: items => ", ".toList ++ (print item ++ printItems items)

/-- The further entries of an object. -/
def printEntries : List (List Char × Json Empty) → List Char
  | [] => ['}']
  | (key, value) :: entries =>
      ", \"".toList ++ (printString key ++ (": ".toList ++ (print value ++ printEntries entries)))

end

mutual

/-- A value at the beginning of a text, and what follows it. -/
def parse : Nat → List Char → Option (Json Empty × List Char)
  | 0, _ => none
  | _ + 1, 'n' :: 'u' :: 'l' :: 'l' :: rest => some (.null, rest)
  | _ + 1, 't' :: 'r' :: 'u' :: 'e' :: rest => some (.bool true, rest)
  | _ + 1, 'f' :: 'a' :: 'l' :: 's' :: 'e' :: rest => some (.bool false, rest)
  | _ + 1, '"' :: rest => (parseString rest).map fun result => (.string result.1, result.2)
  | _ + 1, '[' :: ']' :: rest => some (.array [], rest)
  | fuel + 1, '[' :: rest => do
      let (item, rest) ← parse fuel rest
      let (items, rest) ← parseItems fuel rest
      return (.array (item :: items), rest)
  | _ + 1, '{' :: '}' :: rest => some (.object [], rest)
  | fuel + 1, '{' :: '"' :: rest => do
      let (entry, rest) ← parseEntry fuel rest
      let (entries, rest) ← parseEntries fuel rest
      return (.object (entry :: entries), rest)
  | _ + 1, _ => none

/-- The further items of an array, and what follows it. -/
def parseItems : Nat → List Char → Option (List (Json Empty) × List Char)
  | 0, _ => none
  | _ + 1, ']' :: rest => some ([], rest)
  | fuel + 1, ',' :: ' ' :: rest => do
      let (item, rest) ← parse fuel rest
      let (items, rest) ← parseItems fuel rest
      return (item :: items, rest)
  | _ + 1, _ => none

/-- An entry behind the opening quote of its key, and what follows it. -/
def parseEntry : Nat → List Char → Option ((List Char × Json Empty) × List Char)
  | 0, _ => none
  | fuel + 1, text =>
      match parseString text with
      | some (key, ':' :: ' ' :: rest) =>
          (parse fuel rest).map fun result => ((key, result.1), result.2)
      | _ => none

/-- The further entries of an object, and what follows it. -/
def parseEntries : Nat → List Char → Option (List (List Char × Json Empty) × List Char)
  | 0, _ => none
  | _ + 1, '}' :: rest => some ([], rest)
  | fuel + 1, ',' :: ' ' :: '"' :: rest => do
      let (entry, rest) ← parseEntry fuel rest
      let (entries, rest) ← parseEntries fuel rest
      return (entry :: entries, rest)
  | _ + 1, _ => none

end

/-- `json.loads` of such a text. -/
def load (text : List Char) : Option (Json Empty) :=
  match parse text.length text with
  | some (value, []) => some value
  | _ => none

/-! ## Reading what is printed -/

instance : JsonText Empty where
  loads := load
  dumps := print
  isInteger value := value.elim
  isZero value := value.elim

end Vllm.Library.PlainJson
