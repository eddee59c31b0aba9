import Vllm.Library.Dict
import Vllm.Library.TextSearch
import Vllm.Library.Whitespace

/-!
# Gemma4 arguments

The parser of the arguments of a Gemma4 tool call: keys without quotes, strings between
delimiters, and bare values as their text.
-/

namespace Vllm.Parser.Gemma4

open Vllm.Library

/-- A parsed value. -/
inductive ArgValue where
  | str (text : List Char)
  | list (items : List ArgValue)
  | dict (entries : List (List Char × ArgValue))

/-- `STRING_DELIM`. -/
def stringDelim : List Char :=
  ['<', '|', '"', '|', '>']

/-- `_strip_partial_delim`. -/
def stripPartialDelim (value : List Char) : List Char :=
  match [5, 4, 3, 2, 1].find? fun k => stringDelim.take k <:+ value with
  | some k => value.take (value.length - k)
  | none => value

/-- The whitespace that is skipped in front of a value. -/
def isBlankChar (char : Char) : Bool :=
  char = ' ' || char = '\n' || char = '\t'

/-- The characters that are skipped in front of a key or an item. -/
def isSeparator (char : Char) : Bool :=
  char = ' ' || char = ',' || char = '\n' || char = '\t'

/-- Characters in front of what a scan finds. -/
def inFront (front : List Char) (scan : List Char × Option (List Char)) :
    List Char × Option (List Char) :=
  (front ++ scan.1, scan.2)

/-- The scan for the bracket that closes a value: what is inside, and the rest behind the bracket
if there is one.  Only brackets of one kind are counted, and strings are skipped; `skip` is the
number of characters up to the place to which the scan has jumped. -/
def scanBracket (open_ close : Char) : (skip depth : Nat) → List Char →
    List Char × Option (List Char)
  | _, _, [] => ([], none)
  | skip + 1, depth, char :: rest => inFront [char] (scanBracket open_ close skip depth rest)
  | 0, depth, char :: rest =>
      if stringDelim <+: char :: rest then
        let text := (char :: rest).drop stringDelim.length
        let jump :=
          match find? stringDelim text with
          | none => stringDelim.length + text.length
          | some place => stringDelim.length + place + stringDelim.length
        inFront [char] (scanBracket open_ close (jump - 1) depth rest)
      else if char = open_ then
        inFront [char] (scanBracket open_ close 0 (depth + 1) rest)
      else if char = close then
        if depth = 1 then ([], some rest)
        else inFront [char] (scanBracket open_ close 0 (depth - 1) rest)
      else inFront [char] (scanBracket open_ close 0 depth rest)

/-- What reading a value gives: the value and the rest of the text, a value that ends the loop, or
nothing. -/
inductive Read where
  | value (value : ArgValue) (rest : List Char)
  | last (value : ArgValue)
  | stop

/-- A bare value. -/
def readBare (inArgs partial_ : Bool) (text : List Char) : Read :=
  let stops := fun char : Char => char = ',' || char = ']' || (inArgs && char = '}')
  let raw := text.takeWhile fun char => !stops char
  let rest := text.dropWhile fun char => !stops char
  if partial_ ∧ rest = [] then .stop
  else if raw = [] then .stop
  else
    let rawVal := strip raw
    if partial_ ∧ ['.'] <:+ rawVal then .stop
    else .value (.str rawVal) rest

/-- A string, behind its first delimiter. -/
def readString (inArgs partial_ : Bool) (text : List Char) : Read :=
  match find? stringDelim text with
  | none => .last (.str (if inArgs ∧ partial_ then stripPartialDelim text else text))
  | some place => .value (.str (text.take place)) (text.drop (place + stringDelim.length))

/-- The value of a scan, by the parser of what is inside. -/
def readNested (parse : Bool → List Char → ArgValue) (scan : List Char × Option (List Char)) : Read :=
  match scan with
  | (inside, some rest) => .value (parse false inside) rest
  | (inside, none) => .last (parse true inside)

/-- The next key of an object and the text behind its colon. -/
def nextKey (text : List Char) : Option (List Char × List Char) :=
  let text := text.dropWhile isSeparator
  match text.dropWhile (· ≠ ':') with
  | [] => none
  | _ :: rest =>
      let key := strip (text.takeWhile (· ≠ ':'))
      if stringDelim <+: key ∧ stringDelim <:+ key then
        some ((key.drop stringDelim.length).take (key.length - 2 * stringDelim.length), rest)
      else some (key, rest)

mutual

/-- The value at the start of a text, in an object or in an array. -/
def readValue : (fuel : Nat) → (inArgs partial_ : Bool) → List Char → Read
  | 0, _, _, _ => .stop
  | fuel + 1, inArgs, partial_, text =>
      if stringDelim <+: text then
        readString inArgs partial_ (text.drop stringDelim.length)
      else if text.head? = some '{' then
        readNested
          (fun partial_ inside =>
            .dict (if strip inside = [] then [] else parseEntries fuel partial_ inside []))
          (scanBracket '{' '}' 0 1 text.tail)
      else if text.head? = some '[' then
        readNested (fun partial_ inside => .list (parseItems fuel partial_ inside []))
          (scanBracket '[' ']' 0 1 text.tail)
      else readBare inArgs partial_ text

/-- The loop of `_parse_gemma4_args`. -/
def parseEntries : (fuel : Nat) → (partial_ : Bool) → List Char → List (List Char × ArgValue) →
    List (List Char × ArgValue)
  | 0, _, _, result => result
  | fuel + 1, partial_, text, result =>
      match nextKey text with
      | none => result
      | some (key, text) =>
          let text := text.dropWhile isBlankChar
          if text = [] then
            if partial_ then result else Dict.insertEntries key (.str []) result
          else
            match readValue fuel true partial_ text with
            | .value value rest =>
                parseEntries fuel partial_ rest (Dict.insertEntries key value result)
            | .last value => Dict.insertEntries key value result
            | .stop => result

/-- The loop of `_parse_gemma4_array`. -/
def parseItems : (fuel : Nat) → (partial_ : Bool) → List Char → List ArgValue → List ArgValue
  | 0, _, _, items => items
  | fuel + 1, partial_, text, items =>
      let text := text.dropWhile isSeparator
      if text = [] then items
      else
        match readValue fuel false partial_ text with
        | .value value rest => parseItems fuel partial_ rest (items ++ [value])
        | .last value => items ++ [value]
        | .stop => items

end

/-- The depth of calls that is enough for a text: every call reads a part of it that is shorter by
a character or more, after one that does not. -/
def enough (text : List Char) : Nat :=
  2 * text.length + 2

/-- `_parse_gemma4_args`. -/
def parseGemma4Args (partial_ : Bool) (argsStr : List Char) : List (List Char × ArgValue) :=
  if strip argsStr = [] then [] else parseEntries (enough argsStr) partial_ argsStr []

end Vllm.Parser.Gemma4

/-!
## Round trip of Gemma4 arguments

The writings of a value in the argument syntax, and that the parser reads each of them back.  A
writing is neutral for the scans for a closing bracket, and whatever follows a value in a writing
is a comma, a closing bracket, or whitespace in front of one of these.
-/

namespace Vllm.Parser.Gemma4

open Vllm.Library

/-! ## The syntax -/

/-- Whitespace that may stand behind a separator. -/
def Blank (text : List Char) : Prop :=
  ∀ char ∈ text, isBlankChar char = true

/-- A text without commas, brackets, braces and string delimiters. -/
def Unstructured (text : List Char) : Prop :=
  (∀ char ∈ text, char ∉ [',', '{', '}', '[', ']']) ∧ ¬ stringDelim <:+: text

/-- A key that may be written. -/
structure IsKey (key : List Char) : Prop where
  unstructured : Unstructured key
  noColon : ':' ∉ key
  stripped : strip key = key

/-- A text that may be written as a bare value. -/
structure IsScalar (text : List Char) : Prop where
  unstructured : Unstructured text
  stripped : strip text = text
  visible : text ≠ []

/-- What is written: a value, the items of an array, or the members of an object. -/
inductive Part where
  | value (value : ArgValue)
  | items (items : List ArgValue)
  | members (entries : List (List Char × ArgValue))

/-- The writings of a part, for a choice of bare values and of keys. -/
inductive Writes (scalar key : List Char → Prop) : Part → List Char → Prop
  | bare {text} : scalar text → Writes scalar key (.value (.str text)) text
  | string {text} : ¬ stringDelim <:+: text →
      Writes scalar key (.value (.str text)) (stringDelim ++ text ++ stringDelim)
  | array {items inside} : Writes scalar key (.items items) inside →
      Writes scalar key (.value (.list items)) ('[' :: inside ++ [']'])
  | object {entries inside} : (entries.map Prod.fst).Nodup →
      Writes scalar key (.members entries) inside →
      Writes scalar key (.value (.dict entries)) ('{' :: inside ++ ['}'])
  | noItems {blank} : Blank blank → Writes scalar key (.items []) blank
  | lastItem {front text back value} : Blank front → Blank back →
      Writes scalar key (.value value) text →
      Writes scalar key (.items [value]) (front ++ text ++ back)
  | nextItem {front text back value items more} : Blank front → Blank back → items ≠ [] →
      Writes scalar key (.value value) text → Writes scalar key (.items items) more →
      Writes scalar key (.items (value :: items)) (front ++ text ++ back ++ ',' :: more)
  | noMembers {blank} : Blank blank → Writes scalar key (.members []) blank
  | lastMember {front name middle text back value} : Blank front → Blank middle → Blank back →
      key name → Writes scalar key (.value value) text →
      Writes scalar key (.members [(name, value)])
        (front ++ name ++ ':' :: middle ++ text ++ back)
  | nextMember {front name middle text back value entries more} :
      Blank front → Blank middle → Blank back → key name → entries ≠ [] →
      Writes scalar key (.value value) text → Writes scalar key (.members entries) more →
      Writes scalar key (.members ((name, value) :: entries))
        (front ++ name ++ ':' :: middle ++ text ++ back ++ ',' :: more)

/-! ## Delimiters -/

/-- No character that follows begins with a part of the string delimiter. -/
def Stops (rest : List Char) : Prop :=
  ∀ char ∈ rest.head?, char ∉ stringDelim

variable {char : Char} {text : List Char}

theorem stops_cons (outside : char ∉ stringDelim) (rest : List Char) :
    Stops (char :: rest) := by
  intro other head
  simp only [List.head?_cons, Option.mem_def, Option.some.injEq] at head
  rw [← head]
  exact outside

theorem isBlankChar_not_delim (blank : isBlankChar char = true) :
    char ∉ stringDelim := by
  simp only [isBlankChar, Bool.or_eq_true, decide_eq_true_eq] at blank
  rcases blank with (rfl | rfl) | rfl <;> decide

theorem Stops.behind_blank {blank rest : List Char} (stops : Stops rest) (isBlank : Blank blank) :
    Stops (blank ++ rest) := by
  cases blank with
  | nil => exact stops
  | cons char more => exact stops_cons (isBlankChar_not_delim (isBlank char List.mem_cons_self)) _

theorem not_delim_prefixed {word rest : List Char} (absent : ¬ stringDelim <:+: word)
    (stops : Stops rest) : ¬ stringDelim <+: word ++ rest :=
  not_prefix_append absent stops

/-- The delimiter behind a text without one is the first. -/
theorem find?_delim (absent : ¬ stringDelim <:+: text) (rest : List Char) :
    find? stringDelim (text ++ stringDelim ++ rest) = some text.length :=
  find?_append_self (by decide) absent rest

/-! ## Scanning for a closing bracket -/

/-- The brackets that a scan may count. -/
def Brackets (opening closing : Char) : Prop :=
  opening = '{' ∧ closing = '}' ∨ opening = '[' ∧ closing = ']'

section Scan

variable {opening closing : Char} {depth : Nat} {text rest : List Char}

@[simp]
theorem inFront_inFront (front more : List Char) (scan : List Char × Option (List Char)) :
    inFront front (inFront more scan) = inFront (front ++ more) scan := by
  simp [inFront]

theorem Brackets.opening_not_delim (brackets : Brackets opening closing) :
    opening ∉ stringDelim := by
  rcases brackets with ⟨rfl, rfl⟩ | ⟨rfl, rfl⟩ <;> decide

theorem Brackets.closing_not_delim (brackets : Brackets opening closing) :
    closing ∉ stringDelim := by
  rcases brackets with ⟨rfl, rfl⟩ | ⟨rfl, rfl⟩ <;> decide

variable {char : Char}

theorem not_delim_prefix_cons (outside : char ∉ stringDelim) (rest : List Char) :
    ¬ stringDelim <+: char :: rest :=
  @not_delim_prefixed [] _ (by decide) (stops_cons outside rest)

/-- The characters up to the place of a jump are not looked at. -/
theorem scanBracket_skip (opening closing : Char) (depth : Nat) (text rest : List Char) :
    scanBracket opening closing text.length depth (text ++ rest) =
      inFront text (scanBracket opening closing 0 depth rest) := by
  induction text with
  | nil => rfl
  | cons char text inductionHypothesis =>
      rw [List.length_cons, List.cons_append, scanBracket, inductionHypothesis, inFront_inFront]
      rfl

theorem scanBracket_plain (noDelim : ¬ stringDelim <+: char :: rest) (notOpening : char ≠ opening)
    (notClosing : char ≠ closing) :
    scanBracket opening closing 0 depth (char :: rest) =
      inFront [char] (scanBracket opening closing 0 depth rest) := by
  rw [scanBracket, if_neg noDelim, if_neg notOpening, if_neg notClosing]

theorem scanBracket_opening (brackets : Brackets opening closing) :
    scanBracket opening closing 0 depth (opening :: rest) =
      inFront [opening] (scanBracket opening closing 0 (depth + 1) rest) := by
  rw [scanBracket, if_neg (not_delim_prefix_cons brackets.opening_not_delim rest), if_pos rfl]

/-- Other characters are not counted. -/
theorem Brackets.differ (brackets : Brackets opening closing)
    (plain : char ∉ ['{', '}', '[', ']']) :
    char ≠ opening ∧ char ≠ closing := by
  rcases brackets with ⟨rfl, rfl⟩ | ⟨rfl, rfl⟩ <;>
    constructor <;> rintro rfl <;> simp at plain

theorem Brackets.ne (brackets : Brackets opening closing) : closing ≠ opening := by
  rcases brackets with ⟨rfl, rfl⟩ | ⟨rfl, rfl⟩ <;> decide

/-- A closing bracket within others. -/
theorem scanBracket_closing (brackets : Brackets opening closing) (inside : 1 ≤ depth) :
    scanBracket opening closing 0 (depth + 1) (closing :: rest) =
      inFront [closing] (scanBracket opening closing 0 depth rest) := by
  rw [scanBracket, if_neg (not_delim_prefix_cons brackets.closing_not_delim rest),
    if_neg brackets.ne, if_pos rfl, if_neg (Nat.ne_of_gt (Nat.lt_succ_of_le inside)),
    Nat.add_sub_cancel]

/-- The closing bracket that is looked for. -/
theorem scanBracket_closing_one (brackets : Brackets opening closing) :
    scanBracket opening closing 0 1 (closing :: rest) = ([], some rest) := by
  rw [scanBracket, if_neg (not_delim_prefix_cons brackets.closing_not_delim rest),
    if_neg brackets.ne, if_pos rfl, if_pos rfl]

/-- A string is skipped with its delimiters, whatever it contains. -/
theorem scanBracket_string (absent : ¬ stringDelim <:+: text) :
    scanBracket opening closing 0 depth (stringDelim ++ text ++ stringDelim ++ rest) =
      inFront (stringDelim ++ text ++ stringDelim) (scanBracket opening closing 0 depth rest) := by
  have found := find?_delim absent rest
  have starts : stringDelim <+: '<' :: (stringDelim.tail ++ text ++ stringDelim ++ rest) := by
    exact ((List.prefix_append _ _).trans (List.prefix_append _ _)).trans (List.prefix_append _ _)
  have behind : ('<' :: (stringDelim.tail ++ text ++ stringDelim ++ rest)).drop
      stringDelim.length = text ++ stringDelim ++ rest := rfl
  have jump : stringDelim.length + text.length + stringDelim.length - 1 =
      (stringDelim.tail ++ text ++ stringDelim).length := by
    simp [stringDelim]
    omega
  calc
    scanBracket opening closing 0 depth (stringDelim ++ text ++ stringDelim ++ rest)
      = scanBracket opening closing 0 depth
          ('<' :: (stringDelim.tail ++ text ++ stringDelim ++ rest)) := rfl
    _ = inFront ['<'] (scanBracket opening closing
          (stringDelim.length + text.length + stringDelim.length - 1) depth
          (stringDelim.tail ++ text ++ stringDelim ++ rest)) := by
        rw [scanBracket, if_pos starts]
        dsimp only
        rw [behind, found]
    _ = _ := by
        rw [jump, scanBracket_skip, inFront_inFront]
        rfl

end Scan

/-- A text that the scans for a closing bracket pass. -/
def Neutral (text : List Char) : Prop :=
  ∀ opening closing depth rest, Brackets opening closing → 1 ≤ depth → Stops rest →
    scanBracket opening closing 0 depth (text ++ rest) =
      inFront text (scanBracket opening closing 0 depth rest)

section Neutral

variable {text more : List Char} {char : Char}

theorem neutral_nil : Neutral [] :=
  fun _ _ _ _ _ _ _ => rfl

/-- Neutral texts stand behind each other if the second does not continue a delimiter. -/
theorem Neutral.append (first : Neutral text) (second : Neutral more)
    (apart : ∀ rest, Stops rest → Stops (more ++ rest)) : Neutral (text ++ more) := by
  intro opening closing depth rest brackets inside stops
  rw [List.append_assoc, first opening closing depth _ brackets inside (apart rest stops),
    second opening closing depth rest brackets inside stops, inFront_inFront]

/-- A character that means nothing to the scans. -/
theorem Neutral.cons (neutral : Neutral text) (plain : char ∉ ['{', '}', '[', ']'])
    (outside : char ∉ stringDelim) : Neutral (char :: text) := by
  intro opening closing depth rest brackets inside stops
  rcases brackets.differ plain with ⟨notOpening, notClosing⟩
  rw [List.cons_append, scanBracket_plain (not_delim_prefix_cons outside _) notOpening notClosing,
    neutral opening closing depth rest brackets inside stops, inFront_inFront]
  rfl

/-- Whitespace in front of a neutral text. -/
theorem Neutral.behind_blank (blank : Blank text) (neutral : Neutral more) :
    Neutral (text ++ more) := by
  induction text with
  | nil => exact neutral
  | cons char text inductionHypothesis =>
      have isBlank := blank char List.mem_cons_self
      apply Neutral.cons
      · exact inductionHypothesis fun other member => blank other (List.mem_cons_of_mem _ member)
      · simp only [isBlankChar, Bool.or_eq_true, decide_eq_true_eq] at isBlank
        rcases isBlank with (rfl | rfl) | rfl <;> decide
      · exact isBlankChar_not_delim isBlank

theorem neutral_blank (blank : Blank text) : Neutral text := by
  rw [← List.append_nil text]
  exact neutral_nil.behind_blank blank

/-- A key or a bare value is neutral. -/
theorem neutral_unstructured (unstructured : Unstructured text) : Neutral text := by
  induction text with
  | nil => exact neutral_nil
  | cons char text inductionHypothesis =>
      intro opening closing depth rest brackets inside stops
      have plain := fun member =>
        unstructured.1 char List.mem_cons_self (List.mem_cons_of_mem ',' member)
      rcases brackets.differ plain with ⟨notOpening, notClosing⟩
      have shorter : Unstructured text := by
        constructor
        · exact fun other member => unstructured.1 other (List.mem_cons_of_mem _ member)
        · exact fun infixed => unstructured.2 (infixed.trans (List.suffix_cons _ _).isInfix)
      have noDelim := not_delim_prefixed unstructured.2 stops
      rw [List.cons_append] at noDelim ⊢
      rw [scanBracket_plain noDelim notOpening notClosing,
        inductionHypothesis shorter opening closing depth rest brackets inside stops,
        inFront_inFront]
      rfl

theorem neutral_string (absent : ¬ stringDelim <:+: text) :
    Neutral (stringDelim ++ text ++ stringDelim) :=
  fun _ _ _ _ _ _ _ => scanBracket_string absent

/-- What a scan finds in front of the bracket that closes a neutral text. -/
theorem Neutral.scan {opening closing : Char} (neutral : Neutral text)
    (brackets : Brackets opening closing) (rest : List Char) :
    scanBracket opening closing 0 1 (text ++ closing :: rest) = (text, some rest) := by
  rw [neutral opening closing 1 _ brackets le_rfl (stops_cons brackets.closing_not_delim rest),
    scanBracket_closing_one brackets, inFront, List.append_nil]

/-- The scans count brackets of their own kind and pass the others. -/
theorem Neutral.enclosed {outer inner : Char} (neutral : Neutral text)
    (brackets : Brackets outer inner) : Neutral (outer :: text ++ [inner]) := by
  intro opening closing depth rest counted inside stops
  have enclosed : ∀ depth, 1 ≤ depth →
      scanBracket opening closing 0 depth (text ++ inner :: rest) =
        inFront text (scanBracket opening closing 0 depth (inner :: rest)) :=
    fun depth inside => neutral opening closing depth _ counted inside
      (stops_cons brackets.closing_not_delim rest)
  rw [List.append_assoc, List.cons_append, List.cons_append, List.nil_append]
  by_cases same : outer = opening
  · have closes : inner = closing := by
      rcases brackets with ⟨rfl, rfl⟩ | ⟨rfl, rfl⟩ <;>
        rcases counted with ⟨rfl, rfl⟩ | ⟨rfl, rfl⟩ <;> simp at same ⊢
    subst same closes
    rw [scanBracket_opening counted, enclosed _ (Nat.le_add_left 1 depth),
      scanBracket_closing counted inside, inFront_inFront, inFront_inFront]
    rfl
  · have others : outer ≠ closing ∧ inner ≠ opening ∧ inner ≠ closing := by
      rcases brackets with ⟨rfl, rfl⟩ | ⟨rfl, rfl⟩ <;>
        rcases counted with ⟨rfl, rfl⟩ | ⟨rfl, rfl⟩ <;> simp at same ⊢
    rcases others with ⟨notClosing, passed, passes⟩
    rw [scanBracket_plain (not_delim_prefix_cons brackets.opening_not_delim _) same notClosing,
      enclosed depth inside,
      scanBracket_plain (not_delim_prefix_cons brackets.closing_not_delim _) passed passes,
      inFront_inFront, inFront_inFront]
    rfl

end Neutral

section Writings

variable {part : Part} {text : List Char}

variable {front tail : List Char}

/-- A value with what stands in front of it and behind it. -/
theorem Neutral.item (blank : Blank front) (value : Neutral text) (others : Neutral tail)
    (apart : ∀ rest, Stops rest → Stops (tail ++ rest)) :
    Neutral (front ++ text ++ tail) := by
  rw [List.append_assoc]
  exact (value.append others apart).behind_blank blank

/-- A member of an object, with what stands behind it. -/
theorem Neutral.member {name middle : List Char} (blank : Blank front) (key : Unstructured name)
    (colon : Blank middle) (value : Neutral text) (others : Neutral tail)
    (apart : ∀ rest, Stops rest → Stops (tail ++ rest)) :
    Neutral (front ++ name ++ ':' :: middle ++ text ++ tail) := by
  have behind : Neutral (':' :: (middle ++ text ++ tail)) :=
    (Neutral.item colon value others apart).cons (by decide) (by decide)
  have named : Neutral (name ++ ':' :: (middle ++ text ++ tail)) :=
    (neutral_unstructured key).append behind fun rest _ => stops_cons (by decide) _
  have member := named.behind_blank blank
  simp only [List.append_assoc, List.cons_append] at member ⊢
  exact member

/-- Every writing is neutral. -/
theorem Writes.neutral (writes : Writes IsScalar IsKey part text) : Neutral text := by
  induction writes with
  | bare scalar => exact neutral_unstructured scalar.unstructured
  | string absent => exact neutral_string absent
  | array _ inductionHypothesis => exact inductionHypothesis.enclosed (.inr ⟨rfl, rfl⟩)
  | object _ _ inductionHypothesis => exact inductionHypothesis.enclosed (.inl ⟨rfl, rfl⟩)
  | noItems blank => exact neutral_blank blank
  | lastItem front back _ value =>
      exact Neutral.item front value (neutral_blank back) fun _ stops => stops.behind_blank back
  | nextItem front back _ _ _ value items =>
      rw [List.append_assoc]
      apply Neutral.item front value
      · exact (items.cons (by decide) (by decide)).behind_blank back
      · intro rest _
        rw [List.append_assoc]
        exact (stops_cons (by decide) _).behind_blank back
  | noMembers blank => exact neutral_blank blank
  | lastMember front middle back key _ value =>
      exact Neutral.member front key.unstructured middle value (neutral_blank back)
        fun _ stops => stops.behind_blank back
  | nextMember front middle back key _ _ _ value members =>
      rw [List.append_assoc]
      apply Neutral.member front key.unstructured middle value
      · exact (members.cons (by decide) (by decide)).behind_blank back
      · intro rest _
        rw [List.append_assoc]
        exact (stops_cons (by decide) _).behind_blank back

end Writings

/-! ## Reading -/

section Reading

variable {text rest : List Char} {fuel : Nat} {inArgs : Bool}

/-- What may stand behind a value: nothing, or a comma. -/
def Follows (rest : List Char) : Prop :=
  ∀ char ∈ rest.head?, char = ','

theorem Follows.stops (follows : Follows rest) : Stops rest := by
  intro char head
  rw [follows char head]
  decide

theorem follows_nil : Follows [] := by
  simp [Follows]

theorem follows_comma (rest : List Char) : Follows (',' :: rest) := by
  simp [Follows]

variable {char : Char} {back front name : List Char}

theorem isSpace_of_isBlankChar (blank : isBlankChar char = true) : isSpace char = true := by
  simp only [isBlankChar, Bool.or_eq_true, decide_eq_true_eq] at blank
  rcases blank with (rfl | rfl) | rfl <;> decide

theorem isSeparator_of_isBlankChar (blank : isBlankChar char = true) : isSeparator char = true := by
  simp only [isBlankChar, Bool.or_eq_true, decide_eq_true_eq] at blank
  rcases blank with (rfl | rfl) | rfl <;> decide

/-- A text that begins with a character which is no separator. -/
def Begins (text : List Char) : Prop :=
  ∃ char rest, text = char :: rest ∧ isSeparator char = false

/-- A value is read with the whitespace behind it, or that is left. -/
def Reads (fuel : Nat) (text : List Char) (value : ArgValue) : Prop :=
  ∀ inArgs back rest, Blank back → Follows rest → ∃ left, Blank left ∧
    readValue fuel inArgs false (text ++ back ++ rest) = .value value (left ++ rest)

theorem isSpace_of_isSeparator (separator : isSeparator char = true) (notComma : char ≠ ',') :
    isSpace char = true := by
  simp only [isSeparator, Bool.or_eq_true, decide_eq_true_eq] at separator
  rcases separator with ((rfl | rfl) | rfl) | rfl <;> first | decide | contradiction

/-- A stripped text does not begin with whitespace. -/
theorem head_not_isSpace (stripped : strip (char :: text) = char :: text) :
    isSpace char = false := by
  by_contra space
  rw [Bool.not_eq_false] at space
  have shorter : (strip (char :: text)).length ≤ text.length := by
    rw [strip, lstrip, List.dropWhile_cons_of_pos space]
    exact ((rstrip_prefixed _).length_le).trans (List.dropWhile_sublist _).length_le
  rw [stripped, List.length_cons] at shorter
  exact Nat.lt_irrefl _ shorter

theorem IsScalar.begins (scalar : IsScalar text) : Begins text := by
  cases text with
  | nil => exact absurd rfl scalar.visible
  | cons char rest =>
      refine ⟨char, rest, rfl, ?_⟩
      by_contra separator
      rw [Bool.not_eq_false] at separator
      have notComma : char ≠ ',' := by
        rintro rfl
        exact scalar.unstructured.1 _ List.mem_cons_self List.mem_cons_self
      have space := isSpace_of_isSeparator separator notComma
      rw [head_not_isSpace scalar.stripped] at space
      contradiction

theorem Begins.dropWhile (begins : Begins text) (rest : List Char) :
    (text ++ rest).dropWhile isSeparator = text ++ rest := by
  rcases begins with ⟨char, text, rfl, visible⟩
  rw [List.cons_append, List.dropWhile_cons_of_neg]
  rw [visible]
  simp

/-- A stripped text with whitespace behind it. -/
theorem strip_append_blank (stripped : strip text = text) (visible : text ≠ [])
    (blank : IsBlank back) : strip (text ++ back) = text := by
  cases text with
  | nil => exact absurd rfl visible
  | cons char text =>
      have head := head_not_isSpace stripped
      have begins : ∀ more, lstrip (char :: more) = char :: more := by
        intro more
        rw [lstrip, List.dropWhile_cons_of_neg]
        rw [head]
        simp
      rw [strip, begins] at stripped
      rw [List.cons_append, strip, begins, ← List.cons_append, rstrip_append_blank _ blank,
        stripped]

theorem Blank.isBlank (blank : Blank text) : IsBlank text :=
  fun char member => isSpace_of_isBlankChar (blank char member)

/-- A value that is read as the parser is defined, whatever character it begins with. -/
theorem readValue_succ (fuel : Nat) (inArgs : Bool) (text : List Char) :
    readValue (fuel + 1) inArgs false text =
      if stringDelim <+: text then readString inArgs false (text.drop stringDelim.length)
      else if text.head? = some '{' then
        readNested
          (fun partial_ inside =>
            .dict (if strip inside = [] then [] else parseEntries fuel partial_ inside []))
          (scanBracket '{' '}' 0 1 text.tail)
      else if text.head? = some '[' then
        readNested (fun partial_ inside => .list (parseItems fuel partial_ inside []))
          (scanBracket '[' ']' 0 1 text.tail)
      else readBare inArgs false text := by
  rw [readValue]

/-- A bare value ends at the comma behind it or with the text. -/
theorem readBare_scalar (scalar : IsScalar text) (blank : Blank back) (follows : Follows rest) :
    readBare inArgs false (text ++ back ++ rest) = .value (.str text) rest := by
  have goesOn : ∀ char ∈ text ++ back,
      (!(decide (char = ',') || decide (char = ']') || inArgs && decide (char = '}'))) = true := by
    intro char member
    rcases List.mem_append.mp member with inside | behind
    · have plain := scalar.unstructured.1 char inside
      simp only [List.mem_cons, List.not_mem_nil, or_false, not_or] at plain
      simp [plain]
    · have isBlank := blank char behind
      simp only [isBlankChar, Bool.or_eq_true, decide_eq_true_eq] at isBlank
      rcases isBlank with (rfl | rfl) | rfl <;> simp
  have ends : rest.takeWhile (fun char => !(decide (char = ',') || decide (char = ']') ||
      inArgs && decide (char = '}'))) = [] ∧
      rest.dropWhile (fun char => !(decide (char = ',') || decide (char = ']') ||
        inArgs && decide (char = '}'))) = rest := by
    cases rest with
    | nil => simp
    | cons char rest =>
        have comma : char = ',' := follows char rfl
        simp [comma]
  have nonempty : text ++ back ≠ [] := by
    simp [scalar.visible]
  rw [readBare]
  rw [List.takeWhile_append_of_pos goesOn, List.dropWhile_append_of_pos goesOn, ends.1, ends.2,
    List.append_nil, if_neg (by simp), if_neg nonempty, if_neg (by simp),
    strip_append_blank scalar.stripped scalar.visible blank.isBlank]

theorem reads_bare (scalar : IsScalar text) : Reads (fuel + 1) text (.str text) := by
  intro inArgs back rest blank follows
  refine ⟨[], by simp [Blank], ?_⟩
  have noDelim : ¬ stringDelim <+: text ++ back ++ rest := by
    rw [List.append_assoc]
    exact not_delim_prefixed scalar.unstructured.2 (follows.stops.behind_blank blank)
  have head : ∀ bracket ∈ ['{', '}', '[', ']'], (text ++ back ++ rest).head? ≠ some bracket := by
    intro bracket member equal
    cases text with
    | nil => exact scalar.visible rfl
    | cons char text =>
        rw [List.append_assoc, List.cons_append, List.head?_cons, Option.some.injEq] at equal
        rw [← equal] at member
        exact scalar.unstructured.1 char List.mem_cons_self (List.mem_cons_of_mem ',' member)
  rw [readValue_succ, if_neg noDelim, if_neg (head '{' (by decide)),
    if_neg (head '[' (by decide)), readBare_scalar scalar blank follows, List.nil_append]

theorem reads_string (absent : ¬ stringDelim <:+: text) :
    Reads (fuel + 1) (stringDelim ++ text ++ stringDelim) (.str text) := by
  intro inArgs back rest blank _
  refine ⟨back, blank, ?_⟩
  have starts : stringDelim <+: stringDelim ++ (text ++ stringDelim ++ (back ++ rest)) :=
    List.prefix_append _ _
  have assoc : stringDelim ++ text ++ stringDelim ++ back ++ rest =
      stringDelim ++ (text ++ stringDelim ++ (back ++ rest)) := by
    simp only [List.append_assoc]
  rw [assoc, readValue_succ, if_pos starts, List.drop_left, readString,
    find?_delim absent (back ++ rest)]
  dsimp only
  rw [← List.length_append, List.drop_left, List.append_assoc, List.take_left]

/-- An array or an object is read by the parser of what is inside. -/
theorem readNested_scan {opening closing : Char} (neutral : Neutral text)
    (brackets : Brackets opening closing) (parse : Bool → List Char → ArgValue) (rest : List Char) :
    readNested parse (scanBracket opening closing 0 1 (text ++ closing :: rest)) =
      .value (parse false text) rest := by
  rw [neutral.scan brackets rest, readNested]

theorem reads_array {items : List ArgValue} (neutral : Neutral text)
    (parses : parseItems fuel false text [] = items) :
    Reads (fuel + 1) ('[' :: text ++ [']']) (.list items) := by
  intro inArgs back rest blank _
  refine ⟨back, blank, ?_⟩
  have assoc : '[' :: text ++ [']'] ++ back ++ rest = '[' :: (text ++ ']' :: (back ++ rest)) := by
    simp
  rw [assoc, readValue_succ, if_neg (not_delim_prefix_cons (by decide) _), if_neg (by simp),
    if_pos List.head?_cons, List.tail_cons, readNested_scan neutral (.inr ⟨rfl, rfl⟩), parses]

/-- A blank text has no members. -/
theorem parseEntries_of_isBlank (fuel : Nat) (blank : IsBlank text)
    (result : List (List Char × ArgValue)) : parseEntries fuel false text result = result := by
  have noKey : nextKey text = none := by
    have passed : ((text.dropWhile isSeparator).dropWhile fun char => decide (char ≠ ':')) = [] := by
      rw [List.dropWhile_eq_nil_iff]
      intro char member
      have space := blank char ((List.dropWhile_sublist _).subset member)
      rw [decide_eq_true_eq]
      rintro rfl
      simp [isSpace] at space
    rw [nextKey]
    rw [passed]
  cases fuel with
  | zero => rfl
  | succ fuel => rw [parseEntries, noKey]

theorem reads_object {entries : List (List Char × ArgValue)} (neutral : Neutral text)
    (parses : parseEntries fuel false text [] = entries) :
    Reads (fuel + 1) ('{' :: text ++ ['}']) (.dict entries) := by
  intro inArgs back rest blank _
  refine ⟨back, blank, ?_⟩
  have assoc : '{' :: text ++ ['}'] ++ back ++ rest = '{' :: (text ++ '}' :: (back ++ rest)) := by
    simp
  have inside : (if strip text = [] then [] else parseEntries fuel false text []) = entries := by
    split
    case isTrue nothing =>
      rw [← parses, parseEntries_of_isBlank fuel (strip_eq_nil_iff.mp nothing)]
    case isFalse => exact parses
  rw [assoc, readValue_succ, if_neg (not_delim_prefix_cons (by decide) _),
    if_pos List.head?_cons, List.tail_cons, readNested_scan neutral (.inl ⟨rfl, rfl⟩), inside]

/-! ## Items and members -/

/-- Separators in front of an item are skipped. -/
theorem parseItems_separators (fuel : Nat) (separators : ∀ char ∈ front, isSeparator char = true)
    (text : List Char) (items : List ArgValue) :
    parseItems fuel false (front ++ text) items = parseItems fuel false text items := by
  cases fuel with
  | zero => rfl
  | succ fuel =>
      rw [parseItems, parseItems]
      rw [List.dropWhile_append_of_pos separators]

theorem Blank.separators (blank : Blank text) : ∀ char ∈ text, isSeparator char = true :=
  fun char member => isSeparator_of_isBlankChar (blank char member)

theorem separator_comma : ∀ char ∈ [','], isSeparator char = true :=
  List.forall_mem_singleton.mpr (by decide)

theorem parseItems_blank (fuel : Nat) (blank : Blank text) (items : List ArgValue) :
    parseItems fuel false text items = items := by
  rw [← List.append_nil text, parseItems_separators fuel blank.separators]
  cases fuel <;> rfl

variable {value : ArgValue}

theorem parseItems_item (begins : Begins text) (reads : Reads fuel text value)
    (blankFront : Blank front) (blankBack : Blank back) (follows : Follows rest)
    (items : List ArgValue) :
    parseItems (fuel + 1) false (front ++ text ++ back ++ rest) items =
      parseItems fuel false rest (items ++ [value]) := by
  rcases reads false back rest blankBack follows with ⟨left, blank, read⟩
  have assoc : front ++ text ++ back ++ rest = front ++ (text ++ (back ++ rest)) := by
    simp only [List.append_assoc]
  have visible : text ++ (back ++ rest) ≠ [] := by
    rcases begins with ⟨char, text, rfl, _⟩
    simp
  rw [assoc, parseItems_separators _ blankFront.separators, parseItems]
  rw [begins.dropWhile, if_neg visible, ← List.append_assoc, read]
  exact parseItems_separators fuel blank.separators rest _

theorem nextKey_separators (separators : ∀ char ∈ front, isSeparator char = true)
    (text : List Char) :
    nextKey (front ++ text) = nextKey text := by
  rw [nextKey, nextKey]
  rw [List.dropWhile_append_of_pos separators]

/-- Separators in front of a key are skipped. -/
theorem parseEntries_separators (fuel : Nat) (separators : ∀ char ∈ front, isSeparator char = true)
    (text : List Char) (result : List (List Char × ArgValue)) :
    parseEntries fuel false (front ++ text) result = parseEntries fuel false text result := by
  cases fuel with
  | zero => rfl
  | succ fuel => rw [parseEntries, parseEntries, nextKey_separators separators]

theorem IsKey.begins (key : IsKey name) (rest : List Char) : Begins (name ++ ':' :: rest) := by
  cases name with
  | nil => exact ⟨':', rest, rfl, by decide⟩
  | cons char name =>
      refine ⟨char, name ++ ':' :: rest, rfl, ?_⟩
      by_contra separator
      rw [Bool.not_eq_false] at separator
      have notComma : char ≠ ',' := by
        rintro rfl
        exact key.unstructured.1 _ List.mem_cons_self List.mem_cons_self
      have space := isSpace_of_isSeparator separator notComma
      rw [head_not_isSpace key.stripped] at space
      contradiction

/-- A key is read up to its colon. -/
theorem nextKey_key (key : IsKey name) (rest : List Char) :
    nextKey (name ++ ':' :: rest) = some (name, rest) := by
  have named : ∀ char ∈ name, decide (char ≠ ':') = true := by
    intro char member
    rw [decide_eq_true_eq]
    rintro rfl
    exact key.noColon member
  have begins := (key.begins rest).dropWhile []
  rw [List.append_nil] at begins
  have notQuoted : ¬ (stringDelim <+: name ∧ stringDelim <:+ name) :=
    fun quoted => key.unstructured.2 quoted.1.isInfix
  rw [nextKey]
  rw [begins, List.dropWhile_append_of_pos named, List.takeWhile_append_of_pos named,
    List.dropWhile_cons_of_neg (by simp), List.takeWhile_cons_of_neg (by simp), List.append_nil,
    key.stripped]
  dsimp only
  rw [if_neg notQuoted]

theorem Begins.dropWhile_blank (begins : Begins text) (rest : List Char) (blank : Blank front) :
    (front ++ (text ++ rest)).dropWhile isBlankChar = text ++ rest := by
  rcases begins with ⟨char, text, rfl, visible⟩
  rw [List.dropWhile_append_of_pos blank, List.cons_append, List.dropWhile_cons_of_neg]
  intro isBlank
  rw [isSeparator_of_isBlankChar isBlank] at visible
  contradiction

theorem parseEntries_member {middle : List Char} (begins : Begins text)
    (reads : Reads fuel text value) (blankFront : Blank front) (blankMiddle : Blank middle)
    (blankBack : Blank back) (key : IsKey name) (follows : Follows rest)
    (result : List (List Char × ArgValue)) :
    parseEntries (fuel + 1) false (front ++ name ++ ':' :: middle ++ text ++ back ++ rest) result =
      parseEntries fuel false rest (Dict.insertEntries name value result) := by
  rcases reads true back rest blankBack follows with ⟨left, blank, read⟩
  have assoc : front ++ name ++ ':' :: middle ++ text ++ back ++ rest =
      front ++ (name ++ ':' :: (middle ++ (text ++ (back ++ rest)))) := by
    simp only [List.append_assoc, List.cons_append]
  have visible : text ++ (back ++ rest) ≠ [] := by
    rcases begins with ⟨char, text, rfl, _⟩
    simp
  rw [assoc, parseEntries_separators _ blankFront.separators, parseEntries, nextKey_key key]
  dsimp only
  rw [begins.dropWhile_blank _ blankMiddle, if_neg visible, ← List.append_assoc, read]
  exact parseEntries_separators fuel blank.separators rest _

end Reading

/-! ## Round trip -/

/-- The members of an object, one after another. -/
def insertAll (entries result : List (List Char × ArgValue)) : List (List Char × ArgValue) :=
  entries.foldl (fun result entry => Dict.insertEntries entry.1 entry.2 result) result

variable {entries : List (List Char × ArgValue)}

/-- A key that is not there goes to the end. -/
theorem insertEntries_new {key : List Char} (new : key ∉ entries.map Prod.fst) (value : ArgValue) :
    Dict.insertEntries key value entries = entries ++ [(key, value)] := by
  induction entries with
  | nil => rfl
  | cons entry entries inductionHypothesis =>
      rw [List.map_cons, List.mem_cons, not_or] at new
      rw [Dict.insertEntries, if_neg fun same => new.1 same.symm, inductionHypothesis new.2,
        List.cons_append]

/-- Distinct keys make the object whose members they are. -/
theorem insertAll_eq_append {result : List (List Char × ArgValue)}
    (distinct : ((result ++ entries).map Prod.fst).Nodup) :
    insertAll entries result = result ++ entries := by
  induction entries generalizing result with
  | nil => rw [insertAll, List.foldl_nil, List.append_nil]
  | cons entry entries inductionHypothesis =>
      have new : entry.1 ∉ result.map Prod.fst := by
        rw [List.map_append, List.nodup_append] at distinct
        exact fun member => distinct.2.2 _ member _ (by simp) rfl
      have others : ((result ++ [entry] ++ entries).map Prod.fst).Nodup := by
        rw [List.append_assoc]
        exact distinct
      rw [insertAll, List.foldl_cons, insertEntries_new new, ← insertAll,
        inductionHypothesis others, List.append_assoc]
      rfl

theorem insertAll_nil (distinct : (entries.map Prod.fst).Nodup) : insertAll entries [] = entries :=
  insertAll_eq_append distinct

/-- What reading a writing back means for each kind of part. -/
def ReadsBack (text : List Char) : Part → Prop
  | .value value => Begins text ∧ ∀ fuel, 2 * text.length ≤ fuel → Reads fuel text value
  | .items items => ∀ fuel read, 2 * text.length + 1 ≤ fuel →
      parseItems fuel false text read = read ++ items
  | .members entries => ∀ fuel result, 2 * text.length + 1 ≤ fuel →
      parseEntries fuel false text result = insertAll entries result

theorem Writes.readsBack {part : Part} (writes : Writes IsScalar IsKey part text) :
    ReadsBack text part := by
  induction writes with
  | @bare text scalar =>
      constructor
      · exact scalar.begins
      · intro fuel enough
        cases fuel with
        | zero => exact absurd (List.length_eq_zero_iff.mp (by omega)) scalar.visible
        | succ fuel => exact reads_bare scalar
  | @string text absent =>
      constructor
      · exact ⟨'<', _, rfl, by decide⟩
      · intro fuel enough
        cases fuel with
        | zero => simp [stringDelim] at enough
        | succ fuel => exact reads_string absent
  | @array items inside written inductionHypothesis =>
      constructor
      · exact ⟨'[', _, rfl, by decide⟩
      · intro fuel enough
        simp only [List.length_append, List.length_cons, List.length_nil] at enough
        cases fuel with
        | zero => omega
        | succ fuel =>
            apply reads_array written.neutral
            rw [inductionHypothesis fuel [] (by omega), List.nil_append]
  | @object entries inside distinct written inductionHypothesis =>
      constructor
      · exact ⟨'{', _, rfl, by decide⟩
      · intro fuel enough
        simp only [List.length_append, List.length_cons, List.length_nil] at enough
        cases fuel with
        | zero => omega
        | succ fuel =>
            apply reads_object written.neutral
            rw [inductionHypothesis fuel [] (by omega), insertAll_nil distinct]
  | noItems blank =>
      intro fuel read _
      rw [parseItems_blank fuel blank, List.append_nil]
  | @lastItem front text back value blankFront blankBack _ inductionHypothesis =>
      rcases inductionHypothesis with ⟨begins, reads⟩
      intro fuel read enough
      simp only [List.length_append] at enough
      cases fuel with
      | zero => omega
      | succ fuel =>
          have item := parseItems_item begins (reads fuel (by omega)) blankFront blankBack
            follows_nil read
          rw [List.append_nil] at item
          rw [item, parseItems_blank fuel (by simp [Blank])]
  | @nextItem front text back value items more blankFront blankBack _ _ _ first others =>
      rcases first with ⟨begins, reads⟩
      intro fuel read enough
      simp only [List.length_append, List.length_cons] at enough
      cases fuel with
      | zero => omega
      | succ fuel =>
          have separated := parseItems_separators fuel separator_comma more (read ++ [value])
          rw [parseItems_item begins (reads fuel (by omega)) blankFront blankBack
            (follows_comma more) read]
          rw [List.cons_append, List.nil_append] at separated
          rw [separated, others fuel _ (by omega), List.append_assoc]
          rfl
  | noMembers blank =>
      intro fuel result _
      exact parseEntries_of_isBlank fuel blank.isBlank result
  | @lastMember front name middle text back value blankFront blankMiddle blankBack key _
      inductionHypothesis =>
      rcases inductionHypothesis with ⟨begins, reads⟩
      intro fuel result enough
      simp only [List.length_append, List.length_cons] at enough
      cases fuel with
      | zero => omega
      | succ fuel =>
          have member := parseEntries_member begins (reads fuel (by omega)) blankFront blankMiddle
            blankBack key follows_nil result
          rw [List.append_nil] at member
          rw [member, parseEntries_of_isBlank fuel isBlank_nil]
          rfl
  | @nextMember front name middle text back value entries more blankFront blankMiddle blankBack
      key _ _ _ first others =>
      rcases first with ⟨begins, reads⟩
      intro fuel result enough
      simp only [List.length_append, List.length_cons] at enough
      cases fuel with
      | zero => omega
      | succ fuel =>
          have separated := parseEntries_separators fuel separator_comma more
            (Dict.insertEntries name value result)
          rw [parseEntries_member begins (reads fuel (by omega)) blankFront blankMiddle blankBack
            key (follows_comma more) result]
          rw [List.cons_append, List.nil_append] at separated
          rw [separated, others fuel _ (by omega)]
          rfl

/-- The parser reads back the members that are written. -/
theorem parseGemma4Args_writes {entries : List (List Char × ArgValue)} {text : List Char}
    (distinct : (entries.map Prod.fst).Nodup) (writes : Writes IsScalar IsKey (.members entries) text) :
    parseGemma4Args false text = entries := by
  have parsed : parseEntries (enough text) false text [] = entries := by
    rw [writes.readsBack (enough text) [] (by simp [enough]), insertAll_nil distinct]
  rw [parseGemma4Args]
  split
  case isTrue nothing =>
    rw [← parsed, parseEntries_of_isBlank _ (strip_eq_nil_iff.mp nothing)]
  case isFalse => exact parsed

/-- Brackets and commas in a string mean nothing: `k: [<|"|>}],<|"|> , x]`. -/
theorem parseGemma4Args_writes_nested :
    parseGemma4Args false
        (['k', ':', ' '] ++
          '[' :: (stringDelim ++ ['}', ']', ','] ++ stringDelim ++ [' ', ',', ' ', 'x']) ++ [']']) =
      [(['k'], .list [.str ['}', ']', ','], .str ['x']])] := by
  have key : IsKey ['k'] := ⟨⟨by simp, by decide⟩, by decide, rfl⟩
  have scalar : IsScalar ['x'] := ⟨⟨by simp, by decide⟩, rfl, by simp⟩
  have none : Blank [] := by
    simp [Blank]
  have blank : Blank [' '] := by
    simp [Blank, isBlankChar]
  have quoted : ¬ stringDelim <:+: ['}', ']', ','] := by
    decide
  have first : Writes IsScalar IsKey _ _ := .string quoted
  have last : Writes IsScalar IsKey _ _ := .lastItem blank none (.bare scalar)
  have items := Writes.nextItem none blank (by simp) first last
  have written := Writes.lastMember none blank none key (.array items)
  apply parseGemma4Args_writes (by simp)
  simpa using written

/-- A bare value without a character ends the parser, here in `a:,b:1`. -/
theorem parseGemma4Args_empty_scalar :
    ¬ ∀ entries text, (entries.map Prod.fst).Nodup →
      Writes Unstructured (fun key => Unstructured key ∧ ':' ∉ key) (.members entries) text →
      parseGemma4Args false text = entries := by
  intro readsBack
  have none : Blank [] := by
    simp [Blank]
  have empty : Unstructured [] := ⟨by simp, by decide⟩
  have one : Unstructured ['1'] := ⟨by simp, by decide⟩
  have a : Unstructured ['a'] ∧ ':' ∉ ['a'] := ⟨⟨by simp, by decide⟩, by decide⟩
  have b : Unstructured ['b'] ∧ ':' ∉ ['b'] := ⟨⟨by simp, by decide⟩, by decide⟩
  have last : Writes Unstructured (fun key => Unstructured key ∧ ':' ∉ key) _ _ :=
    .lastMember none none none b (.bare one)
  have written := Writes.nextMember none none none a (by simp) (.bare empty) last
  have read := readsBack _ _ (by decide) written
  have aborted : parseGemma4Args false ['a', ':', ',', 'b', ':', '1'] = [] := rfl
  have same := aborted.symm.trans read
  simp at same

end Vllm.Parser.Gemma4
