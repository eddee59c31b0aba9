import Vllm.Parser.TokenIdScanner

/-!
# Aligning released text with token ids

A stream of ids stands for pieces: the special tokens, and the characters of all other tokens.
The scanner has to cut the released text at the special tokens.  Searching finds them as long as
no other part of the text can be mistaken for one.
-/

namespace Vllm.Parser

open Vllm.Library

/-- A piece of the output. -/
inductive Piece where
  | char (c : Char)
  | special (terminal : PreLexedTerminal)
deriving DecidableEq

namespace Piece

def text : Piece → Text
  | .char c => [c]
  | .special terminal => terminal.text

end Piece

/-- The text of some pieces. -/
def textOf (pieces : List Piece) : Text :=
  pieces.flatMap Piece.text

/-- The special tokens among some pieces. -/
def specialsOf (pieces : List Piece) : List PreLexedTerminal :=
  pieces.filterMap fun
    | .char _ => none
    | .special terminal => some terminal

/-- The special tokens among some pieces with the places where they stand. -/
def specialPlaces : Nat → List Piece → List (PreLexedTerminal × Nat)
  | _, [] => []
  | place, .char _ :: rest => specialPlaces (place + 1) rest
  | place, .special terminal :: rest =>
      (terminal, place) :: specialPlaces (place + terminal.text.length) rest

/-- The special tokens among some scanned items. -/
def terminalsOf (items : List LexerInput) : List PreLexedTerminal :=
  items.filterMap fun
    | .text _ => none
    | .terminal terminal => some terminal

section Pieces

variable {pieces first second : List Piece} {chars : Text} {terminal : PreLexedTerminal}

@[simp]
theorem textOf_nil : textOf [] = [] :=
  rfl

@[simp]
theorem textOf_append (first second : List Piece) :
    textOf (first ++ second) = textOf first ++ textOf second :=
  List.flatMap_append

@[simp]
theorem textOf_char (c : Char) (rest : List Piece) : textOf (.char c :: rest) = c :: textOf rest :=
  rfl

@[simp]
theorem textOf_special (terminal : PreLexedTerminal) (rest : List Piece) :
    textOf (.special terminal :: rest) = terminal.text ++ textOf rest :=
  rfl

@[simp]
theorem textOf_chars (chars : Text) : textOf (chars.map .char) = chars := by
  induction chars with
  | nil => rfl
  | cons c rest ih => rw [List.map_cons, textOf_char, ih]

@[simp]
theorem specialsOf_nil : specialsOf [] = [] :=
  rfl

@[simp]
theorem specialsOf_append (first second : List Piece) :
    specialsOf (first ++ second) = specialsOf first ++ specialsOf second :=
  List.filterMap_append

@[simp]
theorem specialsOf_char (c : Char) (rest : List Piece) :
    specialsOf (.char c :: rest) = specialsOf rest :=
  rfl

@[simp]
theorem specialsOf_special (terminal : PreLexedTerminal) (rest : List Piece) :
    specialsOf (.special terminal :: rest) = terminal :: specialsOf rest :=
  rfl

@[simp]
theorem specialsOf_chars (chars : Text) : specialsOf (chars.map .char) = [] := by
  induction chars with
  | nil => rfl
  | cons c rest ih => rw [List.map_cons, specialsOf_char, ih]

/-- Pieces without special tokens are characters. -/
theorem chars_of_specialsOf_nil (none : specialsOf pieces = []) :
    ∃ chars : Text, pieces = chars.map .char := by
  induction pieces with
  | nil => exact ⟨[], rfl⟩
  | cons piece rest ih =>
      cases piece with
      | char c =>
          rcases ih none with ⟨chars, rfl⟩
          exact ⟨c :: chars, rfl⟩
      | special terminal => cases none

/-- Pieces with a special token start with the characters before it. -/
theorem chars_of_specialsOf_cons {rest : List PreLexedTerminal}
    (some : specialsOf pieces = terminal :: rest) :
    ∃ (chars : Text) (after : List Piece), pieces = chars.map .char ++ .special terminal :: after ∧
      specialsOf after = rest := by
  induction pieces with
  | nil => cases some
  | cons piece tail ih =>
      cases piece with
      | char c =>
          rcases ih some with ⟨chars, after, rfl, same⟩
          exact ⟨c :: chars, after, rfl, same⟩
      | special found =>
          cases some
          exact ⟨[], tail, rfl, rfl⟩

theorem specialPlaces_append (place : Nat) (first second : List Piece) :
    specialPlaces place (first ++ second) =
      specialPlaces place first ++ specialPlaces (place + (textOf first).length) second := by
  induction first generalizing place with
  | nil => rfl
  | cons piece rest ih =>
      cases piece with
      | char c =>
          have shifted := ih (place + 1)
          rw [List.cons_append, specialPlaces, shifted, textOf_char, List.length_cons,
            specialPlaces, Nat.add_assoc, Nat.add_comm 1]
      | special terminal =>
          have shifted := ih (place + terminal.text.length)
          rw [List.cons_append, specialPlaces, shifted, textOf_special, List.length_append,
            specialPlaces, Nat.add_assoc]
          rfl

theorem specialPlaces_chars (place : Nat) (chars : Text) :
    specialPlaces place (chars.map .char) = [] := by
  induction chars generalizing place with
  | nil => rfl
  | cons c rest ih => exact ih (place + 1)

/-- The recorded places are where the tokens stand. -/
theorem mem_specialPlaces {place found : Nat} :
    (terminal, found) ∈ specialPlaces place pieces ↔
      ∃ before after, pieces = before ++ .special terminal :: after ∧
        found = place + (textOf before).length := by
  constructor
  · intro member
    induction pieces generalizing place with
    | nil => cases member
    | cons piece rest ih =>
        cases piece with
        | char c =>
            rcases ih member with ⟨before, after, rfl, rfl⟩
            refine ⟨.char c :: before, after, rfl, ?_⟩
            rw [textOf_char, List.length_cons, Nat.add_assoc, Nat.add_comm 1]
        | special other =>
            rcases List.mem_cons.mp member with same | later
            · cases same
              exact ⟨[], rest, rfl, rfl⟩
            · rcases ih later with ⟨before, after, rfl, rfl⟩
              refine ⟨.special other :: before, after, rfl, ?_⟩
              rw [textOf_special, List.length_append, Nat.add_assoc]
  · rintro ⟨before, after, rfl, rfl⟩
    rw [specialPlaces_append]
    exact List.mem_append_right _ List.mem_cons_self

end Pieces

section Items

@[simp]
theorem terminalsOf_nil : terminalsOf [] = [] :=
  rfl

@[simp]
theorem terminalsOf_append (first second : List LexerInput) :
    terminalsOf (first ++ second) = terminalsOf first ++ terminalsOf second :=
  List.filterMap_append

@[simp]
theorem terminalsOf_text (chunk : TextChunk) (rest : List LexerInput) :
    terminalsOf (.text chunk :: rest) = terminalsOf rest :=
  rfl

@[simp]
theorem terminalsOf_terminal (terminal : PreLexedTerminal) (rest : List LexerInput) :
    terminalsOf (.terminal terminal :: rest) = terminal :: terminalsOf rest :=
  rfl

namespace TokenIdScanner

@[simp]
theorem joinDecodedText_nil : joinDecodedText [] = [] :=
  rfl

@[simp]
theorem joinDecodedText_append (first second : List LexerInput) :
    joinDecodedText (first ++ second) = joinDecodedText first ++ joinDecodedText second :=
  List.flatMap_append

@[simp]
theorem joinDecodedText_text (chunk : TextChunk) (rest : List LexerInput) :
    joinDecodedText (.text chunk :: rest) = chunk.text ++ joinDecodedText rest :=
  rfl

@[simp]
theorem joinDecodedText_terminal (terminal : PreLexedTerminal) (rest : List LexerInput) :
    joinDecodedText (.terminal terminal :: rest) = terminal.text ++ joinDecodedText rest :=
  rfl

/-- The pieces that some ids stand for. -/
def piecesOf (scanner : TokenIdScanner) (tokenIds : List TokenId) : List Piece :=
  tokenIds.flatMap fun tokenId =>
    match scanner.tokenIdToTerminal.get? tokenId with
    | some terminal => [.special ⟨terminal, tokenId, scanner.decodeToken tokenId⟩]
    | none => (scanner.decodeToken tokenId).map .char

theorem piecesOf_append (scanner : TokenIdScanner) (first second : List TokenId) :
    scanner.piecesOf (first ++ second) = scanner.piecesOf first ++ scanner.piecesOf second :=
  List.flatMap_append

/-- Text and special tokens of the grouped ids are those of their pieces. -/
theorem groupTokens_pieces (scanner : TokenIdScanner) (texts : List Text)
    (tokenIds : List TokenId) :
    joinDecodedText (scanner.groupTokens texts tokenIds) =
        texts.flatten ++ textOf (scanner.piecesOf tokenIds) ∧
      terminalsOf (scanner.groupTokens texts tokenIds) =
        specialsOf (scanner.piecesOf tokenIds) := by
  have close : ∀ texts : List Text, joinDecodedText (closeGroup texts) = texts.flatten ∧
      terminalsOf (closeGroup texts) = [] := by
    intro texts
    unfold closeGroup
    split
    · simp
    · rename_i empty
      simp [not_not.mp empty]
  induction tokenIds generalizing texts with
  | nil => simpa [groupTokens, piecesOf] using close texts
  | cons tokenId rest ih =>
      cases known : scanner.tokenIdToTerminal.get? tokenId with
      | none =>
          have step := ih (texts ++ [scanner.decodeToken tokenId])
          simpa [groupTokens, piecesOf, known] using step
      | some terminal =>
          have step := ih []
          have closed := close texts
          simp [groupTokens, piecesOf, known, step, closed]

/-- The anchors are the special tokens of the results. -/
theorem tokenGroups_anchors (texts : List Text) (count : Nat) (results : List LexerInput) :
    (tokenGroups texts count results).1.map Prod.fst = terminalsOf results := by
  induction results generalizing texts count with
  | nil => rfl
  | cons item rest ih =>
      cases item with
      | text chunk => exact ih _ _
      | terminal anchor =>
          rw [terminalsOf_terminal, ← ih [] 0]
          rfl

end TokenIdScanner

end Items

/-! ## Deferred terminals -/

/-- Each special token is spelled, in the text that is available, only where it stands. -/
def Unmistakable (pieces : List Piece) (available : Text) : Prop :=
  ∀ entry ∈ specialPlaces 0 pieces, ∀ place, OccursAt entry.1.text available place →
    place = entry.2

/-- All special tokens can be seen. -/
def Visible (pieces : List Piece) : Prop :=
  ∀ terminal ∈ specialsOf pieces, terminal.text ≠ []

section Alignment

variable {pieces done rest further : List Piece} {available : Text}

theorem Visible.append_right (visible : Visible (done ++ rest)) : Visible rest := by
  intro terminal member
  apply visible
  rw [specialsOf_append]
  exact List.mem_append_right _ member

/-- Reported pieces can be left out. -/
theorem Unmistakable.drop (only : Unmistakable (done ++ rest) available)
    (reported : (textOf done).length ≤ available.length) :
    Unmistakable rest (available.drop (textOf done).length) := by
  rintro ⟨terminal, found⟩ member place occurs
  have shifted := occurs.append_left (available.take (textOf done).length)
  rw [List.take_append_drop, List.length_take_of_le reported] at shifted
  have listed : (terminal, (textOf done).length + found) ∈ specialPlaces 0 (done ++ rest) := by
    rcases mem_specialPlaces.mp member with ⟨before, after, rfl, rfl⟩
    refine mem_specialPlaces.mpr ⟨done ++ before, after, by rw [List.append_assoc], ?_⟩
    rw [textOf_append, List.length_append]
    omega
  exact Nat.add_left_cancel (only _ listed _ shifted)

/-- Available text is a prefix of what follows the reported pieces. -/
theorem drop_prefixed (inside : available <+: textOf (done ++ rest)) :
    available.drop (textOf done).length <+: textOf rest := by
  rcases inside with ⟨more, same⟩
  by_cases le : (textOf done).length ≤ available.length
  · have shorter := congrArg (List.drop (textOf done).length) same
    rw [List.drop_append_of_le_length le, textOf_append, List.drop_left] at shorter
    exact ⟨more, shorter⟩
  · rw [List.drop_eq_nil_of_le (Nat.le_of_not_le le)]
    exact List.nil_prefix

/-- The first special token stands behind the characters before it. -/
theorem Unmistakable.first {chars : Text} {terminal : PreLexedTerminal} {after : List Piece}
    (only : Unmistakable (chars.map .char ++ .special terminal :: after) available) {place : Nat}
    (occurs : OccursAt terminal.text available place) : place = chars.length := by
  apply only (terminal, chars.length) _ place occurs
  exact mem_specialPlaces.mpr ⟨chars.map .char, after, rfl, by rw [textOf_chars, Nat.zero_add]⟩

/-- A prefix that is long enough starts as the text does. -/
theorem take_of_prefixed {front back : Text} (inside : available <+: front ++ back)
    (long : front.length ≤ available.length) : available.take front.length = front := by
  have shorter := List.prefix_of_prefix_length_le (List.prefix_append front back) inside long
  exact (List.prefix_iff_eq_take.mp shorter).symm

namespace TokenIdScanner

/-- The items show the first of some pieces. -/
structure Shows (pieces : List Piece) (available : Text) (items : List LexerInput)
    (done rest : List Piece) : Prop where
  split : pieces = done ++ rest
  text : joinDecodedText items = textOf done
  terminals : terminalsOf items = specialsOf done
  within : (textOf done).length ≤ available.length

/-- How much of some pieces is reported, and what the scanner keeps for the rest. -/
structure Reports (pieces : List Piece) (available : Text) (items : List LexerInput)
    (deferred : List PreLexedTerminal) (post : Text) (done rest : List Piece) : Prop
    extends Shows pieces available items done rest where
  left : specialsOf rest = deferred
  waits : ∀ terminal ∈ deferred.head?, ∀ place, ¬ OccursAt terminal.text post place

variable {deferred : List (PreLexedTerminal × Nat)}

/-- Without text nothing is resolved. -/
theorem resolveLoop_nil (count : Nat) (post : Text)
    (visible : ∀ entry ∈ deferred, entry.1.text ≠ []) :
    resolveLoop count deferred [] post = ([], [], post, deferred) := by
  induction deferred with
  | nil => rfl
  | cons entry rest ih =>
      have none : find? entry.1.text ([] : Text) = none := by
        apply find?_eq_none.mpr
        intro place occurs
        have fits := occurs.length_le
        apply visible entry List.mem_cons_self
        apply List.eq_nil_of_length_eq_zero
        rw [List.length_nil] at fits
        omega
      have step := ih fun other member => visible other (List.mem_cons_of_mem _ member)
      simp [resolveLoop, none, step]

/-- What is resolved is reported; the rest waits for more text. -/
theorem resolveLoop_reports (count : Nat) (terminals : specialsOf pieces = deferred.map Prod.fst)
    (visible : Visible pieces) (inside : available <+: textOf (pieces ++ further))
    (only : Unmistakable (pieces ++ further) available) :
    ∃ items remaining post again done rest,
      resolveLoop count deferred available [] = (items, remaining, post, again) ∧
        Reports pieces available items (again.map Prod.fst) post done rest ∧
        ((again = [] ∧ remaining = available.drop (textOf done).length ∧ post = []) ∨
          (again ≠ [] ∧ remaining = [] ∧ post = available.drop (textOf done).length)) := by
  induction deferred generalizing pieces available with
  | nil =>
      refine ⟨[], available, [], [], [], pieces, rfl, ?_, .inl ⟨rfl, rfl, rfl⟩⟩
      exact ⟨⟨rfl, rfl, rfl, Nat.zero_le _⟩, terminals, fun _ impossible => nomatch impossible⟩
  | cons entry tail ih =>
      rcases entry with ⟨terminal, prefixCount⟩
      rcases chars_of_specialsOf_cons terminals with ⟨chars, after, rfl, later⟩
      cases found : find? terminal.text available with
      | some pos =>
          have occurs := (find?_eq_some found).1
          have place : pos = chars.length := by
            rw [List.append_assoc] at only
            exact only.first occurs
          subst place
          have fits := occurs.length_le
          let front := chars.map Piece.char ++ [.special terminal]
          have size : (textOf front).length = chars.length + terminal.text.length := by
            simp [front]
          have whole : chars.map Piece.char ++ .special terminal :: after = front ++ after := by
            simp [front]
          have longer : chars.map Piece.char ++ .special terminal :: after ++ further =
              front ++ (after ++ further) := by
            rw [whole]
            exact List.append_assoc front after further
          rw [whole] at visible
          rw [longer] at inside only
          have reported : (textOf front).length ≤ available.length := by omega
          rcases ih later visible.append_right (drop_prefixed inside) (only.drop reported) with
            ⟨items, remaining, post, again, done, rest, ran, reports, outcome⟩
          have before : available.take chars.length = chars := by
            have start := inside
            rw [textOf_append, textOf_append, textOf_chars, List.append_assoc] at start
            exact take_of_prefixed start occurs.1
          rw [size, ← List.drop_drop] at ran
          let items' := (if 0 < chars.length then
            [LexerInput.text ⟨available.take chars.length, [], prefixCount⟩] else []) ++
              .terminal terminal :: items
          have shown : joinDecodedText items' = chars ++ (terminal.text ++ textOf done) ∧
              terminalsOf items' = terminal :: specialsOf done := by
            simp only [items', before, ← reports.text, ← reports.terminals]
            split
            · simp
            · rename_i none
              simp [List.eq_nil_of_length_eq_zero (Nat.eq_zero_of_not_pos none)]
          have drops : available.drop (textOf (front ++ done)).length =
              (available.drop (textOf front).length).drop (textOf done).length := by
            rw [List.drop_drop, textOf_append, List.length_append]
          refine ⟨items', remaining, post, again, front ++ done, rest, ?_, ⟨⟨?_, ?_, ?_, ?_⟩,
            reports.left, reports.waits⟩, ?_⟩
          · simp [resolveLoop, found, List.drop_drop] at ran ⊢
            simp [ran, items']
          · rw [whole, reports.split]
            exact (List.append_assoc front done rest).symm
          · rw [shown.1]
            simp [front]
          · rw [shown.2]
            simp [front]
          · have within := reports.within
            rw [List.length_drop] at within
            rw [textOf_append, List.length_append]
            omega
          · rw [drops]
            exact outcome
      | none =>
          have visibleTail : ∀ entry ∈ tail, entry.1.text ≠ [] := by
            intro entry member
            apply visible
            rw [terminals]
            exact List.mem_map_of_mem (List.mem_cons_of_mem _ member)
          by_cases empty : available = []
          · subst empty
            refine ⟨[], [], [], (terminal, prefixCount) :: tail, [], _, ?_, ⟨⟨rfl, rfl, rfl,
              Nat.zero_le _⟩, terminals, ?_⟩, .inr ⟨List.cons_ne_nil _ _, rfl, rfl⟩⟩
            · simp [resolveLoop, found, resolveLoop_nil count [] visibleTail]
            · rintro _ ⟨⟩
              exact find?_eq_none.mp found
          · refine ⟨[], [], available, (terminal, prefixCount + count) :: tail, [], _, ?_,
              ⟨⟨rfl, rfl, rfl, Nat.zero_le _⟩, terminals, ?_⟩, .inr
                ⟨List.cons_ne_nil _ _, rfl, rfl⟩⟩
            · simp [resolveLoop, found, empty, resolveLoop_nil count available visibleTail]
            · rintro _ ⟨⟩
              exact find?_eq_none.mp found

/-! ## Anchors -/

/-- Where the special tokens stand that are available as a whole. -/
def ownPositions (available : Text) (place : Nat) (pieces : List Piece) : List (Option Nat) :=
  (specialPlaces place pieces).map fun entry =>
    if entry.2 + entry.1.text.length ≤ available.length then some entry.2 else none

/-- Searching from the right finds every anchor where it stands. -/
theorem anchorPositions_eq {before after : List Piece}
    {anchors : List (PreLexedTerminal × List Text × Nat)}
    (listed : anchors.map Prod.fst = specialsOf after)
    (inside : available <+: textOf (before ++ after))
    (only : Unmistakable (before ++ after) available) :
    (anchorPositions available anchors).1 =
        ownPositions available (textOf before).length after ∧
      min (textOf before).length available.length ≤ (anchorPositions available anchors).2 ∧
      (anchorPositions available anchors).2 ≤ available.length := by
  induction after generalizing before anchors with
  | nil =>
      rw [List.map_eq_nil_iff.mp listed]
      exact ⟨rfl, Nat.min_le_right _ _, Nat.le_refl _⟩
  | cons piece rest ih =>
      cases piece with
      | char c =>
          have whole : before ++ .char c :: rest = (before ++ [.char c]) ++ rest := by simp
          rw [whole] at inside only
          rcases ih listed inside only with ⟨positions, lower, upper⟩
          simp only [textOf_append, textOf_char, textOf_nil, List.length_append,
            List.length_singleton] at positions lower
          exact ⟨positions, by omega, upper⟩
      | special terminal =>
          cases anchors with
          | nil => cases listed
          | cons anchor anchors =>
              rcases anchor with ⟨anchor, group⟩
              rw [specialsOf_special, List.map_cons, List.cons.injEq] at listed
              rcases listed with ⟨rfl, listed⟩
              have whole : before ++ .special anchor :: rest =
                  (before ++ [.special anchor]) ++ rest := by simp
              have own : (anchor, (textOf before).length) ∈
                  specialPlaces 0 (before ++ .special anchor :: rest) :=
                mem_specialPlaces.mpr ⟨before, rest, rfl, (Nat.zero_add _).symm⟩
              have stands : OccursAt anchor.text (textOf (before ++ .special anchor :: rest))
                  (textOf before).length := by
                rw [textOf_append, textOf_special, ← List.append_assoc]
                exact .of_append ..
              have place := only _ own
              have reads := stands.in_prefixed inside
              rw [whole] at inside only
              rcases ih listed inside only with ⟨positions, lower, upper⟩
              simp only [textOf_append, textOf_special, textOf_nil, List.append_nil,
                List.length_append] at positions lower
              generalize ran : anchorPositions available anchors = outcome at *
              rcases outcome with ⟨found, searchEnd⟩
              simp only [anchorPositions, ran]
              cases search : rfind? anchor.text (available.take searchEnd) with
              | some pos =>
                  have occurs := rfind?_eq_some search
                  have fits := occurs.length_le
                  rw [List.length_take_of_le upper] at fits
                  have same := place pos (occurs.of_prefixed (List.take_prefix _ _))
                  subst same
                  have shown : (textOf before).length + anchor.text.length ≤ available.length :=
                    fits.trans upper
                  have early : (textOf before).length ≤ available.length :=
                    (Nat.le_add_right _ _).trans shown
                  refine ⟨?_, Nat.min_le_left _ _, early⟩
                  rw [ownPositions, specialPlaces, List.map_cons, if_pos shown]
                  exact congrArg _ positions
              | none =>
                  have hidden : ¬ (textOf before).length + anchor.text.length ≤
                      available.length := by
                    intro shown
                    have occurs := (reads shown).in_prefixed (List.take_prefix searchEnd available)
                      (by rw [List.length_take_of_le upper]; omega)
                    exact rfind?_eq_none.mp search _ occurs
                  refine ⟨?_, by simp only at lower ⊢; omega, upper⟩
                  rw [ownPositions, specialPlaces, List.map_cons, if_neg hidden]
                  exact congrArg _ positions

/-- No text ends inside a dropped token. -/
def Uncut (pieces : List Piece) (available : Text) : Prop :=
  ∀ entry ∈ specialPlaces 0 pieces, entry.1.terminal = dropTerminal →
    available.length ≤ entry.2 ∨ entry.2 + entry.1.text.length ≤ available.length

theorem Uncut.drop (uncut : Uncut (done ++ rest) available) :
    Uncut rest (available.drop (textOf done).length) := by
  rintro ⟨terminal, found⟩ member dropped
  have listed : (terminal, (textOf done).length + found) ∈ specialPlaces 0 (done ++ rest) := by
    rcases mem_specialPlaces.mp member with ⟨before, after, rfl, rfl⟩
    refine mem_specialPlaces.mpr ⟨done ++ before, after, by rw [List.append_assoc], ?_⟩
    rw [textOf_append, List.length_append]
    omega
  have whole := uncut _ listed dropped
  rw [List.length_drop]
  simp only at whole ⊢
  omega

theorem ownPositions_append (available : Text) (place : Nat) (first second : List Piece) :
    ownPositions available place (first ++ second) = ownPositions available place first ++
      ownPositions available (place + (textOf first).length) second := by
  rw [ownPositions, specialPlaces_append, List.map_append]
  rfl

/-- Behind the end of the text no token is available. -/
theorem ownPositions_hidden {place : Nat} (pieces : List Piece)
    (hidden : available.length < place) :
    ownPositions available place pieces = (specialsOf pieces).map fun _ => none := by
  induction pieces generalizing place with
  | nil => rfl
  | cons piece rest ih =>
      cases piece with
      | char c => exact ih (Nat.lt_succ_of_lt hidden)
      | special terminal =>
          have later := ih (Nat.lt_of_lt_of_le hidden (Nat.le_add_right _ terminal.text.length))
          rw [ownPositions, specialPlaces, List.map_cons, if_neg (by simp only; omega)]
          exact congrArg _ later

/-- Anchors that are not available are deferred; a token that is not dropped keeps the text
back. -/
theorem rebuildLoop_hidden (anchors : List (PreLexedTerminal × List Text × Nat))
    (consumed : Nat) (post : Text) :
    rebuildLoop available anchors (anchors.map fun _ => none) consumed post =
      if (∃ entry ∈ anchors, entry.1.terminal ≠ dropTerminal) ∧ consumed < available.length then
        ([], available.length, post ++ available.drop consumed,
          anchors.map fun entry => (entry.1, entry.2.2))
      else ([], consumed, post, anchors.map fun entry => (entry.1, entry.2.2)) := by
  induction anchors generalizing consumed post with
  | nil => simp [rebuildLoop]
  | cons entry rest ih =>
      have unfound : ((rest.map fun _ => none).any (@Option.isSome Nat)) = false := by simp
      rcases entry with ⟨anchor, texts, count⟩
      by_cases waits : consumed < available.length ∧ anchor.terminal ≠ dropTerminal
      · have step := ih available.length (post ++ available.drop consumed)
        rw [if_neg (by simp)] at step
        have keeps : (!(rest.map fun _ => none).any (@Option.isSome Nat)) = true ∧
            consumed < available.length ∧ anchor.terminal ≠ dropTerminal :=
          ⟨by rw [unfound]; rfl, waits⟩
        have shown : (∃ entry ∈ (anchor, texts, count) :: rest,
            entry.1.terminal ≠ dropTerminal) ∧ consumed < available.length :=
          ⟨⟨_, List.mem_cons_self, waits.2⟩, waits.1⟩
        rw [List.map_cons, rebuildLoop, Option.filter_none, if_pos shown]
        simp only [if_pos keeps, step, List.map_cons]
      · have step := ih consumed post
        have same : (∃ entry ∈ (anchor, texts, count) :: rest,
            entry.1.terminal ≠ dropTerminal) ∧ consumed < available.length ↔
            (∃ entry ∈ rest, entry.1.terminal ≠ dropTerminal) ∧ consumed < available.length := by
          constructor
          · rintro ⟨⟨entry, member, shown⟩, more⟩
            rcases List.mem_cons.mp member with rfl | member
            · exact absurd ⟨more, shown⟩ waits
            · exact ⟨⟨entry, member, shown⟩, more⟩
          · rintro ⟨⟨entry, member, shown⟩, more⟩
            exact ⟨⟨entry, List.mem_cons_of_mem _ member, shown⟩, more⟩
        have skips : ¬ ((!(rest.map fun _ => none).any (@Option.isSome Nat)) = true ∧
            consumed < available.length ∧ anchor.terminal ≠ dropTerminal) :=
          fun all => waits all.2
        rw [List.map_cons, rebuildLoop, Option.filter_none]
        simp only [same, if_neg skips, step, List.map_cons]
        split
        · rfl
        · rfl

/-- The text behind the last anchor. -/
def lastChunk (available : Text) (consumed : Nat) (texts : List Text) (count : Nat) :
    List LexerInput :=
  if consumed < available.length then [.text ⟨available.drop consumed, texts, count⟩] else []

theorem lastChunk_shows (available : Text) (consumed : Nat) (texts : List Text) (count : Nat) :
    joinDecodedText (lastChunk available consumed texts count) = available.drop consumed ∧
      terminalsOf (lastChunk available consumed texts count) = [] := by
  unfold lastChunk
  split
  · simp
  · rename_i behind
    simp [List.drop_eq_nil_of_le (Nat.le_of_not_lt behind)]

/-- Anchors that are all deferred. -/
theorem rebuildLoop_deferred {before after : List Piece}
    {anchor : PreLexedTerminal × List Text × Nat}
    {anchors : List (PreLexedTerminal × List Text × Nat)} {chars : Text} {tail : List Piece}
    (texts : List Text) (count : Nat) (shape : after = chars.map .char ++ .special anchor.1 :: tail)
    (listed : anchors.map Prod.fst = specialsOf tail)
    (inside : available <+: textOf (before ++ after)) (visible : Visible after)
    (only : Unmistakable (before ++ after) available) (uncut : Uncut (before ++ after) available)
    (reached : (textOf before).length ≤ available.length)
    (hidden : available.length < (textOf before).length + chars.length + anchor.1.text.length) :
    ∃ items consumed post again done rest,
      rebuildLoop available (anchor :: anchors) ((anchor :: anchors).map fun _ => none)
          (textOf before).length [] = (items, consumed, post, again) ∧
        Reports after (available.drop (textOf before).length)
          (items ++ lastChunk available consumed texts count) (again.map Prod.fst) post done
          rest ∧
        post = (available.drop (textOf before).length).drop (textOf done).length ∧
        (again = [] → post = []) := by
  have names : ((anchor :: anchors).map fun entry => (entry.1, entry.2.2)).map Prod.fst =
      specialsOf after := by
    rw [List.map_map, shape, specialsOf_append, specialsOf_chars, specialsOf_special, ← listed]
    rfl
  have own : (anchor.1, (textOf before).length + chars.length) ∈
      specialPlaces 0 (before ++ after) := by
    refine mem_specialPlaces.mpr ⟨before ++ chars.map .char, tail, ?_, ?_⟩
    · rw [shape, List.append_assoc]
    · rw [textOf_append, textOf_chars, List.length_append, Nat.zero_add]
  have absent : ∀ place, ¬ OccursAt anchor.1.text available place := by
    intro place occurs
    have fits := occurs.length_le
    rw [only _ own place occurs] at fits
    exact absurd hidden (Nat.not_lt.mpr fits)
  rw [rebuildLoop_hidden]
  split
  · rename_i keeps
    refine ⟨_, _, _, _, [], after, rfl, ⟨⟨rfl, ?_, ?_, Nat.zero_le _⟩, names.symm, ?_⟩, rfl,
      fun impossible => nomatch impossible⟩
    · rw [List.nil_append, (lastChunk_shows ..).1, List.drop_length]
      rfl
    · rw [List.nil_append, (lastChunk_shows ..).2]
      rfl
    · rintro _ ⟨⟩ place occurs
      have shifted := occurs.append_left (available.take (textOf before).length)
      rw [List.nil_append, List.take_append_drop] at shifted
      exact absent _ shifted
  · rename_i drops
    have early : available.length ≤ (textOf before).length + chars.length := by
      by_cases more : (textOf before).length < available.length
      · have dropped : anchor.1.terminal = dropTerminal := by
          by_contra shown
          exact drops ⟨⟨anchor, List.mem_cons_self, shown⟩, more⟩
        rcases uncut _ own dropped with outside | fits
        · exact outside
        · exact absurd hidden (Nat.not_lt.mpr fits)
      · omega
    have tailText := drop_prefixed inside
    rw [shape, textOf_append, textOf_chars] at tailText
    have short : available.drop (textOf before).length <+: chars := by
      apply List.prefix_of_prefix_length_le tailText (List.prefix_append _ _)
      rw [List.length_drop]
      omega
    rcases short with ⟨more, same⟩
    refine ⟨_, _, _, _, (available.drop (textOf before).length).map .char,
      more.map .char ++ .special anchor.1 :: tail, rfl, ⟨⟨?_, ?_, ?_, ?_⟩, ?_, ?_⟩, ?_,
      fun impossible => nomatch impossible⟩
    · rw [shape, ← same, List.map_append, List.append_assoc]
    · rw [List.nil_append, (lastChunk_shows ..).1, textOf_chars]
    · rw [List.nil_append, (lastChunk_shows ..).2, specialsOf_chars]
    · rw [textOf_chars]
    · rw [names, shape]
      simp
    · rintro _ ⟨⟩ place occurs
      have fits := occurs.length_le
      have spelled := visible anchor.1 (by rw [shape]; simp)
      apply spelled
      exact List.eq_nil_of_length_eq_zero (Nat.le_zero.mp ((Nat.le_add_left _ _).trans fits))
    · rw [textOf_chars, List.drop_length]

/-- Rebuilding reports the anchors that are available. -/
theorem rebuildLoop_reports {before after : List Piece}
    {anchors : List (PreLexedTerminal × List Text × Nat)} (texts : List Text) (count : Nat)
    (listed : anchors.map Prod.fst = specialsOf after)
    (inside : available <+: textOf (before ++ after)) (visible : Visible after)
    (only : Unmistakable (before ++ after) available) (uncut : Uncut (before ++ after) available)
    (reached : (textOf before).length ≤ available.length) :
    ∃ items consumed post again done rest,
      rebuildLoop available anchors (ownPositions available (textOf before).length after)
          (textOf before).length [] = (items, consumed, post, again) ∧
        Reports after (available.drop (textOf before).length)
          (items ++ lastChunk available consumed texts count) (again.map Prod.fst) post done
          rest ∧
        post = (available.drop (textOf before).length).drop (textOf done).length ∧
        (again = [] → post = []) := by
  induction anchors generalizing before after with
  | nil =>
      rcases chars_of_specialsOf_nil listed.symm with ⟨chars, rfl⟩
      have tailText := drop_prefixed inside
      rw [textOf_chars] at tailText
      rcases tailText with ⟨more, rfl⟩
      refine ⟨[], _, [], [], (available.drop (textOf before).length).map .char, more.map .char,
        rfl, ⟨⟨List.map_append, ?_, ?_, ?_⟩, ?_, fun _ impossible => nomatch impossible⟩, ?_,
        fun _ => rfl⟩
      · rw [List.nil_append, (lastChunk_shows ..).1, textOf_chars]
      · rw [List.nil_append, (lastChunk_shows ..).2, specialsOf_chars]
      · rw [textOf_chars]
      · rw [specialsOf_chars]
        rfl
      · rw [textOf_chars, List.drop_length]
  | cons anchor tail ih =>
      rcases chars_of_specialsOf_cons listed.symm with ⟨chars, rest, shape, later⟩
      by_cases shown : (textOf before).length + chars.length + anchor.1.text.length ≤
          available.length
      · let front := chars.map Piece.char ++ [.special anchor.1]
        have size : (textOf front).length = chars.length + anchor.1.text.length := by
          simp [front]
        have parts : after = front ++ rest := by
          rw [shape]
          simp [front]
        have whole : before ++ after = (before ++ front) ++ rest := by
          rw [parts]
          exact (List.append_assoc before front rest).symm
        have tailText := drop_prefixed inside
        rw [shape, textOf_append, textOf_chars] at tailText
        rw [whole] at inside only uncut
        rw [parts] at visible
        have sizes : (textOf (before ++ front)).length =
            (textOf before).length + chars.length + anchor.1.text.length := by
          rw [textOf_append, List.length_append, size, Nat.add_assoc]
        rcases ih later.symm inside visible.append_right only uncut (by omega) with
          ⟨items, consumed, post, again, done, rest', ran, reports, kept, clean⟩
        have between : (available.take ((textOf before).length + chars.length)).drop
            (textOf before).length = chars := by
          rw [List.drop_take, Nat.add_sub_cancel_left]
          apply take_of_prefixed tailText
          rw [List.length_drop]
          omega
        have drops : available.drop (textOf (before ++ front)).length =
            (available.drop (textOf before).length).drop (textOf front).length := by
          rw [List.drop_drop, textOf_append, List.length_append]
        rw [drops] at reports kept
        let items' := (if (textOf before).length + chars.length > (textOf before).length then
          [LexerInput.text ⟨(available.take ((textOf before).length + chars.length)).drop
            (textOf before).length, anchor.2.1, anchor.2.2⟩] else []) ++
            .terminal anchor.1 :: items
        have reads : ∀ last, joinDecodedText (items' ++ last) =
            chars ++ (anchor.1.text ++ joinDecodedText (items ++ last)) ∧
            terminalsOf (items' ++ last) = anchor.1 :: terminalsOf (items ++ last) := by
          intro last
          simp only [items', between]
          split
          · simp
          · rename_i none
            simp [List.eq_nil_of_length_eq_zero (show chars.length = 0 by omega)]
        refine ⟨items', consumed, post, again, front ++ done, rest', ?_, ⟨⟨?_, ?_, ?_, ?_⟩,
          reports.left, reports.waits⟩, ?_, clean⟩
        · rw [shape, ownPositions_append, textOf_chars, ownPositions, specialPlaces_chars,
            List.map_nil, List.nil_append, ownPositions, specialPlaces, List.map_cons,
            if_pos shown]
          rw [sizes] at ran
          simp only [ownPositions] at ran
          simp only [rebuildLoop, Option.filter_some, Nat.le_add_right, decide_true, if_true, ran]
          rfl
        · rw [parts, reports.split]
          exact (List.append_assoc front done rest').symm
        · rw [(reads _).1, reports.text]
          simp [front]
        · rw [(reads _).2, reports.terminals]
          simp [front]
        · have within := reports.within
          rw [List.length_drop, List.length_drop] at within
          rw [textOf_append, List.length_append, List.length_drop]
          omega
        · have joined : (textOf (front ++ done)).length =
              (textOf front).length + (textOf done).length := by
            rw [textOf_append front done, List.length_append]
          rw [joined, kept]
          exact List.drop_drop
      · have hidden := Nat.lt_of_not_le shown
        have positions : ownPositions available (textOf before).length after =
            (anchor :: tail).map fun _ => none := by
          have behind := ownPositions_hidden rest hidden
          rw [shape, ownPositions_append, textOf_chars, ownPositions, specialPlaces_chars,
            List.map_nil, List.nil_append, ownPositions, specialPlaces, List.map_cons,
            if_neg shown]
          rw [later] at behind
          rw [List.map_map] at behind
          exact congrArg _ behind
        rw [positions]
        exact rebuildLoop_deferred texts count shape later.symm inside visible only uncut reached
          hidden

end TokenIdScanner

end Alignment

end Vllm.Parser
