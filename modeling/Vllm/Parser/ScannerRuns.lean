import Vllm.Library.Transition
import Vllm.Parser.ScannerAlignment

/-!
# Runs of the scanner

The items of all calls together show the text that has been released and the special tokens
that have been generated, as long as no search can find a special token where there is none.
-/

namespace Vllm.Parser

open Vllm.Library

namespace TokenIdScanner

variable {scanner next : TokenIdScanner} {pieces done rest : List Piece} {available : Text}
  {items : List LexerInput}

/-- The scanner keeps what it needs for the pieces that are not reported. -/
structure Aligned (scanner : TokenIdScanner) (pieces : List Piece) (available : Text)
    (items : List LexerInput) (done rest : List Piece) : Prop
    extends Reports pieces available items (scanner.deferredTerminals.map Prod.fst)
      scanner.deferredPostText done rest where
  kept : scanner.deferredPostText = available.drop (textOf done).length
  quiet : scanner.deferredTerminals = [] → scanner.deferredPostText = []

namespace Aligned

/-- Items of a later call are added. -/
theorem trans {middle : List Piece} {earlier later : List LexerInput} {first : List Piece}
    (shows : Shows pieces available earlier first middle)
    (aligned : next.Aligned middle (available.drop (textOf first).length) later done rest) :
    next.Aligned pieces available (earlier ++ later) (first ++ done) rest := by
  have total : (textOf (first ++ done)).length = (textOf first).length + (textOf done).length := by
    rw [textOf_append, List.length_append]
  have within := aligned.within
  rw [List.length_drop] at within
  have reported := shows.within
  refine ⟨⟨⟨?_, ?_, ?_, ?_⟩, aligned.left, aligned.waits⟩, ?_, aligned.quiet⟩
  · rw [shows.split, aligned.split, List.append_assoc]
  · rw [joinDecodedText_append, shows.text, aligned.text, textOf_append]
  · rw [terminalsOf_append, shows.terminals, aligned.terminals, specialsOf_append]
  · omega
  · rw [aligned.kept, List.drop_drop, total]

/-- All text is reported once it has been released. -/
theorem rest_eq_nil (aligned : scanner.Aligned pieces (textOf pieces) items done rest) :
    scanner.deferredTerminals = [] ∧ rest = [] := by
  have text : scanner.deferredPostText = textOf rest := by
    rw [aligned.kept]
    conv => lhs; rw [aligned.split, textOf_append, List.drop_left]
  have none : scanner.deferredTerminals = [] := by
    cases deferred : scanner.deferredTerminals with
    | nil => rfl
    | cons entry tail =>
        have left := aligned.left
        have waits := aligned.waits
        rw [deferred, List.map_cons] at left waits
        rcases chars_of_specialsOf_cons left with ⟨chars, after, rfl, _⟩
        apply absurd _ (waits entry.1 rfl chars.length)
        rw [text, textOf_append, textOf_chars, textOf_special, ← List.append_assoc]
        exact .of_append chars entry.1.text (textOf after)
  have left := aligned.left
  rw [none] at left
  rcases chars_of_specialsOf_nil left with ⟨chars, rfl⟩
  rw [aligned.quiet none, textOf_chars] at text
  rw [← text]
  exact ⟨none, rfl⟩

end Aligned

/-! ## One call -/

/-- The scanner speaks about the same vocabulary. -/
def SameVocabulary (scanner next : TokenIdScanner) : Prop :=
  next.tokenIdToTerminal = scanner.tokenIdToTerminal ∧ next.tokenizer = scanner.tokenizer

theorem SameVocabulary.piecesOf (same : scanner.SameVocabulary next) (tokenIds : List TokenId) :
    next.piecesOf tokenIds = scanner.piecesOf tokenIds := by
  unfold TokenIdScanner.piecesOf TokenIdScanner.decodeToken
  rw [same.1, same.2]

variable {held : Text}

variable {new : List Piece}

/-- The text of some pieces, searched for where it follows held text, is found there. -/
theorem found_behind {pos : Nat} (special : specialsOf new ≠ [])
    (only : Unmistakable (held.map .char ++ new) available)
    (found : OccursAt (textOf new) available pos) : pos = held.length := by
  rcases List.exists_cons_of_ne_nil special with ⟨terminal, tail, listed⟩
  rcases chars_of_specialsOf_cons listed with ⟨chars, after, rfl, _⟩
  rw [textOf_append, textOf_chars, textOf_special, ← List.append_assoc] at found
  have whole : held.map Piece.char ++ (chars.map .char ++ .special terminal :: after) =
      (held ++ chars).map .char ++ .special terminal :: after := by
    rw [List.map_append, List.append_assoc]
  rw [whole] at only
  have place := only.first found.part
  rw [List.length_append] at place
  exact Nat.add_right_cancel place

/-- Held text is recovered in front of the ids of the call. -/
theorem recoverHoldbackText_aligned {results : List LexerInput}
    (fresh : scanner.deferredTerminals = []) (clean : scanner.deferredPostText = [])
    (shows : joinDecodedText results = textOf new ∧ terminalsOf results = specialsOf new)
    (special : specialsOf new ≠ []) (visible : Visible new)
    (inside : available <+: textOf (held.map .char ++ new))
    (clear : (held = [] ∧ available = textOf new) ∨
      Unmistakable (held.map .char ++ new) available ∧ Uncut (held.map .char ++ new) available) :
    ∃ items next done rest, scanner.recoverHoldbackText available results = (items, next) ∧
      scanner.SameVocabulary next ∧
      next.Aligned (held.map .char ++ new) available items done rest := by
  have items : results ≠ [] := by
    rintro rfl
    exact special shows.2.symm
  have spelled : textOf new ≠ [] := by
    rcases List.exists_cons_of_ne_nil special with ⟨terminal, tail, listed⟩
    have shown := visible terminal (by rw [listed]; exact List.mem_cons_self)
    rcases chars_of_specialsOf_cons listed with ⟨chars, after, rfl, _⟩
    simp [shown]
  unfold recoverHoldbackText
  rw [if_neg items]
  simp only [shows.1]
  rw [if_neg spelled]
  cases found : find? (textOf new) available with
  | some pos =>
      have occurs := (find?_eq_some found).1
      have place : pos = held.length := by
        rcases clear with ⟨rfl, rfl⟩ | ⟨only, _⟩
        · rw [find?_of_prefixed (List.prefix_refl _)] at found
          cases found
          rfl
        · exact found_behind special only occurs
      subst place
      have all : available = held ++ textOf new := by
        rw [textOf_append, textOf_chars] at inside
        apply inside.eq_of_length_le
        rw [List.length_append]
        exact occurs.length_le
      refine ⟨(if held.length > 0 then [.text ⟨available.take held.length, [], 0⟩] else []) ++
        results, scanner, held.map .char ++ new, [], ?_, ⟨rfl, rfl⟩, ⟨⟨⟨?_, ?_, ?_, ?_⟩, ?_, ?_⟩,
        ?_, fun _ => clean⟩⟩
      · simp only
        split
        · rfl
        · rfl
      · rw [List.append_nil]
      · rw [joinDecodedText_append, shows.1, textOf_append, textOf_chars, all]
        split
        · simp
        · rename_i none
          rw [List.eq_nil_of_length_eq_zero (Nat.eq_zero_of_not_pos none)]
          rfl
      · rw [terminalsOf_append, shows.2, specialsOf_append, specialsOf_chars]
        split
        · rfl
        · rfl
      · rw [all, textOf_append, textOf_chars]
      · rw [fresh]
        rfl
      · rw [fresh]
        rintro _ ⟨⟩
      · rw [clean, all, textOf_append, textOf_chars, List.drop_length]
  | none =>
      rcases clear with ⟨rfl, rfl⟩ | ⟨only, uncut⟩
      · rw [find?_of_prefixed (List.prefix_refl _)] at found
        cases found
      · have listed := tokenGroups_anchors [] 0 results
        rw [shows.2] at listed
        unfold rebuildFromAnchors
        generalize tokenGroups [] 0 results = groups at listed ⊢
        rcases groups with ⟨anchors, texts, count⟩
        dsimp only at listed ⊢
        have some : anchors ≠ [] := by
          rintro rfl
          exact special listed.symm
        have names : anchors.map Prod.fst = specialsOf (held.map .char ++ new) := by
          rw [listed, specialsOf_append, specialsOf_chars, List.nil_append]
        have visible' : Visible (held.map .char ++ new) := by
          intro terminal member
          rw [specialsOf_append, specialsOf_chars, List.nil_append] at member
          exact visible terminal member
        have positions := (@anchorPositions_eq available [] _ _ names inside only).1
        rcases @rebuildLoop_reports available [] _ _ texts count names inside visible' only uncut
          (Nat.zero_le _) with ⟨items, consumed, post, again, done, rest, ran, reports, kept, quiet⟩
        rw [← positions] at ran
        rw [if_neg some, clean, fresh]
        have split : rebuildLoop available anchors (anchorPositions available anchors).1 0 [] =
            (items, consumed, post, again) := ran
        rw [split]
        refine ⟨_, _, done, rest, rfl, ⟨rfl, rfl⟩, reports, kept, fun none => quiet none⟩

/-- Terminals that have been deferred are resolved first. -/
theorem resolveDeferred_aligned {further : List Piece} (deltaText : Text) (count : Nat)
    (terminals : specialsOf pieces = scanner.deferredTerminals.map Prod.fst)
    (visible : Visible pieces)
    (inside : scanner.deferredPostText ++ deltaText <+: textOf (pieces ++ further))
    (only : Unmistakable (pieces ++ further) (scanner.deferredPostText ++ deltaText)) :
    ∃ items effective trailing next done rest,
      scanner.resolveDeferred deltaText count = (items, effective, trailing, next) ∧
        scanner.SameVocabulary next ∧
        Reports pieces (scanner.deferredPostText ++ deltaText) items
          (next.deferredTerminals.map Prod.fst) next.deferredPostText done rest ∧
        ((next.deferredTerminals = [] ∧ next.deferredPostText = [] ∧
            effective = (scanner.deferredPostText ++ deltaText).drop (textOf done).length) ∨
          (next.deferredTerminals ≠ [] ∧ effective = [] ∧ next.deferredPostText =
            (scanner.deferredPostText ++ deltaText).drop (textOf done).length)) := by
  rcases resolveLoop_reports count terminals visible inside only with
    ⟨items, remaining, post, again, done, rest, ran, reports, outcome⟩
  unfold resolveDeferred
  rw [ran]
  simp only
  rcases outcome with ⟨rfl, remains, rfl⟩ | ⟨some, rfl, rfl⟩
  · rw [if_neg (fun some => some rfl)]
    exact ⟨items, remaining, _, _, done, rest, rfl, ⟨rfl, rfl⟩, reports, .inl ⟨rfl, rfl, remains⟩⟩
  · rw [if_pos some]
    exact ⟨items, [], 0, _, done, rest, rfl, ⟨rfl, rfl⟩, reports, .inr ⟨some, rfl, rfl⟩⟩

variable {tokenIds : List TokenId}

/-- Ids without special tokens stand for characters. -/
theorem specialsOf_piecesOf_eq_nil :
    specialsOf (scanner.piecesOf tokenIds) = [] ↔
      (tokenIds.any fun tokenId => (scanner.tokenIdToTerminal.get? tokenId).isSome) = false := by
  induction tokenIds with
  | nil => simp [piecesOf]
  | cons tokenId rest ih =>
      cases known : scanner.tokenIdToTerminal.get? tokenId with
      | none => simp [piecesOf, known] at ih ⊢; exact ih
      | some terminal => simp [piecesOf, known]

/-- Without text the special tokens of a call are deferred. -/
theorem scanEffectiveText_nil (scanner : TokenIdScanner) (trailing : Nat)
    (tokenIds : List TokenId) :
    ∃ next, scanner.scanEffectiveText [] trailing tokenIds = ([], next) ∧
      scanner.SameVocabulary next ∧ next.deferredPostText = scanner.deferredPostText ∧
      next.deferredTerminals.map Prod.fst =
        scanner.deferredTerminals.map Prod.fst ++ specialsOf (scanner.piecesOf tokenIds) := by
  unfold scanEffectiveText
  by_cases plain : specialsOf (scanner.piecesOf tokenIds) = []
  · rw [specialsOf_piecesOf_eq_nil.mp plain, plain, List.append_nil]
    exact ⟨scanner, rfl, ⟨rfl, rfl⟩, rfl, rfl⟩
  · rw [Bool.of_not_eq_false (mt specialsOf_piecesOf_eq_nil.mpr plain), Bool.not_true,
      if_neg Bool.false_ne_true, if_neg (fun some => some rfl)]
    refine ⟨_, rfl, ⟨rfl, rfl⟩, rfl, ?_⟩
    have grouped := (groupTokens_pieces scanner [] tokenIds).2
    have deferred : ∀ results, (scanner.deferAll results).deferredTerminals.map Prod.fst =
        scanner.deferredTerminals.map Prod.fst ++ terminalsOf results := by
      intro results
      rw [← tokenGroups_anchors [] 0 results]
      simp [deferAll, Function.comp_def]
    rw [deferred, ← grouped]
    split
    · rfl
    · rfl

/-- The ids of a call are cut out of the text that nothing waits for. -/
theorem scanEffectiveText_aligned (trailing : Nat) (fresh : scanner.deferredTerminals = [])
    (clean : scanner.deferredPostText = []) (visible : Visible (scanner.piecesOf tokenIds))
    (inside : available <+: textOf (held.map .char ++ scanner.piecesOf tokenIds))
    (clear : (held = [] ∧ available = textOf (scanner.piecesOf tokenIds)) ∨
      Unmistakable (held.map .char ++ scanner.piecesOf tokenIds) available ∧
        Uncut (held.map .char ++ scanner.piecesOf tokenIds) available) :
    ∃ items next done rest, scanner.scanEffectiveText available trailing tokenIds = (items, next) ∧
      scanner.SameVocabulary next ∧
      next.Aligned (held.map .char ++ scanner.piecesOf tokenIds) available items done rest := by
  by_cases empty : available = []
  · rcases scanEffectiveText_nil scanner trailing tokenIds with ⟨next, ran, same, post, names⟩
    rw [fresh, List.map_nil, List.nil_append] at names
    rw [clean] at post
    rw [empty]
    refine ⟨[], next, [], held.map .char ++ scanner.piecesOf tokenIds, ran, same,
      ⟨⟨rfl, rfl, rfl, Nat.zero_le _⟩, ?_, ?_⟩, post, fun _ => post⟩
    · rw [specialsOf_append, specialsOf_chars, List.nil_append, names]
    · rw [names, post]
      intro terminal member place
      exact OccursAt.not_nil (visible terminal (List.mem_of_mem_head? member))
  unfold scanEffectiveText
  by_cases plain : specialsOf (scanner.piecesOf tokenIds) = []
  · rcases chars_of_specialsOf_nil plain with ⟨rest, shape⟩
    rw [shape, ← List.map_append, textOf_chars] at inside
    rcases inside with ⟨more, same⟩
    rw [specialsOf_piecesOf_eq_nil.mp plain, Bool.not_false, if_pos rfl, if_pos empty, shape,
      ← List.map_append, ← same]
    refine ⟨_, scanner, available.map .char, more.map .char, rfl, ⟨rfl, rfl⟩,
      ⟨⟨List.map_append, ?_, ?_, ?_⟩, ?_, ?_⟩, ?_, fun _ => clean⟩
    · rw [textOf_chars]
      exact List.append_nil available
    · rw [specialsOf_chars]
      rfl
    · rw [textOf_chars]
    · rw [specialsOf_chars, fresh]
      rfl
    · rw [fresh]
      exact fun _ impossible => nomatch impossible
    · rw [clean, textOf_chars, List.drop_length]
  · have grouped := groupTokens_pieces scanner [] tokenIds
    rw [Bool.of_not_eq_false (mt specialsOf_piecesOf_eq_nil.mpr plain), Bool.not_true,
      if_neg Bool.false_ne_true, if_pos empty]
    apply recoverHoldbackText_aligned fresh clean _ plain visible inside clear
    split
    · exact grouped
    · exact grouped

/-- A call keeps the items aligned with the ids. -/
theorem scan_aligned {deltaText : Text} (aligned : scanner.Aligned pieces available items done rest)
    (visible : Visible (pieces ++ scanner.piecesOf tokenIds))
    (inside : available ++ deltaText <+: textOf (pieces ++ scanner.piecesOf tokenIds))
    (clear : (available = textOf pieces ∧ deltaText = textOf (scanner.piecesOf tokenIds)) ∨
      Unmistakable (rest ++ scanner.piecesOf tokenIds)
          ((available ++ deltaText).drop (textOf done).length) ∧
        Uncut (rest ++ scanner.piecesOf tokenIds)
          ((available ++ deltaText).drop (textOf done).length)) :
    ∃ more next done' rest', scanner.scan deltaText tokenIds = (more, next) ∧
      scanner.SameVocabulary next ∧ next.Aligned (pieces ++ scanner.piecesOf tokenIds)
        (available ++ deltaText) (items ++ more) done' rest' := by
  let new := scanner.piecesOf tokenIds
  have fits := aligned.within
  have unreported : (available ++ deltaText).drop (textOf done).length =
      scanner.deferredPostText ++ deltaText := by
    rw [List.drop_append_of_le_length fits, aligned.kept]
  have shows : Shows (pieces ++ new) (available ++ deltaText) items done (rest ++ new) := by
    refine ⟨?_, aligned.text, aligned.terminals, ?_⟩
    · rw [aligned.split, List.append_assoc]
    · rw [List.length_append]
      exact fits.trans (Nat.le_add_right _ _)
  rw [shows.split] at visible inside
  have insideRest := drop_prefixed inside
  have visibleRest := visible.append_right
  rw [unreported] at insideRest
  have reduce : (∃ more next done' rest', scanner.scan deltaText tokenIds = (more, next) ∧
      scanner.SameVocabulary next ∧ next.Aligned (rest ++ new)
        (scanner.deferredPostText ++ deltaText) more done' rest') →
      ∃ more next done' rest', scanner.scan deltaText tokenIds = (more, next) ∧
        scanner.SameVocabulary next ∧ next.Aligned (pieces ++ new) (available ++ deltaText)
          (items ++ more) done' rest' := by
    rintro ⟨more, next, done', rest', ran, same, further⟩
    rw [← unreported] at further
    exact ⟨more, next, done ++ done', rest', ran, same, further.trans shows⟩
  apply reduce
  unfold scan
  by_cases fresh : scanner.deferredTerminals = []
  · have clean := aligned.quiet fresh
    have plain := aligned.left
    rw [fresh] at plain
    rcases chars_of_specialsOf_nil plain with ⟨held, rfl⟩
    rw [clean, List.nil_append] at insideRest unreported ⊢
    have clear' : (held = [] ∧ deltaText = textOf new) ∨
        Unmistakable (held.map .char ++ new) deltaText ∧
          Uncut (held.map .char ++ new) deltaText := by
      rcases clear with ⟨rfl, same⟩ | ⟨only, uncut⟩
      · exact .inl ⟨List.map_eq_nil_iff.mp aligned.rest_eq_nil.2, same⟩
      · rw [unreported] at only uncut
        exact .inr ⟨only, uncut⟩
    rcases scanEffectiveText_aligned 0 fresh clean visibleRest.append_right insideRest clear' with
      ⟨more, next, done', rest', ran, same, further⟩
    rw [if_neg (fun some => some fresh)]
    simp only [ran]
    exact ⟨more, next, done', rest', rfl, same, further⟩
  · rcases clear with ⟨rfl, _⟩ | ⟨only, uncut⟩
    · exact absurd aligned.rest_eq_nil.1 fresh
    rw [unreported] at only uncut
    have visibleOld : Visible rest := by
      intro terminal member
      apply visibleRest
      rw [specialsOf_append]
      exact List.mem_append_left _ member
    rcases resolveDeferred_aligned deltaText tokenIds.length aligned.left visibleOld insideRest
      only with ⟨resolved, effective, trailing, middle, done', rest', ran, same, reports, outcome⟩
    have pieces' := same.piecesOf tokenIds
    have whole : rest ++ new = done' ++ (rest' ++ new) := by
      rw [reports.split]
      exact List.append_assoc done' rest' new
    have shows' : Shows (rest ++ new) (scanner.deferredPostText ++ deltaText) resolved done'
        (rest' ++ new) := ⟨whole, reports.text, reports.terminals, reports.within⟩
    rw [if_pos fresh, ran]
    simp only
    rcases outcome with ⟨none, clean, rfl⟩ | ⟨some, rfl, kept⟩
    · have plain := reports.left
      rw [none] at plain
      rcases chars_of_specialsOf_nil plain with ⟨held, rfl⟩
      have left : new = middle.piecesOf tokenIds := pieces'.symm
      rw [whole] at visibleRest
      change _ <+: textOf (rest ++ new) at insideRest
      change Unmistakable (rest ++ new) _ at only
      change Uncut (rest ++ new) _ at uncut
      rw [whole] at insideRest only uncut
      rw [left] at insideRest only uncut visibleRest shows' ⊢
      rcases scanEffectiveText_aligned trailing none clean visibleRest.append_right.append_right
        (drop_prefixed insideRest) (.inr ⟨only.drop reports.within, uncut.drop⟩) with
        ⟨more, next, done'', rest'', scanned, same', further⟩
      rw [scanned]
      exact ⟨resolved ++ more, next, done' ++ done'', rest'', rfl,
        ⟨same'.1.trans same.1, same'.2.trans same.2⟩, further.trans shows'⟩
    · rcases scanEffectiveText_nil middle trailing tokenIds with
        ⟨next, scanned, same', post, names⟩
      rw [pieces'] at names
      rw [scanned]
      refine ⟨resolved ++ [], next, done', rest' ++ new, rfl,
        ⟨same'.1.trans same.1, same'.2.trans same.2⟩, ⟨?_, ?_, ?_⟩, ?_, ?_⟩
      · rw [List.append_nil]
        exact shows'
      · rw [names, ← reports.left, specialsOf_append]
      · rw [names, post]
        intro terminal member
        apply reports.waits terminal
        rw [List.head?_append_of_ne_nil _ (by simpa using some)] at member
        exact member
      · rw [post, kept]
      · intro none
        rw [none, List.map_nil] at names
        exact absurd (List.map_eq_nil_iff.mp (List.append_eq_nil_iff.mp names.symm).1) some

/-! ## Ids, text and pieces -/

theorem textOf_piecesOf (scanner : TokenIdScanner) (tokenIds : List TokenId) :
    textOf (scanner.piecesOf tokenIds) = tokenIds.flatMap scanner.decodeToken := by
  induction tokenIds with
  | nil => rfl
  | cons tokenId rest ih =>
      rw [show tokenId :: rest = [tokenId] ++ rest from rfl, piecesOf_append, textOf_append, ih,
        List.flatMap_append]
      cases known : scanner.tokenIdToTerminal.get? tokenId with
      | none => simp [piecesOf, known]
      | some terminal => simp [piecesOf, known]

theorem specialsOf_piecesOf_ids (scanner : TokenIdScanner) (tokenIds : List TokenId) :
    (specialsOf (scanner.piecesOf tokenIds)).map PreLexedTerminal.tokenId =
      tokenIds.filter fun tokenId => (scanner.tokenIdToTerminal.get? tokenId).isSome := by
  induction tokenIds with
  | nil => rfl
  | cons tokenId rest ih =>
      rw [show tokenId :: rest = [tokenId] ++ rest from rfl, piecesOf_append, specialsOf_append,
        List.map_append, ih, List.filter_append]
      cases known : scanner.tokenIdToTerminal.get? tokenId with
      | none => simp [piecesOf, known]
      | some terminal => simp [piecesOf, known]

theorem visible_piecesOf (scanner : TokenIdScanner) (tokenIds : List TokenId)
    (spelled : ∀ tokenId terminal, scanner.tokenIdToTerminal.get? tokenId = some terminal →
      scanner.decodeToken tokenId ≠ []) : Visible (scanner.piecesOf tokenIds) := by
  intro terminal member
  rcases List.mem_filterMap.mp member with ⟨piece, inside, shown⟩
  rcases List.mem_flatMap.mp inside with ⟨tokenId, _, listed⟩
  cases known : scanner.tokenIdToTerminal.get? tokenId with
  | none =>
      rw [known] at listed
      rcases List.mem_map.mp listed with ⟨c, _, rfl⟩
      cases shown
  | some name =>
      rw [known] at listed
      cases List.mem_singleton.mp listed
      cases shown
      exact spelled tokenId name known

end TokenIdScanner

/-! ## Runs -/

/-- A scanner with the ids and the text of all calls and the items that they returned. -/
structure Scanning where
  scanner : TokenIdScanner
  tokenIds : List TokenId := []
  released : Text := []
  items : List LexerInput := []

namespace Scanning

/-- A new scanner. -/
def new (tokenIdToTerminal : Dict TokenId String) (decode : TokenId → Text) : Scanning :=
  { scanner := { tokenIdToTerminal, tokenizer := some decode } }

def scan (state : Scanning) (deltaText : Text) (deltaTokenIds : List TokenId) : Scanning :=
  let (items, scanner) := state.scanner.scan deltaText deltaTokenIds
  { scanner
    tokenIds := state.tokenIds ++ deltaTokenIds
    released := state.released ++ deltaText
    items := state.items ++ items }

/-- The items of all calls, those of a final flush included. -/
def flushed (state : Scanning) : List LexerInput :=
  state.items ++ state.scanner.flushPending.1

/-- What the ids of all calls decode to. -/
def decoded (state : Scanning) : Text :=
  state.tokenIds.flatMap state.scanner.decodeToken

def pieces (state : Scanning) : List Piece :=
  state.scanner.piecesOf state.tokenIds

/-- The detokenizer releases decoded text, and it may hold text back. -/
def Lags (state : Scanning) (deltaText : Text) (deltaTokenIds : List TokenId) : Prop :=
  state.released ++ deltaText <+:
    (state.tokenIds ++ deltaTokenIds).flatMap state.scanner.decodeToken

/-- No text is owed, and the text of the call is that of its ids. -/
def InStep (state : Scanning) (deltaText : Text) (deltaTokenIds : List TokenId) : Prop :=
  state.released = state.decoded ∧ deltaText = deltaTokenIds.flatMap state.scanner.decodeToken

/-- The text that is not reported spells every special token of its part only where it stands,
and the text released so far does not end inside a dropped token. -/
def Distinct (state : Scanning) (deltaText : Text) (deltaTokenIds : List TokenId) : Prop :=
  let reported := (TokenIdScanner.joinDecodedText state.items).length
  let available := state.released ++ deltaText
  let places := specialPlaces 0 (state.scanner.piecesOf (state.tokenIds ++ deltaTokenIds))
  (∀ entry ∈ places, reported ≤ entry.2 → ∀ place, place ≤ available.length →
      reported ≤ place → OccursAt entry.1.text available place → place = entry.2) ∧
    ∀ entry ∈ places, entry.1.terminal = dropTerminal →
      available.length ≤ entry.2 ∨ entry.2 + entry.1.text.length ≤ available.length

/-- The searches of a call find what they look for. -/
def Recoverable (state : Scanning) (deltaText : Text) (deltaTokenIds : List TokenId) : Prop :=
  state.InStep deltaText deltaTokenIds ∨ state.Distinct deltaText deltaTokenIds

section Decidable

variable (state : Scanning) (deltaText : Text) (deltaTokenIds : List TokenId)

instance : Decidable (state.Lags deltaText deltaTokenIds) :=
  inferInstanceAs (Decidable (_ <+: _))

instance : Decidable (state.InStep deltaText deltaTokenIds) :=
  inferInstanceAs (Decidable (_ ∧ _))

instance : Decidable (state.Distinct deltaText deltaTokenIds) :=
  inferInstanceAs (Decidable (_ ∧ _))

instance : Decidable (state.Recoverable deltaText deltaTokenIds) :=
  inferInstanceAs (Decidable (_ ∨ _))

end Decidable

/-- All sequences of calls that meet a condition, with a detokenizer that may hold text back. -/
def system (tokenIdToTerminal : Dict TokenId String) (decode : TokenId → Text)
    (condition : Scanning → Text → List TokenId → Prop) : System Scanning where
  start state := state = new tokenIdToTerminal decode
  step state next := ∃ deltaText deltaTokenIds, state.Lags deltaText deltaTokenIds ∧
    condition state deltaText deltaTokenIds ∧ next = state.scan deltaText deltaTokenIds

variable {deltaTokenIds : List TokenId}

variable {deltaText : Text}

/-- Clear text is clear behind the reported pieces. -/
theorem Distinct.clear {state : Scanning} {done rest : List Piece}
    (distinct : state.Distinct deltaText deltaTokenIds)
    (aligned : state.scanner.Aligned state.pieces state.released state.items done rest) :
    Unmistakable (rest ++ state.scanner.piecesOf deltaTokenIds)
        ((state.released ++ deltaText).drop (textOf done).length) ∧
      TokenIdScanner.Uncut (rest ++ state.scanner.piecesOf deltaTokenIds)
        ((state.released ++ deltaText).drop (textOf done).length) := by
  have whole : state.scanner.piecesOf (state.tokenIds ++ deltaTokenIds) =
      done ++ (rest ++ state.scanner.piecesOf deltaTokenIds) := by
    rw [TokenIdScanner.piecesOf_append, ← List.append_assoc, ← aligned.split]
    rfl
  rcases distinct with ⟨only, uncut⟩
  rw [whole, aligned.text] at only
  rw [whole] at uncut
  constructor
  · rintro ⟨terminal, found⟩ member place occurs
    have listed : (terminal, (textOf done).length + found) ∈
        specialPlaces 0 (done ++ (rest ++ state.scanner.piecesOf deltaTokenIds)) := by
      rw [specialPlaces_append]
      rcases mem_specialPlaces.mp member with ⟨before, after, shape, rfl⟩
      apply List.mem_append_right
      exact mem_specialPlaces.mpr ⟨before, after, shape, by omega⟩
    have within := aligned.within
    have reported : (textOf done).length ≤ (state.released ++ deltaText).length := by
      rw [List.length_append]
      exact within.trans (Nat.le_add_right _ _)
    have shifted := occurs.append_left ((state.released ++ deltaText).take (textOf done).length)
    rw [List.take_append_drop, List.length_take_of_le reported] at shifted
    exact Nat.add_left_cancel (only _ listed (Nat.le_add_right _ _) _ shifted.1
      (Nat.le_add_right _ _) shifted)
  · exact TokenIdScanner.Uncut.drop uncut

variable {tokenIdToTerminal : Dict TokenId String} {decode : TokenId → Text} {state : Scanning}

/-- The items describe a part of the ids, and the scanner keeps the rest. -/
structure Tracks (tokenIdToTerminal : Dict TokenId String) (decode : TokenId → Text)
    (state : Scanning) : Prop where
  vocabulary : state.scanner.tokenIdToTerminal = tokenIdToTerminal
  tokenizer : state.scanner.tokenizer = some decode
  aligned : ∃ done rest, state.scanner.Aligned state.pieces state.released state.items done rest

theorem Tracks.spelled (tracks : Tracks tokenIdToTerminal decode state)
    (visible : ∀ tokenId terminal, tokenIdToTerminal.get? tokenId = some terminal →
      decode tokenId ≠ []) (tokenIds : List TokenId) :
    Visible (state.scanner.piecesOf tokenIds) := by
  apply TokenIdScanner.visible_piecesOf
  intro tokenId terminal known
  unfold TokenIdScanner.decodeToken
  rw [tracks.tokenizer]
  rw [tracks.vocabulary] at known
  exact visible tokenId terminal known

theorem tracks_new : Tracks tokenIdToTerminal decode (new tokenIdToTerminal decode) := by
  refine ⟨rfl, rfl, [], [], ⟨⟨rfl, rfl, rfl, Nat.zero_le _⟩, rfl, ?_⟩, rfl, fun _ => rfl⟩
  exact fun _ impossible => nomatch impossible

theorem tracks_scan (visible : ∀ tokenId terminal, tokenIdToTerminal.get? tokenId = some terminal →
      decode tokenId ≠ []) (tracks : Tracks tokenIdToTerminal decode state)
    (lags : state.Lags deltaText deltaTokenIds)
    (recoverable : state.Recoverable deltaText deltaTokenIds) :
    Tracks tokenIdToTerminal decode (state.scan deltaText deltaTokenIds) := by
  rcases tracks.aligned with ⟨done, rest, aligned⟩
  have shown := tracks.spelled visible (state.tokenIds ++ deltaTokenIds)
  rw [TokenIdScanner.piecesOf_append] at shown
  unfold Lags at lags
  rw [← TokenIdScanner.textOf_piecesOf, TokenIdScanner.piecesOf_append] at lags
  have clear : (state.released = textOf state.pieces ∧
        deltaText = textOf (state.scanner.piecesOf deltaTokenIds)) ∨
      Unmistakable (rest ++ state.scanner.piecesOf deltaTokenIds)
          ((state.released ++ deltaText).drop (textOf done).length) ∧
        TokenIdScanner.Uncut (rest ++ state.scanner.piecesOf deltaTokenIds)
          ((state.released ++ deltaText).drop (textOf done).length) := by
    rcases recoverable with inStep | distinct
    · left
      unfold pieces
      rw [TokenIdScanner.textOf_piecesOf, TokenIdScanner.textOf_piecesOf]
      exact inStep
    · exact .inr (distinct.clear aligned)
  rcases TokenIdScanner.scan_aligned aligned shown lags clear with
    ⟨more, next, done', rest', ran, same, further⟩
  unfold scan
  rw [ran]
  refine ⟨same.1.trans tracks.vocabulary, same.2.trans tracks.tokenizer, done', rest', ?_⟩
  have pieces' : next.piecesOf (state.tokenIds ++ deltaTokenIds) =
      state.pieces ++ state.scanner.piecesOf deltaTokenIds := by
    rw [same.piecesOf, TokenIdScanner.piecesOf_append]
    rfl
  unfold pieces
  rw [pieces']
  exact further

/-- Scanner conservation: as long as no search can go wrong, the items show all of the text once
it has been released, and each special token once, in the order of the ids. -/
theorem reachable_conservesText {tokenIdToTerminal : Dict TokenId String} {decode : TokenId → Text}
    (visible : ∀ tokenId terminal, tokenIdToTerminal.get? tokenId = some terminal →
      decode tokenId ≠ []) {state : Scanning}
    (reached : Reachable (system tokenIdToTerminal decode Recoverable) state)
    (complete : state.released = state.decoded) :
    TokenIdScanner.joinDecodedText state.flushed = state.released ∧
      (terminalsOf state.flushed).map PreLexedTerminal.tokenId =
        state.tokenIds.filter fun tokenId => (tokenIdToTerminal.get? tokenId).isSome := by
  have tracks : Tracks tokenIdToTerminal decode state := by
    apply reached.invariant
    · rintro _ rfl
      exact tracks_new
    · rintro state _ tracks ⟨deltaText, deltaTokenIds, lags, recoverable, rfl⟩
      exact tracks_scan visible tracks lags recoverable
  rcases tracks.aligned with ⟨done, rest, aligned⟩
  have all : state.released = textOf state.pieces := by
    unfold pieces
    rw [TokenIdScanner.textOf_piecesOf]
    exact complete
  rw [all] at aligned
  rcases aligned.rest_eq_nil with ⟨none, rfl⟩
  have flush : state.flushed = state.items := by
    unfold flushed TokenIdScanner.flushPending
    rw [if_pos ⟨none, aligned.quiet none⟩]
    exact List.append_nil _
  have split := aligned.split
  rw [List.append_nil] at split
  rw [flush, aligned.text, aligned.terminals, all, ← split]
  refine ⟨rfl, ?_⟩
  unfold pieces
  rw [TokenIdScanner.specialsOf_piecesOf_ids, tracks.vocabulary]

/-- Replay calls that meet a condition. -/
def replayCalls (condition : Scanning → Text → List TokenId → Prop)
    [∀ state deltaText deltaTokenIds, Decidable (condition state deltaText deltaTokenIds)]
    (tokenIdToTerminal : Dict TokenId String) (decode : TokenId → Text)
    (calls : List (Text × List TokenId)) : Option Scanning :=
  replay (fun state (deltaText, deltaTokenIds) =>
    if state.Lags deltaText deltaTokenIds ∧ condition state deltaText deltaTokenIds then
      some (state.scan deltaText deltaTokenIds)
    else none) calls (new tokenIdToTerminal decode)

theorem replayCalls_reachable {condition : Scanning → Text → List TokenId → Prop}
    [∀ state deltaText deltaTokenIds, Decidable (condition state deltaText deltaTokenIds)]
    {calls : List (Text × List TokenId)}
    (replayed : replayCalls condition tokenIdToTerminal decode calls = some state) :
    Reachable (system tokenIdToTerminal decode condition) state := by
  apply Reachable.replay _ (.start rfl) replayed
  rintro state ⟨deltaText, deltaTokenIds⟩ next executed
  dsimp only at executed
  split at executed
  · rename_i allowed
    cases executed
    exact ⟨deltaText, deltaTokenIds, allowed.1, allowed.2, rfl⟩
  · cases executed

/-- One special token. -/
def oneTerminal : Dict TokenId String :=
  ⟨[(0, "THINK_START")], by decide⟩

/-- The special token, and two tokens that together look like it. -/
def decodeOne : TokenId → Text
  | 0 => ['<', 't', '>']
  | 1 => ['<', 't']
  | 2 => ['>']
  | _ => ['a', 'b', '<']

theorem decodeOne_visible (tokenId : TokenId) (terminal : String)
    (known : oneTerminal.get? tokenId = some terminal) : decodeOne tokenId ≠ [] := by
  match tokenId with
  | 0 => decide
  | 1 => decide
  | 2 => decide
  | _ + 3 => simp [decodeOne]

/-- A special token whose text arrives in two parts behind its id. -/
theorem reachable_conservesText_heldBack :
    ∃ state : Scanning, Reachable (system oneTerminal decodeOne Recoverable) state ∧
      state.released = ['a', 'b', '<', '<', 't', '>', 'a', 'b', '<'] ∧
      state.tokenIds = [3, 0, 3] ∧
      TokenIdScanner.joinDecodedText state.flushed = state.released ∧
      (terminalsOf state.flushed).map PreLexedTerminal.tokenId =
        state.tokenIds.filter fun tokenId => (oneTerminal.get? tokenId).isSome := by
  let calls : List (Text × List TokenId) :=
    [(['a'], [3]), (['b', '<', '<', 't'], [0]), ([], [3]), (['>', 'a', 'b', '<'], [])]
  have computed : (replayCalls Recoverable oneTerminal decodeOne calls).map (fun state =>
      decide (state.released = ['a', 'b', '<', '<', 't', '>', 'a', 'b', '<'] ∧
        state.tokenIds = [3, 0, 3] ∧ state.released = state.decoded)) = some true := by
    decide +kernel
  rcases Option.map_eq_some_iff.mp computed with ⟨state, replayed, holds⟩
  rcases of_decide_eq_true holds with ⟨released, tokenIds, complete⟩
  have reached := replayCalls_reachable replayed
  exact ⟨state, reached, released, tokenIds,
    reachable_conservesText decodeOne_visible reached complete⟩

/-- Plain tokens that look like the special token are held back together with it: the search
finds them first, and the text behind them is lost. -/
theorem conservesText_fails_lookalike :
    ∃ state : Scanning, Reachable (system oneTerminal decodeOne fun _ _ _ => True) state ∧
        state.released = state.decoded ∧
        state.released = ['<', 't', '>', 'a', 'b', '<', '<', 't', '>'] ∧
        TokenIdScanner.joinDecodedText state.flushed = ['<', 't', '>'] := by
  let calls : List (Text × List TokenId) :=
    [([], [1, 2, 3]), (['<', 't', '>', 'a', 'b', '<', '<', 't', '>'], [0])]
  have computed : (replayCalls (fun _ _ _ => True) oneTerminal decodeOne calls).map (fun state =>
      decide (state.released = state.decoded ∧
        state.released = ['<', 't', '>', 'a', 'b', '<', '<', 't', '>'] ∧
        TokenIdScanner.joinDecodedText state.flushed = ['<', 't', '>'])) = some true := by
    decide +kernel
  rcases Option.map_eq_some_iff.mp computed with ⟨state, replayed, holds⟩
  exact ⟨state, replayCalls_reachable replayed, of_decide_eq_true holds⟩

end Scanning

end Vllm.Parser
