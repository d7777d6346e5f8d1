import IdentityProvider.Proofs.Toml.Place
import IdentityProvider.Proofs.Toml.Tokens

/-
  What the readers take the parts of a document for.

  `Takes` follows the readers through a text and keeps what they take each part for: a blank or the
  end of a line, a comment, a string, or a token, which is a key path, a value without quotes or a
  sign between these.  Whatever is read is taken apart in this way, and whatever can be taken apart
  is read (`exists_takes_iff`).
-/

namespace IdentityProvider.Toml

open Text (isBlank)

/-! ## Parts of a text -/

/-- A part of a document, by what a reader takes it for. -/
inductive Piece
  /-- A blank or a character of a line end, outside of the other parts. -/
  | blank (c : Char)
  /-- A number sign and what its line says behind it. -/
  | comment (words : List Char)
  /-- A string with its quotes. -/
  | string (written : List Char)
  /-- A key path with the blanks behind it, a value without quotes, or a sign. -/
  | token (written : List Char)
  deriving DecidableEq, Repr

/-- The characters of a piece. -/
def Piece.text : Piece → List Char
  | .blank c => [c]
  | .comment words => '#' :: words
  | .string written => written
  | .token written => written

/-- The characters of pieces. -/
def written (pieces : List Piece) : List Char := pieces.flatMap Piece.text

@[simp] theorem written_nil : written [] = [] := rfl

@[simp] theorem written_cons (p : Piece) (pieces : List Piece) :
    written (p :: pieces) = p.text ++ written pieces := List.flatMap_cons

@[simp] theorem written_append (first second : List Piece) :
    written (first ++ second) = written first ++ written second := List.flatMap_append

/-- A line ends here. -/
inductive LineEnds : List Char → Prop
  | atEnd : LineEnds []
  | lineFeed (rest : List Char) : LineEnds ('\n' :: rest)
  | carriageReturn (rest : List Char) : LineEnds ('\r' :: '\n' :: rest)

/-- The piece is one in front of this text. -/
inductive Piece.Before : Piece → List Char → Prop
  | space (c : Char) (rest : List Char) : isSpace c = true → Before (.blank c) rest
  | lineFeed (rest : List Char) : Before (.blank '\n') rest
  | carriageReturn (rest : List Char) : Before (.blank '\r') ('\n' :: rest)
  /-- A comment goes on to the end of its line. -/
  | comment (words rest : List Char) :
    (∀ c ∈ words, isControl c = false) → LineEnds rest → Before (.comment words) rest
  | string (written value rest : List Char) :
    quoted? (written ++ rest) = some (value, rest) → Before (.string written) rest
  | token (token rest : List Char) : IsToken token → Before (.token token) rest

/-- The blanks at the start of a text. -/
def spaces (text : List Char) : List Piece := (text.takeWhile isSpace).map .blank

/-- Blanks, line ends and comments as far as there are any. -/
inductive Gap : List Char → List Piece → List Char → Prop
  | done (rest : List Char) : gap? false rest = some rest → Gap rest [] rest
  | blank (c : Char) (text rest : List Char) (pieces : List Piece) :
    (Piece.blank c).Before text → Gap text pieces rest → Gap (c :: text) (.blank c :: pieces) rest
  | comment (words text rest : List Char) (pieces : List Piece) :
    (Piece.comment words).Before text → Gap text pieces rest →
    Gap ('#' :: (words ++ text)) (.comment words :: pieces) rest

/-- What is read as a list, its elements, and the sign that it ends with. -/
inductive Lists : Reading → Reading → Char → Prop
  | array (room : Nat) : Lists (.items room) (.value room) ']'
  | table (room : Nat) : Lists (.members room) (.member room) '\x7d'

/-- A reader takes the text up to the rest for these pieces. -/
inductive Takes : Reading → List Char → List Piece → List Char → Prop
  | string (room : Nat) (written value rest : List Char) :
    quoted? (written ++ rest) = some (value, rest) →
    Takes (.value room) (written ++ rest) [.string written] rest
  | bare (room : Nat) (token rest : List Char) (value : Toml) :
    bareValue? (token ++ rest) = some (value, rest) →
    Takes (.value room) (token ++ rest) [.token token] rest
  | array (room : Nat) (inside rest : List Char) (pieces : List Piece) :
    Takes (.items room) inside pieces rest →
    Takes (.value (room + 1)) ('[' :: inside) (.token ['['] :: pieces) rest
  | table (room : Nat) (inside rest : List Char) (pieces : List Piece) :
    Takes (.members room) inside pieces rest →
    Takes (.value (room + 1)) ('\x7b' :: inside) (.token ['\x7b'] :: pieces) rest
  | close (many one : Reading) (c : Char) (text rest : List Char) (gap : List Piece) :
    Lists many one c → Gap text gap (c :: rest) →
    Takes many text (gap ++ [.token [c]]) rest
  | last (many one : Reading) (c : Char) (text start behind rest : List Char)
    (gap element gap' : List Piece) :
    Lists many one c → Gap text gap start → Takes one start element behind →
    Gap behind gap' (c :: rest) →
    Takes many text (gap ++ (element ++ (gap' ++ [.token [c]]))) rest
  | more (many one : Reading) (c : Char) (text start behind later rest : List Char)
    (gap element gap' pieces : List Piece) :
    Lists many one c → Gap text gap start → Takes one start element behind →
    Gap behind gap' (',' :: later) → Takes many later pieces rest →
    Takes many text (gap ++ (element ++ (gap' ++ .token [','] :: pieces))) rest
  | member (room fuel : Nat) (path : List String) (key behind sign start rest : List Char)
    (gap gap' value : List Piece) :
    keyPath? fuel (key ++ behind) = some (path, behind) → Gap behind gap ('=' :: sign) →
    Gap sign gap' start → Takes (.value room) start value rest →
    Takes (.member room) (key ++ behind) (.token key :: (gap ++ .token ['='] :: (gap' ++ value)))
      rest
  | itemHeader (fuel : Nat) (path : List String) (text key behind later : List Char)
    (gap pieces : List Piece) :
    text.dropWhile isSpace = key ++ ']' :: ']' :: behind →
    keyPath? fuel (text.dropWhile isSpace) = some (path, ']' :: ']' :: behind) →
    lineEnd? behind = some later → Gap behind gap later → Takes .statements later pieces [] →
    Takes .statements ('[' :: '[' :: text)
      (.token ['[', '['] :: (spaces text ++ .token key :: .token [']', ']'] :: (gap ++ pieces))) []
  | header (fuel : Nat) (path : List String) (text key behind later : List Char)
    (gap pieces : List Piece) :
    text.head? ≠ some '[' → text.dropWhile isSpace = key ++ ']' :: behind →
    keyPath? fuel (text.dropWhile isSpace) = some (path, ']' :: behind) →
    lineEnd? behind = some later → Gap behind gap later → Takes .statements later pieces [] →
    Takes .statements ('[' :: text)
      (.token ['['] :: (spaces text ++ .token key :: .token [']'] :: (gap ++ pieces))) []
  | assignment (fuel : Nat) (path : List String) (key sign behind later : List Char)
    (value gap pieces : List Piece) :
    (key ++ '=' :: sign).head? ≠ some '[' →
    keyPath? fuel (key ++ '=' :: sign) = some (path, '=' :: sign) →
    Takes (.value nestingLimit) (sign.dropWhile isSpace) value behind →
    lineEnd? behind = some later → Gap behind gap later → Takes .statements later pieces [] →
    Takes .statements (key ++ '=' :: sign)
      (.token key :: .token ['='] :: (spaces sign ++ (value ++ (gap ++ pieces)))) []
  | noStatement : Takes .statements [] [] []
  | document (text start : List Char) (gap pieces : List Piece) :
    withoutMark text = text → Gap text gap start → Takes .statements start pieces [] →
    Takes .document text (gap ++ pieces) []
  | marked (text start : List Char) (gap pieces : List Piece) :
    Gap text gap start → Takes .statements start pieces [] →
    Takes .document ('\uFEFF' :: text) (.token ['\uFEFF'] :: (gap ++ pieces)) []

/-! ## What is read is taken apart -/

theorem gap_spaces {text rest : List Char} {pieces : List Piece}
    (h : Gap (text.dropWhile isSpace) pieces rest) : Gap text (spaces text ++ pieces) rest := by
  unfold spaces
  induction text with
  | nil => exact h
  | cons c text ih =>
    by_cases hc : isSpace c = true
    · rw [List.dropWhile_cons_of_pos hc] at h
      rw [List.takeWhile_cons_of_pos hc]
      exact .blank c text rest _ (.space c text hc) (ih h)
    · rw [List.dropWhile_cons_of_neg hc] at h
      rw [List.takeWhile_cons_of_neg hc]
      exact h

/-- A gap from its start on, or from inside of a comment on. -/
def PassesOver (rest : List Char) : (inComment : Bool) → List Char → Prop
  | false, text => ∃ pieces, Gap text pieces rest
  | true, text => ∃ words behind pieces, text = words ++ behind ∧
      (Piece.comment words).Before behind ∧ Gap behind pieces rest

theorem passesOver_of_gap? {inComment : Bool} {text rest : List Char}
    (h : gap? inComment text = some rest) : PassesOver rest inComment text := by
  fun_induction gap? inComment text with
  | case1 inComment =>
    cases h
    cases inComment with
    | false => exact ⟨[], .done [] rfl⟩
    | true => exact ⟨[], [], [], rfl, .comment [] [] (by simp) .atEnd, .done [] rfl⟩
  | case2 cs ih =>
    obtain ⟨pieces, hgap⟩ := ih h
    exact ⟨[], _, _, rfl, .comment [] _ (by simp) (.lineFeed cs), .blank '\n' cs rest pieces
      (.lineFeed cs) hgap⟩
  | case3 c cs hline hreturn ih =>
    obtain ⟨rfl, hnext⟩ := hreturn
    obtain ⟨more, rfl⟩ := List.head?_eq_some_iff.mp hnext
    obtain ⟨words, behind, pieces, heq, hcomment, hgap⟩ := ih h
    -- the line feed ends the comment, so nothing is said before it
    cases words with
    | cons d words =>
      obtain ⟨rfl, _⟩ := List.cons.inj heq
      cases hcomment with
      | comment _ _ hcontrol _ => cases hcontrol _ List.mem_cons_self
    | nil =>
      obtain rfl : '\n' :: more = behind := heq
      exact ⟨[], _, _, rfl, .comment [] _ (by simp) (.carriageReturn more),
        .blank '\r' _ rest pieces (.carriageReturn more) hgap⟩
  | case4 => cases h
  | case5 c cs hline hreturn hcontrol ih =>
    obtain ⟨words, behind, pieces, rfl, hcomment, hgap⟩ := ih h
    cases hcomment with
    | comment _ _ hwords hend =>
      refine ⟨c :: words, behind, pieces, rfl, .comment _ _ ?_ hend, hgap⟩
      exact List.forall_mem_cons.mpr ⟨Bool.eq_false_iff.mpr hcontrol, hwords⟩
  | case6 c cs hblank ih =>
    obtain ⟨pieces, hgap⟩ := ih h
    refine ⟨_, .blank c cs rest pieces ?_ hgap⟩
    obtain hspace | hline := Bool.or_eq_true_iff.mp hblank
    · exact .space c cs hspace
    · obtain rfl := of_decide_eq_true hline
      exact .lineFeed cs
  | case7 cs hhead hblank ih =>
    obtain ⟨more, rfl⟩ := List.head?_eq_some_iff.mp hhead
    obtain ⟨pieces, hgap⟩ := ih h
    exact ⟨_, .blank '\r' _ rest pieces (.carriageReturn more) hgap⟩
  | case8 => cases h
  | case9 cs hblank hreturn ih =>
    obtain ⟨words, behind, pieces, rfl, hcomment, hgap⟩ := ih h
    exact ⟨_, .comment words behind rest pieces hcomment hgap⟩
  | case10 c cs hblank hreturn hmark =>
    cases h
    refine ⟨[], .done _ ?_⟩
    rw [gap?, if_neg hblank, if_neg hreturn, if_neg hmark]

theorem exists_gap {text rest : List Char} (h : gap? false text = some rest) :
    ∃ pieces, Gap text pieces rest := passesOver_of_gap? h

theorem exists_gap_of_lineEnd? {text rest : List Char} (h : lineEnd? text = some rest) :
    ∃ pieces, Gap text pieces rest := by
  obtain ⟨hspaces, rfl⟩ | ⟨start, c, rfl, _, _, hgap⟩ := lineEnd?_eq_some_iff.mp h
  · have hgap : Gap (text.dropWhile isSpace) [] [] := hspaces.symm ▸ .done [] rfl
    exact ⟨_, gap_spaces hgap⟩
  · obtain ⟨pieces, hpieces⟩ := exists_gap hgap
    exact ⟨_, gap_spaces hpieces⟩

section

variable {fuel room : Nat} {text rest : List Char}

theorem exists_takes_value {literal : Literal}
    (hitems : ∀ {room text items rest}, readItems? fuel room text = some (items, rest) →
      ∃ pieces, Takes (.items room) text pieces rest)
    (hmembers : ∀ {room text members rest}, readMembers? fuel room text = some (members, rest) →
      ∃ pieces, Takes (.members room) text pieces rest)
    (h : readValue? (fuel + 1) room text = some (literal, rest)) :
    ∃ pieces, Takes (.value room) text pieces rest := by
  by_cases harray : text.head? = some '['
  · obtain ⟨cs, rfl⟩ := List.head?_eq_some_iff.mp harray
    cases room with
    | zero => cases h
    | succ room =>
      rw [readValue?_array] at h
      obtain ⟨⟨items, tail⟩, hread, heq⟩ := Option.map_eq_some_iff.mp h
      cases heq
      obtain ⟨pieces, hpieces⟩ := hitems hread
      exact ⟨_, .array room cs rest pieces hpieces⟩
  by_cases htable : text.head? = some '\x7b'
  · obtain ⟨cs, rfl⟩ := List.head?_eq_some_iff.mp htable
    cases room with
    | zero => cases h
    | succ room =>
      rw [readValue?_table] at h
      obtain ⟨⟨members, tail⟩, hread, heq⟩ := Option.map_eq_some_iff.mp h
      cases heq
      obtain ⟨pieces, hpieces⟩ := hmembers hread
      exact ⟨_, .table room cs rest pieces hpieces⟩
  rw [readValue?_plain fuel room harray htable, readPlain?] at h
  split at h
  · obtain ⟨⟨value, tail⟩, hvalue, heq⟩ := Option.map_eq_some_iff.mp h
    cases heq
    obtain ⟨front, rfl, _, _⟩ := quoted?_front hvalue
    exact ⟨_, .string room front value rest hvalue⟩
  · obtain ⟨⟨value, tail⟩, hvalue, heq⟩ := Option.map_eq_some_iff.mp h
    cases heq
    obtain ⟨token, rfl, _⟩ := isToken_of_bareValue? hvalue
    exact ⟨_, .bare room token rest value hvalue⟩

theorem exists_takes_member {member : List String × Literal}
    (hvalue : ∀ {room text literal rest}, readValue? fuel room text = some (literal, rest) →
      ∃ pieces, Takes (.value room) text pieces rest)
    (h : readMember? fuel room text = some (member, rest)) :
    ∃ pieces, Takes (.member room) text pieces rest := by
  obtain ⟨path, behind, sign, start, value, hpath, hsign, hstart, hread, rfl⟩ :=
    readMember?_eq_some_iff.mp h
  obtain ⟨key, rfl, _⟩ := isToken_of_keyPath? hpath
  obtain ⟨gap, hgap⟩ := exists_gap hsign
  obtain ⟨gap', hgap'⟩ := exists_gap hstart
  obtain ⟨pieces, hpieces⟩ := hvalue hread
  exact ⟨_, .member room fuel path key behind sign start rest gap gap' pieces hpath hgap hgap'
    hpieces⟩

theorem ReadsList.exists_takes {c : Char} {many one : Reading} {xs : List α}
    {readOne : Nat → List Char → Option (α × List Char)}
    {readMany : Nat → List Char → Option (List α × List Char)}
    (hlist : ReadsList c readOne readMany) (hlists : Lists many one c)
    (hone : ∀ {text x rest}, readOne fuel text = some (x, rest) →
      ∃ pieces, Takes one text pieces rest)
    (hmany : ∀ {text xs rest}, readMany fuel text = some (xs, rest) →
      ∃ pieces, Takes many text pieces rest)
    (h : readMany (fuel + 1) text = some (xs, rest)) : ∃ pieces, Takes many text pieces rest := by
  obtain ⟨start, hstart, hxs⟩ := hlist.succ.mp h
  obtain ⟨gap, hgap⟩ := exists_gap hstart
  obtain ⟨rfl, _⟩ | ⟨_, x, behind, stop, hx, hstop, hmore⟩ := hxs
  · exact ⟨_, .close many one c text rest gap hlists hgap⟩
  obtain ⟨element, helement⟩ := hone hx
  obtain ⟨gap', hgap'⟩ := exists_gap hstop
  cases hmore with
  | more later xs rest hlater =>
    obtain ⟨pieces, hpieces⟩ := hmany hlater
    exact ⟨_, .more many one c text start behind later rest gap element gap' pieces hlists hgap
      helement hgap' hpieces⟩
  | last rest =>
    exact ⟨_, .last many one c text start behind rest gap element gap' hlists hgap helement hgap'⟩

end

/-- What the readers read with any fuel is taken apart. -/
theorem exists_takes_all (fuel : Nat) :
    (∀ {room text literal rest}, readValue? fuel room text = some (literal, rest) →
      ∃ pieces, Takes (.value room) text pieces rest) ∧
    (∀ {room text items rest}, readItems? fuel room text = some (items, rest) →
      ∃ pieces, Takes (.items room) text pieces rest) ∧
    (∀ {room text members rest}, readMembers? fuel room text = some (members, rest) →
      ∃ pieces, Takes (.members room) text pieces rest) := by
  induction fuel with
  | zero =>
    refine ⟨?_, ?_, ?_⟩
    · intro room text literal rest h
      cases h
    · intro room text items rest h
      cases h
    · intro room text members rest h
      cases h
  | succ fuel ih =>
    obtain ⟨hvalue, hitems, hmembers⟩ := ih
    exact ⟨exists_takes_value hitems hmembers,
      fun h => (readsList_items _).exists_takes (.array _) hvalue hitems h,
      fun h => (readsList_members _).exists_takes (.table _) (exists_takes_member hvalue)
        hmembers h⟩

theorem exists_takes_statements {limit fuel : Nat} {text : List Char} {statements : List Statement}
    (h : statementsFrom? limit fuel text = some statements) :
    ∃ pieces, Takes .statements text pieces [] := by
  induction fuel generalizing text statements with
  | zero =>
    cases text with
    | nil => exact ⟨[], .noStatement⟩
    | cons c cs => cases h
  | succ fuel ih =>
    by_cases htext : text = []
    · subst htext
      exact ⟨[], .noStatement⟩
    obtain ⟨statement, behind, later, _, hstatement, hlater, hrest, _⟩ :=
      (statementsFrom?_succ_eq_some_iff htext).mp h
    obtain ⟨gap, hgap⟩ := exists_gap_of_lineEnd? hlater
    obtain ⟨pieces, hpieces⟩ := ih hrest
    obtain ⟨cs, path, rfl, hpath, _⟩ | ⟨cs, path, rfl, hcs, hpath, _⟩ |
      ⟨hcs, path, sign, literal, hpath, hvalue, _⟩ := statement?_eq_some_iff.mp hstatement
    · obtain ⟨key, hkey, _⟩ := isToken_of_keyPath? hpath
      exact ⟨_, .itemHeader limit path cs key behind later gap pieces hkey hpath hlater hgap
        hpieces⟩
    · obtain ⟨key, hkey, _⟩ := isToken_of_keyPath? hpath
      exact ⟨_, .header limit path cs key behind later gap pieces hcs hkey hpath hlater hgap
        hpieces⟩
    · obtain ⟨key, rfl, _⟩ := isToken_of_keyPath? hpath
      obtain ⟨value, hpiecesOf⟩ := (exists_takes_all limit).1 hvalue
      exact ⟨_, .assignment limit path key sign behind later value gap pieces hcs hpath hpiecesOf
        hlater hgap hpieces⟩

/-- A document that is read is taken apart. -/
theorem exists_takes_document {text : List Char} {statements : List Statement}
    (h : statements? text = some statements) : ∃ pieces, Takes .document text pieces [] := by
  obtain ⟨start, hstart, hstatements⟩ := Option.bind_eq_some_iff.mp h
  obtain ⟨gap, hgap⟩ := exists_gap hstart
  obtain ⟨pieces, hpieces⟩ := exists_takes_statements hstatements
  unfold withoutMark at hgap
  split at hgap
  · exact ⟨_, .marked _ start gap pieces hgap hpieces⟩
  · next hmark =>
    refine ⟨_, .document text start gap pieces ?_ hgap hpieces⟩
    unfold withoutMark
    split
    · exact absurd rfl (hmark _)
    · rfl

/-! ## What is taken apart is read -/

theorem gap?_words {words text : List Char} (hwords : ∀ c ∈ words, isControl c = false)
    (htext : LineEnds text) : gap? true (words ++ text) = gap? false text := by
  induction words with
  | nil =>
    cases htext with
    | atEnd => rfl
    | lineFeed rest => rfl
    | carriageReturn rest => rfl
  | cons c words ih =>
    rw [List.forall_mem_cons] at hwords
    have hfeed : c ≠ '\n' := by
      rintro rfl
      cases hwords.1
    have hreturn : c ≠ '\r' := by
      rintro rfl
      cases hwords.1
    rw [List.cons_append, gap?, if_neg hfeed, if_neg fun h => hreturn h.1, hwords.1,
      if_neg Bool.false_ne_true, ih hwords.2]

theorem Gap.gap?_eq {text rest : List Char} {pieces : List Piece} (h : Gap text pieces rest) :
    gap? false text = some rest := by
  induction h with
  | done rest hrest => exact hrest
  | blank c text rest pieces hc _ ih =>
    rw [← ih]
    cases hc with
    | space c text hspace => rw [gap?, hspace, Bool.true_or, if_pos rfl]
    | lineFeed text => rfl
    | carriageReturn rest => rfl
  | comment words text rest pieces hcomment _ ih =>
    rw [← ih]
    cases hcomment with
    | comment _ _ hwords hends => exact gap?_words hwords hends

/-- What a reader reads up to the rest, it reads with some fuel. -/
def Reading.Succeeds : Reading → List Char → List Char → Prop
  | .value room, text, rest => ∃ fuel literal, readValue? fuel room text = some (literal, rest)
  | .items room, text, rest => ∃ fuel items, readItems? fuel room text = some (items, rest)
  | .member room, text, rest => ∃ fuel member, readMember? fuel room text = some (member, rest)
  | .members room, text, rest => ∃ fuel members, readMembers? fuel room text = some (members, rest)
  | .statements, text, _ => ∃ limit fuel list, statementsFrom? limit fuel text = some list
  | .document, text, _ => ∃ list, statements? text = some list

theorem head?_of_quoted? {text : List Char} {r : List Char × List Char}
    (h : quoted? text = some r) : text.head? = some '"' ∨ text.head? = some '\'' := by
  unfold quoted? at h
  split at h
  · exact .inl rfl
  · exact .inr rfl
  · cases h

/-- A value that begins with neither a bracket nor a brace is a string or has no quotes. -/
theorem succeeds_plain {room : Nat} {text rest : List Char} {literal : Literal}
    (harray : text.head? ≠ some '[') (htable : text.head? ≠ some '\x7b')
    (h : readPlain? text = some (literal, rest)) : (Reading.value room).Succeeds text rest :=
  ⟨1, literal, by rw [readValue?_plain 0 room harray htable, h]⟩

theorem head?_of_bareValue? {text : List Char} {r : Toml × List Char} (h : bareValue? text = some r)
    {c : Char} (hc : isBareChar c = false) : text.head? ≠ some c := by
  intro hhead
  obtain ⟨cs, rfl⟩ := List.head?_eq_some_iff.mp hhead
  rw [bareValue?_cons_of_not hc] at h
  cases h

section

variable {c : Char} {one : Nat → List Char → Option (α × List Char)}
  {many : Nat → List Char → Option (List α × List Char)} {text start behind rest : List Char}

theorem ReadsList.exists_close (hlist : ReadsList c one many)
    (hstart : gap? false text = some (c :: rest)) :
    ∃ fuel xs, many fuel text = some (xs, rest) :=
  ⟨1, [], hlist.succ.mpr ⟨c :: rest, hstart, .inl ⟨rfl, rfl⟩⟩⟩

theorem ReadsList.exists_last (hlist : ReadsList c one many) (hstart : gap? false text = some start)
    (hopen : start.head? ≠ some c) (hx : ∃ fuel x, one fuel start = some (x, behind))
    (hstop : gap? false behind = some (c :: rest)) :
    ∃ fuel xs, many fuel text = some (xs, rest) := by
  obtain ⟨fuel, x, hx⟩ := hx
  exact ⟨fuel + 1, [x], hlist.succ.mpr ⟨start, hstart, .inr ⟨hopen, x, behind, _, hx, hstop,
    .last rest⟩⟩⟩

theorem ReadsList.exists_more (hlist : ReadsList c one many)
    (hone : ∀ {fuel text x rest}, one fuel text = some (x, rest) →
      ReadOff one valueNeed text x rest)
    (hmany : ∀ {fuel text xs rest}, many fuel text = some (xs, rest) →
      ReadOff many innerNeed text xs rest)
    (hstart : gap? false text = some start) (hopen : start.head? ≠ some c)
    (hx : ∃ fuel x, one fuel start = some (x, behind)) {later : List Char}
    (hstop : gap? false behind = some (',' :: later))
    (hlater : ∃ fuel xs, many fuel later = some (xs, rest)) :
    ∃ fuel xs, many fuel text = some (xs, rest) := by
  obtain ⟨_, x, hx⟩ := hx
  obtain ⟨_, xs, hlater⟩ := hlater
  -- with enough fuel for both, the first is read and those that follow it
  have hx' := (hone hx).read_eq valueNeed_le
    (Nat.le_max_left (valueNeed start.length) (innerNeed later.length))
  have hlater' := (hmany hlater).read_eq innerNeed_le
    (Nat.le_max_right (valueNeed start.length) (innerNeed later.length))
  exact ⟨_ + 1, x :: xs, hlist.succ.mpr ⟨start, hstart, .inr ⟨hopen, x, behind, _, hx', hstop,
    .more later xs rest hlater'⟩⟩⟩

end

theorem succeeds_member {room fuel : Nat} {path : List String}
    {text behind sign start rest : List Char} (hpath : keyPath? fuel text = some (path, behind))
    (hsign : gap? false behind = some ('=' :: sign)) (hstart : gap? false sign = some start)
    (hvalue : (Reading.value room).Succeeds start rest) :
    (Reading.member room).Succeeds text rest := by
  obtain ⟨_, literal, hvalue⟩ := hvalue
  obtain ⟨key, rfl, _, hkey⟩ := keyPath?_front hpath
  have hpath' := hkey (max key.length (valueNeed start.length)) behind (Nat.le_max_left _ _) rfl
  have hvalue' := (readOff_readValue? hvalue).read_eq valueNeed_le
    (Nat.le_max_right key.length (valueNeed start.length))
  exact ⟨_, (path, literal), readMember?_eq_some_iff.mpr ⟨path, behind, sign, start, literal,
    hpath', hsign, hstart, hvalue', rfl⟩⟩

theorem succeeds_statements {limit : Nat} {text behind later : List Char} {statement : Statement}
    (h : statement? limit text = some (statement, behind)) (hlater : lineEnd? behind = some later)
    (hrest : Reading.statements.Succeeds later []) : Reading.statements.Succeeds text [] := by
  obtain ⟨limit', fuel, list, hrest⟩ := hrest
  have hread := statement?_front h
  have hlength := hread.length_lt
  obtain ⟨lineEnd, rfl, _⟩ := lineEnd?_front hlater
  rw [List.length_append] at hlength
  have htext : text ≠ [] := List.length_pos_iff.mp (Nat.zero_lt_of_lt hlength)
  have hneed : valueNeed later.length ≤ valueNeed text.length := valueNeed_le (by omega)
  exact ⟨valueNeed text.length, later.length + 1, statement :: list,
    (statementsFrom?_succ_eq_some_iff htext).mpr ⟨statement, _, later, list,
      hread.read_eq valueNeed_le (Nat.le_refl _), hlater,
      statementsFrom?_eq_of_length hrest hneed (Nat.le_refl _), rfl⟩⟩

theorem succeeds_document {text start : List Char}
    (hstart : gap? false (withoutMark text) = some start)
    (h : Reading.statements.Succeeds start []) : Reading.document.Succeeds text [] := by
  obtain ⟨limit, fuel, list, hlist⟩ := h
  obtain ⟨gap, hgap, _⟩ := gap?_front hstart
  obtain ⟨mark, hmark, _⟩ := withoutMark_front text
  have hlength := congrArg List.length hmark
  rw [hgap, List.length_append, List.length_append] at hlength
  refine ⟨list, ?_⟩
  unfold statements?
  rw [hstart]
  refine statementsFrom?_eq_of_length hlist ?_ ?_
  · unfold valueNeed
    omega
  · omega

/-- What is taken apart is read. -/
theorem Takes.succeeds {reading : Reading} {text rest : List Char} {pieces : List Piece}
    (h : Takes reading text pieces rest) : reading.Succeeds text rest := by
  induction h with
  | string room written value rest hvalue =>
    have hhead := head?_of_quoted? hvalue
    have hread : readPlain? (written ++ rest) =
        some (.plain (.string (String.ofList value)), rest) := by
      rw [readPlain?, if_pos hhead, readString?, hvalue]
      rfl
    refine succeeds_plain (fun h => ?_) (fun h => ?_) hread
    · rw [h] at hhead
      simp at hhead
    · rw [h] at hhead
      simp at hhead
  | bare room token rest value hvalue =>
    have hquote : ¬ ((token ++ rest).head? = some '"' ∨ (token ++ rest).head? = some '\'') := by
      rintro (h | h)
      · exact head?_of_bareValue? hvalue rfl h
      · exact head?_of_bareValue? hvalue rfl h
    have hread : readPlain? (token ++ rest) = some (.plain value, rest) := by
      rw [readPlain?, if_neg hquote, hvalue]
      rfl
    exact succeeds_plain (head?_of_bareValue? hvalue rfl) (head?_of_bareValue? hvalue rfl) hread
  | array room inside rest pieces _ ih =>
    obtain ⟨fuel, items, hitems⟩ := ih
    exact ⟨fuel + 1, .array items, by rw [readValue?_array, hitems]; rfl⟩
  | table room inside rest pieces _ ih =>
    obtain ⟨fuel, members, hmembers⟩ := ih
    exact ⟨fuel + 1, .table members, by rw [readValue?_table, hmembers]; rfl⟩
  | close many one c text rest gap hlists hgap =>
    cases hlists with
    | array room => exact (readsList_items room).exists_close hgap.gap?_eq
    | table room => exact (readsList_members room).exists_close hgap.gap?_eq
  | last many one c text start behind rest gap element gap' hlists hgap _ hgap' ih =>
    cases hlists with
    | array room =>
      obtain ⟨fuel, item, hitem⟩ := ih
      exact (readsList_items room).exists_last hgap.gap?_eq (head?_of_readValue? hitem)
        ⟨fuel, item, hitem⟩ hgap'.gap?_eq
    | table room =>
      obtain ⟨fuel, member, hmember⟩ := ih
      exact (readsList_members room).exists_last hgap.gap?_eq (head?_of_readMember? hmember)
        ⟨fuel, member, hmember⟩ hgap'.gap?_eq
  | more many one c text start behind later rest gap element gap' pieces hlists hgap _ hgap' _ ih
    ih' =>
    cases hlists with
    | array room =>
      obtain ⟨fuel, item, hitem⟩ := ih
      exact (readsList_items room).exists_more readOff_readValue? readOff_readItems? hgap.gap?_eq
        (head?_of_readValue? hitem) ⟨fuel, item, hitem⟩ hgap'.gap?_eq ih'
    | table room =>
      obtain ⟨fuel, member, hmember⟩ := ih
      exact (readsList_members room).exists_more readOff_readMember? readOff_readMembers?
        hgap.gap?_eq (head?_of_readMember? hmember) ⟨fuel, member, hmember⟩ hgap'.gap?_eq ih'
  | member room fuel path key behind sign start rest gap gap' value hpath hgap hgap' _ ih =>
    exact succeeds_member hpath hgap.gap?_eq hgap'.gap?_eq ih
  | itemHeader fuel path text key behind later gap pieces _ hpath hlater _ _ ih =>
    exact succeeds_statements (statement?_eq_some_iff.mpr (.inl ⟨text, path, rfl, hpath, rfl⟩))
      hlater ih
  | header fuel path text key behind later gap pieces htext _ hpath hlater _ _ ih =>
    exact succeeds_statements
      (statement?_eq_some_iff.mpr (.inr (.inl ⟨text, path, rfl, htext, hpath, rfl⟩))) hlater ih
  | assignment fuel path key sign behind later value gap pieces htext hpath _ hlater _ _ ih ih' =>
    obtain ⟨fuel', literal, hvalue⟩ := ih
    obtain ⟨front, heq, _, hfront⟩ := keyPath?_front hpath
    have hpath' := hfront (max front.length (valueNeed (sign.dropWhile isSpace).length)) _
      (Nat.le_max_left _ _) rfl
    have hvalue' := (readOff_readValue? hvalue).read_eq valueNeed_le
      (Nat.le_max_right front.length (valueNeed (sign.dropWhile isSpace).length))
    rw [← heq] at hpath'
    exact succeeds_statements (statement?_eq_some_iff.mpr (.inr (.inr ⟨htext, path, sign, literal,
      hpath', hvalue', rfl⟩))) hlater ih'
  | noStatement => exact ⟨0, 0, [], statementsFrom?_nil 0 0⟩
  | document text start gap pieces htext hgap _ ih =>
    refine succeeds_document ?_ ih
    rw [htext]
    exact hgap.gap?_eq
  | marked text start gap pieces hgap _ ih => exact succeeds_document hgap.gap?_eq ih

/-- A document is read just if it can be taken apart. -/
theorem exists_takes_iff {text : List Char} :
    (∃ pieces, Takes .document text pieces []) ↔ ∃ list, statements? text = some list :=
  ⟨fun ⟨_, h⟩ => h.succeeds, fun ⟨_, h⟩ => exists_takes_document h⟩

end IdentityProvider.Toml
