import IdentityProvider.Proofs.Placeholder.Occurrence
import IdentityProvider.Proofs.Toml.Lines
import Mathlib

/-
  Comments to the expansion and comments to the reader.

  The expansion knows nothing of TOML: it leaves a line alone if its first character that is not
  blank is a number sign.  In a text that is TOML as it stands the reader takes such a line for a
  comment, unless the line begins inside of a string (`Occurrence.seen_of_isComment`).  The other
  way around, the expansion leaves a comment alone only if it has its line to itself, and a string
  only on such a line (`treated_as_read`).
-/

namespace IdentityProvider.Placeholder

open Text
open Toml (Piece written)

namespace Occurrence

variable {text : String} (o : Occurrence text)

/-- The placeholder stands in this piece, in front of which there are these others. -/
def Within (above : List Piece) (p : Piece) : Prop :=
  ∃ u v, p.text = u ++ (o.slot.spelling ++ v) ∧ written above ++ u = o.start ++ o.front

/-- The placeholder stands in this piece. -/
inductive StandsIn (pieces : List Piece) (p : Piece) : Prop
  | intro (above below : List Piece) :
    pieces = above ++ p :: below → o.Within above p → StandsIn pieces p

/-- The placeholder stands in a comment with nothing but blanks before it on its line. -/
inductive HasOwnComment (pieces : List Piece) : Prop
  | intro (above below : List Piece) (words blanks : List Char) :
    pieces = above ++ .comment words :: below → o.Within above (.comment words) →
    Blanks blanks → written above = o.start ++ blanks → HasOwnComment pieces

/-- The line feed in front of the line belongs to a string. -/
inductive BeginsInString (pieces : List Piece) : Prop
  | intro (above below : List Piece) (u v : List Char) :
    pieces = above ++ .string (u ++ '\n' :: v) :: below → o.start = written above ++ (u ++ ['\n']) →
    BeginsInString pieces

/-- What the expansion does with the placeholder of a document that is read as these pieces. -/
structure IsTreated (pieces : List Piece) : Prop where
  /-- It leaves a placeholder as it is in a comment that has its line to itself, on a line that
  begins inside of a string and goes on with a number sign, and nowhere else. -/
  left_iff : o.IsLeft ↔
    o.HasOwnComment pieces ∨ o.BeginsInString pieces ∧ IsComment o.line
  /-- In a string it leaves the placeholder only on such a line. -/
  left_in_string : ∀ words, o.StandsIn pieces (.string words) →
    (o.IsLeft ↔ o.BeginsInString pieces ∧ IsComment o.line)
  /-- What is left as it is refuses no text. -/
  left_is_harmless : o.IsLeft → ∀ env e,
    Environment.expand env text = .error e ↔ (o.above ++ o.below).mapM (expandLine env) = .error e
  /-- Everywhere else, in a comment behind a setting as well, the placeholder is expanded. -/
  expanded : ¬ o.IsLeft → ∀ env, o.IsExpanded env

/-! ## What the reader sees -/

/-- The placeholder stands behind the number sign of its line. -/
theorem front_of_blanks {blanks rest : List Char} (hblanks : Blanks blanks)
    (hline : o.line = blanks ++ '#' :: rest) : ∃ before, o.front = blanks ++ '#' :: before ∧
      rest = before ++ (o.slot.spelling ++ o.back) := by
  obtain ⟨inside, hspelling⟩ := o.exists_spelling_eq
  rw [o.line_eq, hspelling] at hline
  rcases List.append_eq_append_iff.mp hline with ⟨more, rfl, hmore⟩ | ⟨more, hfront, hmore⟩
  · cases more with
    | nil => cases (List.cons.inj hmore).1
    | cons c more =>
      obtain ⟨rfl, _⟩ := List.cons.inj hmore
      cases hblanks _ (List.mem_append_right _ List.mem_cons_self)
  · cases more with
    | nil => cases (List.cons.inj hmore).1
    | cons c more =>
      obtain ⟨rfl, hrest⟩ := List.cons.inj hmore
      exact ⟨more, hfront, by rw [hrest, hspelling]; rfl⟩

/-- What a comment tells is the rest of its line, up to a carriage return in front of the line
feed. -/
theorem eq_words_or {rest ending words behind : List Char} (hrest : '\n' ∉ rest)
    (hwords : '\n' ∉ words) (hending : ending = [] ∨ ∃ more, ending = '\n' :: more)
    (hends : Toml.LineEnds behind) (h : rest ++ ending = words ++ behind) :
    rest = words ∨ rest = words ++ ['\r'] := by
  rcases List.append_eq_append_iff.mp h with ⟨more, rfl, hmore⟩ | ⟨more, rfl, hmore⟩
  · cases more with
    | nil => exact .inl (List.append_nil rest).symm
    | cons c more =>
      rcases hending with rfl | ⟨_, rfl⟩
      · cases hmore
      · obtain ⟨rfl, _⟩ := List.cons.inj hmore
        exact absurd (List.mem_append_right rest List.mem_cons_self) hwords
  · rw [hmore] at hends
    cases more with
    | nil => exact .inl (List.append_nil words)
    | cons c more =>
      refine .inr ?_
      generalize hall : c :: more ++ ending = all at hends
      cases hends with
      | atEnd => cases hall
      | lineFeed =>
        obtain ⟨rfl, _⟩ := List.cons.inj hall
        exact absurd (List.mem_append_right words List.mem_cons_self) hrest
      | carriageReturn =>
        obtain ⟨rfl, hnext⟩ := List.cons.inj hall
        cases more with
        | nil => rfl
        | cons d more =>
          obtain ⟨rfl, _⟩ := List.cons.inj hnext
          exact absurd (List.mem_append_right words
            (List.mem_cons_of_mem _ List.mem_cons_self)) hrest

/-- A placeholder that the line of a comment holds stands within the comment. -/
theorem within_words {before words : List Char}
    (h : before ++ (o.slot.spelling ++ o.back) = words ∨
      before ++ (o.slot.spelling ++ o.back) = words ++ ['\r']) :
    ∃ v, words = before ++ (o.slot.spelling ++ v) := by
  rcases h with h | h
  · exact ⟨o.back, h.symm⟩
  · rcases List.eq_nil_or_concat o.back with hback | ⟨back, c, hback⟩
    · obtain ⟨inside, hspelling⟩ := o.exists_spelling_eq
      rw [hback, List.append_nil, hspelling, ← List.cons_append, ← List.append_assoc] at h
      cases (List.append_inj' h rfl).2
    · rw [hback, List.concat_eq_append, ← List.append_assoc, ← List.append_assoc] at h
      refine ⟨back, ?_⟩
      rw [← List.append_assoc]
      exact (List.append_inj' h rfl).1.symm

section

variable {pieces : List Piece}

/-- The line begins between two pieces, or inside of a string. -/
theorem parted_line {ending : List Char} (htext : text.toList = o.start ++ (o.line ++ ending))
    (h : Toml.Parted text.toList pieces []) :
    (∃ above below, pieces = above ++ below ∧ written above = o.start ∧
      Toml.Parted (o.line ++ ending) below []) ∨ o.BeginsInString pieces := by
  rcases o.start_cases with hstart | ⟨more, hstart⟩
  · rw [htext, hstart] at h
    exact .inl ⟨[], pieces, rfl, hstart.symm, h⟩
  · rw [htext, hstart, List.append_assoc] at h
    cases h.line with
    | between above below hpieces hwritten hbelow =>
      exact .inl ⟨above, below, hpieces, hwritten.trans hstart.symm, hbelow⟩
    | inString above below u v hpieces hmore =>
      refine .inr (.intro above below u v hpieces ?_)
      rw [hstart, hmore, List.append_assoc]

theorem written_blanks (blanks : List Char) : written (blanks.map Piece.blank) = blanks := by
  induction blanks with
  | nil => rfl
  | cons c blanks ih =>
    rw [List.map_cons, Toml.written_cons, ih]
    rfl

/-- The reader sees a line that the expansion leaves as a comment, unless the line begins inside of
a string. -/
theorem seen_of_isComment (h : Toml.Parted text.toList pieces []) (hcomment : IsComment o.line) :
    o.HasOwnComment pieces ∨ o.BeginsInString pieces := by
  obtain ⟨blanks, rest, hblanks, hline⟩ := hcomment
  obtain ⟨ending, htext, hending⟩ := o.text_eq
  refine (o.parted_line htext h).imp_left ?_
  rintro ⟨above, below, rfl, habove, hbelow⟩
  rw [hline, List.append_assoc, List.cons_append] at hbelow
  obtain ⟨words, behind, later, rfl, hrest, hwords, _⟩ := hbelow.comment hblanks
  obtain ⟨before, hfront, rfl⟩ := o.front_of_blanks hblanks hline
  cases hwords with
  | comment _ _ hcontrol hends =>
    have hfeed : '\n' ∉ before ++ (o.slot.spelling ++ o.back) := fun hmem =>
      o.notMem_line (hline ▸ List.mem_append_right _ (List.mem_cons_of_mem _ hmem))
    have hfeed' : '\n' ∉ words := fun hmem => by cases hcontrol _ hmem
    obtain ⟨v, hv⟩ := o.within_words (eq_words_or hfeed hfeed' hending hends hrest)
    have hwritten : written (above ++ blanks.map Piece.blank) = o.start ++ blanks := by
      rw [Toml.written_append, habove, written_blanks]
    refine .intro (above ++ blanks.map .blank) later words blanks ?_ ⟨'#' :: before, v, ?_, ?_⟩
      hblanks hwritten
    · rw [List.append_assoc]
    · rw [hv]
      rfl
    · rw [hwritten, hfront, List.append_assoc]

/-- A placeholder in a comment that has its line to itself stands on a line that the expansion
leaves. -/
theorem HasOwnComment.isComment {o : Occurrence text} (h : o.HasOwnComment pieces) :
    IsComment o.line := by
  obtain ⟨above, below, words, blanks, _, ⟨u, v, hu, hplace⟩, hblanks, habove⟩ := h
  obtain ⟨inside, hspelling⟩ := o.exists_spelling_eq
  cases u with
  | nil =>
    rw [hspelling] at hu
    cases (List.cons.inj hu).1
  | cons c u =>
    obtain ⟨rfl, _⟩ := List.cons.inj hu
    rw [habove, List.append_assoc] at hplace
    refine ⟨blanks, u ++ (o.slot.spelling ++ o.back), hblanks, ?_⟩
    rw [o.line_eq, ← List.append_cancel_left hplace, List.append_assoc, List.cons_append]

theorem HasOwnComment.standsIn {o : Occurrence text} (h : o.HasOwnComment pieces) :
    ∃ words, o.StandsIn pieces (.comment words) := by
  obtain ⟨above, below, words, _, hpieces, hwithin, _, _⟩ := h
  exact ⟨words, above, below, hpieces, hwithin⟩

/-- A placeholder stands in one piece at most. -/
theorem StandsIn.unique {o : Occurrence text} {p p' : Piece} (h : o.StandsIn pieces p)
    (h' : o.StandsIn pieces p') : p = p' := by
  obtain ⟨above, below, rfl, u, v, hp, hplace⟩ := h
  obtain ⟨above', below', heq, u', v', hp', hplace'⟩ := h'
  obtain ⟨inside, hspelling⟩ := o.exists_spelling_eq
  have hne : ∀ v, o.slot.spelling ++ v ≠ [] := by simp [hspelling]
  exact Toml.piece_unique heq hp hp' (hne v) (hne v') (hplace.trans hplace'.symm)

theorem isTreated (h : Toml.Parted text.toList pieces []) : o.IsTreated pieces := by
  have hleft : o.IsLeft ↔ o.HasOwnComment pieces ∨ o.BeginsInString pieces ∧ IsComment o.line := by
    rw [isLeft_iff]
    constructor
    · intro hcomment
      exact (o.seen_of_isComment h hcomment).imp_right fun hstring => ⟨hstring, hcomment⟩
    · rintro (hown | ⟨_, hcomment⟩)
      · exact hown.isComment
      · exact hcomment
  refine ⟨hleft, fun words hwords => ?_, fun hkept => ?_, fun hkept => ?_⟩
  · have hother : ¬ o.HasOwnComment pieces := by
      intro hown
      obtain ⟨others, hothers⟩ := hown.standsIn
      cases hwords.unique hothers
    rw [hleft, or_iff_right hother]
  · exact o.expand_eq_error_of_isComment (o.isLeft_iff.mp hkept)
  · exact o.isExpanded (mt o.isLeft_iff.mpr hkept)

end

end Occurrence

/-- A text that is TOML as it stands is read as pieces that make it up, and the expansion treats its
placeholders by these: those in comments that have their line to themselves stay as they are, and so
do those on lines that begin inside of a string and go on with a number sign; all others are
expanded. -/
theorem treated_as_read {text : String} (h : (Toml.read? text).isSome = true) :
    (∃ pieces, Toml.Takes .document text.toList pieces []) ∧
      ∀ pieces, Toml.Takes .document text.toList pieces [] →
        written pieces = text.toList ∧ ∀ o : Occurrence text, o.IsTreated pieces := by
  constructor
  · obtain ⟨entries, hread⟩ := Option.isSome_iff_exists.mp h
    obtain ⟨statements, hstatements, _⟩ := Option.bind_eq_some_iff.mp hread
    exact Toml.exists_takes_iff.mpr ⟨statements, hstatements⟩
  · intro pieces hpieces
    have hparted := hpieces.parted
    have hwritten := hparted.eq_written
    rw [List.append_nil] at hwritten
    exact ⟨hwritten.symm, fun o => o.isTreated hparted⟩

/-! ## A comment behind a header, and a number sign in a string -/

/-- A placeholder for the variable `X` behind this text. -/
def slotForX (lead : List Char) : Slot where
  lead := lead
  placeholder := ⟨['e', 'n', 'v', '.', 'X'], none⟩
  spelling := opening ++ [' '] ++ ['e', 'n', 'v', '.', 'X'] ++ [' '] ++ closing

theorem cuts_slotForX {lead tail : List Char} (hlead : '\x7b' ∉ lead) (htail : '\x7b' ∉ tail) :
    Cuts (lead ++ ((slotForX lead).spelling ++ tail)) [slotForX lead] tail := by
  have hspells : Spells (slotForX lead).placeholder (slotForX lead).spelling := by
    refine .bare [' '] _ [' '] ?_ ⟨?_, ?_⟩ ?_
    · simp [Blanks, isBlank, inRanges, blankRanges]
    · simp
    · exact List.all_eq_true.mp rfl
    · simp [Blanks, isBlank, inRanges, blankRanges]
  exact .slot lead _ tail tail _ [] (quiet_of_notMem hlead _) hspells
    (.tail tail (quiet_of_notMem htail []))

/-- A comment behind a header. -/
def trailingText : String := "[logging] # \x7b\x7b env.X \x7d\x7d"

/-- The placeholder in the comment. -/
def trailing : Occurrence trailingText where
  above := []
  line := _
  below := []
  earlier := []
  slot := slotForX "[logging] # ".toList
  later := []
  tail := []
  lines_eq := by cbv
  cuts := cuts_slotForX (by decide) (by decide)

theorem read_trailingText : (Toml.read? trailingText).isSome = true := by cbv

/-- The comment behind the header as it is read. -/
def trailingPieces : List Piece :=
  [.token ['['], .token "logging".toList, .token [']'], .blank ' ',
    .comment " \x7b\x7b env.X \x7d\x7d".toList]

theorem takes_trailingText : Toml.Takes .document trailingText.toList trailingPieces [] := by
  have hgap : Toml.Gap " # \x7b\x7b env.X \x7d\x7d".toList
      [.blank ' ', .comment " \x7b\x7b env.X \x7d\x7d".toList] [] := by
    refine .blank ' ' _ [] _ (.space ' ' _ rfl) ?_
    refine .comment " \x7b\x7b env.X \x7d\x7d".toList [] [] [] ?_ (.done [] rfl)
    exact .comment _ [] (by simp [Toml.isControl]) .atEnd
  refine .document _ _ [] trailingPieces (by cbv) (.done _ (by cbv)) ?_
  exact .header 20 ["logging"] "logging] # \x7b\x7b env.X \x7d\x7d".toList "logging".toList
    " # \x7b\x7b env.X \x7d\x7d".toList [] _ [] (by decide) (by cbv) (by cbv) (by cbv) hgap
    .noStatement

/-- The placeholder in the comment is expanded. -/
theorem treated_as_read_trailing :
    (Toml.read? trailingText).isSome = true ∧
      Toml.Takes .document trailingText.toList trailingPieces [] ∧
        trailing.IsTreated trailingPieces :=
  ⟨read_trailingText, takes_trailingText,
    ((treated_as_read read_trailingText).2 trailingPieces takes_trailingText).2 trailing⟩

/-- A string with a line that begins with a number sign. -/
def quotedString : List Char := "'''\n# \x7b\x7b env.X \x7d\x7d'''".toList

/-- The string as a setting. -/
def quotedText : String := "[logging]\nfilter = '''\n# \x7b\x7b env.X \x7d\x7d'''"

/-- The placeholder in the string. -/
def quoted : Occurrence quotedText where
  above := ["[logging]".toList, "filter = '''".toList]
  line := _
  below := []
  earlier := []
  slot := slotForX "# ".toList
  later := []
  tail := "'''".toList
  lines_eq := by cbv
  cuts := cuts_slotForX (by decide) (by decide)

theorem read_quotedText : (Toml.read? quotedText).isSome = true := by cbv

/-- The setting as it is read. -/
def quotedPieces : List Piece :=
  [.token ['['], .token "logging".toList, .token [']'], .blank '\n', .token "filter ".toList,
    .token ['='], .blank ' ', .string quotedString]

theorem takes_quotedText : Toml.Takes .document quotedText.toList quotedPieces [] := by
  have hstring : Toml.Takes (.value Toml.nestingLimit) (quotedString ++ []) [.string quotedString]
      [] := .string _ quotedString "# \x7b\x7b env.X \x7d\x7d".toList [] (by cbv)
  have hsign : (' ' :: quotedString).dropWhile Toml.isSpace = quotedString ++ [] := by cbv
  have hsetting := Toml.Takes.assignment 20 ["filter"] "filter ".toList (' ' :: quotedString) [] []
    _ [] [] (by decide) (by cbv) (hsign.symm ▸ hstring) (by cbv) (.done [] rfl) .noStatement
  have hfeed : Toml.Gap ('\n' :: ("filter ".toList ++ '=' :: ' ' :: quotedString)) [.blank '\n'] _ :=
    .blank '\n' _ _ _ (.lineFeed _) (.done _ (by cbv))
  have hheader := Toml.Takes.header 20 ["logging"]
    ("logging".toList ++ ']' :: '\n' :: ("filter ".toList ++ '=' :: ' ' :: quotedString))
    "logging".toList _ _ _ _ (by decide) (by cbv) (by cbv) (by cbv) hfeed hsetting
  have hdocument := Toml.Takes.document _ _ [] _ (by cbv) (.done _ (by cbv)) hheader
  have htext : quotedText.toList = '[' :: ("logging".toList ++ ']' :: '\n' ::
      ("filter ".toList ++ '=' :: ' ' :: quotedString)) := by cbv
  rw [htext]
  exact hdocument

/-- The expansion replaces a placeholder in a comment, or refuses the text for it where nothing is
set, and it leaves one in a string. -/
theorem comment_expanded_and_string_left :
    ((Toml.read? trailingText).isSome = true ∧
      Toml.Takes .document trailingText.toList trailingPieces [] ∧
        (∃ words, trailing.StandsIn trailingPieces (.comment words)) ∧ ¬ trailing.IsLeft ∧
          Config.ofText ⟨[]⟩ trailingText = .error (.unexpanded (.missing "X"))) ∧
    (Toml.read? quotedText).isSome = true ∧
      Toml.Takes .document quotedText.toList quotedPieces [] ∧
        (∃ words, quoted.StandsIn quotedPieces (.string words)) ∧ quoted.IsLeft ∧
          Environment.expand ⟨[("X", [0x31])]⟩ quotedText = .ok quotedText := by
  have hcomment : trailing.StandsIn trailingPieces
      (.comment " \x7b\x7b env.X \x7d\x7d".toList) :=
    .intro (trailingPieces.take 4) [] rfl ⟨"# ".toList, [], by cbv, by cbv⟩
  have hstring : quoted.StandsIn quotedPieces (.string quotedString) :=
    .intro (quotedPieces.take 7) [] rfl ⟨"'''\n# ".toList, "'''".toList, by cbv, by cbv⟩
  have hexpanded : ¬ trailing.IsLeft := by
    rw [Occurrence.isLeft_iff, ← isCommentLine_iff]
    decide
  have hleft : quoted.IsLeft := by
    rw [Occurrence.isLeft_iff, ← isCommentLine_iff]
    decide
  exact ⟨⟨read_trailingText, takes_trailingText, ⟨_, hcomment⟩, hexpanded, by cbv⟩,
    read_quotedText, takes_quotedText, ⟨_, hstring⟩, hleft, by cbv⟩

end IdentityProvider.Placeholder
