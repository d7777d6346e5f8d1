import IdentityProvider.Proofs.Routing.LiteralStart
import IdentityProvider.Proofs.Text.Runs
import Mathlib.Data.List.Lex
import Mathlib.Order.Basic

/-
  Patterns without captures.

  Such a pattern matches one path and no other (`matchPath_eq_some_iff`), and it is written in one
  way: the path with every brace doubled (`toList_eq_doubled`).  It clashes with no pattern but
  itself (`eq_of_clashesWith`) and goes before every other pattern that matches its path
  (`weights_lt_of_matchPath`).
-/

namespace IdentityProvider.Routing

/-- A text with every brace doubled, as a pattern writes it. -/
def doubled (text : List Char) : List Char :=
  text.flatMap fun c => if c = '{' ∨ c = '}' then [c, c] else [c]

/-- The characters that a mark was read from. -/
def Mark.written : Mark → List Char
  | .char c => doubled [c]
  | .opening => ['{']
  | .closing => ['}']

theorem doubled_singleton {c : Char} (h : ¬ (c = '{' ∨ c = '}')) : doubled [c] = [c] := by
  simp [doubled, h]

/-- Nothing of a written pattern is lost in its marks. -/
theorem flatMap_written_marks (text : List Char) : (marks text).flatMap Mark.written = text := by
  fun_induction marks text with
  | case1 => rfl
  | case2 cs ih => rw [List.flatMap_cons, ih]; rfl
  | case3 cs ih => rw [List.flatMap_cons, ih]; rfl
  | case4 cs _ ih => rw [List.flatMap_cons, ih]; rfl
  | case5 cs _ ih => rw [List.flatMap_cons, ih]; rfl
  | case6 c cs _ _ hopening hclosing ih =>
    rw [List.flatMap_cons, ih, Mark.written, doubled_singleton]
    · rfl
    · rintro (rfl | rfl)
      · exact hopening rfl
      · exact hclosing rfl

theorem flatMap_written_chars (text : List Char) :
    (text.map Mark.char).flatMap Mark.written = doubled text := by
  rw [List.flatMap_map]
  unfold doubled
  congr 1
  funext c
  simp [Mark.written, doubled]

/-! ## How patterns are written -/

theorem marks_of_parts? {written : List Mark} {chars : List Char}
    (h : parts? none written = some (chars.map Part.char)) : written = chars.map Mark.char := by
  induction written generalizing chars with
  | nil =>
    cases chars with
    | nil => rfl
    | cons c chars => cases h
  | cons mark written ih =>
    cases mark with
    | char c =>
      obtain ⟨rest, hrest, heq⟩ := Option.map_eq_some_iff.mp h
      cases chars with
      | nil => cases heq
      | cons d chars =>
        rw [List.map_cons, List.cons.injEq, Part.char.injEq] at heq
        obtain ⟨rfl, rfl⟩ := heq
        rw [List.map_cons, ih hrest]
    | opening =>
      obtain ⟨read, rest, heq⟩ := parts?_some_eq h
      cases chars with
      | nil => cases heq
      | cons d chars => cases heq
    | closing => cases h

/-- Literal segments come of characters alone. -/
theorem chars_of_segments? {lead : List Char} {parts : List Part} {pieces : List (List Char)}
    (h : segments? lead parts = some (pieces.map Segment.literal)) :
    pieces ≠ [] ∧ ∃ chars, parts = chars.map Part.char ∧
      lead ++ chars = Text.joinWith '/' pieces := by
  fun_induction segments? lead parts generalizing pieces with
  | case1 lead =>
    cases pieces with
    | nil => cases h
    | cons piece pieces =>
      cases pieces with
      | nil =>
        cases h
        exact ⟨List.cons_ne_nil _ _, [], rfl, List.append_nil lead⟩
      | cons next pieces => cases h
  | case2 lead rest ih =>
    obtain ⟨later, hlater, heq⟩ := Option.map_eq_some_iff.mp h
    cases pieces with
    | nil => cases heq
    | cons piece pieces =>
      rw [List.map_cons, List.cons.injEq, Segment.literal.injEq] at heq
      obtain ⟨rfl, rfl⟩ := heq
      obtain ⟨hne, chars, rfl, hjoin⟩ := ih hlater
      refine ⟨List.cons_ne_nil _ _, '/' :: chars, rfl, ?_⟩
      rw [Text.joinWith_cons hne, ← hjoin, List.nil_append]
  | case3 lead c rest _ ih =>
    obtain ⟨hne, chars, rfl, hjoin⟩ := ih h
    refine ⟨hne, c :: chars, rfl, ?_⟩
    rw [← hjoin, List.append_assoc, List.singleton_append]
  -- a capture is no literal segment
  | case4 lead name =>
    cases pieces with
    | nil => cases h
    | cons piece pieces =>
      rw [Option.some.injEq, List.map_cons, List.cons.injEq] at h
      split at h
      · cases h.1
      · cases h.1
  | case5 lead name c rest _ _ =>
    obtain ⟨later, _, heq⟩ := Option.map_eq_some_iff.mp h
    cases pieces with
    | nil => cases heq
    | cons piece pieces => cases heq
  | case6 => cases h
  | case7 => cases h

/-- What is fixed of a segment holds no slash. -/
theorem slash_notMem_opening {lead : List Char} {parts : List Part} {segments : List Segment}
    (h : segments? lead parts = some segments) (hlead : '/' ∉ lead) :
    ∀ segment ∈ segments, '/' ∉ segment.opening := by
  fun_induction segments? lead parts generalizing segments with
  | case1 lead =>
    cases h
    exact List.forall_mem_singleton.mpr hlead
  | case2 lead rest ih =>
    obtain ⟨later, hlater, rfl⟩ := Option.map_eq_some_iff.mp h
    exact List.forall_mem_cons.mpr ⟨hlead, ih hlater List.not_mem_nil⟩
  | case3 lead c rest hc ih =>
    refine ih h ?_
    rw [List.mem_append, List.mem_singleton, not_or]
    exact ⟨hlead, Ne.symm hc⟩
  | case4 lead name =>
    cases h
    rw [List.forall_mem_singleton]
    split
    · exact hlead
    · exact hlead
  | case5 lead name c rest _ ih =>
    obtain ⟨later, hlater, rfl⟩ := Option.map_eq_some_iff.mp h
    exact List.forall_mem_cons.mpr ⟨hlead, ih hlater List.not_mem_nil⟩
  | case6 => cases h
  | case7 => cases h

/-! ## What patterns match -/

theorem matchAll_literals_iff {pieces path : List (List Char)} {captures : Captures} :
    Segment.matchAll (pieces.map Segment.literal) path = some captures ↔
      path = pieces ∧ captures = [] := by
  induction pieces generalizing path with
  | nil =>
    cases path with
    | nil => simp [Segment.matchAll, eq_comm]
    | cons piece path => simp [Segment.matchAll]
  | cons text pieces ih =>
    cases path with
    | nil => simp [Segment.matchAll]
    | cons piece path =>
      rw [List.map_cons, Segment.matchAll, Option.ite_none_right_eq_some, ih, List.cons.injEq,
        and_assoc]

theorem eq_append_of_taken? {lead text value : List Char}
    (h : Segment.taken? lead text = some value) : value ≠ [] ∧ text = lead ++ value := by
  unfold Segment.taken? at h
  split at h
  · next hafter =>
    cases h
    exact ⟨List.cons_ne_nil _ _, Text.after?_eq_some.mp hafter⟩
  · cases h

theorem length_lt_of_taken? {lead text value : List Char}
    (h : Segment.taken? lead text = some value) : lead.length < text.length := by
  obtain ⟨hne, rfl⟩ := eq_append_of_taken? h
  have := List.length_pos_of_ne_nil hne
  rw [List.length_append]
  omega

/-- What a capture of all the rest has in front of it is no longer than the segment in which it
stands, and shorter if that is the last one of the path. -/
theorem weights_lt_of_remainder {lead piece value : List Char} {path : List (List Char)}
    (hlead : '/' ∉ lead)
    (h : Segment.taken? lead (Text.joinWith '/' (piece :: path)) = some value) :
    [lead.length] < (piece :: path).map List.length := by
  rw [List.map_cons, List.cons_lt_cons_iff]
  cases path with
  | nil => exact .inl (length_lt_of_taken? h)
  | cons next path =>
    obtain ⟨_, heq⟩ := eq_append_of_taken? h
    rw [Text.joinWith_cons (List.cons_ne_nil next path)] at heq
    rcases List.append_eq_append_iff.mp heq with ⟨more, hmore, hrest⟩ | ⟨more, hmore, hrest⟩
    · cases more with
      | nil =>
        rw [List.append_nil] at hmore
        exact .inr ⟨by rw [hmore], by simp⟩
      | cons c more =>
        obtain ⟨rfl, _⟩ := List.cons.inj hrest
        exact absurd (hmore ▸ List.mem_append_right piece List.mem_cons_self) hlead
    · rw [hmore, List.length_append]
      cases more with
      | nil => exact .inr ⟨rfl, by simp⟩
      | cons c more => exact .inl (by rw [List.length_cons]; omega)

/-- Of all patterns that match the pieces the literal ones have the greatest weights. -/
theorem weights_lt_of_matchAll {lead : List Char} {parts : List Part} {segments : List Segment}
    {pieces : List (List Char)} {captures : Captures} (hread : segments? lead parts = some segments)
    (hlead : '/' ∉ lead) (hmatch : Segment.matchAll segments pieces = some captures) :
    segments = pieces.map Segment.literal ∨
      segments.map Segment.weight < pieces.map List.length := by
  fun_induction segments? lead parts generalizing segments pieces captures with
  | case1 lead =>
    cases hread
    obtain ⟨rfl, _⟩ := (@matchAll_literals_iff [lead]).mp hmatch
    exact .inl rfl
  | case2 lead rest ih =>
    obtain ⟨later, hlater, rfl⟩ := Option.map_eq_some_iff.mp hread
    obtain ⟨pieces, rfl, hrest⟩ := matchAll_literal hmatch
    rw [List.map_cons, List.map_cons, List.map_cons, List.cons_lt_cons_iff]
    rcases ih hlater List.not_mem_nil hrest with rfl | hlt
    · exact .inl rfl
    · exact .inr (.inr ⟨rfl, hlt⟩)
  | case3 lead c rest hc ih =>
    refine ih hread ?_ hmatch
    rw [List.mem_append, List.mem_singleton, not_or]
    exact ⟨hlead, Ne.symm hc⟩
  | case4 lead name =>
    cases hread
    cases pieces with
    | nil => split at hmatch <;> cases hmatch
    | cons piece path =>
      right
      split at hmatch
      · rw [Segment.matchAll] at hmatch
        obtain ⟨value, htaken, _⟩ := Option.map_eq_some_iff.mp hmatch
        exact weights_lt_of_remainder hlead htaken
      · rw [Segment.matchAll] at hmatch
        split at hmatch
        · next htaken =>
          rw [List.map_cons, List.map_cons, List.cons_lt_cons_iff]
          exact .inl (length_lt_of_taken? htaken)
        · cases hmatch
  | case5 lead name c rest _ ih =>
    obtain ⟨later, _, rfl⟩ := Option.map_eq_some_iff.mp hread
    cases pieces with
    | nil => cases hmatch
    | cons piece path =>
      right
      rw [Segment.matchAll] at hmatch
      split at hmatch
      · next htaken =>
        rw [List.map_cons, List.map_cons, List.cons_lt_cons_iff]
        exact .inl (length_lt_of_taken? htaken)
      · cases hmatch
  | case6 => cases hread
  | case7 => cases hread

theorem eq_of_clash_literals {segments : List Segment} {pieces : List (List Char)}
    (h : Segment.clash segments (pieces.map Segment.literal) = true) :
    segments = pieces.map Segment.literal := by
  induction segments generalizing pieces with
  | nil =>
    cases pieces with
    | nil => rfl
    | cons piece pieces => cases h
  | cons segment segments ih =>
    cases pieces with
    | nil => cases segment <;> cases h
    | cons piece pieces =>
      cases segment with
      | literal text =>
        rw [List.map_cons, Segment.clash, Bool.and_eq_true, decide_eq_true_eq] at h
        rw [List.map_cons, h.1, ih h.2]
      | capture lead name => cases h
      | remainder lead name => cases h

namespace Pattern

/-- The pattern has no capture. -/
def IsLiteral (pattern : Pattern) : Prop :=
  ∃ pieces : List (List Char), pattern.segments = pieces.map Segment.literal

/-- The path that a pattern without captures matches. -/
def literalPath (pattern : Pattern) : String :=
  String.ofList ('/' :: Text.joinWith '/' (pattern.segments.map Segment.opening))

theorem literalPath_eq {pattern : Pattern} {pieces : List (List Char)}
    (h : pattern.segments = pieces.map Segment.literal) :
    pattern.literalPath = String.ofList ('/' :: Text.joinWith '/' pieces) := by
  have hpieces : (pieces.map Segment.literal).map Segment.opening = pieces := by
    rw [List.map_map]
    exact List.map_id pieces
  rw [literalPath, h, hpieces]

section

variable {text : String} {pattern : Pattern}

/-- A pattern without captures is written as its path with every brace doubled. -/
theorem toList_eq_doubled (hpattern : ofText? text = some pattern) (h : pattern.IsLiteral) :
    text.toList = doubled pattern.literalPath.toList := by
  obtain ⟨pieces, hpieces⟩ := h
  obtain ⟨rest, parts, htext, hparts, hsegments⟩ := ofText?_eq_some hpattern
  rw [hpieces] at hsegments
  obtain ⟨_, chars, rfl, hchars⟩ := chars_of_segments? hsegments
  have hmarks : marks rest = chars.map Mark.char := marks_of_parts? hparts
  have hrest : rest = doubled chars := by
    rw [← flatMap_written_marks rest, hmarks, flatMap_written_chars]
  rw [literalPath_eq hpieces, String.toList_ofList, ← hchars, htext, hrest]
  rfl

/-- Patterns without captures are written alike only if they are the same. -/
theorem text_eq_of_isLiteral {other : String} (hpattern : ofText? text = some pattern)
    (hother : ofText? other = some pattern) (h : pattern.IsLiteral) : text = other := by
  refine String.toList_injective ?_
  rw [toList_eq_doubled hpattern h, toList_eq_doubled hother h]

/-- The path of a pattern without captures has the pieces of the pattern. -/
theorem splitOn_literalPath (hpattern : ofText? text = some pattern) {pieces : List (List Char)}
    (hpieces : pattern.segments = pieces.map Segment.literal) :
    ∃ rest, pattern.literalPath.toList = '/' :: rest ∧ Text.splitOn '/' rest = pieces := by
  obtain ⟨_, parts, _, _, hsegments⟩ := ofText?_eq_some hpattern
  have hslash := slash_notMem_opening hsegments List.not_mem_nil
  rw [hpieces] at hsegments hslash
  refine ⟨Text.joinWith '/' pieces, ?_, ?_⟩
  · rw [literalPath_eq hpieces, String.toList_ofList]
  · exact Text.splitOn_joinWith (chars_of_segments? hsegments).1
      fun piece hpiece => hslash _ (List.mem_map_of_mem hpiece)

/-- A pattern without captures matches its path and no other. -/
theorem matchPath_eq_some_iff (hpattern : ofText? text = some pattern) (h : pattern.IsLiteral)
    {path : String} {captures : Captures} :
    pattern.matchPath path = some captures ↔ path = pattern.literalPath ∧ captures = [] := by
  obtain ⟨pieces, hpieces⟩ := h
  constructor
  · intro hmatch
    unfold matchPath at hmatch
    split at hmatch
    · next rest hpath =>
      rw [hpieces, matchAll_literals_iff] at hmatch
      refine ⟨String.toList_injective ?_, hmatch.2⟩
      rw [hpath, literalPath_eq hpieces, String.toList_ofList, ← hmatch.1, Text.joinWith_splitOn]
    · cases hmatch
  · rintro ⟨rfl, rfl⟩
    obtain ⟨rest, hpath, hsplit⟩ := splitOn_literalPath hpattern hpieces
    rw [matchPath, hpath]
    show Segment.matchAll _ _ = _
    rw [hsplit, hpieces]
    exact matchAll_literals_iff.mpr ⟨rfl, rfl⟩

/-- A pattern without captures goes before every other pattern that matches its path. -/
theorem weights_lt_of_matchPath {other : Pattern} {written : String} {captures : Captures}
    (hpattern : ofText? text = some pattern) (h : pattern.IsLiteral)
    (hother : ofText? written = some other)
    (hmatch : other.matchPath pattern.literalPath = some captures) :
    other = pattern ∨ other.weights < pattern.weights := by
  obtain ⟨pieces, hpieces⟩ := h
  obtain ⟨rest, hpath, hsplit⟩ := splitOn_literalPath hpattern hpieces
  obtain ⟨_, parts, _, _, hsegments⟩ := ofText?_eq_some hother
  have hall : Segment.matchAll other.segments pieces = some captures := by
    rw [matchPath, hpath] at hmatch
    rw [← hsplit]
    exact hmatch
  have hweights : pattern.weights = pieces.map List.length := by
    rw [weights, hpieces, List.map_map]
    rfl
  rcases weights_lt_of_matchAll hsegments List.not_mem_nil hall with heq | hlt
  · left
    obtain ⟨segments⟩ := other
    obtain ⟨literals⟩ := pattern
    exact congrArg mk (heq.trans hpieces.symm)
  · right
    rw [hweights]
    exact hlt

/-- A pattern without captures clashes with no pattern but itself. -/
theorem eq_of_clashesWith {other : Pattern} (h : pattern.IsLiteral)
    (hclash : other.clashesWith pattern = true) : other = pattern := by
  obtain ⟨pieces, hpieces⟩ := h
  obtain ⟨segments⟩ := other
  obtain ⟨literals⟩ := pattern
  obtain rfl : literals = pieces.map Segment.literal := hpieces
  exact congrArg Pattern.mk (eq_of_clash_literals hclash)

end

end Pattern

end IdentityProvider.Routing
