import IdentityProvider.Routing.Pattern

/-
  The literal text that a pattern begins with.

  `literalStart` is what a written pattern says before its first capture.  It comes through the
  three steps in which a pattern is read and matched: it is the characters before the first name
  of the parts (`literalPart_eq`), the segments begin with it (`matchAll_begins`), and so does
  every path that the pattern matches (`Pattern.literalStart_begins_path`), whatever its captures
  take.
-/

namespace IdentityProvider.Routing

/-- The literal text that marks begin with, up to the first capture. -/
def literalStart : List Mark → List Char
  | [] => []
  | .char c :: rest => c :: literalStart rest
  | .opening :: _ => []
  | .closing :: _ => []

/-- The literal text that parts begin with, up to the first capture. -/
def literalPart : List Part → List Char
  | [] => []
  | .char c :: rest => c :: literalPart rest
  | .name _ :: _ => []

/-- The written pattern begins with this literal text, no further than to its first capture. -/
def BeginsWith (text literal : String) : Prop :=
  literal.toList <+: literalStart (marks text.toList)

instance (text literal : String) : Decidable (BeginsWith text literal) :=
  inferInstanceAs (Decidable (literal.toList <+: literalStart (marks text.toList)))

example : BeginsWith "/oauth/\x7bkind\x7d/token" "/oauth/" := by decide

/-! ## Parts -/

/-- A brace that is open in the marks closes on a name. -/
theorem parts?_some_eq {name : List Char} {written : List Mark} {parts : List Part}
    (h : parts? (some name) written = some parts) : ∃ read rest, parts = .name read :: rest := by
  induction written generalizing name with
  | nil => cases h
  | cons mark written ih =>
    cases mark with
    | char c => exact ih h
    | opening => exact ih h
    | closing =>
      rw [parts?] at h
      split at h
      · obtain ⟨rest, _, rfl⟩ := Option.map_eq_some_iff.mp h
        exact ⟨name, rest, rfl⟩
      · cases h

theorem literalPart_eq {written : List Mark} {parts : List Part}
    (h : parts? none written = some parts) : literalPart parts = literalStart written := by
  induction written generalizing parts with
  | nil =>
    cases h
    rfl
  | cons mark written ih =>
    cases mark with
    | char c =>
      obtain ⟨rest, hrest, rfl⟩ := Option.map_eq_some_iff.mp h
      rw [literalPart, literalStart, ih hrest]
    | opening =>
      obtain ⟨read, rest, rfl⟩ := parts?_some_eq h
      rfl
    | closing => cases h

/-! ## Segments -/

theorem begins_of_taken? {lead text value : List Char}
    (h : Segment.taken? lead text = some value) : lead <+: text := by
  unfold Segment.taken? at h
  split at h
  · next hafter => exact ⟨_, (Text.after?_eq_some.mp hafter).symm⟩
  · cases h

theorem begins_joinWith (sep : Char) (piece : List Char) (pieces : List (List Char)) :
    piece <+: Text.joinWith sep (piece :: pieces) := by
  cases pieces with
  | nil => exact List.prefix_refl piece
  | cons next pieces => exact List.prefix_append piece _

/-- What is fixed of a segment. -/
def Segment.opening : Segment → List Char
  | .literal text => text
  | .capture lead _ => lead
  | .remainder lead _ => lead

/-- What a pattern matches begins with what is fixed of its first segment. -/
theorem opening_begins {segment : Segment} {pattern : List Segment} {pieces : List (List Char)}
    {captures : Captures} (h : Segment.matchAll (segment :: pattern) pieces = some captures) :
    pieces ≠ [] ∧ segment.opening <+: Text.joinWith '/' pieces := by
  cases pieces with
  | nil =>
    rw [Segment.matchAll] at h
    cases h
  | cons piece pieces =>
    refine ⟨List.cons_ne_nil _ _, ?_⟩
    cases segment with
    | literal text =>
      rw [Segment.matchAll] at h
      split at h
      · next hpiece =>
        subst hpiece
        exact begins_joinWith '/' piece pieces
      · cases h
    | capture lead name =>
      rw [Segment.matchAll] at h
      split at h
      · next htaken => exact (begins_of_taken? htaken).trans (begins_joinWith '/' piece pieces)
      · cases h
    | remainder lead name =>
      rw [Segment.matchAll] at h
      obtain ⟨value, htaken, _⟩ := Option.map_eq_some_iff.mp h
      exact begins_of_taken? htaken

theorem matchAll_literal {text : List Char} {pattern : List Segment} {pieces : List (List Char)}
    {captures : Captures}
    (h : Segment.matchAll (.literal text :: pattern) pieces = some captures) :
    ∃ rest, pieces = text :: rest ∧ Segment.matchAll pattern rest = some captures := by
  cases pieces with
  | nil =>
    rw [Segment.matchAll] at h
    cases h
  | cons piece pieces =>
    rw [Segment.matchAll] at h
    split at h
    · next hpiece => exact ⟨pieces, by rw [hpiece], h⟩
    · cases h

/-- What the segments of a pattern match begins with the lead and, behind it, the literal text of
the parts that the segments were made of. -/
theorem matchAll_begins {lead : List Char} {parts : List Part} {segments : List Segment}
    {pieces : List (List Char)} {captures : Captures} (hread : segments? lead parts = some segments)
    (hmatch : Segment.matchAll segments pieces = some captures) :
    pieces ≠ [] ∧ lead ++ literalPart parts <+: Text.joinWith '/' pieces := by
  fun_induction segments? lead parts generalizing segments pieces captures with
  | case1 lead =>
    cases hread
    rw [literalPart, List.append_nil]
    exact opening_begins hmatch
  -- a slash ends the segment, and the next one begins without a lead
  | case2 lead rest ih =>
    obtain ⟨later, hlater, rfl⟩ := Option.map_eq_some_iff.mp hread
    obtain ⟨pieces, rfl, hrest⟩ := matchAll_literal hmatch
    obtain ⟨hne, hbegins⟩ := ih hlater hrest
    refine ⟨List.cons_ne_nil _ _, ?_⟩
    rw [literalPart, Text.joinWith_cons hne]
    exact (List.prefix_append_right_inj lead).mpr (List.cons_prefix_cons.mpr ⟨rfl, hbegins⟩)
  | case3 lead c rest _ ih =>
    rw [literalPart, List.append_cons]
    exact ih hread hmatch
  -- from a capture on there is no literal text any more
  | case4 lead name =>
    cases hread
    rw [literalPart, List.append_nil]
    have hopening := opening_begins hmatch
    split at hopening
    · exact hopening
    · exact hopening
  | case5 lead name c rest _ _ =>
    obtain ⟨later, _, rfl⟩ := Option.map_eq_some_iff.mp hread
    rw [literalPart, List.append_nil]
    exact opening_begins hmatch
  | case6 => cases hread
  | case7 => cases hread

/-- Every path that a pattern matches begins with the literal text that the pattern begins with. -/
theorem Pattern.literalStart_begins_path {text path : String} {pattern : Pattern}
    {captures : Captures} (hpattern : ofText? text = some pattern)
    (hpath : pattern.matchPath path = some captures) :
    literalStart (marks text.toList) <+: path.toList := by
  obtain ⟨rest, parts, htext, hparts, hsegments⟩ := ofText?_eq_some hpattern
  unfold matchPath at hpath
  split at hpath
  · next rest' hrest' =>
    have hstarts := (matchAll_begins hsegments hpath).2
    rw [List.nil_append, literalPart_eq hparts, Text.joinWith_splitOn] at hstarts
    have hmarks : marks ('/' :: rest) = .char '/' :: marks rest := by rw [marks] <;> simp
    rw [htext, hrest', hmarks, literalStart]
    exact List.cons_prefix_cons.mpr ⟨rfl, hstarts⟩
  · cases hpath

end IdentityProvider.Routing
