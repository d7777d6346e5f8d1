import IdentityProvider.Text.Blank

/-
  Patterns of paths.

  A pattern is a list of segments, one behind each slash.  A segment is a literal, or a literal
  lead with a capture behind it, which takes the rest of one segment or the rest of the path; what
  a capture takes is never empty.  In writing a capture is a name between braces, with a star in
  front of the name where it takes all the rest; a brace that is text is written twice.
-/

namespace IdentityProvider.Routing

/-- A segment of a pattern. -/
inductive Segment
  | literal (text : List Char)
  /-- Takes what follows the lead in its segment. -/
  | capture (lead name : List Char)
  /-- Takes what follows the lead in the path; it is the last segment. -/
  | remainder (lead name : List Char)
  deriving DecidableEq, Repr

/-- A character of a written pattern, with the doubled braces undone. -/
inductive Mark
  | char (c : Char)
  | opening
  | closing
  deriving DecidableEq, Repr

/-- The marks of a written pattern. -/
def marks : List Char → List Mark
  | [] => []
  | '{' :: '{' :: cs => .char '{' :: marks cs
  | '}' :: '}' :: cs => .char '}' :: marks cs
  | '{' :: cs => .opening :: marks cs
  | '}' :: cs => .closing :: marks cs
  | c :: cs => .char c :: marks cs

/-- A character of a pattern, or the name of a capture. -/
inductive Part
  | char (c : Char)
  | name (text : List Char)
  deriving DecidableEq, Repr

/-- Whether a capture can have this name, its star included. -/
def isName : List Char → Bool
  | [] => false
  | ['*'] => false
  | c :: cs => c ≠ '}' && cs.all fun d => d ≠ '*' && d ≠ '/'

/-- The parts that marks make; `name` is what has been read of a name whose brace is open. -/
def parts? : (name : Option (List Char)) → List Mark → Option (List Part)
  | none, [] => some []
  | some _, [] => none
  | none, .char c :: rest => (parts? none rest).map (.char c :: ·)
  | none, .opening :: rest => parts? (some []) rest
  | none, .closing :: _ => none
  | some name, .char c :: rest => parts? (some (name ++ [c])) rest
  | some name, .opening :: rest => parts? (some (name ++ ['{'])) rest
  | some name, .closing :: rest =>
    if isName name then (parts? none rest).map (.name name :: ·) else none

/-- The segments that parts make, the first of them with `lead` in front.  A capture ends its
segment, and the pattern where it takes all the rest. -/
def segments? : (lead : List Char) → List Part → Option (List Segment)
  | lead, [] => some [.literal lead]
  | lead, .char c :: rest =>
    if c = '/' then (segments? [] rest).map (.literal lead :: ·)
    else segments? (lead ++ [c]) rest
  | lead, [.name name] => some [match name with
    | '*' :: name => .remainder lead name
    | name => .capture lead name]
  | lead, .name name :: .char c :: rest =>
    if c = '/' ∧ name.head? ≠ some '*' then (segments? [] rest).map (.capture lead name :: ·)
    else none
  | _, .name _ :: .name _ :: _ => none

/-- Whether a written segment begins like a capture in another style, which is refused. -/
def isForeign (segment : List Char) : Bool :=
  segment.head? = some ':' || segment.head? = some '*'

/-- A pattern. -/
structure Pattern where
  segments : List Segment
  deriving DecidableEq, Repr

/-- What captures take, by name. -/
abbrev Captures := List (List Char × List Char)

namespace Segment

/-- How much of its segment is fixed. -/
def weight : Segment → Nat
  | .literal text => text.length
  | .capture lead _ => lead.length
  | .remainder lead _ => lead.length

/-- What `lead` leaves of a text, if it is something. -/
def taken? (lead text : List Char) : Option (List Char) :=
  match Text.after? lead text with
  | some (c :: cs) => some (c :: cs)
  | _ => none

/-- What the captures of a pattern take from the segments of a path. -/
def matchAll : List Segment → List (List Char) → Option Captures
  | [], [] => some []
  | .literal text :: pattern, piece :: path =>
    if piece = text then matchAll pattern path else none
  | .capture lead name :: pattern, piece :: path =>
    match taken? lead piece with
    | some value => (matchAll pattern path).map ((name, value) :: ·)
    | none => none
  | .remainder lead name :: _, piece :: path =>
    (taken? lead (Text.joinWith '/' (piece :: path))).map fun value => [(name, value)]
  | [], _ :: _ => none
  | _ :: _, [] => none

/-- Whether two patterns cannot stand side by side: they differ in names only, or a capture of all
the rest stands where the other has a capture. -/
def clash : List Segment → List Segment → Bool
  | [], [] => true
  | .literal a :: p, .literal b :: q => a = b && clash p q
  | .capture a _ :: p, .capture b _ :: q => a = b && clash p q
  | .capture a _ :: _, .remainder b _ :: _ => a = b
  | .remainder a _ :: _, .capture b _ :: _ => a = b
  | .remainder a _ :: _, .remainder b _ :: _ => a = b
  | _, _ => false

end Segment

namespace Pattern

/-- The pattern that a text writes. -/
def ofText? (text : String) : Option Pattern :=
  match text.toList with
  | '/' :: rest =>
    if (Text.splitOn '/' rest).any isForeign then none
    else ((parts? none (marks rest)).bind (segments? [])).map Pattern.mk
  | _ => none

theorem ofText?_eq_some {text : String} {pattern : Pattern} (h : ofText? text = some pattern) :
    ∃ rest parts, text.toList = '/' :: rest ∧ parts? none (marks rest) = some parts ∧
      segments? [] parts = some pattern.segments := by
  unfold ofText? at h
  split at h
  · next rest htext =>
    split at h
    · cases h
    · obtain ⟨segments, hsegments, rfl⟩ := Option.map_eq_some_iff.mp h
      obtain ⟨parts, hparts, hsegments⟩ := Option.bind_eq_some_iff.mp hsegments
      exact ⟨rest, parts, htext, hparts, hsegments⟩
  · cases h

/-- What the captures of a pattern take from a path, if the path matches. -/
def matchPath (pattern : Pattern) (path : String) : Option Captures :=
  match path.toList with
  | '/' :: rest => Segment.matchAll pattern.segments (Text.splitOn '/' rest)
  | _ => none

/-- How much of each segment is fixed.  Of two patterns that match a path, the one whose weights
come later in the order of lists goes before. -/
def weights (pattern : Pattern) : List Nat := pattern.segments.map Segment.weight

/-- Whether two patterns cannot stand side by side. -/
def clashesWith (p q : Pattern) : Bool := Segment.clash p.segments q.segments

end Pattern

end IdentityProvider.Routing
