/-
  Tokens, and the media types that the header `content-type` names with them.

  Tokens are the words of which the head of a message is made.  A media type has a type, a subtype,
  which may carry a suffix behind a plus sign, and parameters.  The parameters are checked and then
  left aside.
-/

namespace IdentityProvider

namespace Http

/-- The characters of a token that are neither letters nor digits. -/
def tokenMarks : List Char :=
  ['!', '#', '$', '%', '&', '\'', '*', '+', '-', '.', '^', '_', '`', '|', '~']

/-- A character of a token. -/
def isTokenChar (c : Char) : Bool := c.isAlphanum || tokenMarks.contains c

/-- Whether a text is a token. -/
def isToken (text : List Char) : Bool := text ≠ [] && text.all isTokenChar

end Http

/-- A media type, in lower case. -/
structure MediaType where
  type : List Char
  subtype : List Char
  suffix : Option (List Char)
  deriving DecidableEq, Repr

namespace MediaType

open Http (isTokenChar)

/-- Where in the parameters a reader is. -/
inductive Place
  | nameStart
  | name
  | valueStart
  | value
  | quotedStart
  | quoted
  | afterQuoted
  deriving DecidableEq, Repr

/-- Whether the parameters may end here. -/
def Place.isEnd : Place → Bool
  | .nameStart => true
  | .valueStart => true
  | .value => true
  | .afterQuoted => true
  | _ => false

/-- A character that may stand between quotes. -/
def isQuotedChar (c : Char) : Bool := 0x1F < c.toNat && c ≠ '\x7f'

/-- The place behind a character, if it may stand there. -/
def Place.next? (place : Place) (c : Char) : Option Place :=
  match place with
  | .nameStart =>
    if c = ' ' then some .nameStart else if isTokenChar c then some .name else none
  | .name => if isTokenChar c then some .name else if c = '=' then some .valueStart else none
  | .valueStart =>
    if c = '"' then some .quotedStart else if isTokenChar c then some .value else none
  | .value => if isTokenChar c then some .value else if c = ';' then some .nameStart else none
  | .quotedStart => if isQuotedChar c then some .quoted else none
  | .quoted => if c = '"' then some .afterQuoted else if isQuotedChar c then some .quoted else none
  | .afterQuoted =>
    if c = ';' then some .nameStart else if c = ' ' then some .afterQuoted else none

/-- Whether a text is a list of parameters. -/
def isParameters (text : List Char) : Bool :=
  match text.foldlM Place.next? Place.nameStart with
  | some place => place.isEnd
  | none => false

/-- The part of a subtype in front of its last plus sign, and the suffix behind it.  A plus sign at
the start is part of the subtype. -/
def splitSuffix (subtype : List Char) : List Char × Option (List Char) :=
  let suffix := (subtype.reverse.takeWhile (· ≠ '+')).reverse
  match (subtype.reverse.dropWhile (· ≠ '+')).reverse with
  | [] => (subtype, none)
  | [_] => (subtype, none)
  | named => (named.dropLast, some suffix)

/-- The media type that a text names. -/
def read? (text : String) : Option MediaType :=
  let cs := text.toList.map Char.toLower
  match cs.takeWhile isTokenChar, cs.dropWhile isTokenChar with
  | type@(_ :: _), '/' :: rest =>
    let subtype := rest.takeWhile isTokenChar
    let (base, suffix) := splitSuffix subtype
    match rest.dropWhile isTokenChar with
    | [] => some ⟨type, base, suffix⟩
    | ';' :: parameters =>
      if subtype ≠ [] ∧ isParameters parameters = true then some ⟨type, base, suffix⟩ else none
    | _ => none
  | _, _ => none

/-- The type of JSON and its relatives. -/
def application : List Char := ['a', 'p', 'p', 'l', 'i', 'c', 'a', 't', 'i', 'o', 'n']

/-- The subtype of JSON, and the suffix of its relatives. -/
def json : List Char := ['j', 's', 'o', 'n']

/-- Whether documents of this type are JSON. -/
def isJson (t : MediaType) : Bool :=
  t.type = application && (t.subtype = json || t.suffix = some json)

end MediaType

end IdentityProvider
