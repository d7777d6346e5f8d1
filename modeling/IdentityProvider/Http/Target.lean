/-
  What a request is for, as its first line says it.

  A target is a path with a query, with a scheme and an authority in front or without them.  A
  target without a slash at its start or behind a scheme names an authority only and has no path.
  Of the authority nothing is kept, but it is checked; what follows a `#` is dropped.
-/

namespace IdentityProvider

/-- The path that a request is for, percent-encoded, and its query, if there is one. -/
structure Target where
  path : List Char
  query : Option (List Char)
  deriving DecidableEq, Repr

namespace Target

/-- The visible characters that are reserved for other uses. -/
def reserved : List Char := ['"', '#', '<', '>', '?', '`', '{', '}']

/-- A character that is no control, no space and not reserved. -/
def isPlain (c : Char) : Bool := 0x20 < c.toNat && !reserved.contains c

/-- A character of a path. -/
def isPathChar (c : Char) : Bool := isPlain c || ['"', '{', '}'].contains c

/-- A character of a query. -/
def isQueryChar (c : Char) : Bool := isPlain c || ['?', '`', '{', '}'].contains c

/-- The path and the query at the start of a text that is cut at `#`. -/
def split? (text : List Char) : Option Target :=
  let path := text.takeWhile fun c => c ≠ '?' && c ≠ '#'
  if path.all isPathChar = false then none
  else match text.dropWhile fun c => c ≠ '?' && c ≠ '#' with
    | '?' :: rest =>
      let query := rest.takeWhile (· ≠ '#')
      if query.all isQueryChar then some ⟨path, some query⟩ else none
    | _ => some ⟨path, none⟩

/-- The marks that an authority may hold beside letters and digits. -/
def authorityMarks : List Char :=
  ['!', '$', '&', '\'', '(', ')', '*', '+', ',', '-', '.', ':', ';', '=', '@', '[', ']', '_', '~',
   '%']

/-- What has been seen of an authority, as far as its further course depends on it. -/
structure AuthorityState where
  /-- The colons since the last at-sign or closing bracket. -/
  colons : Nat
  opened : Bool
  closed : Bool
  /-- Whether there is a percent sign since the last at-sign or closing bracket. -/
  escaped : Bool
  /-- Whether the last character is an at-sign. -/
  dangling : Bool
  deriving DecidableEq, Repr

/-- The most colons in a row of an authority: those of a version 6 address with a port. -/
def colonLimit : Nat := 8

/-- The state behind a character, if it may stand there. -/
def AuthorityState.next? (s : AuthorityState) (c : Char) : Option AuthorityState :=
  let s := { s with dangling := false }
  if c = ':' then if s.colons < colonLimit then some { s with colons := s.colons + 1 } else none
  else if c = '[' then if s.escaped || s.opened then none else some { s with opened := true }
  else if c = ']' then
    if s.opened && !s.closed then some { s with closed := true, colons := 0, escaped := false }
    else none
  else if c = '@' then some { s with colons := 0, escaped := false, dangling := true }
  else if c = '%' then some { s with escaped := true }
  else if c.isAlphanum || authorityMarks.contains c then some s
  else none

/-- Whether an authority may end here. -/
def AuthorityState.isEnd (s : AuthorityState) : Bool :=
  s.opened = s.closed && s.colons ≤ 1 && !s.dangling && !s.escaped

/-- Whether a text is an authority; it may be empty. -/
def isAuthority (text : List Char) : Bool :=
  match text.foldlM AuthorityState.next? ⟨0, false, false, false, false⟩ with
  | some s => s.isEnd
  | none => false

/-- A character that ends an authority. -/
def isAuthorityEnd (c : Char) : Bool := c = '/' || c = '?' || c = '#'

/-- A character of a scheme. -/
def isSchemeChar (c : Char) : Bool := c.isAlphanum || ['+', '-', '.', '~'].contains c

/-- The longest scheme. -/
def schemeLimit : Nat := 64

/-- The scheme at the start of a text, and what follows it. -/
def scheme? (text : List Char) : Option (List Char × List Char) :=
  match text.dropWhile isSchemeChar with
  | ':' :: '/' :: '/' :: rest => some (text.takeWhile isSchemeChar, rest)
  | _ => none

/-- A target without a path, which is `/` behind a scheme. -/
def withPath (target : Target) : Target :=
  if target.path = [] then { target with path := ['/'] } else target

/-- The longest target, in bytes. -/
def lengthLimit : Nat := 65534

/-- The target that a text names. -/
def ofChars? (text : List Char) : Option Target :=
  match text with
  | [] => none
  | ['*'] => some ⟨['*'], none⟩
  | '/' :: _ => split? text
  | _ => match scheme? text with
    | some (scheme, rest) =>
      let authority := rest.takeWhile fun c => !isAuthorityEnd c
      if schemeLimit < scheme.length ∨ authority = [] ∨ isAuthority authority = false then none
      else (split? (rest.dropWhile fun c => !isAuthorityEnd c)).map withPath
    | none => if isAuthority text then some ⟨[], none⟩ else none

/-- The target that a text names, if the text is not too long. -/
def read? (text : String) : Option Target :=
  if lengthLimit < text.utf8ByteSize then none else ofChars? text.toList

end Target

end IdentityProvider
