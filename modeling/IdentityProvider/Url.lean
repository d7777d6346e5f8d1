import IdentityProvider.Url.Host

/-
  Which texts are absolute URLs.

  Blanks and controls at the ends and line ends and tabs anywhere are not counted.  A scheme must
  come first; what must follow depends on it.  Paths, queries and fragments can be anything.
-/

namespace IdentityProvider.Url

/-- What a scheme asks of the text behind it. -/
inductive Kind
  /-- A host must follow. -/
  | regular
  /-- A host may follow, but no port. -/
  | file
  /-- A host may follow two slashes. -/
  | free
  deriving DecidableEq, Repr

/-- The schemes with a host. -/
def regularSchemes : List String := ["http", "https", "ws", "wss", "ftp"]

/-- The kind of a scheme in lower case. -/
def kindOf (scheme : String) : Kind :=
  if scheme ∈ regularSchemes then .regular else if scheme = "file" then .file else .free

/-- A character that is not counted at the ends of a URL. -/
def isEdge (c : Char) : Bool := c.toNat ≤ 0x20

/-- A URL without the characters that are not counted. -/
def significant (text : List Char) : List Char :=
  ((text.dropWhile isEdge).reverse.dropWhile isEdge).reverse.filter
    fun c => c ≠ '\t' && c ≠ '\n' && c ≠ '\r'

/-- A character of a scheme behind its first letter. -/
def isSchemeChar (c : Char) : Bool := c.isAlphanum || c = '+' || c = '-' || c = '.'

/-- The scheme of a URL in lower case, and what follows its colon. -/
def scheme? (text : List Char) : Option (String × List Char) :=
  match text.head?, text.dropWhile isSchemeChar with
  | some first, ':' :: rest =>
    if first.isAlpha then
      some (String.ofList ((text.takeWhile isSchemeChar).map Char.toLower), rest)
    else none
  | _, _ => none

/-- A slash; in schemes with rules a backslash is one as well. -/
def isSlash (isRegular : Bool) (c : Char) : Bool := c = '/' || (isRegular && c = '\\')

/-- A character that ends the authority of a URL. -/
def isAuthorityEnd (isRegular : Bool) (c : Char) : Bool :=
  isSlash isRegular c || c = '?' || c = '#'

/-- The host in front of a colon outside of brackets, and what follows it. -/
def hostPart : (isBracketed : Bool) → List Char → List Char × List Char
  | _, [] => ([], [])
  | isBracketed, c :: cs =>
    if c = ':' ∧ isBracketed = false then ([], c :: cs)
    else
      let (host, rest) := hostPart (c = '[' || (isBracketed && c ≠ ']')) cs
      (c :: host, rest)

/-- Whether a text is nothing, or a colon and a port of at most 65535; a backslash ends the port. -/
def isPort : List Char → Bool
  | [] => true
  | ':' :: text => (Text.Digits.number? 10 (text.takeWhile (· ≠ '\\'))).any (· ≤ 65535)
  | _ => false

/-- What stands in front of the last `@` of an authority, and what follows it. -/
def userPart (authority : List Char) : Option (List Char) × List Char :=
  if '@' ∈ authority then
    (some ((authority.reverse.dropWhile (· ≠ '@')).drop 1).reverse,
      (authority.reverse.takeWhile (· ≠ '@')).reverse)
  else (none, authority)

/-- Whether an authority is one; `isLast` says that the URL ends behind it. -/
def isAuthority (isRegular isLast : Bool) (authority : List Char) : Bool :=
  let (user, rest) := userPart authority
  let (host, port) := hostPart false rest
  if host = [] then
    !isRegular && port = [] && (user = none || user = some [':'] || (user = some [] && isLast))
  else (if isRegular then Host.isRegular host else Host.isFree host) && isPort port

/-- Whether a text behind the slashes of an authority starts with one. -/
def startsWithAuthority (isRegular : Bool) (text : List Char) : Bool :=
  isAuthority isRegular (text.dropWhile fun c => !isAuthorityEnd isRegular c).isEmpty
    (text.takeWhile fun c => !isAuthorityEnd isRegular c)

/-- Whether a text is the letter of a drive with its colon or bar. -/
def isDrive : List Char → Bool
  | [letter, mark] => letter.isAlpha && (mark = ':' || mark = '|')
  | _ => false

/-- Whether a text can follow the scheme of files. -/
def isFileRest (text : List Char) : Bool :=
  match text with
  | a :: b :: rest =>
    if isSlash true a && isSlash true b then
      let host := rest.takeWhile fun c => !isAuthorityEnd true c
      host = [] || isDrive host || Host.isRegular host
    else true
  | _ => true

/-- Whether a text is an absolute URL. -/
def isAbsolute (text : String) : Bool :=
  match scheme? (significant text.toList) with
  | none => false
  | some (scheme, rest) =>
    match kindOf scheme with
    | .regular => startsWithAuthority true (rest.dropWhile (isSlash true))
    | .file => isFileRest rest
    | .free =>
      match rest with
      | '/' :: '/' :: rest => startsWithAuthority false rest
      | _ => true

end IdentityProvider.Url
