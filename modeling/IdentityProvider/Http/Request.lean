import IdentityProvider.Http.MediaType
import IdentityProvider.Http.Target
import IdentityProvider.Text.Utf8

/-
  HTTP requests.

  A request is made from its parts, if each of them can stand in a message.  A router may take the
  start off the path before it hands a request on; the path that was sent stays with the request.
  Header names are in lower case; of two headers with one name the first counts.
-/

namespace IdentityProvider

/-- A request. -/
structure Request where
  method : String
  /-- The path as the router in charge sees it, percent-encoded. -/
  path : String
  /-- The path that was sent. -/
  sentPath : String
  /-- What follows the question mark, if there is one. -/
  query : Option String
  headers : List (String × List UInt8)
  body : List UInt8
  deriving DecidableEq, Repr

namespace Request

/-- A byte of a header value that is text: visible ASCII, the space and the tab. -/
def isTextByte (b : UInt8) : Bool := (0x20 ≤ b.toNat && b.toNat < 0x7F) || b.toNat = 0x09

/-- The value of a header, if it is there and is text. -/
def header? (request : Request) (name : String) : Option String := do
  let bytes ← request.headers.lookup name
  guard (bytes.all isTextByte)
  Text.Utf8.text? bytes

/-- A byte that a header value may hold: no control but the tab. -/
def isValueByte (b : UInt8) : Bool := (0x20 ≤ b.toNat || b.toNat = 0x09) && b.toNat ≠ 0x7F

/-- The header that a name and a value make, with the name in lower case. -/
def makeHeader? (name value : String) : Option (String × List UInt8) :=
  let bytes := Text.Utf8.encode value
  if Http.isToken name.toList && bytes.all isValueByte then
    some (String.ofList (name.toList.map Char.toLower), bytes)
  else none

/-- The request that is made of these parts. -/
def ofParts? (method target : String) (headers : List (String × String)) (body : List UInt8) :
    Option Request := do
  guard (Http.isToken method.toList)
  let target ← Target.read? target
  let path := String.ofList target.path
  return {
    method, path, sentPath := path
    query := target.query.map String.ofList
    headers := ← headers.mapM fun (name, value) => makeHeader? name value
    body }

end Request

end IdentityProvider
