import IdentityProvider.Failure
import IdentityProvider.Wire

/-
  HTTP responses.

  A response may carry a raised failure beside its status, headers and body; it is then only a
  placeholder, which the server replaces before anything is sent.  Header names are in lower case.
-/

namespace IdentityProvider

namespace Status

/-- The request succeeded. -/
def ok : Nat := 200
/-- The request is wrong. -/
def badRequest : Nat := 400
/-- The request needs credentials. -/
def unauthorized : Nat := 401
/-- There is nothing at the path. -/
def notFound : Nat := 404
/-- The path is not served with this method. -/
def methodNotAllowed : Nat := 405
/-- The server failed. -/
def internalServerError : Nat := 500

end Status

/-- A response, and the failure that it stands for, if any. -/
structure Response where
  status : Nat
  headers : List (String × String)
  body : String
  raised : Option Failure
  deriving DecidableEq, Repr

namespace Response

/-- A plain text. -/
def ofText (status : Nat) (text : String) : Response :=
  ⟨status, [("content-type", "text/plain; charset=utf-8")], text, none⟩

/-- A JSON document. -/
def ofJson (status : Nat) (value : Json) : Response :=
  ⟨status, [("content-type", "application/json")], value.render, none⟩

/-- Nothing but a status. -/
def ofStatus (status : Nat) : Response := ⟨status, [], "", none⟩

/-- Whether the response to a method goes without its body: only its head was asked for, or it opens
a tunnel. -/
def isBodiless (response : Response) (method : String) : Bool :=
  method = "HEAD" || (method = "CONNECT" && 200 ≤ response.status && response.status < 300)

/-- The response without its body. -/
def withoutBody (response : Response) : Response := { response with body := "" }

end Response

/-- The response in which a raised failure travels to the place where it is rendered. -/
def Failure.response (failure : Failure) : Response :=
  { Response.ofStatus Status.internalServerError with raised := some failure }

end IdentityProvider
