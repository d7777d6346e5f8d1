import IdentityProvider.Json.Value

/-
  The bodies in which failures travel: the envelope of the management pages and the error of
  OAuth 2.0.  `toJson` fixes the names of their members and the order in which they are written.
-/

namespace IdentityProvider

/-- An entry of an envelope. -/
structure ErrorEntry where
  code : String
  message : String
  deriving DecidableEq, Repr

/-- The envelope of the management pages. -/
structure Envelope where
  errors : List ErrorEntry
  deriving DecidableEq, Repr

/-- The error of OAuth 2.0. -/
structure OAuthError where
  error : String
  description : String
  deriving DecidableEq, Repr

namespace Wire

/-- The member names of the bodies. -/
def errorsName : String := "errors"
/-- The name of the code of an entry. -/
def codeName : String := "errorCode"
/-- The name of the text of an entry. -/
def messageName : String := "errorMessage"
/-- The name of the code of an OAuth error. -/
def errorName : String := "error"
/-- The name of the text of an OAuth error. -/
def descriptionName : String := "error_description"

end Wire

/-- An entry as a JSON object. -/
def ErrorEntry.toJson (entry : ErrorEntry) : Json :=
  .object
    [(Wire.codeName.toList, .ofText entry.code), (Wire.messageName.toList, .ofText entry.message)]

/-- An envelope as a JSON object. -/
def Envelope.toJson (envelope : Envelope) : Json :=
  .object [(Wire.errorsName.toList, .array (envelope.errors.map ErrorEntry.toJson))]

/-- An envelope with one entry. -/
def Envelope.single (code message : String) : Envelope := ⟨[⟨code, message⟩]⟩

/-- An OAuth error as a JSON object. -/
def OAuthError.toJson (e : OAuthError) : Json :=
  .object [(Wire.errorName.toList, .ofText e.error),
    (Wire.descriptionName.toList, .ofText e.description)]

end IdentityProvider
