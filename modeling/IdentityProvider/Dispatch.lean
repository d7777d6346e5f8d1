import IdentityProvider.Catalog
import IdentityProvider.Http.Response
import IdentityProvider.Log.Event
import IdentityProvider.Surface

/-
  The dispatcher: the one place in which a failure becomes a response.

  The internal surface shows every part of a failure in an envelope that is never empty, the OAuth
  surface shows one error, the challenge surface shows a token.  Text from a failure that is not
  meant for the caller is replaced by the text of its code in the catalog.  A token goes into the
  header of a challenge between double quotes as it is, and one that no header can hold is replaced
  by `unknown_error`.  A dispatch classifies the path, renders the failure for that surface and logs
  two events: what went wrong and where, then the surface.
-/

namespace IdentityProvider

/-! ## Challenges -/

namespace Challenge

/-- The token of a failure: only an unauthenticated caller is told what is wrong. -/
def token : Failure → String
  | .domain .notAuthenticated => ErrorCode.invalidAuthToken
  | _ => ErrorCode.unknownError

theorem token_eq_ite (failure : Failure) :
    token failure = if failure = .domain .notAuthenticated
      then ErrorCode.invalidAuthToken else ErrorCode.unknownError := by
  unfold token
  split
  · rw [if_pos rfl]
  · next hne => rw [if_neg hne]

/-- A character that a header value may hold: no control but the tab. -/
def isSendable (c : Char) : Bool := (0x20 ≤ c.toNat || c = '\t') && c ≠ '\x7f'

/-- The challenge for a token, with nothing escaped. -/
def parameter (token : String) : String := "error=\"" ++ token ++ "\""

/-- The header value for a token. -/
def headerValue (token : String) : String :=
  if token.toList.all isSendable then parameter token else parameter ErrorCode.unknownError

end Challenge

/-! ## Encodings -/

/-- The entry for a code, with its text from the catalog. -/
def Catalog.entry (catalog : Catalog) (code : String) : ErrorEntry := ⟨code, catalog.resolve code⟩

/-- The error for a code, with its text from the catalog. -/
def Catalog.oauthError (catalog : Catalog) (code : String) : OAuthError :=
  ⟨code, catalog.resolve code⟩

/-- The entry of a rejected field: its message is the code. -/
def FieldError.entry (e : FieldError) : ErrorEntry := ⟨e.message, e.field ++ ": " ++ e.message⟩

/-- The entry of a violated constraint. -/
def Violation.entry (v : Violation) : ErrorEntry :=
  ⟨ErrorCode.invalidRequest, v.property ++ ": " ++ v.message⟩

namespace Encoding

/-- The entries of a failure on the internal surface, one for each part. -/
def entries (catalog : Catalog) : Failure → List ErrorEntry
  | .invalidArgument errors _ => errors.map FieldError.entry
  | .constraintViolation violations _ => violations.map Violation.entry
  | .missingParameter _ message => [⟨ErrorCode.invalidRequest, message⟩]
  | .mediaTypeNotAcceptable message => [⟨ErrorCode.invalidRequest, message⟩]
  | .domain .invalidClient => [catalog.entry ErrorCode.invalidClientId]
  | .domain denial => [catalog.entry denial.code]
  | .typeMismatch _ => [catalog.entry ErrorCode.unknownError]
  | .unclassified _ => [catalog.entry ErrorCode.unknownError]

/-- The envelope of a failure; a failure without parts is shown by its own words. -/
def envelope (catalog : Catalog) (failure : Failure) : Envelope :=
  match entries catalog failure with
  | [] => .single ErrorCode.invalidRequest failure.text
  | e :: es => ⟨e :: es⟩

/-- The denial of an unknown client has a branch of its own, and there the code of all others. -/
theorem envelope_domain (catalog : Catalog) (denial : Denial) :
    envelope catalog (.domain denial) = ⟨[catalog.entry denial.code]⟩ := by
  cases denial <;> rfl

/-- The status and the error of a failure on the OAuth surface. -/
def oauth (catalog : Catalog) : Failure → Nat × OAuthError
  | .invalidArgument errors message =>
    (Status.badRequest, ⟨ErrorCode.invalidInput, (errors.head?.map (·.message)).getD message⟩)
  | .constraintViolation violations message =>
    (Status.badRequest, ⟨ErrorCode.invalidInput, (violations.head?.map (·.message)).getD message⟩)
  | .domain denial => (Status.badRequest, catalog.oauthError denial.code)
  | .missingParameter _ _ => (Status.internalServerError, catalog.oauthError ErrorCode.unknownError)
  | .mediaTypeNotAcceptable _ =>
    (Status.internalServerError, catalog.oauthError ErrorCode.unknownError)
  | .typeMismatch _ => (Status.internalServerError, catalog.oauthError ErrorCode.unknownError)
  | .unclassified _ => (Status.internalServerError, catalog.oauthError ErrorCode.unknownError)

end Encoding

/-- A failure as a surface shows it. -/
inductive Rendering
  | envelope (body : Envelope)
  | oauth (status : Nat) (body : OAuthError)
  | challenge (token : String)
  deriving DecidableEq, Repr

/-- A failure as the given surface shows it. -/
def Failure.rendering (failure : Failure) (catalog : Catalog) : Surface → Rendering
  | .internal => .envelope (Encoding.envelope catalog failure)
  | .oauth => .oauth (Encoding.oauth catalog failure).1 (Encoding.oauth catalog failure).2
  | .challenge => .challenge (Challenge.token failure)

/-- The status with which a failure is shown. -/
def Rendering.status : Rendering → Nat
  | .envelope _ => Status.ok
  | .oauth status _ => status
  | .challenge _ => Status.unauthorized

/-- The response that is sent. -/
def Rendering.response : Rendering → Response
  | .envelope body => .ofJson Status.ok body.toJson
  | .oauth status body => .ofJson status body.toJson
  | .challenge token =>
    ⟨Status.unauthorized, [("www-authenticate", Challenge.headerValue token)], "", none⟩

theorem Rendering.response_raised (rendering : Rendering) : rendering.response.raised = none := by
  cases rendering <;> rfl

/-! ## Dispatches -/

/-- What a dispatch needs to know. -/
structure Dispatcher where
  classifier : Classifier
  catalog : Catalog
  deriving DecidableEq, Repr

namespace Dispatcher

/-- The failure as it is shown at the path. -/
def rendering (dispatcher : Dispatcher) (failure : Failure) (path : String) : Rendering :=
  failure.rendering dispatcher.catalog (dispatcher.classifier.classify path)

/-- What a dispatch logs. -/
def events (dispatcher : Dispatcher) (failure : Failure) (path : String) : List Log.Event :=
  [.failureEncountered path failure.text,
   .failureDispatched path (dispatcher.classifier.classify path)]

/-- The response to a failure at a path, and what is logged. -/
def dispatch (dispatcher : Dispatcher) (failure : Failure) (path : String) :
    Response × List Log.Event :=
  ((dispatcher.rendering failure path).response, dispatcher.events failure path)

end Dispatcher

end IdentityProvider
