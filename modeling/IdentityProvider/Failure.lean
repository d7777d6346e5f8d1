/-
  What can go wrong while a request is handled.

  A `Failure` says what went wrong and carries only what its rendering needs; a `Denial` is a
  failure of the provider's own rules, which comes with a stable code.  `Failure.text` is the one
  place in which a failure is put into words: those words go to the log.
-/

namespace IdentityProvider

namespace ErrorCode

/-- The request is malformed or lacks something. -/
def invalidRequest : String := "invalid_request"
/-- A value of the request breaks a rule. -/
def invalidInput : String := "invalid_input"
/-- The client is not registered or not the one it claims to be. -/
def invalidClientId : String := "invalid_client_id"
/-- The redirect URI is not registered for the client. -/
def invalidRedirectUri : String := "invalid_redirect_uri"
/-- The transaction is unknown, expired or used up. -/
def invalidTransaction : String := "invalid_transaction"
/-- The access token is missing or wrong. -/
def invalidAuthToken : String := "invalid_auth_token"
/-- Anything else. -/
def unknownError : String := "unknown_error"

end ErrorCode

/-- A field of a request body that was rejected; the message is an error code by convention. -/
structure FieldError where
  field : String
  message : String
  deriving DecidableEq, Repr

/-- A constraint on a request parameter that does not hold. -/
structure Violation where
  property : String
  message : String
  deriving DecidableEq, Repr

/-- A failure of the provider's own rules. -/
inductive Denial
  | invalidClient
  | notAuthenticated
  | invalidTransaction
  | invalidRedirectUri
  /-- Any other registered code; it differs from the four above even where the code is theirs. -/
  | coded (code : String)
  deriving DecidableEq, Repr

/-- The stable code of a denial. -/
def Denial.code : Denial → String
  | .invalidClient => ErrorCode.invalidClientId
  | .notAuthenticated => ErrorCode.invalidAuthToken
  | .invalidTransaction => ErrorCode.invalidTransaction
  | .invalidRedirectUri => ErrorCode.invalidRedirectUri
  | .coded code => code

/-- A denial in words. -/
def Denial.text : Denial → String
  | .invalidClient => "invalid client"
  | .notAuthenticated => "not authenticated"
  | .invalidTransaction => "invalid transaction"
  | .invalidRedirectUri => "invalid redirect uri"
  | .coded code => "idp error: " ++ code

/-- An error from elsewhere: what it said, and the contexts that were put around it, the
innermost first. -/
structure Cause where
  root : String
  contexts : List String
  deriving DecidableEq, Repr

/-- A cause in words: the outermost context, or what the error said where there is none. -/
def Cause.text (cause : Cause) : String := cause.contexts.getLastD cause.root

/-- What can go wrong while a request is handled. -/
inductive Failure
  /-- The request body breaks a rule, with an entry for each field. -/
  | invalidArgument (errors : List FieldError) (message : String)
  /-- The request parameters break a rule, with an entry for each constraint. -/
  | constraintViolation (violations : List Violation) (message : String)
  /-- A required parameter is absent. -/
  | missingParameter (name : String) (message : String)
  /-- The media type of the request cannot be handled. -/
  | mediaTypeNotAcceptable (message : String)
  /-- A parameter cannot be read as what it is declared to be. -/
  | typeMismatch (message : String)
  | domain (denial : Denial)
  /-- Anything else; its details are for the log and never for the caller. -/
  | unclassified (cause : Cause)
  deriving DecidableEq, Repr

namespace Failure

/-- A failure in words. -/
def text : Failure → String
  | .invalidArgument _ message => message
  | .constraintViolation _ message => message
  | .missingParameter _ message => message
  | .mediaTypeNotAcceptable message => message
  | .typeMismatch message => message
  | .domain denial => denial.text
  | .unclassified cause => cause.text

/-- A body that breaks rules, with the message that counts the fields. -/
def ofFieldErrors (errors : List FieldError) : Failure :=
  .invalidArgument errors s!"validation failed for {errors.length} field(s)"

/-- Parameters that break rules, with the message that counts the constraints. -/
def ofViolations (violations : List Violation) : Failure :=
  .constraintViolation violations s!"{violations.length} constraint violation(s)"

/-- The absence of a parameter, with the message that names it. -/
def ofMissing (name : String) : Failure := .missingParameter name (name ++ " is required")

/-- An error from elsewhere that nobody put into a context. -/
def ofError (message : String) : Failure := .unclassified ⟨message, []⟩

end Failure

end IdentityProvider
