import IdentityProvider.Http.MediaType
import IdentityProvider.Http.Request
import IdentityProvider.Json.Decoder
import IdentityProvider.Query.Shape
import IdentityProvider.Validation

/-
  Taking values in from requests.

  A value comes from a JSON body or from the query, and is checked before anyone gets it.  What is
  wrong is reported as a failure: for a body first its media type, then its size, then its text,
  then the checks; for a query first its text, then the checks.

  Of a text that is no JSON or does not fit, a failure says which of the two it is, and behind that
  what the reader of the text remarks on it.  The reader's remarks are its own: they are a parameter
  here, and nothing depends on them but the words of that failure.
-/

namespace IdentityProvider.Intake

/-- What is said of a body that is not declared to be JSON. -/
def mediaTypeText : String := "Expected request with `Content-Type: application/json`"

/-- The longest body that is read. -/
def bodyLimit : Nat := 2097152

/-- What is said of a body that is too long. -/
def bodyLimitText : String := "Failed to buffer the request body: length limit exceeded"

/-- What a reader remarks on a body that it cannot read. -/
abbrev Remark := List UInt8 → String

/-- The remark of a reader to whom every body that it cannot read ends before it begins. -/
def endRemark : Remark := fun _ => "EOF while parsing a value at line 1 column 0"

/-- What is said of a body that is not JSON, and of one that does not fit, in front of the reader's
remark on it. -/
def faultText : Json.Fault → String
  | .malformed => "Failed to parse the request body as JSON: "
  | .unfit => "Failed to deserialize the JSON body into the target type: "

/-- Whether a request is declared to hold JSON. -/
def isJson (request : Request) : Bool :=
  ((request.header? "content-type").bind MediaType.read?).any MediaType.isJson

/-- A value that passes its checks, or the failure that lists those it does not pass. -/
def checked (report : α → Validation.Report) (reject : Validation.Report → Failure) (value : α) :
    Except Failure α :=
  if (report value).isEmpty then .ok value else .error (reject (report value))

/-- The value in the body of a request. -/
def json (decode : Json.Decoder α) (remark : Remark) (report : α → Validation.Report)
    (request : Request) : Except Failure α :=
  if isJson request = false then .error (.mediaTypeNotAcceptable mediaTypeText)
  else if bodyLimit < request.body.length then .error (.ofError bodyLimitText)
  else match Json.read decode (Text.Utf8.decode request.body) with
    | .error fault => .error (.ofError (faultText fault ++ remark request.body))
    | .ok value => checked report (fun r => .ofFieldErrors r.fieldErrors) value

/-- What stands in front of the name of a parameter that is missing. -/
def missingMark : List Char := "missing field `".toList

/-- The name of the parameter that a text says is missing, wherever it says so. -/
def missingName? (text : String) : Option String := do
  let rest ← Text.afterFirst? missingMark text.toList
  match Text.cutAt '`' rest with
  | (name, some _) => return String.ofList name
  | (_, none) => none

/-- The failure for a query that cannot be read. -/
def queryFailure (fault : Query.Fault) : Failure :=
  match missingName? fault.text with
  | some name => .ofMissing name
  | none => .typeMismatch fault.text

/-- The value in the query of a request. -/
def query (shape : Query.Shape σ α) (report : α → Validation.Report) (request : Request) :
    Except Failure α :=
  match shape.read request.query with
  | .error fault => .error (queryFailure fault)
  | .ok value => checked report (fun r => .ofViolations r.violations) value

end IdentityProvider.Intake
