import IdentityProvider.Forms.Client
import IdentityProvider.Forms.Grant
import IdentityProvider.Forms.Profile
import IdentityProvider.Forms.Search
import IdentityProvider.Intake
import IdentityProvider.Routing.Router

/-
  Endpoints: what the provider does at its routes.

  An endpoint takes in a value, answers with a text, raises a failure or breaks off.  A raised
  failure travels in the response; a break-off is known only by what it left behind.
-/

namespace IdentityProvider

/-- What a service that broke off left behind. -/
inductive Crash
  | said (text : String)
  | unnamed
  deriving DecidableEq, Repr

/-- What a service comes to. -/
inductive Outcome
  | answered (response : Response)
  | crashed (crash : Crash)
  deriving DecidableEq, Repr

namespace Outcome

/-- A text as answer. -/
def ofText (text : String) : Outcome := .answered (.ofText Status.ok text)

/-- A raised failure. -/
def raised (failure : Failure) : Outcome := .answered failure.response

/-- What becomes of a value that was taken in, or of the failure to do so. -/
def ofIntake (use : α → Outcome) : Except Failure α → Outcome
  | .ok value => use value
  | .error failure => raised failure

end Outcome

/-- What the provider does at a route.  An endpoint that takes in a body comes with what the reader
of its form remarks on one that it cannot read. -/
inductive Endpoint
  /-- Registers a client and answers with its id. -/
  | registerClient (remark : Intake.Remark)
  /-- Asks for the clients of a redirect URI and answers with the URI. -/
  | listClients
  /-- Takes in a request for an authorization and answers with its nonce. -/
  | authorize
  /-- Trades a code for a token within a live transaction. -/
  | issueToken (remark : Intake.Remark)
  /-- Searches, and answers with the question. -/
  | search
  /-- Takes in a profile and answers with some of it. -/
  | saveProfile (remark : Intake.Remark)
  /-- Tells who the bearer of a token is. -/
  | userInfo
  /-- Fails in the way that the path names. -/
  | failOnDemand
  /-- Answers with a text. -/
  | answer (status : Nat) (text : String)
  | raise (failure : Failure)
  | crash (crash : Crash)

namespace Endpoint

/-- The parts of an answer with bars between them. -/
def barred (parts : List String) : String := String.intercalate "|" parts

/-- A value that may be missing, in an answer. -/
def shown (text : α → String) : Option α → String
  | none => "None"
  | some value => "Some(" ++ text value ++ ")"

/-- The answer to a search. -/
def searchAnswer (s : Search) : String :=
  barred [s.q, shown Prompt.label s.prompt, shown toString s.verbose, shown toString s.page]

/-- The answer to a profile. -/
def profileAnswer (p : Profile) : String :=
  barred [p.displayName, shown toString p.age, p.timeZone]

/-- The transaction in which tokens are issued. -/
def liveTransaction : String := "live"

/-- The answer to a request for a token. -/
def tokenAnswer (r : TokenRequest) : Outcome :=
  if r.transactionId = some liveTransaction then .ofText "token"
  else .raised (.domain .invalidTransaction)

/-- The token that the bearer of a request shows. -/
def bearer? (request : Request) : Option String := do
  let value ← request.header? "authorization"
  return String.ofList (← Text.after? "Bearer ".toList value.toList)

/-- The answer to a bearer. -/
def bearerAnswer : Option String → Outcome
  | none => .raised (.domain .notAuthenticated)
  | some token =>
    if token = "valid-token" then .ofText "\x7b\x7d"
    else .raised (.ofError "token introspection failed")

/-- The ways to fail on demand, by name. -/
def failures : List (String × Outcome) :=
  [("validation", .raised (.ofFieldErrors
     [⟨"clientId", "invalid_client_id"⟩, ⟨"redirectUri", "invalid_redirect_uri"⟩,
      ⟨"scope", "invalid_scope"⟩])),
   ("violation", .raised (.ofViolations [⟨"authorize.nonce", "must not be blank"⟩])),
   ("missing-parameter", .raised (.ofMissing "redirect_uri")),
   ("media-type", .raised (.mediaTypeNotAcceptable "No acceptable representation")),
   ("type-mismatch", .raised (.typeMismatch "max_age: invalid digit found in string")),
   ("invalid-client", .raised (.domain .invalidClient)),
   ("not-authenticated", .raised (.domain .notAuthenticated)),
   ("invalid-transaction", .raised (.domain .invalidTransaction)),
   ("coded", .raised (.domain (.coded "invalid_nonce"))),
   ("unclassified", .raised (.ofError "database unreachable")),
   ("panic", .crashed (.said "handler exploded"))]

/-- The failure of a name, or an answer where the name is none of theirs. -/
def failureNamed (name : String) : Outcome := (failures.lookup name).getD (.ofText "ok")

/-- Why the captures of a call cannot be read. -/
inductive CaptureFault
  /-- What the capture with this name takes is not UTF-8. -/
  | notText (name : String)
  /-- There is not exactly one capture. -/
  | wrongCount (count : Nat)
  deriving DecidableEq, Repr

/-- The answer to captures that cannot be read. -/
def CaptureFault.response : CaptureFault → Response
  | .notText name =>
    .ofText Status.badRequest ("Invalid URL: Invalid UTF-8 in `" ++ name ++ "`")
  | .wrongCount count => .ofText Status.internalServerError
    ("Wrong number of path arguments for `Path`. Expected 1 but got " ++ toString count ++
      ". Note that multiple parameters must be extracted with a tuple `Path<(_, _)>` or a struct" ++
      " `Path<YourParams>`")

/-- What a capture takes, with its percent-encoding undone. -/
def captureText (capture : List Char × List Char) : Except CaptureFault String :=
  match Text.Utf8.text? (Text.Percent.decode (Text.Utf8.encode (String.ofList capture.2))) with
  | some text => .ok text
  | none => .error (.notText (String.ofList capture.1))

/-- What the only capture of a call takes. -/
def onlyCapture (captures : Routing.Captures) : Except CaptureFault String := do
  match ← captures.mapM captureText with
  | [text] => return text
  | texts => .error (.wrongCount texts.length)

/-- What an endpoint comes to. -/
def run (endpoint : Endpoint) (call : Call) : Outcome :=
  match endpoint with
  | .registerClient remark =>
    .ofIntake (fun r => .ofText r.clientId)
      (Intake.json ClientRegistration.shape.decoder remark ClientRegistration.report call.request)
  | .listClients =>
    .ofIntake (fun q => .ofText q.redirectUri)
      (Intake.query ClientQuery.shape ClientQuery.report call.request)
  | .authorize =>
    .ofIntake (fun r => .ofText r.nonce)
      (Intake.query AuthorizeRequest.shape AuthorizeRequest.report call.request)
  | .issueToken remark =>
    .ofIntake tokenAnswer
      (Intake.json TokenRequest.shape.decoder remark TokenRequest.report call.request)
  | .search =>
    .ofIntake (fun s => .ofText (searchAnswer s))
      (Intake.query Search.shape Search.report call.request)
  | .saveProfile remark =>
    .ofIntake (fun p => .ofText (profileAnswer p))
      (Intake.json Profile.shape.decoder remark Profile.report call.request)
  | .userInfo => bearerAnswer (bearer? call.request)
  | .failOnDemand =>
    match onlyCapture call.captures with
    | .ok name => failureNamed name
    | .error fault => .answered fault.response
  | .answer status text => .answered (.ofText status text)
  | .raise failure => .raised failure
  | .crash left => .crashed left

/-- The answer of a server that is alive. -/
def health : Endpoint := .answer Status.ok "ok"

/-- The starts below which one can fail on demand. -/
def failStarts : List String :=
  ["/authorization", "/client-mgmt", "/oauth", "/oauth/client-mgmt", "/oidc/userinfo", "/other"]

/-- The remarks of the readers of the forms that are sent in bodies. -/
structure Remarks where
  registration : Intake.Remark
  grant : Intake.Remark
  profile : Intake.Remark

/-- The endpoints of the provider with their routes. -/
def table (remarks : Remarks) : List (Verb × String × Endpoint) :=
  [(.post, "/client-mgmt/oidc-client", registerClient remarks.registration),
   (.get, "/authorization/clients", listClients),
   (.post, "/oauth/token", issueToken remarks.grant),
   (.get, "/oidc/userinfo", userInfo)] ++
  failStarts.map (fun start => (.get, start ++ "/fail/\x7bkind\x7d", failOnDemand)) ++
  [(.get, "/authorization/authorize", authorize),
   (.get, "/search", search),
   (.get, "/oauth/search", search),
   (.post, "/profile", saveProfile remarks.profile),
   (.post, "/oauth/profile", saveProfile remarks.profile),
   (.post, "/oidc/userinfo/profile", saveProfile remarks.profile)]

/-- The routes of a table, put into a router. -/
def insertAll (router : Router Outcome) (table : List (Verb × String × Endpoint)) :
    Except RouteError (Router Outcome) :=
  router.insertAll (table.map fun (verb, text, endpoint) => (verb, text, endpoint.run))

/-- The router of the provider. -/
def router (remarks : Remarks) : Except RouteError (Router Outcome) :=
  insertAll .empty (table remarks)

end Endpoint

end IdentityProvider
