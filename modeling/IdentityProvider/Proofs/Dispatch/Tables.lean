import IdentityProvider.Dispatch
import IdentityProvider.Proofs.Text.Runs
import Mathlib.Data.List.Forall2

/-
  The tables by which failures are shown.

  `InternalRow`, `OAuthRow` and `ChallengeRow` are the tables of the three surfaces, a constructor
  for each row, and `Sends` says what goes over the wire.  `rendering_eq_iff`: a failure is shown
  as its surface's table says, and in no other way.
-/

namespace IdentityProvider.Tables

/-! ## The tables -/

/-- The internal surface: an entry for each part of a validation failure, in their order, and a
single one for any other failure. -/
inductive InternalRow (catalog : Catalog) : Failure → List ErrorEntry → Prop
  | fields (errors : List FieldError) (message : String) (entries : List ErrorEntry) :
    errors ≠ [] →
    List.Forall₂ (fun e entry => entry = ⟨e.message, e.field ++ ": " ++ e.message⟩)
      errors entries →
    InternalRow catalog (.invalidArgument errors message) entries
  | noFields (message : String) :
    InternalRow catalog (.invalidArgument [] message) [⟨"invalid_request", message⟩]
  | violations (violations : List Violation) (message : String) (entries : List ErrorEntry) :
    violations ≠ [] →
    List.Forall₂ (fun v entry => entry = ⟨"invalid_request", v.property ++ ": " ++ v.message⟩)
      violations entries →
    InternalRow catalog (.constraintViolation violations message) entries
  | noViolations (message : String) :
    InternalRow catalog (.constraintViolation [] message) [⟨"invalid_request", message⟩]
  | missingParameter (name message : String) :
    InternalRow catalog (.missingParameter name message) [⟨"invalid_request", message⟩]
  | mediaType (message : String) :
    InternalRow catalog (.mediaTypeNotAcceptable message) [⟨"invalid_request", message⟩]
  | domain (denial : Denial) :
    InternalRow catalog (.domain denial) [⟨denial.code, catalog.resolve denial.code⟩]
  | typeMismatch (message : String) :
    InternalRow catalog (.typeMismatch message)
      [⟨"unknown_error", catalog.resolve "unknown_error"⟩]
  | unclassified (cause : Cause) :
    InternalRow catalog (.unclassified cause)
      [⟨"unknown_error", catalog.resolve "unknown_error"⟩]

/-- The OAuth surface: one error, and a status for its class. -/
inductive OAuthRow (catalog : Catalog) : Failure → Nat → OAuthError → Prop
  | firstField (e : FieldError) (errors : List FieldError) (message : String) :
    OAuthRow catalog (.invalidArgument (e :: errors) message) 400 ⟨"invalid_input", e.message⟩
  | noFields (message : String) :
    OAuthRow catalog (.invalidArgument [] message) 400 ⟨"invalid_input", message⟩
  | firstViolation (v : Violation) (violations : List Violation) (message : String) :
    OAuthRow catalog (.constraintViolation (v :: violations) message) 400
      ⟨"invalid_input", v.message⟩
  | noViolations (message : String) :
    OAuthRow catalog (.constraintViolation [] message) 400 ⟨"invalid_input", message⟩
  | domain (denial : Denial) :
    OAuthRow catalog (.domain denial) 400 ⟨denial.code, catalog.resolve denial.code⟩
  | missingParameter (name message : String) :
    OAuthRow catalog (.missingParameter name message) 500
      ⟨"unknown_error", catalog.resolve "unknown_error"⟩
  | mediaType (message : String) :
    OAuthRow catalog (.mediaTypeNotAcceptable message) 500
      ⟨"unknown_error", catalog.resolve "unknown_error"⟩
  | typeMismatch (message : String) :
    OAuthRow catalog (.typeMismatch message) 500
      ⟨"unknown_error", catalog.resolve "unknown_error"⟩
  | unclassified (cause : Cause) :
    OAuthRow catalog (.unclassified cause) 500
      ⟨"unknown_error", catalog.resolve "unknown_error"⟩

/-- The challenge surface: only an unauthenticated caller gets a token of its own. -/
inductive ChallengeRow : Failure → String → Prop
  | notAuthenticated : ChallengeRow (.domain .notAuthenticated) "invalid_auth_token"
  | other (failure : Failure) :
    failure ≠ .domain .notAuthenticated → ChallengeRow failure "unknown_error"

/-- How a surface shows a failure. -/
inductive Shows (catalog : Catalog) : Surface → Failure → Rendering → Prop
  | internal (failure : Failure) (entries : List ErrorEntry) :
    InternalRow catalog failure entries → Shows catalog .internal failure (.envelope ⟨entries⟩)
  | oauth (failure : Failure) (status : Nat) (body : OAuthError) :
    OAuthRow catalog failure status body → Shows catalog .oauth failure (.oauth status body)
  | challenge (failure : Failure) (token : String) :
    ChallengeRow failure token → Shows catalog .challenge failure (.challenge token)

/-- How many parts a validation failure has. -/
def partCount : Failure → Nat
  | .invalidArgument errors _ => errors.length
  | .constraintViolation violations _ => violations.length
  | _ => 0

/-! ## The tables are followed -/

theorem forall₂_eq_iff_eq_map {α β : Type} {f : α → β} {xs : List α} {ys : List β} :
    List.Forall₂ (fun x y => y = f x) xs ys ↔ ys = xs.map f := by
  induction xs generalizing ys with
  | nil => rw [List.forall₂_nil_left_iff, List.map_nil]
  | cons x xs ih =>
    cases ys with
    | nil => simp
    | cons y ys => rw [List.forall₂_cons, ih, List.map_cons, List.cons.injEq]

theorem internalRow_envelope (catalog : Catalog) (failure : Failure) :
    InternalRow catalog failure (Encoding.envelope catalog failure).errors := by
  cases failure with
  | invalidArgument errors message =>
    cases errors with
    | nil => exact .noFields message
    | cons e errors =>
      exact .fields (e :: errors) message _ (List.cons_ne_nil e errors)
        (forall₂_eq_iff_eq_map.mpr rfl)
  | constraintViolation violations message =>
    cases violations with
    | nil => exact .noViolations message
    | cons v violations =>
      exact .violations (v :: violations) message _ (List.cons_ne_nil v violations)
        (forall₂_eq_iff_eq_map.mpr rfl)
  | missingParameter name message => exact .missingParameter name message
  | mediaTypeNotAcceptable message => exact .mediaType message
  | typeMismatch message => exact .typeMismatch message
  | domain denial =>
    rw [Encoding.envelope_domain]
    exact .domain denial
  | unclassified cause => exact .unclassified cause

theorem oauthRow_oauth (catalog : Catalog) (failure : Failure) :
    OAuthRow catalog failure (Encoding.oauth catalog failure).1
      (Encoding.oauth catalog failure).2 := by
  cases failure with
  | invalidArgument errors message =>
    cases errors with
    | nil => exact .noFields message
    | cons e errors => exact .firstField e errors message
  | constraintViolation violations message =>
    cases violations with
    | nil => exact .noViolations message
    | cons v violations => exact .firstViolation v violations message
  | missingParameter name message => exact .missingParameter name message
  | mediaTypeNotAcceptable message => exact .mediaType message
  | typeMismatch message => exact .typeMismatch message
  | domain denial => exact .domain denial
  | unclassified cause => exact .unclassified cause

theorem challenge_token_of_ne {failure : Failure} (h : failure ≠ .domain .notAuthenticated) :
    Challenge.token failure = "unknown_error" := by
  rw [Challenge.token_eq_ite, if_neg h, ErrorCode.unknownError]

theorem challengeRow_token (failure : Failure) :
    ChallengeRow failure (Challenge.token failure) := by
  by_cases h : failure = .domain .notAuthenticated
  · rw [h]
    exact .notAuthenticated
  · rw [challenge_token_of_ne h]
    exact .other failure h

theorem shows_rendering (catalog : Catalog) (surface : Surface) (failure : Failure) :
    Shows catalog surface failure (failure.rendering catalog surface) := by
  cases surface with
  | internal => exact .internal failure _ (internalRow_envelope catalog failure)
  | oauth => exact .oauth failure _ _ (oauthRow_oauth catalog failure)
  | challenge => exact .challenge failure _ (challengeRow_token failure)

theorem InternalRow.eq_errors {catalog : Catalog} {failure : Failure} {entries : List ErrorEntry}
    (h : InternalRow catalog failure entries) :
    entries = (Encoding.envelope catalog failure).errors := by
  cases h with
  | fields errors message _ hne hentries =>
    rw [forall₂_eq_iff_eq_map] at hentries
    cases errors with
    | nil => exact absurd rfl hne
    | cons e errors => exact hentries
  | violations violations message _ hne hentries =>
    rw [forall₂_eq_iff_eq_map] at hentries
    cases violations with
    | nil => exact absurd rfl hne
    | cons v violations => exact hentries
  | domain denial =>
    rw [Encoding.envelope_domain]
    rfl
  | noFields | noViolations | missingParameter | mediaType | typeMismatch | unclassified => rfl

theorem OAuthRow.eq_oauth {catalog : Catalog} {failure : Failure} {status : Nat}
    {body : OAuthError} (h : OAuthRow catalog failure status body) :
    (status, body) = Encoding.oauth catalog failure := by
  cases h <;> rfl

theorem ChallengeRow.eq_token {failure : Failure} {token : String}
    (h : ChallengeRow failure token) : token = Challenge.token failure := by
  cases h with
  | notAuthenticated => rfl
  | other _ hne => exact (challenge_token_of_ne hne).symm

/-- A failure is shown as the table of its surface says, and in no other way. -/
theorem rendering_eq_iff {catalog : Catalog} {surface : Surface} {failure : Failure}
    {rendering : Rendering} :
    failure.rendering catalog surface = rendering ↔ Shows catalog surface failure rendering := by
  constructor
  · rintro rfl
    exact shows_rendering catalog surface failure
  · intro h
    cases h with
    | internal _ entries hrow => rw [hrow.eq_errors]; rfl
    | oauth _ status body hrow =>
      have heq := hrow.eq_oauth
      rw [Failure.rendering, ← heq]
    | challenge _ token hrow => rw [hrow.eq_token]; rfl

theorem InternalRow.length_eq {catalog : Catalog} {failure : Failure}
    {entries : List ErrorEntry} (h : InternalRow catalog failure entries) :
    entries.length = max 1 (partCount failure) := by
  cases h with
  | fields errors message _ hne hentries =>
    have := List.length_pos_of_ne_nil hne
    rw [← hentries.length_eq, partCount]
    omega
  | violations violations message _ hne hentries =>
    have := List.length_pos_of_ne_nil hne
    rw [← hentries.length_eq, partCount]
    omega
  | noFields | noViolations | missingParameter | mediaType | domain | typeMismatch
  | unclassified => rfl

/-! ## On the wire -/

/-- A text as a JSON string. -/
def quoted (text : String) : String := String.ofList (Json.quote text.toList)

/-- An entry on the wire. -/
def entryText (entry : ErrorEntry) : String :=
  "\x7b\"errorCode\":" ++ quoted entry.code ++ ",\"errorMessage\":" ++ quoted entry.message ++
    "\x7d"

/-- An envelope on the wire. -/
def envelopeText (entries : List ErrorEntry) : String :=
  "\x7b\"errors\":[" ++ String.intercalate "," (entries.map entryText) ++ "]\x7d"

/-- An OAuth error on the wire. -/
def oauthText (body : OAuthError) : String :=
  "\x7b\"error\":" ++ quoted body.error ++ ",\"error_description\":" ++
    quoted body.description ++ "\x7d"

/-- What is sent for a rendering. -/
inductive Sends : Rendering → Response → Prop
  | envelope (entries : List ErrorEntry) :
    Sends (.envelope ⟨entries⟩)
      ⟨200, [("content-type", "application/json")], envelopeText entries, none⟩
  | oauth (status : Nat) (body : OAuthError) :
    Sends (.oauth status body)
      ⟨status, [("content-type", "application/json")], oauthText body, none⟩
  | challenge (token : String) :
    Sends (.challenge token)
      ⟨401, [("www-authenticate", "error=\"" ++ token ++ "\"")], "", none⟩

theorem writeItems_eq (item : Json) (items : List Json) :
    item.write ++ Json.writeItems items =
      [','].intercalate ((item :: items).map Json.write) ++ [']'] := by
  induction items generalizing item with
  | nil => rw [Json.writeItems, List.map_singleton, List.intercalate_singleton]
  | cons next items ih =>
    rw [Json.writeItems, ih, List.map_cons, List.map_cons, List.map_cons,
      List.intercalate_cons_cons]
    simp only [List.append_assoc, List.cons_append, List.nil_append]

theorem write_array (items : List Json) :
    (Json.array items).write = '[' :: ([','].intercalate (items.map Json.write) ++ [']']) := by
  cases items with
  | nil => rfl
  | cons item items => rw [Json.write, writeItems_eq]

/-- An object with two members that are texts. -/
theorem write_pair (a b x y : List Char) :
    (Json.object [(a, .string x), (b, .string y)]).write =
      '\x7b' :: (Json.quote a ++ ':' :: (Json.quote x ++ ',' :: (Json.quote b ++ ':' ::
        (Json.quote y ++ ['\x7d'])))) := by
  simp only [Json.write, Json.writeMembers]

theorem write_entry (entry : ErrorEntry) : entry.toJson.write = (entryText entry).toList := by
  have hcode : '\x7b' :: (Json.quote Wire.codeName.toList ++ [':']) =
      "\x7b\"errorCode\":".toList := by decide
  have hmessage : ',' :: (Json.quote Wire.messageName.toList ++ [':']) =
      ",\"errorMessage\":".toList := by decide
  have hend : ['\x7d'] = "\x7d".toList := by decide
  unfold ErrorEntry.toJson Json.ofText entryText quoted
  rw [write_pair]
  simp only [String.toList_append, String.toList_ofList, ← hcode, ← hmessage, ← hend,
    List.cons_append, List.append_assoc, List.nil_append]

theorem write_oauthError (body : OAuthError) : body.toJson.write = (oauthText body).toList := by
  have herror : '\x7b' :: (Json.quote Wire.errorName.toList ++ [':']) =
      "\x7b\"error\":".toList := by decide
  have hdescription : ',' :: (Json.quote Wire.descriptionName.toList ++ [':']) =
      ",\"error_description\":".toList := by decide
  have hend : ['\x7d'] = "\x7d".toList := by decide
  unfold OAuthError.toJson Json.ofText oauthText quoted
  rw [write_pair]
  simp only [String.toList_append, String.toList_ofList, ← herror, ← hdescription, ← hend,
    List.cons_append, List.append_assoc, List.nil_append]

theorem write_envelope (envelope : Envelope) :
    envelope.toJson.write = (envelopeText envelope.errors).toList := by
  have hstart : '\x7b' :: (Json.quote Wire.errorsName.toList ++ [':', '[']) =
      "\x7b\"errors\":[".toList := by decide
  have hend : [']', '\x7d'] = "]\x7d".toList := by decide
  have hcomma : [','] = ",".toList := by decide
  have hentries : (envelope.errors.map ErrorEntry.toJson).map Json.write =
      (envelope.errors.map entryText).map String.toList := by
    rw [List.map_map, List.map_map]
    exact List.map_congr_left fun entry _ => write_entry entry
  rw [Envelope.toJson, Json.write, write_array, hentries, Json.writeMembers, envelopeText]
  simp only [String.toList_append, String.toList_intercalate, ← hstart, ← hend, ← hcomma,
    List.cons_append, List.append_assoc, List.nil_append]

theorem headerValue_token (failure : Failure) :
    Challenge.headerValue (Challenge.token failure) =
      "error=\"" ++ Challenge.token failure ++ "\"" := by
  have hsendable : (Challenge.token failure).toList.all Challenge.isSendable = true := by
    by_cases h : failure = .domain .notAuthenticated
    · rw [h]
      decide
    · rw [challenge_token_of_ne h]
      decide
  exact if_pos hsendable

theorem sends_rendering (catalog : Catalog) (surface : Surface) (failure : Failure) :
    Sends (failure.rendering catalog surface) (failure.rendering catalog surface).response := by
  cases surface with
  | internal =>
    have hbody : (Encoding.envelope catalog failure).toJson.render =
        envelopeText (Encoding.envelope catalog failure).errors := by
      rw [Json.render, write_envelope, String.ofList_toList]
    rw [Failure.rendering, Rendering.response, Response.ofJson, hbody]
    exact .envelope _
  | oauth =>
    have hbody : (Encoding.oauth catalog failure).2.toJson.render =
        oauthText (Encoding.oauth catalog failure).2 := by
      rw [Json.render, write_oauthError, String.ofList_toList]
    rw [Failure.rendering, Rendering.response, Response.ofJson, hbody]
    exact .oauth _ _
  | challenge =>
    rw [Failure.rendering, Rendering.response, headerValue_token]
    exact .challenge _

theorem Sends.unique {rendering : Rendering} {a b : Response} (ha : Sends rendering a)
    (hb : Sends rendering b) : a = b := by
  cases ha <;> cases hb <;> rfl

/-- What is sent for a failure is what stands for it in the tables. -/
theorem dispatch_eq_of_shows {dispatcher : Dispatcher} {failure : Failure} {path : String}
    {rendering : Rendering} {response : Response}
    (hshows : Shows dispatcher.catalog (dispatcher.classifier.classify path) failure rendering)
    (hsends : Sends rendering response) : (dispatcher.dispatch failure path).1 = response := by
  have hrendering : dispatcher.rendering failure path = rendering := rendering_eq_iff.mpr hshows
  have hsent : Sends (dispatcher.rendering failure path) (dispatcher.dispatch failure path).1 :=
    sends_rendering dispatcher.catalog _ failure
  rw [hrendering] at hsent
  exact hsent.unique hsends

/-- A failure is rendered and answered as the table of the path's surface says, and in no other
way; the status is the same wherever it is asked for, and an envelope has as many entries as the
failure has parts, and never none. -/
theorem dispatch_follows_tables (rules : List SurfaceRule) (fallback : Surface)
    (catalog : Catalog) (failure : Failure) (path : String) :
    let dispatcher : Dispatcher := ⟨⟨rules, fallback⟩, catalog⟩
    let surface := dispatcher.classifier.classify path
    (∀ rendering, dispatcher.rendering failure path = rendering ↔
      Shows catalog surface failure rendering) ∧
    (∀ response, (dispatcher.dispatch failure path).1 = response ↔
      ∃ rendering, Shows catalog surface failure rendering ∧ Sends rendering response) ∧
    (dispatcher.rendering failure path).status = (dispatcher.dispatch failure path).1.status ∧
    (∀ entries, dispatcher.rendering failure path = .envelope ⟨entries⟩ →
      entries ≠ [] ∧ entries.length = max 1 (partCount failure)) := by
  intro dispatcher surface
  have hsent : Sends (dispatcher.rendering failure path) (dispatcher.dispatch failure path).1 :=
    sends_rendering catalog surface failure
  have hshown : Shows catalog surface failure (dispatcher.rendering failure path) :=
    shows_rendering catalog surface failure
  refine ⟨fun rendering => rendering_eq_iff, ?_, ?_, ?_⟩
  · intro response
    constructor
    · rintro rfl
      exact ⟨_, hshown, hsent⟩
    · rintro ⟨rendering, hrendering, hresponse⟩
      rw [← rendering_eq_iff] at hrendering
      obtain rfl : dispatcher.rendering failure path = rendering := hrendering
      exact hsent.unique hresponse
  · change _ = (dispatcher.rendering failure path).response.status
    cases dispatcher.rendering failure path with
    | envelope body => rfl
    | oauth status body => rfl
    | challenge token => rfl
  · intro entries hentries
    rw [hentries] at hshown
    generalize surface = s at hshown
    cases hshown with
    | internal _ _ hrow =>
      have hlength := hrow.length_eq
      refine ⟨?_, hlength⟩
      rintro rfl
      rw [List.length_nil] at hlength
      omega

end IdentityProvider.Tables
