import IdentityProvider.Config
import IdentityProvider.Proofs.Dispatch.Tables
import IdentityProvider.Proofs.Server.Settlement
import IdentityProvider.Proofs.Validation.Forms
import Mathlib

/-
  Which values reach a service, and what becomes of the others.

  A request either does not hold a value, and then for the first of the reasons in `JsonUnread` or
  `QueryUnread`, or it holds one that passes its declared checks or not.  `Verdict` says what is
  made of each case, and `Admits` what that means for the service behind: it sees the value of the
  request, never one that fails a check, and on the OAuth surface a refusal is described by the
  first check that fails.
-/

namespace IdentityProvider

open Tables Validation

/-! ## Verdicts -/

/-- The request is declared to hold JSON. -/
def DeclaresJson (request : Request) : Prop :=
  ∃ bytes text mediaType, request.headers.lookup "content-type" = some bytes ∧
    (∀ b ∈ bytes, Request.isTextByte b = true) ∧ Text.Utf8.text? bytes = some text ∧
    MediaType.read? text = some mediaType ∧ mediaType.type = "application".toList ∧
    (mediaType.subtype = "json".toList ∨ mediaType.suffix = some "json".toList)

/-- Why a request holds no value in its body: the first of these that applies.  Whatever the reader
remarks on the body stands behind what is said of it. -/
inductive JsonUnread (decode : Json.Decoder α) (remark : Intake.Remark) (request : Request) :
    Failure → Prop
  | mediaType : ¬ DeclaresJson request →
    JsonUnread decode remark request
      (.mediaTypeNotAcceptable "Expected request with `Content-Type: application/json`")
  | tooLong : DeclaresJson request → 2097152 < request.body.length →
    JsonUnread decode remark request
      (.unclassified ⟨"Failed to buffer the request body: length limit exceeded", []⟩)
  | malformed : DeclaresJson request → request.body.length ≤ 2097152 →
    Json.read decode (Text.Utf8.decode request.body) = .error .malformed →
    JsonUnread decode remark request
      (.unclassified ⟨"Failed to parse the request body as JSON: " ++ remark request.body, []⟩)
  | unfit : DeclaresJson request → request.body.length ≤ 2097152 →
    Json.read decode (Text.Utf8.decode request.body) = .error .unfit →
    JsonUnread decode remark request
      (.unclassified ⟨"Failed to deserialize the JSON body into the target type: " ++
        remark request.body, []⟩)

/-- The body of the request holds the value. -/
def HoldsJson (decode : Json.Decoder α) (request : Request) (value : α) : Prop :=
  DeclaresJson request ∧ request.body.length ≤ 2097152 ∧
    Json.read decode (Text.Utf8.decode request.body) = .ok value

/-- Why a query holds no value: a parameter that is said to be missing, or anything else. -/
inductive QueryUnread (shape : Query.Shape σ α) (request : Request) : Failure → Prop
  | missing (fault : Query.Fault) (name : String) :
    shape.read request.query = .error fault → Intake.missingName? fault.text = some name →
    QueryUnread shape request (.missingParameter name (name ++ " is required"))
  | mismatch (fault : Query.Fault) :
    shape.read request.query = .error fault → Intake.missingName? fault.text = none →
    QueryUnread shape request (.typeMismatch fault.text)

/-- The query of the request holds the value. -/
def HoldsQuery (shape : Query.Shape σ α) (request : Request) (value : α) : Prop :=
  shape.read request.query = .ok value

/-- A body that breaks rules, with an entry for each failed check. -/
def rejectedFields (listed : List (String × Failed)) : Failure :=
  .invalidArgument (listed.map fun entry => ⟨entry.1, entry.2.text⟩)
    ("validation failed for " ++ toString listed.length ++ " field(s)")

/-- Parameters that break rules, with an entry for each failed check. -/
def violatedConstraints (listed : List (String × Failed)) : Failure :=
  .constraintViolation (listed.map fun entry => ⟨entry.1, entry.2.text⟩)
    (toString listed.length ++ " constraint violation(s)")

/-- What is made of a request: the reason why it holds no value, the listing of the checks that
its value fails, or a value that passes them all. -/
inductive Verdict (unread : Request → Failure → Prop) (holds : Request → α → Prop)
    (reject : List (String × Failed) → Failure) (declared : Declared α) (request : Request) :
    Except Failure α → Prop
  | unread (failure : Failure) : unread request failure →
    Verdict unread holds reject declared request (.error failure)
  | rejected (value : α) (listed : List (String × Failed)) : holds request value →
    ¬ declared.Passes value → Listing (declared.failures value) listed →
    Verdict unread holds reject declared request (.error (reject listed))
  | admitted (value : α) : holds request value → declared.Passes value →
    Verdict unread holds reject declared request (.ok value)

/-- Values are taken in as the verdicts say, and a service sees nothing else. -/
structure Admits (take : Request → Except Failure α) (unread : Request → Failure → Prop)
    (holds : Request → α → Prop) (reject : List (String × Failed) → Failure)
    (declared : Declared α) : Prop where
  /-- There is one verdict on each request. -/
  verdict : ∀ request taken,
    take request = taken ↔ Verdict unread holds reject declared request taken
  /-- A service answers for the value of the request, or the failure is raised. -/
  handled : ∀ (use : α → Outcome) request,
    (∃ value, holds request value ∧ declared.Passes value ∧
      Outcome.ofIntake use (take request) = use value) ∨
    ∃ failure, Verdict unread holds reject declared request (.error failure) ∧
      Outcome.ofIntake use (take request) = .answered failure.response
  /-- What a service would make of a value that fails a check does not matter. -/
  guarded : ∀ use other : α → Outcome, (∀ value, declared.Passes value → use value = other value) →
    ∀ request, Outcome.ofIntake use (take request) = Outcome.ofIntake other (take request)
  /-- On the OAuth surface a refused value is described by the first check that it fails. -/
  described : ∀ (dispatcher : Dispatcher) (table : Router Outcome) (use : α → Outcome)
    (request seen : Request) (value : α),
    table.serve request = .served (Outcome.ofIntake use (take seen)) → holds seen value →
    ¬ declared.Passes value → dispatcher.classifier.classify request.sentPath = .oauth →
    ∃ failed, declared.FirstFailed value failed ∧
      ((table.layer dispatcher.wrap).respond request).1 = Response.sentFor request
        ⟨400, [("content-type", "application/json")], oauthText ⟨"invalid_input", failed.text⟩,
          none⟩

/-! ## Checked values -/

section

variable {declared : Declared α} {report : α → Report} {value : α}

theorem report_isEmpty_iff (h : (report value).Perm (declared.report value)) :
    (report value).isEmpty = true ↔ declared.Passes value := by
  rw [List.isEmpty_iff, ← Declared.report_eq_nil_iff]
  constructor
  · intro hnil
    rw [hnil] at h
    exact h.nil_eq.symm
  · intro hnil
    rw [hnil] at h
    exact h.eq_nil

theorem checked_of_passes (h : (report value).Perm (declared.report value))
    (hpasses : declared.Passes value) (reject : Report → Failure) :
    Intake.checked report reject value = .ok value :=
  if_pos ((report_isEmpty_iff h).mpr hpasses)

theorem checked_of_not_passes (h : (report value).Perm (declared.report value))
    (hpasses : ¬ declared.Passes value) (reject : Report → Failure) :
    Intake.checked report reject value = .error (reject (report value)) :=
  if_neg fun hempty => hpasses ((report_isEmpty_iff h).mp hempty)

theorem exists_listing_cons {listed : List (String × Failed)} (hpasses : ¬ declared.Passes value)
    (h : Listing (declared.failures value) listed) :
    ∃ first later, listed = first :: later ∧ declared.FirstFailed value first.2 := by
  cases listed with
  | nil => exact absurd (Declared.failures_eq_nil_iff.mp h.each.nil_eq.symm) hpasses
  | cons first later => exact ⟨first, later, rfl, Declared.firstFailed_of_listing h⟩

end

/-- What has to be known of a way to take values in. -/
structure TakesIn (take : Request → Except Failure α) (unread : Request → Failure → Prop)
    (holds : Request → α → Prop) (reject : List (String × Failed) → Failure)
    (report : α → Report) : Prop where
  decided : ∀ request, (∃ failure, unread request failure) ∨ ∃ value, holds request value
  ofUnread : ∀ request failure, unread request failure → take request = .error failure
  ofHolds : ∀ request value, holds request value →
    take request = Intake.checked report (fun r => reject r.listed) value
  shown : ∀ catalog first later,
    OAuthRow catalog (reject (first :: later)) 400 ⟨"invalid_input", first.2.text⟩

section

variable {take : Request → Except Failure α} {unread : Request → Failure → Prop}
  {holds : Request → α → Prop} {reject : List (String × Failed) → Failure}
  {declared : Declared α} {report : α → Report}

theorem TakesIn.verdict (h : TakesIn take unread holds reject report)
    (hreport : ∀ value, (report value).Perm (declared.report value)) (request : Request) :
    Verdict unread holds reject declared request (take request) := by
  obtain ⟨failure, hunread⟩ | ⟨value, hholds⟩ := h.decided request
  · rw [h.ofUnread request failure hunread]
    exact .unread failure hunread
  · rw [h.ofHolds request value hholds]
    by_cases hpasses : declared.Passes value
    · rw [checked_of_passes (hreport value) hpasses]
      exact .admitted value hholds hpasses
    · rw [checked_of_not_passes (hreport value) hpasses]
      exact .rejected value _ hholds hpasses (Declared.listing_of_perm (hreport value))

theorem TakesIn.eq_of_verdict (h : TakesIn take unread holds reject report)
    (hreport : ∀ value, (report value).Perm (declared.report value)) {request : Request}
    {taken : Except Failure α} (hverdict : Verdict unread holds reject declared request taken) :
    take request = taken := by
  cases hverdict with
  | unread failure hunread => exact h.ofUnread request failure hunread
  | rejected value listed hholds hpasses hlisted =>
    rw [h.ofHolds request value hholds, checked_of_not_passes (hreport value) hpasses,
      (Declared.listing_of_perm (hreport value)).unique hlisted]
  | admitted value hholds hpasses =>
    rw [h.ofHolds request value hholds, checked_of_passes (hreport value) hpasses]

/-- A value that fails a check is refused with the list of its failures. -/
theorem TakesIn.refuses (h : TakesIn take unread holds reject report) {request : Request}
    {value : α} (hholds : holds request value) (hfails : report value ≠ []) :
    take request = .error (reject (report value).listed) := by
  rw [h.ofHolds request value hholds, Intake.checked, if_neg]
  rw [List.isEmpty_iff]
  exact hfails

theorem TakesIn.admits (h : TakesIn take unread holds reject report)
    (hreport : ∀ value, (report value).Perm (declared.report value)) :
    Admits take unread holds reject declared where
  verdict request taken := by
    constructor
    · rintro rfl
      exact h.verdict hreport request
    · exact h.eq_of_verdict hreport
  handled use request := by
    have hverdict := h.verdict hreport request
    generalize take request = taken at hverdict
    cases hverdict with
    | unread failure hunread => exact .inr ⟨failure, .unread failure hunread, rfl⟩
    | rejected value listed hholds hpasses hlisted =>
      exact .inr ⟨_, .rejected value listed hholds hpasses hlisted, rfl⟩
    | admitted value hholds hpasses => exact .inl ⟨value, hholds, hpasses, rfl⟩
  guarded use other huse request := by
    have hverdict := h.verdict hreport request
    generalize take request = taken at hverdict
    cases hverdict with
    | unread failure _ => rfl
    | rejected value listed _ _ _ => rfl
    | admitted value _ hpasses => exact huse value hpasses
  described dispatcher table use request seen value hserved hholds hpasses hsurface := by
    have hlisting := Declared.listing_of_perm (hreport value)
    obtain ⟨first, later, hlisted, hfirst⟩ := exists_listing_cons hpasses hlisting
    have htaken : take seen = .error (reject (first :: later)) := by
      rw [← hlisted]
      exact h.eq_of_verdict hreport (.rejected value _ hholds hpasses hlisting)
    have hcarries : Carries (table.serve request) (reject (first :: later)) := by
      rw [hserved, htaken]
      exact .raised _ _ rfl
    have hshows : Shows dispatcher.catalog (dispatcher.classifier.classify request.sentPath)
        (reject (first :: later)) (.oauth 400 ⟨"invalid_input", first.2.text⟩) := by
      rw [hsurface]
      exact .oauth _ _ _ (h.shown dispatcher.catalog first later)
    refine ⟨first.2, hfirst, ?_⟩
    rw [respond_wrap_dispatched hcarries, dispatch_eq_of_shows hshows (.oauth 400 _)]

end

/-! ## The two ways to take values in -/

theorem header?_eq_some_iff {request : Request} {name text : String} :
    request.header? name = some text ↔ ∃ bytes, request.headers.lookup name = some bytes ∧
      (∀ b ∈ bytes, Request.isTextByte b = true) ∧ Text.Utf8.text? bytes = some text := by
  unfold Request.header?
  simp only [Option.bind_eq_bind, Option.bind_eq_some_iff, List.all_eq_true, exists_and_right,
    Option.guard_eq_some', exists_const]

theorem isJson_iff {request : Request} : Intake.isJson request = true ↔ DeclaresJson request := by
  have happlication : MediaType.application = "application".toList := by decide
  have hjson : MediaType.json = "json".toList := by decide
  unfold Intake.isJson DeclaresJson MediaType.isJson
  rw [happlication, hjson]
  simp only [Option.any_eq_true, Option.bind_eq_some_iff, header?_eq_some_iff, Bool.and_eq_true,
    Bool.or_eq_true, decide_eq_true_eq]
  constructor
  · rintro ⟨mediaType, ⟨text, ⟨bytes, hbytes, hvisible, htext⟩, hread⟩, hkind⟩
    exact ⟨bytes, text, mediaType, hbytes, hvisible, htext, hread, hkind⟩
  · rintro ⟨bytes, text, mediaType, hbytes, hvisible, htext, hread, hkind⟩
    exact ⟨mediaType, ⟨text, ⟨bytes, hbytes, hvisible, htext⟩, hread⟩, hkind⟩

theorem json_of_declared {decode : Json.Decoder α} {remark : Intake.Remark} {report : α → Report}
    {request : Request} (hdeclared : DeclaresJson request)
    (hlength : request.body.length ≤ 2097152) :
    Intake.json decode remark report request =
      match Json.read decode (Text.Utf8.decode request.body) with
      | .error fault => .error (.ofError (Intake.faultText fault ++ remark request.body))
      | .ok value => Intake.checked report (fun r => .ofFieldErrors r.fieldErrors) value := by
  unfold Intake.json
  rw [isJson_iff.mpr hdeclared, if_neg Bool.noConfusion]
  exact if_neg (Nat.not_lt.mpr hlength)

theorem ofFieldErrors_fieldErrors (report : Report) :
    Failure.ofFieldErrors report.fieldErrors = rejectedFields report.listed := by
  unfold Failure.ofFieldErrors Report.fieldErrors rejectedFields
  rw [List.length_map]
  rfl

theorem ofViolations_violations (report : Report) :
    Failure.ofViolations report.violations = violatedConstraints report.listed := by
  unfold Failure.ofViolations Report.violations violatedConstraints
  rw [List.length_map]
  rfl

theorem takesIn_json (decode : Json.Decoder α) (remark : Intake.Remark) (report : α → Report) :
    TakesIn (Intake.json decode remark report) (JsonUnread decode remark) (HoldsJson decode)
      rejectedFields report where
  decided request := by
    by_cases hdeclared : DeclaresJson request
    · by_cases hlength : 2097152 < request.body.length
      · exact .inl ⟨_, .tooLong hdeclared hlength⟩
      · cases hread : Json.read decode (Text.Utf8.decode request.body) with
        | error fault =>
          cases fault with
          | malformed => exact .inl ⟨_, .malformed hdeclared (Nat.not_lt.mp hlength) hread⟩
          | unfit => exact .inl ⟨_, .unfit hdeclared (Nat.not_lt.mp hlength) hread⟩
        | ok value => exact .inr ⟨value, hdeclared, Nat.not_lt.mp hlength, hread⟩
    · exact .inl ⟨_, .mediaType hdeclared⟩
  ofUnread request failure hunread := by
    cases hunread with
    | mediaType hdeclared =>
      unfold Intake.json
      rw [if_pos (Bool.eq_false_iff.mpr fun hjson => hdeclared (isJson_iff.mp hjson))]
      rfl
    | tooLong hdeclared hlength =>
      unfold Intake.json Intake.bodyLimit
      rw [isJson_iff.mpr hdeclared, if_neg Bool.noConfusion, if_pos hlength]
      rfl
    | malformed hdeclared hlength hread =>
      rw [json_of_declared hdeclared hlength, hread]
      rfl
    | unfit hdeclared hlength hread =>
      rw [json_of_declared hdeclared hlength, hread]
      rfl
  ofHolds request value hholds := by
    obtain ⟨hdeclared, hlength, hread⟩ := hholds
    rw [json_of_declared hdeclared hlength, hread]
    simp only [ofFieldErrors_fieldErrors]
  shown catalog first later := .firstField _ _ _

theorem takesIn_query (shape : Query.Shape σ α) (report : α → Report) :
    TakesIn (Intake.query shape report) (QueryUnread shape) (HoldsQuery shape)
      violatedConstraints report where
  decided request := by
    cases hread : shape.read request.query with
    | error fault =>
      cases hname : Intake.missingName? fault.text with
      | some name => exact .inl ⟨_, .missing fault name hread hname⟩
      | none => exact .inl ⟨_, .mismatch fault hread hname⟩
    | ok value => exact .inr ⟨value, hread⟩
  ofUnread request failure hunread := by
    unfold Intake.query
    cases hunread with
    | missing fault name hread hname =>
      rw [hread]
      dsimp only
      unfold Intake.queryFailure
      rw [hname]
      rfl
    | mismatch fault hread hname =>
      rw [hread]
      dsimp only
      unfold Intake.queryFailure
      rw [hname]
  ofHolds request value hholds := by
    unfold Intake.query
    rw [hholds]
    simp only [ofViolations_violations]
  shown catalog first later := .firstViolation _ _ _

/-- Values come from bodies as the declared checks allow. -/
def AdmitsBody (decode : Json.Decoder α) (remark : Intake.Remark) (report : α → Report)
    (declared : Declared α) : Prop :=
  Admits (Intake.json decode remark report) (JsonUnread decode remark) (HoldsJson decode)
    rejectedFields declared

/-- Values come from queries as the declared checks allow. -/
def AdmitsQuery (shape : Query.Shape σ α) (report : α → Report) (declared : Declared α) : Prop :=
  Admits (Intake.query shape report) (QueryUnread shape) (HoldsQuery shape) violatedConstraints
    declared

/-! ## Admission -/

/-- Whatever is taken in from a body or from a query passes its declared checks, in whatever order
the fields of a report on it come. -/
theorem intake_admits (decode : Json.Decoder α) (remark : Intake.Remark) (shape : Query.Shape σ β)
    {declared : Declared α} {constraints : Declared β} {report : α → Report} {findings : β → Report}
    (hreport : ∀ value, (report value).Perm (declared.report value))
    (hfindings : ∀ value, (findings value).Perm (constraints.report value)) :
    AdmitsBody decode remark report declared ∧ AdmitsQuery shape findings constraints :=
  ⟨(takesIn_json decode remark report).admits hreport,
    (takesIn_query shape findings).admits hfindings⟩

/-- A request for a token in which the type of the grant and the code are empty. -/
def emptyTokenRequest : Request where
  method := "POST"
  path := "/oauth/token"
  sentPath := "/oauth/token"
  query := none
  headers := [("content-type", Text.Utf8.encode "application/json")]
  body := Text.Utf8.encode "\x7b\"grant_type\":\"\",\"code\":\"\"\x7d"

/-- The route for tokens. -/
def tokenRoutes : Router Outcome :=
  ⟨[⟨"/oauth/token", ⟨[.literal "oauth".toList, .literal "token".toList]⟩,
    [(.post, (Endpoint.issueToken Intake.endRemark).run)]⟩]⟩

theorem holdsJson_emptyTokenRequest :
    HoldsJson TokenRequest.shape.decoder emptyTokenRequest ⟨"", "", none⟩ := by
  have hjson : Intake.isJson emptyTokenRequest = true := by cbv
  have hlength : emptyTokenRequest.body.length ≤ 2097152 := by cbv
  have hread : Json.read TokenRequest.shape.decoder
      (Text.Utf8.decode emptyTokenRequest.body) = .ok ⟨"", "", none⟩ := by cbv
  exact ⟨isJson_iff.mp hjson, hlength, hread⟩

/-- The forms of the provider are taken in so; of two empty fields the one that comes first by name
is told, and of a body that is empty what the reader remarks on it. -/
theorem intake_admits_forms :
    (AdmitsBody ClientRegistration.shape.decoder Intake.endRemark ClientRegistration.report
        ClientRegistration.declared ∧
      AdmitsQuery ClientQuery.shape ClientQuery.report ClientQuery.declared) ∧
    (AdmitsBody TokenRequest.shape.decoder Intake.endRemark TokenRequest.report
        TokenRequest.declared ∧
      AdmitsQuery AuthorizeRequest.shape AuthorizeRequest.report AuthorizeRequest.declared) ∧
    AdmitsQuery Search.shape Search.report Search.declared ∧
    Intake.json TokenRequest.shape.decoder Intake.endRemark TokenRequest.report
        { emptyTokenRequest with body := [] } =
      .error (.unclassified
        ⟨"Failed to parse the request body as JSON: " ++
          "EOF while parsing a value at line 1 column 0", []⟩) ∧
    ((tokenRoutes.layer (Dispatcher.wrap ⟨Config.standard.dispatch, Catalog.builtin⟩)).respond
        emptyTokenRequest).1 =
      ⟨400, [("content-type", "application/json")], oauthText ⟨"invalid_input", "invalid_code"⟩,
        none⟩ := by
  have hregister := fun r : ClientRegistration => List.Perm.of_eq r.report_eq
  have hclients := fun q : ClientQuery => List.Perm.of_eq q.report_eq
  have htoken := fun r : TokenRequest => List.Perm.of_eq r.report_eq
  have hauthorize := fun r : AuthorizeRequest => List.Perm.of_eq r.report_eq
  have hsearch := fun s : Search => List.Perm.of_eq s.report_eq
  have hadmits := intake_admits TokenRequest.shape.decoder Intake.endRemark AuthorizeRequest.shape
    htoken hauthorize
  refine ⟨intake_admits _ _ _ hregister hclients, hadmits,
    (intake_admits TokenRequest.shape.decoder Intake.endRemark _ htoken hsearch).2, ?_, ?_⟩
  · have hread : Json.read TokenRequest.shape.decoder (Text.Utf8.decode []) =
        .error .malformed := by cbv
    exact (hadmits.1.verdict _ _).mpr
      (.unread _ (.malformed holdsJson_emptyTokenRequest.1 (Nat.zero_le _) hread))
  have hfails : ¬ TokenRequest.declared.Passes ⟨"", "", none⟩ := by
    intro hpasses
    have hgrant := hpasses _ List.mem_cons_self _ List.mem_cons_self
    cases hgrant
  obtain ⟨failed, hfirst, hsent⟩ := hadmits.1.described
    ⟨Config.standard.dispatch, Catalog.builtin⟩ tokenRoutes Endpoint.tokenAnswer
    emptyTokenRequest emptyTokenRequest _ rfl holdsJson_emptyTokenRequest hfails (by decide)
  rw [hsent, hfirst.unique TokenRequest.firstFailed_empty]
  rfl

end IdentityProvider
