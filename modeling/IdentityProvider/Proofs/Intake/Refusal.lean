import IdentityProvider.Proofs.Intake.Admission
import IdentityProvider.Proofs.Text.ByteOrder

/-
  What is told of a value that fails its checks, and what is sent for it.

  The failed checks come as a map from the names of fields, and its entries in any order
  (`Yields`).  `Canonical` says what is made of the map: each failed check as often as it occurs,
  by the bytes of the names, and for one name in the order of its checks.  One list does so
  (`Canonical.unique`), and all orders of the entries lead to it (`Yields.canonical`), so that two
  requests to one path with the same failed checks are answered alike (`listedOnce`).
-/

namespace IdentityProvider

open Validation

/-! ## One list -/

namespace Validation

/-- The failed checks by the names of their fields. -/
abbrev Findings := String → Option (List Failed)

/-- The entries of the map, each once, in one of their orders. -/
structure Yields (found : Findings) (fields : List (String × List Failed)) : Prop where
  once : (fields.map Prod.fst).Nodup
  entries : ∀ name failed, (name, failed) ∈ fields ↔ found name = some failed

/-- What is made of the map, whatever the order of its entries. -/
structure Canonical (found : Findings) (listed : List (String × Failed)) : Prop where
  /-- Nothing is lost or repeated. -/
  often : ∀ name failed, listed.count (name, failed) = ((found name).getD []).count failed
  /-- The names ascend, byte by byte. -/
  ascending : listed.Pairwise fun a b => Text.BytesLE a.1 b.1
  /-- The checks of one field stay in their order. -/
  inOrder : ∀ name, named name listed = ((found name).getD []).map (name, ·)

section

variable {found : Findings} {fields others : List (String × List Failed)}
  {listed rest : List (String × Failed)}

theorem Yields.named_flat (h : Yields found fields) (name : String) :
    named name (Report.flat fields) = ((found name).getD []).map (name, ·) := by
  rw [Validation.named_flat]
  cases hfound : found name with
  | none =>
    have hnone : ∀ field ∈ fields, field.1 ≠ name := by
      rintro ⟨_, failed⟩ hfield rfl
      have hsome := (h.entries _ failed).mp hfield
      rw [hfound] at hsome
      cases hsome
    rw [named_eq_nil hnone]
    rfl
  | some failed =>
    have hmem : (name, failed) ∈ fields := (h.entries name failed).mpr hfound
    rw [named_eq_singleton h.once hmem]
    exact List.append_nil _

theorem count_eq_count_named (listed : List (String × Failed)) (name : String) (failed : Failed) :
    listed.count (name, failed) = (named name listed).count (name, failed) := by
  unfold named
  rw [List.count_filter]
  exact decide_eq_true rfl

theorem Yields.canonical (h : Yields found fields) :
    Canonical found (Report.flat (Report.byName fields)) := by
  have hlisting := listing_flat_byName (List.Perm.refl fields) h.once
  have hinOrder : ∀ name, named name (Report.flat (Report.byName fields)) =
      ((found name).getD []).map (name, ·) :=
    fun name => (hlisting.inOrder name).trans (h.named_flat name)
  refine ⟨?_, ?_, hinOrder⟩
  · intro name failed
    have hinjective : Function.Injective fun failed : Failed => (name, failed) :=
      fun a b hab => congrArg Prod.snd hab
    rw [count_eq_count_named, hinOrder]
    exact List.count_map_of_injective _ _ hinjective failed
  · exact hlisting.ascending.imp Text.bytesLE_iff.mpr

theorem Canonical.unique (h : Canonical found listed) (hrest : Canonical found rest) :
    listed = rest := by
  apply eq_of_named_eq (h.ascending.imp Text.bytesLE_iff.mp)
    (hrest.ascending.imp Text.bytesLE_iff.mp)
  intro name
  rw [h.inOrder, hrest.inOrder]

end

end Validation

/-! ## One answer -/

/-- The route in charge takes in a value from the body or from the query of a request, and the value
there fails just these checks of its fields; the failure made of them tells the two apart. -/
inductive Refuses (table : Router Outcome) (request : Request) (found : Findings) :
    (List (String × Failed) → Failure) → Prop
  | body {α : Type} (decode : Json.Decoder α) (remark : Intake.Remark) (report : α → Report)
    (use : α → Outcome) (seen : Request) (value : α) :
    table.serve request = .served (Outcome.ofIntake use (Intake.json decode remark report seen)) →
    HoldsJson decode seen value → report value ≠ [] → Yields found (report value).own →
    Refuses table request found rejectedFields
  | query {σ α : Type} (shape : Query.Shape σ α) (report : α → Report) (use : α → Outcome)
    (seen : Request) (value : α) :
    table.serve request = .served (Outcome.ofIntake use (Intake.query shape report seen)) →
    HoldsQuery shape seen value → report value ≠ [] → Yields found (report value).own →
    Refuses table request found violatedConstraints

/-- The failed checks are listed in one way and shown in one way, whatever the order in which they
come. -/
structure ListedOnce (found : Findings) : Prop where
  /-- Every order of the entries leads to the one list. -/
  listed : ∀ fields, Yields found fields →
    ∀ listed, Canonical found listed ↔ Report.flat (Report.byName fields) = listed
  /-- There is one rejected field for each entry, with the message of the check or its code. -/
  fieldErrors : ∀ report, Yields found (Report.own report) → ∀ listed, Canonical found listed →
    Report.fieldErrors report =
      listed.map fun entry => ⟨entry.1, entry.2.message.getD entry.2.code⟩
  /-- There is one violated constraint for each entry, with the message of the check or its code. -/
  violations : ∀ report, Yields found (Report.own report) → ∀ listed, Canonical found listed →
    Report.violations report =
      listed.map fun entry => ⟨entry.1, entry.2.message.getD entry.2.code⟩
  /-- Two bodies, or two queries, that are refused for these checks at one path get one answer; who
  asks for the head alone, or for a tunnel and gets it, gets the answer without its body. -/
  answers : ∀ (reject : List (String × Failed) → Failure) (dispatcher : Dispatcher)
    (table : Router Outcome) (request other : Request),
    Refuses table request found reject → Refuses table other found reject →
    request.sentPath = other.sentPath →
    ∃ response : Response,
      ((table.layer dispatcher.wrap).respond request).1 = response.sentFor request ∧
      ((table.layer dispatcher.wrap).respond other).1 = response.sentFor other

section

variable {table : Router Outcome} {request other : Request} {found : Findings}
  {listed : List (String × Failed)}

/-- A refusal is raised as the failure with the one list of the checks. -/
theorem carries_of_takesIn {α : Type} {take : Request → Except Failure α}
    {unread : Request → Failure → Prop} {holds : Request → α → Prop}
    {reject : List (String × Failed) → Failure} {report : α → Report} {use : α → Outcome}
    {seen : Request} {value : α} (h : TakesIn take unread holds reject report)
    (hserved : table.serve request = .served (Outcome.ofIntake use (take seen)))
    (hholds : holds seen value) (hfails : report value ≠ [])
    (hyields : Yields found (report value).own) (hlisted : Canonical found listed) :
    Carries (table.serve request) (reject listed) := by
  have htaken := h.refuses hholds hfails
  have hone : (report value).listed = listed := (hlisted.unique hyields.canonical).symm
  rw [hserved, htaken, hone]
  exact .raised _ _ rfl

theorem Refuses.carries {reject : List (String × Failed) → Failure}
    (h : Refuses table request found reject) (hlisted : Canonical found listed) :
    Carries (table.serve request) (reject listed) := by
  cases h with
  | body decode remark report use seen value hserved hholds hfails hyields =>
    exact carries_of_takesIn (takesIn_json decode remark report) hserved hholds hfails hyields
      hlisted
  | query shape report use seen value hserved hholds hfails hyields =>
    exact carries_of_takesIn (takesIn_query shape report) hserved hholds hfails hyields hlisted

theorem Refuses.exists_canonical {reject : List (String × Failed) → Failure}
    (h : Refuses table request found reject) : ∃ listed, Canonical found listed := by
  cases h with
  | body _ _ _ _ _ _ _ _ _ hyields => exact ⟨_, hyields.canonical⟩
  | query _ _ _ _ _ _ _ _ hyields => exact ⟨_, hyields.canonical⟩

/-- One failure at one path is shown in one way. -/
theorem answered_alike (dispatcher : Dispatcher) {failure : Failure}
    (h : Carries (table.serve request) failure) (hother : Carries (table.serve other) failure)
    (hpath : request.sentPath = other.sentPath) :
    ∃ response : Response,
      ((table.layer dispatcher.wrap).respond request).1 = response.sentFor request ∧
      ((table.layer dispatcher.wrap).respond other).1 = response.sentFor other := by
  refine ⟨(dispatcher.dispatch failure request.sentPath).1, ?_, ?_⟩
  · rw [respond_wrap_dispatched h]
  · rw [respond_wrap_dispatched hother, hpath]

end

theorem listedOnce (found : Findings) : ListedOnce found where
  listed fields hyields listed := by
    constructor
    · exact hyields.canonical.unique
    · rintro rfl
      exact hyields.canonical
  fieldErrors report hyields listed hlisted := by
    rw [hlisted.unique hyields.canonical]
    rfl
  violations report hyields listed hlisted := by
    rw [hlisted.unique hyields.canonical]
    rfl
  answers reject dispatcher table request other h hother hpath := by
    obtain ⟨listed, hlisted⟩ := h.exists_canonical
    exact answered_alike dispatcher (h.carries hlisted) (hother.carries hlisted) hpath

/-- A question for the clients of no URI, with this method; its body is the registration of a client
with no URI. -/
def uriLeftEmpty (method : String) : Request where
  method := method
  path := "/authorization/clients"
  sentPath := "/authorization/clients"
  query := some "redirect_uri="
  headers := [("content-type", Text.Utf8.encode "application/json")]
  body := Text.Utf8.encode "\x7b\"client_id\":\"c\",\"redirect_uri\":\"\",\"name\":\"n\"\x7d"

/-- One path at which clients are asked for and registered. -/
def clientRoutes : Router Outcome :=
  ⟨[⟨"/authorization/clients", ⟨[.literal "authorization".toList, .literal "clients".toList]⟩,
    [(.get, Endpoint.listClients.run), (.post, (Endpoint.registerClient Intake.endRemark).run)]⟩]⟩

/-- The failed check of a URI that is left empty. -/
def emptyUri : Failed := ⟨Validation.urlCode, some "invalid_redirect_uri"⟩

/-- An empty URI fails its check, and no other check fails. -/
def emptyUriFindings : Findings := fun name =>
  if name = "redirect_uri" then some [emptyUri] else none

theorem yields_emptyUri : Yields emptyUriFindings [("redirect_uri", [emptyUri])] := by
  refine ⟨by decide, ?_⟩
  intro name failed
  unfold emptyUriFindings
  rw [List.mem_singleton, Prod.mk.injEq]
  by_cases hname : name = "redirect_uri"
  · rw [if_pos hname, Option.some.injEq]
    exact ⟨fun h => h.2.symm, fun h => ⟨hname, h.symm⟩⟩
  · rw [if_neg hname]
    exact ⟨fun h => absurd h.1 hname, nofun⟩

theorem canonical_emptyUri : Canonical emptyUriFindings [("redirect_uri", emptyUri)] := by
  simpa [Report.byName, Report.flat] using yields_emptyUri.canonical

theorem refuses_query_uriLeftEmpty (method : String)
    (hserved : clientRoutes.serve (uriLeftEmpty method) = .served (Outcome.ofIntake
      (fun q => .ofText q.redirectUri)
      (Intake.query ClientQuery.shape ClientQuery.report (uriLeftEmpty method)))) :
    Refuses clientRoutes (uriLeftEmpty method) emptyUriFindings violatedConstraints := by
  have hholds : HoldsQuery ClientQuery.shape (uriLeftEmpty method) ⟨""⟩ := by
    have hread : ClientQuery.shape.read (some "redirect_uri=") = .ok ⟨""⟩ := by cbv
    exact hread
  have hreport : ClientQuery.report ⟨""⟩ = [("redirect_uri", .checks [emptyUri])] := by cbv
  refine .query ClientQuery.shape ClientQuery.report _ (uriLeftEmpty method) _ hserved hholds ?_ ?_
  · rw [hreport]
    exact List.cons_ne_nil _ _
  · rw [hreport]
    exact yields_emptyUri

theorem refuses_body_uriLeftEmpty :
    Refuses clientRoutes (uriLeftEmpty "POST") emptyUriFindings rejectedFields := by
  have hholds : HoldsJson ClientRegistration.shape.decoder (uriLeftEmpty "POST")
      ⟨"c", "", "n"⟩ := by
    have hjson : Intake.isJson (uriLeftEmpty "POST") = true := by cbv
    have hlength : (uriLeftEmpty "POST").body.length ≤ 2097152 := by cbv
    have hread : Json.read ClientRegistration.shape.decoder
        (Text.Utf8.decode (uriLeftEmpty "POST").body) = .ok ⟨"c", "", "n"⟩ := by cbv
    exact ⟨isJson_iff.mp hjson, hlength, hread⟩
  have hreport : ClientRegistration.report ⟨"c", "", "n"⟩ =
      [("redirect_uri", .checks [emptyUri])] := by cbv
  refine .body ClientRegistration.shape.decoder Intake.endRemark ClientRegistration.report
    (fun r => .ofText r.clientId) (uriLeftEmpty "POST") _ rfl hholds ?_ ?_
  · rw [hreport]
    exact List.cons_ne_nil _ _
  · rw [hreport]
    exact yields_emptyUri

/-- The bodies that are sent differ where only the head of one answer was asked for, and where one
request is refused for its body and the other for its query. -/
theorem not_listedOnce_in_each_body :
    (¬ ∀ (found : Findings) (reject : List (String × Failed) → Failure) (dispatcher : Dispatcher)
      (table : Router Outcome) (request other : Request), Refuses table request found reject →
      Refuses table other found reject → request.sentPath = other.sentPath →
      ((table.layer dispatcher.wrap).respond request).1.body =
        ((table.layer dispatcher.wrap).respond other).1.body) ∧
    ¬ ∀ (found : Findings) (reject rejectOther : List (String × Failed) → Failure)
      (dispatcher : Dispatcher) (table : Router Outcome) (request other : Request),
      request.method ≠ "HEAD" → other.method ≠ "HEAD" → Refuses table request found reject →
      Refuses table other found rejectOther → request.sentPath = other.sentPath →
      ((table.layer dispatcher.wrap).respond request).1.body =
        ((table.layer dispatcher.wrap).respond other).1.body := by
  have hget := refuses_query_uriLeftEmpty "GET" rfl
  have hhead := refuses_query_uriLeftEmpty "HEAD" rfl
  have hpost := refuses_body_uriLeftEmpty
  constructor
  · intro hbodies
    have hsame := hbodies _ _ ⟨Config.standard.dispatch, Catalog.builtin⟩ _ _ _ hget hhead rfl
    rw [respond_wrap_dispatched (hget.carries canonical_emptyUri),
      respond_wrap_dispatched (hhead.carries canonical_emptyUri)] at hsame
    revert hsame
    decide
  · intro hbodies
    have hsame := hbodies _ _ _ ⟨Config.standard.dispatch, Catalog.builtin⟩ _ _ _ (by decide)
      (by decide) hget hpost rfl
    rw [respond_wrap_dispatched (hget.carries canonical_emptyUri),
      respond_wrap_dispatched (hpost.carries canonical_emptyUri)] at hsame
    revert hsame
    decide

end IdentityProvider
