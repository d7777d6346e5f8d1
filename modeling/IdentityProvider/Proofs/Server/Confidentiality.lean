import IdentityProvider.Proofs.Routing.Alike
import IdentityProvider.Server

/-
  What went wrong inside is not told.

  Two runs are compared.  `Logged.Alike` says that what they send is the same and that what they
  log differs at most in the words of a failure.  A dispatch of one failure or of another comes out
  alike where the surface does not tell the two apart, and two servers whose services fail inside
  in different ways answer every request alike.  The tables of the two servers are related by
  `Router.Alike`, so one step of the proof is about a single answer (`Outcome.Alike.settle`) and
  the routing carries it to whole servers (`build_alike`).
-/

namespace IdentityProvider

/-! ## Two runs -/

/-- An event without the words of a failure. -/
def Log.Event.withoutError : Log.Event → Log.Event
  | .failureEncountered path _ => .failureEncountered path ""
  | event => event

/-- The same response, and the same events but for the words of a failure. -/
structure Logged.Alike (sent other : Logged) : Prop where
  response : sent.1 = other.1
  events : sent.2.map Log.Event.withoutError = other.2.map Log.Event.withoutError

/-- A failure whose words are for the log alone on every surface. -/
inductive Failure.IsInternal : Failure → Prop
  | typeMismatch (message : String) : IsInternal (.typeMismatch message)
  | unclassified (cause : Cause) : IsInternal (.unclassified cause)

/-- A failure of which the OAuth surface says only that it is unknown. -/
inductive Failure.IsUnexpected : Failure → Prop
  | missingParameter (name message : String) : IsUnexpected (.missingParameter name message)
  | mediaTypeNotAcceptable (message : String) : IsUnexpected (.mediaTypeNotAcceptable message)
  | typeMismatch (message : String) : IsUnexpected (.typeMismatch message)
  | unclassified (cause : Cause) : IsUnexpected (.unclassified cause)

/-- An outcome of which nothing may be told: a break-off, or a failure whose words are for the log
alone, whatever else the response holds that carries it. -/
inductive Outcome.IsWithheld : Outcome → Prop
  | crashed (crash : Crash) : IsWithheld (.crashed crash)
  | raised {response : Response} {failure : Failure} :
    response.raised = some failure → failure.IsInternal → IsWithheld (.answered response)

/-- The same outcome, or two of which nothing may be told. -/
inductive Outcome.Alike : Outcome → Outcome → Prop
  | same (outcome : Outcome) : Alike outcome outcome
  | withheld {outcome other : Outcome} :
    outcome.IsWithheld → other.IsWithheld → Alike outcome other

/-- Both servers are refused for the same reason, or both are built, stand at the same address and
answer every request alike; what is logged while they are built is the same. -/
inductive BuiltAlike : Except StartError Server × List Log.Event →
    Except StartError Server × List Log.Event → Prop
  | refused (error : StartError) (events : List Log.Event) :
    BuiltAlike (.error error, events) (.error error, events)
  | built {server other : Server} (events : List Log.Event) :
    server.listenAddress = other.listenAddress →
    (∀ request, Logged.Alike (server.router.respond request) (other.router.respond request)) →
    BuiltAlike (.ok server, events) (.ok other, events)

/-! ## One dispatch -/

section

variable {dispatcher : Dispatcher} {path : String} {failure other : Failure}

/-- What is logged of two failures at one path differs in their words alone. -/
theorem dispatch_alike
    (h : dispatcher.rendering failure path = dispatcher.rendering other path) :
    Logged.Alike (dispatcher.dispatch failure path) (dispatcher.dispatch other path) where
  response := congrArg Rendering.response h
  events := rfl

theorem Failure.IsInternal.isUnexpected (h : failure.IsInternal) : failure.IsUnexpected := by
  cases h with
  | typeMismatch message => exact .typeMismatch message
  | unclassified cause => exact .unclassified cause

theorem Failure.IsUnexpected.ne_notAuthenticated (h : failure.IsUnexpected) :
    failure ≠ .domain .notAuthenticated := by
  rintro rfl
  cases h

theorem Failure.IsInternal.envelope_eq (h : failure.IsInternal) (catalog : Catalog) :
    Encoding.envelope catalog failure = ⟨[catalog.entry ErrorCode.unknownError]⟩ := by
  cases h with
  | typeMismatch message => rfl
  | unclassified cause => rfl

theorem Failure.IsUnexpected.oauth_eq (h : failure.IsUnexpected) (catalog : Catalog) :
    Encoding.oauth catalog failure =
      (Status.internalServerError, catalog.oauthError ErrorCode.unknownError) := by
  cases h with
  | missingParameter name message => rfl
  | mediaTypeNotAcceptable message => rfl
  | typeMismatch message => rfl
  | unclassified cause => rfl

theorem rendering_oauth_eq (hpath : dispatcher.classifier.classify path = .oauth)
    (h : failure.IsUnexpected) (h' : other.IsUnexpected) :
    dispatcher.rendering failure path = dispatcher.rendering other path := by
  unfold Dispatcher.rendering
  rw [hpath]
  simp only [Failure.rendering, h.oauth_eq, h'.oauth_eq]

theorem rendering_challenge_eq (hpath : dispatcher.classifier.classify path = .challenge)
    (h : failure = .domain .notAuthenticated ↔ other = .domain .notAuthenticated) :
    dispatcher.rendering failure path = dispatcher.rendering other path := by
  unfold Dispatcher.rendering
  rw [hpath]
  simp only [Failure.rendering, Challenge.token_eq_ite, h]

/-- No surface tells two internal failures apart. -/
theorem rendering_internal_eq (h : failure.IsInternal) (h' : other.IsInternal) :
    dispatcher.rendering failure path = dispatcher.rendering other path := by
  cases hpath : dispatcher.classifier.classify path with
  | internal =>
    unfold Dispatcher.rendering
    rw [hpath]
    simp only [Failure.rendering, h.envelope_eq, h'.envelope_eq]
  | oauth => exact rendering_oauth_eq hpath h.isUnexpected h'.isUnexpected
  | challenge =>
    refine rendering_challenge_eq hpath (iff_of_false ?_ ?_)
    · exact h.isUnexpected.ne_notAuthenticated
    · exact h'.isUnexpected.ne_notAuthenticated

end

/-! ## Whole servers -/

/-- A withheld outcome amounts to a response that carries an internal failure. -/
theorem Outcome.IsWithheld.raised_eq {outcome : Outcome} (h : outcome.IsWithheld) :
    ∃ failure, outcome.response.raised = some failure ∧ failure.IsInternal := by
  cases h with
  | crashed crash => exact ⟨crash.failure, rfl, .unclassified _⟩
  | raised hraised hinternal => exact ⟨_, hraised, hinternal⟩

/-- What is sent for two outcomes that are alike is alike. -/
theorem Outcome.Alike.settle {outcome other : Outcome} (h : outcome.Alike other)
    (dispatcher : Dispatcher) (path : String) :
    Logged.Alike (dispatcher.settle path outcome.response)
      (dispatcher.settle path other.response) := by
  cases h with
  | same => exact ⟨rfl, rfl⟩
  | withheld h h' =>
    obtain ⟨failure, hraised, hinternal⟩ := h.raised_eq
    obtain ⟨failure', hraised', hinternal'⟩ := h'.raised_eq
    unfold Dispatcher.settle
    simp only [hraised, hraised']
    exact dispatch_alike (rendering_internal_eq hinternal hinternal')

/-- Routers that are alike send alike responses. -/
theorem Router.Alike.respond {router other : Router Logged}
    (h : router.Alike Logged.Alike other) (request : Request) :
    Logged.Alike (router.respond request) (other.respond request) := by
  have hserve := h.serve request
  unfold Router.respond
  generalize router.serve request = reply, other.serve request = reply' at hserve ⊢
  cases hserve with
  | served h =>
    refine ⟨?_, h.events⟩
    show Reply.response request (.served _) = Reply.response request (.served _)
    rw [h.response]
  | notFound => exact ⟨rfl, rfl⟩
  | notAllowed methods => exact ⟨rfl, rfl⟩

theorem withHealth_alike {routes other : Router Outcome} (h : routes.Alike Outcome.Alike other)
    (health : Config.Health) :
    InsertedAlike Outcome.Alike (Server.withHealth health routes)
      (Server.withHealth health other) := by
  unfold Server.withHealth
  split
  · exact h.insert (fun call => .same _) .get health.path
  · exact .inserted h

/-- Servers around tables that are alike are alike. -/
theorem build_alike {routes other : Router Outcome} (h : routes.Alike Outcome.Alike other)
    (files : Files) (config : Config) :
    BuiltAlike (Server.build files config routes) (Server.build files config other) := by
  unfold Server.build
  -- the catalog does not depend on the routes, so both runs log the same up to here
  obtain ⟨result, events⟩ := Server.catalog files config.messages
  cases result with
  | error error => exact .refused _ events
  | ok catalog =>
    have hhealth := withHealth_alike h config.server.health
    dsimp only
    generalize Server.withHealth config.server.health routes = table,
      Server.withHealth config.server.health other = table' at hhealth ⊢
    cases hhealth with
    | refused error => exact .refused _ events
    | inserted htable =>
      refine .built events rfl fun request => Router.Alike.respond ?_ request
      refine htable.layer fun service other hservice call => ?_
      exact (hservice call).settle ⟨config.dispatch, catalog⟩ call.request.sentPath

/-- What went wrong inside is not told: failures that a surface must not tell apart are sent alike,
tables that differ in a service of which nothing may be told are alike, and servers around tables
that are alike answer alike. -/
theorem internals_withheld :
    (∀ (dispatcher : Dispatcher) (path : String) (failure other : Failure),
      (failure.IsInternal → other.IsInternal →
        Logged.Alike (dispatcher.dispatch failure path) (dispatcher.dispatch other path)) ∧
      (dispatcher.classifier.classify path = .oauth →
        failure.IsUnexpected → other.IsUnexpected →
        Logged.Alike (dispatcher.dispatch failure path) (dispatcher.dispatch other path)) ∧
      (dispatcher.classifier.classify path = .challenge →
        (failure = .domain .notAuthenticated ↔ other = .domain .notAuthenticated) →
        Logged.Alike (dispatcher.dispatch failure path) (dispatcher.dispatch other path))) ∧
    (∀ (routes : Router Outcome) (verb : Verb) (text : String) (service other : Call → Outcome),
      (∀ call, (service call).IsWithheld) → (∀ call, (other call).IsWithheld) →
      InsertedAlike Outcome.Alike (routes.insert verb text service)
        (routes.insert verb text other)) ∧
    (∀ (files : Files) (config : Config) (routes other : Router Outcome),
      routes.Alike Outcome.Alike other →
      BuiltAlike (Server.build files config routes) (Server.build files config other)) := by
  refine ⟨?_, ?_, ?_⟩
  · intro dispatcher path failure other
    refine ⟨fun h h' => ?_, fun hpath h h' => ?_, fun hpath h => ?_⟩
    · exact dispatch_alike (rendering_internal_eq h h')
    · exact dispatch_alike (rendering_oauth_eq hpath h h')
    · exact dispatch_alike (rendering_challenge_eq hpath h)
  · intro routes verb text service other h h'
    exact (routes.alike_self .same).insert (fun call => .withheld (h call) (h' call)) verb text
  · intro files config routes other h
    exact build_alike h files config

/-- The same under the standard settings, at a path of each kind and for a route that breaks off
or fails for want of a database. -/
theorem internals_withheld_standard :
    let dispatcher : Dispatcher := ⟨Classifier.standard, Catalog.builtin⟩
    Logged.Alike (dispatcher.dispatch (.ofError "database unreachable") "/client-mgmt/oidc-client")
      (dispatcher.dispatch (.typeMismatch "no number") "/client-mgmt/oidc-client") ∧
    Logged.Alike (dispatcher.dispatch (.ofMissing "code") "/oauth/token")
      (dispatcher.dispatch (.mediaTypeNotAcceptable "no JSON") "/oauth/token") ∧
    Logged.Alike (dispatcher.dispatch (.domain .invalidClient) "/oidc/userinfo")
      (dispatcher.dispatch (.ofFieldErrors []) "/oidc/userinfo") ∧
    ∃ routes other,
      Router.empty.insert .get "/oauth/token" (Endpoint.crash (.said "out of memory")).run =
        .ok routes ∧
      Router.empty.insert .get "/oauth/token"
        (Endpoint.raise (.ofError "database unreachable")).run = .ok other ∧
      routes.Alike Outcome.Alike other ∧
      BuiltAlike (Server.build ⟨[]⟩ Config.standard routes)
        (Server.build ⟨[]⟩ Config.standard other) := by
  refine ⟨?_, ?_, ?_, ?_⟩
  · exact (internals_withheld.1 _ _ _ _).1 (.unclassified _) (.typeMismatch _)
  · exact (internals_withheld.1 _ _ _ _).2.1 (by decide) (.missingParameter _ _)
      (.mediaTypeNotAcceptable _)
  · exact (internals_withheld.1 _ _ _ _).2.2 (by decide) (by decide)
  · obtain ⟨routes, hroutes⟩ : ∃ routes, Router.empty.insert .get "/oauth/token"
      (Endpoint.crash (.said "out of memory")).run = .ok routes := ⟨_, rfl⟩
    obtain ⟨other, hother⟩ : ∃ other, Router.empty.insert .get "/oauth/token"
      (Endpoint.raise (.ofError "database unreachable")).run = .ok other := ⟨_, rfl⟩
    have hinserted := internals_withheld.2.1 .empty .get "/oauth/token"
      (Endpoint.crash (.said "out of memory")).run
      (Endpoint.raise (.ofError "database unreachable")).run
      (fun _ => .crashed _) (fun _ => .raised rfl (.unclassified _))
    rw [hroutes, hother] at hinserted
    cases hinserted with
    | inserted halike =>
      exact ⟨routes, other, hroutes, hother, halike, internals_withheld.2.2 _ _ _ _ halike⟩

end IdentityProvider
