import IdentityProvider.Routing.Layer
import IdentityProvider.Server

/-
  What becomes of the failures of a server's routes.

  A reply of the routes either carries one failure (`Carries`) or passes through as a response
  (`PassesThrough`).  `SettlesOnce` says what a router does with the two: a failure is dispatched
  once, for the path that was sent, and its rendering takes the place of whatever carried it; a
  response without a failure goes out as it is, and nothing is logged.
-/

namespace IdentityProvider

/-! ## Built servers -/

/-- A server that was built has the catalog of the settings, and its routes are those that were
given, with the health route, in the layers of the dispatcher. -/
theorem Server.build_eq_ok_iff {files : Files} {config : Config} {routes : Router Outcome}
    {server : Server} {events : List Log.Event} :
    Server.build files config routes = (.ok server, events) ↔
      ∃ catalog table, Server.catalog files config.messages = (.ok catalog, events) ∧
        Server.withHealth config.server.health routes = .ok table ∧
        server = ⟨table.layer (Dispatcher.wrap ⟨config.dispatch, catalog⟩),
          config.server.listenAddress⟩ := by
  unfold Server.build
  obtain ⟨result, log⟩ := Server.catalog files config.messages
  cases result with
  | error error => simp
  | ok catalog =>
    cases Server.withHealth config.server.health routes with
    | error error => simp
    | ok table =>
      constructor
      · intro h
        cases h
        exact ⟨catalog, table, rfl, rfl, rfl⟩
      · rintro ⟨_, _, hcatalog, htable, rfl⟩
        cases hcatalog
        cases htable
        rfl

/-- The layers of a dispatcher look at nothing but the path that was sent. -/
theorem Dispatcher.serve_wrap (dispatcher : Dispatcher) (table : Router Outcome)
    (request : Request) :
    (table.layer dispatcher.wrap).serve request =
      (table.serve request).map fun outcome =>
        dispatcher.settle request.sentPath outcome.response :=
  Router.serve_layer
    (fun (request : Request) (outcome : Outcome) =>
      dispatcher.settle request.sentPath outcome.response)
    table request

/-! ## What a reply of the routes carries -/

/-- The reply carries the failure: a service raised it in a response, whatever else that response
holds, or broke off. -/
inductive Carries : Reply Outcome → Failure → Prop
  | raised (response : Response) (failure : Failure) :
    response.raised = some failure → Carries (.served (.answered response)) failure
  | said (text : String) :
    Carries (.served (.crashed (.said text))) (.unclassified ⟨"handler panicked: " ++ text, []⟩)
  | unnamed :
    Carries (.served (.crashed .unnamed))
      (.unclassified ⟨"handler panicked: unknown panic payload", []⟩)

/-- The reply comes to the response and carries no failure. -/
inductive PassesThrough : Reply Outcome → Response → Prop
  | answered (response : Response) :
    response.raised = none → PassesThrough (.served (.answered response)) response
  | notFound : PassesThrough .notFound ⟨404, [], "", none⟩
  | notAllowed (methods : List String) :
    PassesThrough (.notAllowed methods)
      ⟨405, [("allow", String.intercalate "," methods)], "", none⟩

/-- A response as it is sent: without its body where only the head was asked for, and where the
request for a tunnel succeeds. -/
def Response.sentFor (request : Request) (response : Response) : Response :=
  if request.method = "HEAD" ∨
      (request.method = "CONNECT" ∧ 200 ≤ response.status ∧ response.status < 300) then
    response.withoutBody
  else response

theorem Carries.raised_eq {outcome : Outcome} {failure : Failure}
    (h : Carries (.served outcome) failure) : outcome.response.raised = some failure := by
  cases h with
  | raised response _ hraised => exact hraised
  | said text => rfl
  | unnamed => rfl

theorem PassesThrough.raised_eq {reply : Reply Outcome} {response : Response}
    (h : PassesThrough reply response) : response.raised = none := by
  cases h with
  | answered _ hraised => exact hraised
  | notFound => rfl
  | notAllowed methods => rfl

theorem passesThrough_or_carries (reply : Reply Outcome) :
    (∃ response, PassesThrough reply response) ∨ ∃ failure, Carries reply failure := by
  cases reply with
  | served outcome =>
    cases outcome with
    | answered response =>
      cases hraised : response.raised with
      | none => exact .inl ⟨response, .answered response hraised⟩
      | some failure => exact .inr ⟨failure, .raised response failure hraised⟩
    | crashed crash =>
      cases crash with
      | said text => exact .inr ⟨_, .said text⟩
      | unnamed => exact .inr ⟨_, .unnamed⟩
  | notFound => exact .inl ⟨_, .notFound⟩
  | notAllowed methods => exact .inl ⟨_, .notAllowed methods⟩

/-! ## What is sent -/

/-- A router that settles every failure of the routes exactly once. -/
structure SettlesOnce (dispatcher : Dispatcher) (table : Router Outcome)
    (router : Router Logged) : Prop where
  /-- Each reply of the routes carries a failure or passes through. -/
  decided : ∀ request, (∃ response, PassesThrough (table.serve request) response) ∨
    ∃ failure, Carries (table.serve request) failure
  /-- A response without a failure is sent, and nothing is logged. -/
  passed : ∀ request response, PassesThrough (table.serve request) response →
    router.respond request = (response.sentFor request, [])
  /-- A failure is dispatched for the path that was sent, and only that is logged. -/
  dispatched : ∀ request failure, Carries (table.serve request) failure →
    router.respond request =
      ((dispatcher.dispatch failure request.sentPath).1.sentFor request,
        [.failureEncountered request.sentPath failure.text,
         .failureDispatched request.sentPath (dispatcher.classifier.classify request.sentPath)])
  /-- No response that is sent carries a failure still to be rendered. -/
  rendered : ∀ request, (router.respond request).1.raised = none
  /-- What is sent for a failure is not what the placeholder of any failure would look like. -/
  replaced : ∀ request failure other, Carries (table.serve request) failure →
    (router.respond request).1 ≠ { Failure.response other with raised := none }

section

variable {dispatcher : Dispatcher} {table : Router Outcome} {request : Request}

theorem Response.sentFor_raised (response : Response) :
    (response.sentFor request).raised = response.raised := by
  unfold Response.sentFor
  split
  · rfl
  · rfl

theorem Reply.response_served (response : Response) :
    Reply.response request (.served response) = response.sentFor request := by
  simp only [Reply.response, Response.isBodiless, Response.sentFor, Bool.or_eq_true,
    Bool.and_eq_true, decide_eq_true_eq, and_assoc]

/-- An answer of a service goes out as the dispatcher settles it. -/
theorem respond_wrap_served {outcome : Outcome} (h : table.serve request = .served outcome) :
    (table.layer dispatcher.wrap).respond request =
      ((dispatcher.settle request.sentPath outcome.response).1.sentFor request,
        (dispatcher.settle request.sentPath outcome.response).2) := by
  unfold Router.respond
  rw [Dispatcher.serve_wrap, h]
  exact congrArg (·, _) (Reply.response_served _)

theorem respond_wrap_passed {response : Response}
    (h : PassesThrough (table.serve request) response) :
    (table.layer dispatcher.wrap).respond request = (response.sentFor request, []) := by
  generalize hreply : table.serve request = reply at h
  cases h with
  | answered response hraised =>
    rw [respond_wrap_served hreply]
    simp only [Outcome.response, Dispatcher.settle, hraised]
  | notFound =>
    unfold Router.respond
    rw [Dispatcher.serve_wrap, hreply]
    -- a body that is empty already stays so where it has to be left out
    simp [Reply.map, Reply.response, Reply.answer?, Response.sentFor, Response.withoutBody,
      Response.ofStatus, Status.notFound]
  | notAllowed methods =>
    unfold Router.respond
    rw [Dispatcher.serve_wrap, hreply]
    simp [Reply.map, Reply.response, Reply.answer?, Response.sentFor, Response.withoutBody,
      Response.ofStatus, Status.methodNotAllowed]

theorem respond_wrap_dispatched {failure : Failure}
    (h : Carries (table.serve request) failure) :
    (table.layer dispatcher.wrap).respond request =
      ((dispatcher.dispatch failure request.sentPath).1.sentFor request,
        dispatcher.events failure request.sentPath) := by
  obtain ⟨outcome, hreply⟩ : ∃ outcome, table.serve request = .served outcome := by
    generalize table.serve request = reply at h
    cases h <;> exact ⟨_, rfl⟩
  rw [hreply] at h
  rw [respond_wrap_served hreply]
  simp only [Dispatcher.settle, h.raised_eq]
  rfl

/-- A rendering always has something that the placeholder of a failure lacks. -/
theorem dispatch_ne_placeholder (failure other : Failure) (path : String) :
    (dispatcher.dispatch failure path).1.sentFor request ≠
      { Failure.response other with raised := none } := by
  intro heq
  have hheaders := congrArg Response.headers heq
  have hsent : ((dispatcher.dispatch failure path).1.sentFor request).headers =
      (dispatcher.rendering failure path).response.headers := by
    unfold Response.sentFor
    split
    · rfl
    · rfl
  rw [hsent] at hheaders
  cases hrendering : dispatcher.rendering failure path with
  | envelope body => simp [hrendering, Rendering.response, Response.ofJson, Failure.response,
      Response.ofStatus] at hheaders
  | oauth status body => simp [hrendering, Rendering.response, Response.ofJson, Failure.response,
      Response.ofStatus] at hheaders
  | challenge token => simp [hrendering, Rendering.response, Failure.response,
      Response.ofStatus] at hheaders

/-- The layers of a dispatcher settle every failure once. -/
theorem settlesOnce_layer (dispatcher : Dispatcher) (table : Router Outcome) :
    SettlesOnce dispatcher table (table.layer dispatcher.wrap) where
  decided request := passesThrough_or_carries (table.serve request)
  passed _ _ h := respond_wrap_passed h
  dispatched _ _ h := respond_wrap_dispatched h
  rendered request := by
    obtain ⟨response, h⟩ | ⟨failure, h⟩ := passesThrough_or_carries (table.serve request)
    · rw [respond_wrap_passed h, Response.sentFor_raised]
      exact h.raised_eq
    · rw [respond_wrap_dispatched h, Response.sentFor_raised]
      exact Rendering.response_raised _
  replaced request failure other h := by
    rw [respond_wrap_dispatched h]
    exact dispatch_ne_placeholder failure other request.sentPath

end

/-- A server that was built settles every failure of its routes exactly once. -/
theorem build_settlesOnce {files : Files} {config : Config} {routes : Router Outcome}
    {server : Server} {events : List Log.Event}
    (h : Server.build files config routes = (.ok server, events)) :
    ∃ catalog table, Server.catalog files config.messages = (.ok catalog, events) ∧
      Server.withHealth config.server.health routes = .ok table ∧
      SettlesOnce ⟨config.dispatch, catalog⟩ table server.router := by
  obtain ⟨catalog, table, hcatalog, htable, rfl⟩ := Server.build_eq_ok_iff.1 h
  exact ⟨catalog, table, hcatalog, htable, settlesOnce_layer ⟨config.dispatch, catalog⟩ table⟩

/-- The same for a table with one route, which fails for want of a database. -/
theorem build_settlesOnce_database :
    ∃ routes server events,
      Router.empty.insert .get "/oauth/fail/unclassified"
        (Endpoint.raise (.ofError "database unreachable")).run = .ok routes ∧
      Server.build ⟨[]⟩ Config.standard routes = (.ok server, events) ∧
      ∃ catalog table, Server.catalog ⟨[]⟩ Config.standard.messages = (.ok catalog, events) ∧
        Server.withHealth Config.standard.server.health routes = .ok table ∧
        SettlesOnce ⟨Config.standard.dispatch, catalog⟩ table server.router :=
  ⟨_, _, _, rfl, rfl, build_settlesOnce rfl⟩

/-- What is sent for a failure is not always the whole of its rendering: a request of the head
alone gets no body. -/
theorem not_sent_whole :
    ¬ ∀ (files : Files) (config : Config) (routes table : Router Outcome) (server : Server)
        (events : List Log.Event) (catalog : Catalog),
      Server.build files config routes = (.ok server, events) →
      Server.catalog files config.messages = (.ok catalog, events) →
      Server.withHealth config.server.health routes = .ok table →
      ∀ request failure, Carries (table.serve request) failure →
        (server.router.respond request).1 =
          (Dispatcher.dispatch ⟨config.dispatch, catalog⟩ failure request.sentPath).1 := by
  intro h
  have hwhole := h ⟨[]⟩ Config.standard
    ⟨[⟨"/oauth/fail/unclassified",
      ⟨[.literal "oauth".toList, .literal "fail".toList, .literal "unclassified".toList]⟩,
      [(.get, (Endpoint.raise (.ofError "database unreachable")).run)]⟩]⟩
    _ _ _ _ rfl rfl rfl
    ⟨"HEAD", "/oauth/fail/unclassified", "/oauth/fail/unclassified", none, [], []⟩
    (.ofError "database unreachable") (.raised _ _ rfl)
  have hbody := congrArg Response.body hwhole
  revert hbody
  decide

end IdentityProvider
