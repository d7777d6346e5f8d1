import IdentityProvider.Proofs.Routing.LiteralStart
import IdentityProvider.Proofs.Server.Mounting
import IdentityProvider.Proofs.Surface.RuleOrder

/-
  The surface of a route.

  Every path that a route matches begins with the literal text of its pattern, so where the rules
  settle the surface of all paths with that beginning (`Classifier.Settles`), they settle it for
  the route: no choice of what the captures take moves its failures to another surface
  (`surface_of_route`).
-/

namespace IdentityProvider

/-! ## What the rules say of a beginning -/

/-- The rules settle the surface of all paths that begin with the literal text. -/
inductive Classifier.Settles (classifier : Classifier) (literal : String) : Surface → Prop
  /-- A rule covers the literal text, and no path that begins with it can fall to an earlier one. -/
  | rule (before : List SurfaceRule) (rule : SurfaceRule) (after : List SurfaceRule) :
    classifier.rules = before ++ rule :: after → rule.start.toList <+: literal.toList →
    (∀ earlier ∈ before, ¬ Comparable earlier.start literal) →
    Settles classifier literal rule.surface
  /-- No path that begins with the literal text can fall to any rule. -/
  | fallback : (∀ rule ∈ classifier.rules, ¬ Comparable rule.start literal) →
    Settles classifier literal classifier.fallback

/-- A rule covers no path that begins with a literal text with which it is not comparable. -/
theorem SurfaceRule.covers_eq_false_of_not_comparable {rule : SurfaceRule}
    {literal path : String} (hpath : literal.toList <+: path.toList)
    (h : ¬ Comparable rule.start literal) : rule.covers path = false :=
  SurfaceRule.covers_eq_false_iff.mpr fun hcovers => h (comparable_of_starts hcovers hpath)

theorem Classifier.Settles.classify_eq {classifier : Classifier} {literal path : String}
    {surface : Surface} (h : classifier.Settles literal surface)
    (hpath : literal.toList <+: path.toList) : classifier.classify path = surface := by
  cases h with
  | rule before rule after hrules hstart hbefore =>
    refine classify_of_rule? (List.find?_eq_some_iff_append.mpr ⟨?_, before, after, hrules, ?_⟩)
    · exact SurfaceRule.covers_iff.mpr (hstart.trans hpath)
    · intro earlier hearlier
      rw [SurfaceRule.covers_eq_false_of_not_comparable hpath (hbefore earlier hearlier)]
      rfl
  | fallback hrules =>
    refine classify_of_rule?_eq_none (List.find?_eq_none.mpr fun rule hrule => ?_)
    rw [SurfaceRule.covers_eq_false_of_not_comparable hpath (hrules rule hrule)]
    exact Bool.false_ne_true

/-! ## The route in charge -/

namespace Router

/-- What holds of all candidates holds of the one with the greatest weights. -/
theorem foldl_better_of_forall {P : Candidate α → Prop} {first : Candidate α}
    {others : List (Candidate α)} (hfirst : P first) (hothers : ∀ c ∈ others, P c) :
    P (others.foldl better first) := by
  induction others generalizing first with
  | nil => exact hfirst
  | cons next others ih =>
    rw [List.forall_mem_cons] at hothers
    refine ih ?_ hothers.2
    unfold better
    split
    · exact hothers.1
    · exact hfirst

/-- The route in charge of a path is one of the table's, and the path matches its pattern. -/
theorem of_find?_eq_some {router : Router α} {path : String} {route : Route α}
    {captures : Routing.Captures} (h : router.find? path = some (route, captures)) :
    route ∈ router.routes ∧ route.pattern.matchPath path = some captures := by
  have hmem : (route, captures) ∈ router.candidates path := by
    unfold find? at h
    split at h
    · cases h
    · next first others hcandidates =>
      rw [Option.some.injEq] at h
      rw [← h, hcandidates]
      exact foldl_better_of_forall List.mem_cons_self fun c hc => List.mem_cons_of_mem first hc
  obtain ⟨other, hother, hmatch⟩ := List.mem_filterMap.mp hmem
  obtain ⟨taken, htaken, heq⟩ := Option.map_eq_some_iff.mp hmatch
  cases heq
  exact ⟨hother, htaken⟩

/-- A path for which a route is in charge begins with the literal text that the route's does. -/
theorem Sound.begins_path {router : Router α} (hsound : router.Sound) {path literal : String}
    {route : Route α} {captures : Routing.Captures}
    (h : router.find? path = some (route, captures))
    (hliteral : Routing.BeginsWith route.text literal) : literal.toList <+: path.toList := by
  obtain ⟨hroute, hmatch⟩ := of_find?_eq_some h
  have hpattern := hsound.written route hroute
  exact hliteral.trans (Routing.Pattern.literalStart_begins_path hpattern hmatch)

end Router

/-! ## Requests -/

/-- Nothing has been taken off the path of the request. -/
def Request.IsWhole (request : Request) : Prop := request.path = request.sentPath

/-- A request is whole when it comes in. -/
theorem Request.isWhole_of_ofParts? {method target : String} {headers : List (String × String)}
    {body : List UInt8} {request : Request}
    (h : Request.ofParts? method target headers body = some request) : request.IsWhole := by
  unfold Request.ofParts? at h
  obtain ⟨_, _, h⟩ := Option.bind_eq_some_iff.mp h
  obtain ⟨read, _, h⟩ := Option.bind_eq_some_iff.mp h
  obtain ⟨named, _, h⟩ := Option.bind_eq_some_iff.mp h
  cases h
  rfl

/-- The failures of a route are shown on the surface that the rules settle for the literal text
that its full pattern begins with, whatever path the request chooses among those that the route
matches. -/
theorem surface_of_route {files : Files} {config : Config} {layout : Layout Outcome}
    {routes : Router Outcome} {server : Server} {events : List Log.Event} {starts : List String}
    {mounted : Router Logged} (hroutes : layout.build = .ok routes)
    (hserver : Server.build files config routes = (.ok server, events))
    (hmounted : starts.foldrM Router.mount server.router = .ok mounted) :
    ∃ catalog table, Server.catalog files config.messages = (.ok catalog, events) ∧
      ((layout.withHealth config.server.health).mountedAt starts).build = .ok table ∧
      SettlesOnce ⟨config.dispatch, catalog⟩ table mounted ∧
      ∀ request route captures literal surface failure, Request.IsWhole request →
        table.find? request.path = some (route, captures) →
        Routing.BeginsWith route.text literal → config.dispatch.Settles literal surface →
        Carries (table.serve request) failure →
        mounted.respond request =
          ((failure.rendering catalog surface).response.sentFor request,
            [.failureEncountered request.sentPath failure.text,
             .failureDispatched request.sentPath surface]) := by
  obtain ⟨catalog, table, hcatalog, htable, rfl⟩ := exists_mounted hroutes hserver hmounted
  refine ⟨catalog, table, hcatalog, htable, settlesOnce_layer _ table, ?_⟩
  intro request route captures literal surface failure hwhole hfind hliteral hsettles hcarries
  have hbegins := (Layout.sound_build htable).begins_path hfind hliteral
  rw [hwhole] at hbegins
  rw [respond_wrap_dispatched hcarries, Dispatcher.dispatch, Dispatcher.rendering,
    Dispatcher.events, hsettles.classify_eq hbegins]

/-- An endpoint that fails whatever its route captures, below `/oauth`. -/
def Layout.failureBelowOAuth : Layout Outcome :=
  .nest .empty "/oauth"
    (.route .empty .get "/fail/\x7bkind\x7d" (Endpoint.raise (.domain .invalidClient)).run)

/-- A request that gives the capture the name of a start of another surface. -/
def Request.ofClientMgmt : Request :=
  ⟨"GET", "/oauth/fail/client-mgmt", "/oauth/fail/client-mgmt", none, [], []⟩

theorem Layout.failureBelowOAuth_fails : ∃ table,
    ((failureBelowOAuth.withHealth Config.standard.server.health).mountedAt []).build = .ok table ∧
      ∃ route captures, table.find? Request.ofClientMgmt.path = some (route, captures) ∧
        Routing.BeginsWith route.text "/oauth/fail/" ∧
        Carries (table.serve Request.ofClientMgmt) (.domain .invalidClient) :=
  ⟨_, rfl, _, _, rfl, by decide, .raised _ _ rfl⟩

/-- The same for this endpoint and request: under the standard rules the failure is shown as an
OAuth error. -/
theorem surface_of_route_clientMgmt :
    ∃ routes server events catalog, Layout.failureBelowOAuth.build = .ok routes ∧
      Server.build ⟨[]⟩ Config.standard routes = (.ok server, events) ∧
      Server.catalog ⟨[]⟩ Config.standard.messages = (.ok catalog, events) ∧
      server.router.respond Request.ofClientMgmt =
        ((Failure.rendering (.domain .invalidClient) catalog .oauth).response,
          [.failureEncountered "/oauth/fail/client-mgmt" "invalid client",
           .failureDispatched "/oauth/fail/client-mgmt" .oauth]) := by
  obtain ⟨routes, server, events, hroutes, hserver⟩ :
      ∃ routes server events, Layout.failureBelowOAuth.build = .ok routes ∧
        Server.build ⟨[]⟩ Config.standard routes = (.ok server, events) :=
    ⟨_, _, _, rfl, rfl⟩
  have hmounted : [].foldrM Router.mount server.router = .ok server.router := rfl
  obtain ⟨catalog, table, hcatalog, htable, _, hsurface⟩ :=
    surface_of_route hroutes hserver hmounted
  obtain ⟨whole, hwhole, route, captures, hfind, hbegins, hcarries⟩ :=
    Layout.failureBelowOAuth_fails
  rw [hwhole] at htable
  cases htable
  have hsettles : Config.standard.dispatch.Settles "/oauth/fail/" .oauth :=
    .rule (Classifier.standardRules.take 4) ⟨"/oauth/", .oauth⟩ [] rfl (by decide) (by decide)
  refine ⟨routes, server, events, catalog, hroutes, hserver, hcatalog, ?_⟩
  exact hsurface Request.ofClientMgmt route captures "/oauth/fail/" .oauth (.domain .invalidClient)
    rfl hfind hbegins hsettles hcarries

end IdentityProvider
