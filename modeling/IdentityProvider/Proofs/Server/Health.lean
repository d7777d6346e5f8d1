import IdentityProvider.Proofs.Routing.Literal
import IdentityProvider.Proofs.Server.RouteSurface

/-
  The health route disturbs nothing else.

  A literal route fits into every table in which its verb is free (`exists_insert`), it is in
  charge of its path whatever else matches it (`find?_literalPath`), and at all other paths the
  table answers as before (`serve_insert_of_ne`).  So a server with its health route starts just
  when it does without, tells its health at one path, and does everything else in the same way
  (`health_disturbsNothing`).  A service for heads that the table has at that path goes before.
-/

namespace IdentityProvider

/-! ## The services of a route -/

namespace Route

variable {route old : Route α} {method : String} {found : Call → α}

theorem answering?_get : route.answering? "GET" = route.service? .get := by
  have hserving : Verb.serving "GET" = [.get] := by decide
  rw [answering?, hserving, List.findSome?_singleton]

theorem answering?_head :
    route.answering? "HEAD" = (route.service? .head).or (route.service? .get) := by
  have hserving : Verb.serving "HEAD" = [.head, .get] := by decide
  rw [answering?, hserving, List.findSome?_cons, List.findSome?_singleton]
  cases route.service? .head <;> rfl

/-- A route without a service for `get` answers as before when services are put into it. -/
theorem answering?_eq_some_of_kept (hget : old.service? .get = none)
    (hkept : ∀ verb found, old.service? verb = some found → route.service? verb = some found)
    (hfound : old.answering? method = some found) : route.answering? method = some found := by
  by_cases hmethod : method = "HEAD"
  · rw [hmethod, answering?_head, hget, Option.or_none] at hfound
    rw [hmethod, answering?_head, hkept _ _ hfound, Option.some_or]
  · have hserving : Verb.serving method = (Verb.ofName? method).toList := if_neg hmethod
    rw [answering?, hserving] at hfound ⊢
    cases hverb : Verb.ofName? method with
    | none =>
      rw [hverb] at hfound
      cases hfound
    | some verb =>
      rw [hverb, Option.toList_some, List.findSome?_singleton] at hfound
      rw [Option.toList_some, List.findSome?_singleton]
      exact hkept verb found hfound

end Route

namespace Router

/-! ## The best candidate -/

/-- A candidate whose weights are greater than those of all others is taken. -/
theorem foldl_better_eq {best first : Candidate α} {others : List (Candidate α)}
    (hmem : best ∈ first :: others)
    (hbest : ∀ c ∈ first :: others, c = best ∨ c.1.pattern.weights < best.1.pattern.weights) :
    others.foldl better first = best := by
  induction others generalizing first with
  | nil => exact (List.mem_singleton.mp hmem).symm
  | cons next others ih =>
    rw [List.forall_mem_cons, List.forall_mem_cons] at hbest
    obtain ⟨hfirst, hnext, hothers⟩ := hbest
    rw [List.foldl_cons]
    refine ih ?_ (List.forall_mem_cons.mpr ⟨?_, hothers⟩)
    · rcases List.mem_cons.mp hmem with rfl | hrest
      · refine List.mem_cons.mpr (.inl ?_)
        rcases hnext with rfl | hlt
        · exact (ite_self _).symm
        · exact (if_neg (lt_asymm hlt)).symm
      · rcases List.mem_cons.mp hrest with rfl | hrest
        · refine List.mem_cons.mpr (.inl ?_)
          rcases hfirst with rfl | hlt
          · exact (ite_self _).symm
          · exact (if_pos hlt).symm
        · exact List.mem_cons_of_mem _ hrest
    · unfold better
      split
      · exact hnext
      · exact hfirst

section

variable {router table : Router α} {verb : Verb} {text : String} {service : Call → α}
  {pattern : Routing.Pattern} {route : Route α}

/-- The route of a literal pattern is the only one with this pattern. -/
theorem Sound.eq_of_pattern_eq (h : router.Sound) {other : Route α} (hroute : route ∈ router.routes)
    (hother : other ∈ router.routes) (hliteral : route.pattern.IsLiteral)
    (hpattern : other.pattern = route.pattern) : other = route := by
  have htext : route.text = other.text := Routing.Pattern.text_eq_of_isLiteral
    (h.written route hroute) (hpattern ▸ h.written other hother) hliteral
  exact List.inj_on_of_nodup_map h.distinct hother hroute htext.symm

/-- A route with a literal pattern is in charge of its path. -/
theorem Sound.find?_literalPath (h : router.Sound) (hroute : route ∈ router.routes)
    (hliteral : route.pattern.IsLiteral) :
    router.find? route.pattern.literalPath = some (route, []) := by
  have hwritten := h.written route hroute
  have hmatch : route.pattern.matchPath route.pattern.literalPath = some [] :=
    (Routing.Pattern.matchPath_eq_some_iff hwritten hliteral).mpr ⟨rfl, rfl⟩
  have hmem : (route, []) ∈ router.candidates route.pattern.literalPath :=
    List.mem_filterMap.mpr ⟨route, hroute, by rw [hmatch]; rfl⟩
  have hbest : ∀ c ∈ router.candidates route.pattern.literalPath,
      c = (route, []) ∨ c.1.pattern.weights < route.pattern.weights := by
    intro c hc
    obtain ⟨other, hother, hcaptures⟩ := List.mem_filterMap.mp hc
    obtain ⟨captures, htaken, rfl⟩ := Option.map_eq_some_iff.mp hcaptures
    rcases Routing.Pattern.weights_lt_of_matchPath hwritten hliteral (h.written other hother)
      htaken with heq | hlt
    · left
      obtain rfl := h.eq_of_pattern_eq hroute hother hliteral heq
      rw [hmatch, Option.some.injEq] at htaken
      rw [htaken]
    · exact .inr hlt
  unfold find?
  cases hcandidates : router.candidates route.pattern.literalPath with
  | nil =>
    rw [hcandidates] at hmem
    cases hmem
  | cons first others =>
    rw [hcandidates] at hmem hbest
    exact congrArg some (foldl_better_eq hmem hbest)

/-! ## Putting a literal route in -/

/-- A service at a literal path fits into every table in which its verb is free there. -/
theorem Sound.exists_insert (h : router.Sound)
    (hpattern : Routing.Pattern.ofText? text = some pattern) (hliteral : pattern.IsLiteral)
    (hfree : IsFree verb text router.routes) :
    ∃ table, router.insert verb text service = .ok table := by
  by_cases hmem : text ∈ router.routes.map Route.text
  · exact ⟨_, insert_of_mem h hpattern hmem hfree⟩
  · refine ⟨_, insert_of_notMem hpattern hmem fun route hroute => ?_⟩
    rw [Bool.eq_false_iff]
    intro hclash
    -- the pattern of a route that stands in the way is the same, and so is its text
    have heq := Routing.Pattern.eq_of_clashesWith hliteral hclash
    have htext : text = route.text := Routing.Pattern.text_eq_of_isLiteral hpattern
      (heq ▸ h.written route hroute) hliteral
    exact hmem (htext ▸ List.mem_map_of_mem hroute)

/-- What a literal route brings matches no path but its own. -/
theorem candidates_insert_of_ne (h : router.Sound)
    (hinsert : router.insert verb text service = .ok table)
    (hpattern : Routing.Pattern.ofText? text = some pattern) (hliteral : pattern.IsLiteral)
    {path : String} (hpath : path ≠ pattern.literalPath) :
    table.candidates path = router.candidates path := by
  have hnone : pattern.matchPath path = none := by
    rw [Option.eq_none_iff_forall_ne_some]
    intro captures hmatch
    exact hpath ((Routing.Pattern.matchPath_eq_some_iff hpattern hliteral).mp hmatch).1
  obtain ⟨same, hsame, ⟨_, _, rfl⟩ | ⟨_, _, rfl⟩⟩ := insert_cases h hinsert
  · unfold candidates
    rw [List.filterMap_map]
    refine List.filterMap_congr fun route hroute => ?_
    rw [Function.comp_apply, Route.extendedAt_pattern]
    by_cases htext : route.text = text
    · have hwritten := h.written route hroute
      rw [htext, hpattern, Option.some.injEq] at hwritten
      rw [← hwritten, hnone]
      rfl
    · rw [Route.extendedAt_of_ne htext]
  · rw [hpattern, Option.some.injEq] at hsame
    unfold candidates
    rw [List.filterMap_append, ← hsame]
    simp [hnone]

theorem serve_insert_of_ne (h : router.Sound)
    (hinsert : router.insert verb text service = .ok table)
    (hpattern : Routing.Pattern.ofText? text = some pattern) (hliteral : pattern.IsLiteral)
    {request : Request} (hpath : request.path ≠ pattern.literalPath) :
    table.serve request = router.serve request := by
  unfold serve find?
  rw [candidates_insert_of_ne h hinsert hpattern hliteral hpath]

/-- The service that was put in, and the other services of its route: those that were there. -/
theorem exists_route_insert (h : router.Sound)
    (hinsert : router.insert verb text service = .ok table)
    (hpattern : Routing.Pattern.ofText? text = some pattern) :
    ∃ route ∈ table.routes, route.pattern = pattern ∧ route.service? verb = some service ∧
      ∀ other, other ≠ verb → ∀ found, route.service? other = some found ↔
        ∃ old ∈ router.routes, old.text = text ∧ old.service? other = some found := by
  obtain ⟨same, hsame, ⟨hmem, hfree, rfl⟩ | ⟨hnew, _, rfl⟩⟩ := insert_cases h hinsert
  · obtain ⟨route, hroute, htext⟩ := List.mem_map.mp hmem
    have hextended : route.extendedAt text verb service =
        { route with services := route.services ++ [(verb, service)] } := if_pos htext
    refine ⟨_, List.mem_map_of_mem hroute, ?_, ?_, ?_⟩
    · have hwritten := h.written route hroute
      rw [htext, hpattern, Option.some.injEq] at hwritten
      rw [Route.extendedAt_pattern, hwritten]
    · have hnone : route.services.lookup verb = none := hfree route hroute htext
      rw [hextended, Route.service?, List.lookup_append, hnone, Option.none_or]
      simp
    · intro other hne found
      have hsingle : [(verb, service)].lookup other = none := by
        rw [List.lookup_cons, beq_eq_false_iff_ne.mpr hne, List.lookup_nil]
      rw [hextended, Route.service?, List.lookup_append, hsingle, Option.or_none]
      constructor
      · intro hfound
        exact ⟨route, hroute, htext, hfound⟩
      · rintro ⟨old, hold, htext', hfound⟩
        obtain rfl := List.inj_on_of_nodup_map h.distinct hold hroute (htext'.trans htext.symm)
        exact hfound
  · rw [hpattern, Option.some.injEq] at hsame
    refine ⟨_, List.mem_append_right _ (List.mem_singleton_self _), hsame.symm, ?_, ?_⟩
    · simp [Route.service?]
    · intro other hne found
      rw [Route.service?, List.lookup_cons, beq_eq_false_iff_ne.mpr hne, List.lookup_nil]
      refine iff_of_false (Option.some_ne_none found).symm ?_
      rintro ⟨old, hold, htext, -⟩
      exact hnew (htext ▸ List.mem_map_of_mem hold)

/-- The answer of a literal route at its path. -/
theorem Sound.serve_literalPath (h : router.Sound) (hroute : route ∈ router.routes)
    (hliteral : route.pattern.IsLiteral) {request : Request}
    (hpath : request.path = route.pattern.literalPath)
    (hservice : route.answering? request.method = some service) :
    router.serve request = .served (service ⟨request, []⟩) := by
  unfold serve
  rw [hpath, h.find?_literalPath hroute hliteral]
  dsimp only
  rw [hservice]

/-- What was put in for `get` at a literal path answers there. -/
theorem Sound.serve_insert_get (h : router.Sound)
    (hinsert : router.insert .get text service = .ok table)
    (hpattern : Routing.Pattern.ofText? text = some pattern) (hliteral : pattern.IsLiteral)
    {request : Request} (hpath : request.path = pattern.literalPath)
    (hmethod : request.method = "GET") :
    table.serve request = .served (service ⟨request, []⟩) := by
  obtain ⟨route, hroute, rfl, hservice, _⟩ := exists_route_insert h hinsert hpattern
  refine (h.insert hinsert).serve_literalPath hroute hliteral hpath ?_
  rw [hmethod, Route.answering?_get, hservice]

/-- It answers requests for heads as well, unless there is a service for these. -/
theorem Sound.serve_insert_head (h : router.Sound)
    (hinsert : router.insert .get text service = .ok table)
    (hpattern : Routing.Pattern.ofText? text = some pattern) (hliteral : pattern.IsLiteral)
    (hfree : IsFree .head text router.routes) {request : Request}
    (hpath : request.path = pattern.literalPath) (hmethod : request.method = "HEAD") :
    table.serve request = .served (service ⟨request, []⟩) := by
  obtain ⟨route, hroute, rfl, hservice, hothers⟩ := exists_route_insert h hinsert hpattern
  refine (h.insert hinsert).serve_literalPath hroute hliteral hpath ?_
  have hnone : route.service? .head = none := by
    rw [Option.eq_none_iff_forall_ne_some]
    intro found hfound
    obtain ⟨old, hold, htext, hhead⟩ := (hothers .head (by decide) found).mp hfound
    rw [hfree old hold htext] at hhead
    cases hhead
  rw [hmethod, Route.answering?_head, hnone, hservice, Option.none_or]

/-- What a literal route had before goes on to answer. -/
theorem Sound.serve_insert_of_answering? (h : router.Sound)
    (hinsert : router.insert .get text service = .ok table) (hroute : route ∈ router.routes)
    (htext : route.text = text) (hfree : route.service? .get = none)
    (hliteral : route.pattern.IsLiteral) {request : Request}
    (hpath : request.path = route.pattern.literalPath) {found : Call → α}
    (hfound : route.answering? request.method = some found) :
    table.serve request = .served (found ⟨request, []⟩) := by
  have hpattern := h.written route hroute
  rw [htext] at hpattern
  obtain ⟨extended, hextended, hsame, _, hothers⟩ := exists_route_insert h hinsert hpattern
  rw [← hsame] at hliteral hpath
  refine (h.insert hinsert).serve_literalPath hextended hliteral hpath ?_
  refine Route.answering?_eq_some_of_kept hfree (fun other found hservice => ?_) hfound
  have hne : other ≠ .get := by
    rintro rfl
    rw [hfree] at hservice
    cases hservice
  exact (hothers other hne found).mpr ⟨route, hroute, htext, hservice⟩

end

end Router

/-! ## The server with its health route and without -/

/-- The settings with the health route on or off. -/
def Config.withHealth (enabled : Bool) (config : Config) : Config :=
  { config with server.health.enabled := enabled }

/-- The response of the health route, with its body or without. -/
def Response.healthy (body : String) : Response :=
  ⟨200, [("content-type", "text/plain; charset=utf-8")], body, none⟩

/-- The health route of the settings is at this path, and makes no difference but there. -/
structure DisturbsNothing (files : Files) (config : Config) (routes : Router Outcome)
    (path : String) : Prop where
  /-- The settings write the path as patterns do. -/
  written : config.server.health.path.toList = Routing.doubled path.toList
  /-- The server starts with the route just when it does without, and logs the same. -/
  starts : ∀ events,
    (∃ server, Server.build files (config.withHealth true) routes = (.ok server, events)) ↔
      ∃ server, Server.build files (config.withHealth false) routes = (.ok server, events)
  /-- It is refused for the same reasons. -/
  refused : ∀ error events,
    Server.build files (config.withHealth true) routes = (.error error, events) ↔
      Server.build files (config.withHealth false) routes = (.error error, events)
  /-- The path tells that the server is well, whatever other patterns match it, and nothing is
  logged; so does its head, where the table has no service of its own for it. -/
  told : ∀ server events,
    Server.build files (config.withHealth true) routes = (.ok server, events) →
    ∀ request, Request.path request = path →
      (request.method = "GET" → server.router.respond request = (.healthy "ok", [])) ∧
        (request.method = "HEAD" →
          (∀ route ∈ routes.routes, route.text = config.server.health.path →
            route.service? .head = none) →
          server.router.respond request = (.healthy "", []))
  /-- The other services of the same pattern, one for heads among them, answer as without the
  route. -/
  kept : ∀ on off events events',
    Server.build files (config.withHealth true) routes = (.ok on, events) →
    Server.build files (config.withHealth false) routes = (.ok off, events') →
    ∀ request, Request.path request = path →
      ∀ route ∈ routes.routes, route.text = config.server.health.path →
        ∀ service, route.answering? request.method = some service →
          on.router.respond request = off.router.respond request ∧
            routes.serve request = .served (service ⟨request, []⟩)
  /-- At every other path the server answers and logs as without the route. -/
  elsewhere : ∀ on off events events',
    Server.build files (config.withHealth true) routes = (.ok on, events) →
    Server.build files (config.withHealth false) routes = (.ok off, events') →
    on.listenAddress = off.listenAddress ∧
      ∀ request, Request.path request ≠ path →
        on.router.respond request = off.router.respond request

section

variable {files : Files} {config : Config} {routes table : Router Outcome} {server : Server}
  {error : StartError} {events : List Log.Event}

/-- A server with its health route is one without it around a table that has the route. -/
theorem Server.build_withHealth_true
    (h : routes.insert .get config.server.health.path Endpoint.health.run = .ok table) :
    Server.build files (config.withHealth true) routes =
      Server.build files (config.withHealth false) table := by
  have htrue : Server.withHealth (config.withHealth true).server.health routes = .ok table := h
  have hfalse : Server.withHealth (config.withHealth false).server.health table = .ok table := rfl
  unfold Server.build
  rw [htrue, hfalse]
  rfl

/-- Without its health route a server starts just when there is a catalog for it. -/
theorem Server.build_withHealth_false_eq_ok_iff :
    Server.build files (config.withHealth false) table = (.ok server, events) ↔
      ∃ catalog, Server.catalog files config.messages = (.ok catalog, events) ∧
        server = ⟨table.layer (Dispatcher.wrap ⟨config.dispatch, catalog⟩),
          config.server.listenAddress⟩ := by
  rw [Server.build_eq_ok_iff]
  refine exists_congr fun catalog => ?_
  constructor
  · rintro ⟨_, hcatalog, hsame, hserver⟩
    cases hsame
    exact ⟨hcatalog, hserver⟩
  · rintro ⟨hcatalog, hserver⟩
    exact ⟨table, hcatalog, rfl, hserver⟩

theorem Server.build_withHealth_false_eq_error_iff :
    Server.build files (config.withHealth false) table = (.error error, events) ↔
      ∃ fault, Server.catalog files config.messages = (.error fault, events) ∧
        error = .bundle fault := by
  have hoff : Server.withHealth (config.withHealth false).server.health table = .ok table := rfl
  have hmessages : (config.withHealth false).messages = config.messages := rfl
  unfold Server.build
  rw [hoff, hmessages]
  obtain ⟨result, log⟩ := Server.catalog files config.messages
  cases result with
  | error fault => simp [eq_comm, and_comm]
  | ok catalog => simp

/-- A server with its health route and one without have the same layers and address. -/
theorem Server.exists_layers {on off : Server} {events events' : List Log.Event}
    (h : routes.insert .get config.server.health.path Endpoint.health.run = .ok table)
    (hon : Server.build files (config.withHealth true) routes = (.ok on, events))
    (hoff : Server.build files (config.withHealth false) routes = (.ok off, events')) :
    ∃ dispatcher : Dispatcher, on = ⟨table.layer dispatcher.wrap, config.server.listenAddress⟩ ∧
      off = ⟨routes.layer dispatcher.wrap, config.server.listenAddress⟩ := by
  rw [Server.build_withHealth_true h, Server.build_withHealth_false_eq_ok_iff] at hon
  rw [Server.build_withHealth_false_eq_ok_iff] at hoff
  obtain ⟨catalog, hcatalog, rfl⟩ := hon
  obtain ⟨_, hcatalog', rfl⟩ := hoff
  rw [hcatalog] at hcatalog'
  cases hcatalog'
  exact ⟨_, rfl, rfl⟩

end

/-- The health route at a literal path, where the table has no such service yet, disturbs nothing
else. -/
theorem health_disturbsNothing {files : Files} {config : Config} {routes : Router Outcome}
    {pattern : Routing.Pattern} (hsound : routes.Sound)
    (hpattern : Routing.Pattern.ofText? config.server.health.path = some pattern)
    (hliteral : pattern.IsLiteral)
    (hfree : ∀ route ∈ routes.routes, route.pattern = pattern → route.service? .get = none) :
    DisturbsNothing files config routes pattern.literalPath := by
  have hsame : ∀ route ∈ routes.routes, route.text = config.server.health.path →
      route.pattern = pattern := by
    intro route hroute htext
    have hwritten := hsound.written route hroute
    rw [htext, hpattern, Option.some.injEq] at hwritten
    exact hwritten.symm
  obtain ⟨table, hinsert⟩ :
      ∃ table, routes.insert .get config.server.health.path Endpoint.health.run = .ok table :=
    hsound.exists_insert hpattern hliteral
      fun route hroute htext => hfree route hroute (hsame route hroute htext)
  constructor
  case written => exact Routing.Pattern.toList_eq_doubled hpattern hliteral
  case starts =>
    intro events
    rw [Server.build_withHealth_true hinsert]
    simp only [Server.build_withHealth_false_eq_ok_iff]
    constructor
    · rintro ⟨_, catalog, hcatalog, _⟩
      exact ⟨_, catalog, hcatalog, rfl⟩
    · rintro ⟨_, catalog, hcatalog, _⟩
      exact ⟨_, catalog, hcatalog, rfl⟩
  case refused =>
    intro error events
    rw [Server.build_withHealth_true hinsert, Server.build_withHealth_false_eq_error_iff,
      Server.build_withHealth_false_eq_error_iff]
  case told =>
    intro server events hserver request hpath
    rw [Server.build_withHealth_true hinsert, Server.build_withHealth_false_eq_ok_iff] at hserver
    obtain ⟨catalog, _, rfl⟩ := hserver
    have hpasses : table.serve request = .served (Endpoint.health.run ⟨request, []⟩) →
        PassesThrough (table.serve request) (.healthy "ok") := by
      intro hserved
      rw [hserved]
      exact .answered _ rfl
    constructor
    · intro hmethod
      have hserved := hsound.serve_insert_get hinsert hpattern hliteral hpath hmethod
      rw [respond_wrap_passed (hpasses hserved), Response.sentFor, hmethod]
      rfl
    · intro hmethod hhead
      have hserved := hsound.serve_insert_head hinsert hpattern hliteral hhead hpath hmethod
      rw [respond_wrap_passed (hpasses hserved), Response.sentFor, hmethod]
      rfl
  case kept =>
    intro on off events events' hon hoff request hpath route hroute htext service hfound
    obtain ⟨dispatcher, rfl, rfl⟩ := Server.exists_layers hinsert hon hoff
    have hget := hfree route hroute (hsame route hroute htext)
    rw [← hsame route hroute htext] at hliteral hpath
    have hbefore := hsound.serve_literalPath hroute hliteral hpath hfound
    have hafter :=
      hsound.serve_insert_of_answering? hinsert hroute htext hget hliteral hpath hfound
    refine ⟨?_, hbefore⟩
    rw [respond_wrap_served hbefore, respond_wrap_served hafter]
  case elsewhere =>
    intro on off events events' hon hoff
    obtain ⟨dispatcher, rfl, rfl⟩ := Server.exists_layers hinsert hon hoff
    refine ⟨rfl, fun request hpath => ?_⟩
    unfold Router.respond
    rw [Dispatcher.serve_wrap, Dispatcher.serve_wrap,
      Router.serve_insert_of_ne hsound hinsert hpattern hliteral hpath]

/-- A table in which a capture matches the path of health, and in which that path has a service. -/
def Router.besideHealth : Router Outcome :=
  ⟨[⟨"/\x7bname\x7d", ⟨[.capture [] "name".toList]⟩, [(.get, (Endpoint.answer 200 "named").run)]⟩,
    ⟨"/health", ⟨[.literal "health".toList]⟩, [(.post, (Endpoint.answer 200 "posted").run)]⟩]⟩

theorem Router.sound_besideHealth : besideHealth.Sound :=
  @Layout.sound_build _ (.route (.route .empty .get "/\x7bname\x7d"
    (Endpoint.answer 200 "named").run) .post "/health" (Endpoint.answer 200 "posted").run) _ rfl

/-- The same for this table: where nothing was to be got there is health now, and not what the
capture would bring, and the service for the other verb stays. -/
theorem health_disturbsNothing_besideHealth : ∃ on off events pattern,
    Routing.Pattern.ofText? Config.standard.server.health.path = some pattern ∧
      pattern.IsLiteral ∧
      (∀ route ∈ Router.besideHealth.routes, route.pattern = pattern →
        route.service? .get = none) ∧
      Server.build ⟨[]⟩ (Config.standard.withHealth true) .besideHealth = (.ok on, events) ∧
      Server.build ⟨[]⟩ (Config.standard.withHealth false) .besideHealth = (.ok off, events) ∧
      DisturbsNothing ⟨[]⟩ Config.standard .besideHealth "/health" ∧
      off.router.respond ⟨"GET", "/health", "/health", none, [], []⟩ =
        (⟨405, [("allow", "POST")], "", none⟩, []) ∧
      on.router.respond ⟨"GET", "/health", "/health", none, [], []⟩ = (.healthy "ok", []) ∧
      on.router.respond ⟨"HEAD", "/health", "/health", none, [], []⟩ = (.healthy "", []) ∧
      on.router.respond ⟨"POST", "/health", "/health", none, [], []⟩ = (.healthy "posted", []) := by
  have hpattern : Routing.Pattern.ofText? Config.standard.server.health.path =
    some ⟨[.literal "health".toList]⟩ := rfl
  have hliteral : Routing.Pattern.IsLiteral ⟨[.literal "health".toList]⟩ := ⟨["health".toList], rfl⟩
  have hfree : ∀ route ∈ Router.besideHealth.routes, route.pattern = ⟨[.literal "health".toList]⟩ →
      route.service? .get = none :=
    List.forall_mem_cons.mpr ⟨fun h => absurd h (by decide),
      List.forall_mem_singleton.mpr fun _ => rfl⟩
  have hdisturbs : DisturbsNothing ⟨[]⟩ Config.standard .besideHealth "/health" :=
    health_disturbsNothing Router.sound_besideHealth hpattern hliteral hfree
  have hhead : ∀ route ∈ Router.besideHealth.routes,
      route.text = Config.standard.server.health.path → route.service? .head = none :=
    List.forall_mem_cons.mpr ⟨fun _ => rfl, List.forall_mem_singleton.mpr fun _ => rfl⟩
  exact ⟨_, _, _, _, hpattern, hliteral, hfree, rfl, rfl, hdisturbs, rfl,
    (hdisturbs.told _ _ rfl _ rfl).1 rfl, (hdisturbs.told _ _ rfl _ rfl).2 rfl hhead, rfl⟩

/-- Every server with its health route tells its health with this body where this path is asked for
with this method, if the route is literal and fits into the table. -/
def AlwaysTells (pathOf : Config → Routing.Pattern → String) (method body : String) : Prop :=
  ∀ (files : Files) (config : Config) (routes : Router Outcome) (pattern : Routing.Pattern)
    (server : Server) (events : List Log.Event), routes.Sound →
    Routing.Pattern.ofText? config.server.health.path = some pattern → pattern.IsLiteral →
    (∀ route ∈ routes.routes, route.pattern = pattern → route.service? .get = none) →
    Server.build files (config.withHealth true) routes = (.ok server, events) →
    ∀ request : Request, request.path = pathOf config pattern → request.method = method →
      server.router.respond request = (.healthy body, [])

/-- A table whose only service at the path of health is one for heads. -/
def Router.headOfHealth : Router Outcome :=
  ⟨[⟨"/health", ⟨[.literal "health".toList]⟩, [(.head, (Endpoint.answer 503 "down").run)]⟩]⟩

/-- The settings with the health route at a path of two braces, which is written with four. -/
def Config.healthAtBraces : Config :=
  { Config.standard with server.health.path := "/\x7b\x7b\x7d\x7d" }

/-- Health is not always told: not to who asks for the head where the table has a service for heads,
and not at the path as it is written where that has braces. -/
theorem health_not_always_told :
    ¬ AlwaysTells (fun _ pattern => pattern.literalPath) "HEAD" "" ∧
      ¬ AlwaysTells (fun config _ => config.server.health.path) "GET" "ok" := by
  constructor
  · intro htold
    have hsound : Router.headOfHealth.Sound := @Layout.sound_build _
      (.route .empty .head "/health" (Endpoint.answer 503 "down").run) _ rfl
    have hhead := htold ⟨[]⟩ .standard .headOfHealth _ _ _ hsound rfl ⟨["health".toList], rfl⟩
      (List.forall_mem_singleton.mpr fun _ => rfl) rfl
      ⟨"HEAD", "/health", "/health", none, [], []⟩ rfl rfl
    have hstatus := congrArg (fun logged : Logged => logged.1.status) hhead
    revert hstatus
    decide
  · intro htold
    have hget := htold ⟨[]⟩ .healthAtBraces .empty _ _ _ Router.sound_empty rfl
      ⟨["\x7b\x7d".toList], rfl⟩ nofun rfl
      ⟨"GET", "/\x7b\x7b\x7d\x7d", "/\x7b\x7b\x7d\x7d", none, [], []⟩ rfl rfl
    have hstatus := congrArg (fun logged : Logged => logged.1.status) hget
    revert hstatus
    decide

end IdentityProvider
