import IdentityProvider.Proofs.Routing.Layout
import IdentityProvider.Proofs.Server.Settlement

/-
  Servers below a start of the path.

  A server's router can be put below a start, and what comes of it below another.  That makes no
  difference to how failures are shown: the layers of the dispatcher look at the path that was
  sent, and they go around the routes before they are put below a start just as after
  (`mount_layer`).  So what is built in any layout and put below any starts answers every request
  as the server of one flat table does in which each route, that of health included, stands with
  its full text (`mounted_answersAsFlat`).
-/

namespace IdentityProvider

/-! ## Layouts of servers -/

namespace Layout

/-- The layout with the health route, if it is on. -/
def withHealth (health : Config.Health) (layout : Layout Outcome) : Layout Outcome :=
  if health.enabled then .route layout .get health.path Endpoint.health.run else layout

/-- The layout below the first start, below which it stands below the second, and so on. -/
def mountedAt (starts : List String) (layout : Layout α) : Layout α :=
  starts.foldr (fun start below => .nest .empty start below) layout

/-- The text written out in full below all these starts. -/
def inFullBelow (starts : List String) (text : String) : String := starts.foldr inFull text

/-- The route of health, if it is on, with its full text. -/
def healthEntries (health : Config.Health) (starts : List String) :
    List (Router.Entry Outcome) :=
  if health.enabled then [(.get, inFullBelow starts health.path, Endpoint.health.run)] else []

theorem build_withHealth {layout : Layout Outcome} {routes : Router Outcome}
    (h : layout.build = .ok routes) (health : Config.Health) :
    (layout.withHealth health).build = Server.withHealth health routes := by
  unfold withHealth Server.withHealth
  split
  · rw [build, h]
    rfl
  · exact h

theorem flat_mountedAt_cons (start : String) (starts : List String) (layout : Layout α) :
    (layout.mountedAt (start :: starts)).flat = (layout.mountedAt starts).flat.map
      (Router.Entry.map (inFull start) (Router.stripped (Router.depth start.toList))) :=
  rfl

/-- The health route comes last, however deep the routes stand. -/
theorem flat_withHealth (health : Config.Health) (starts : List String)
    (layout : Layout Outcome) : ((layout.withHealth health).mountedAt starts).flat =
      (layout.mountedAt starts).flat ++ healthEntries health starts := by
  induction starts with
  | nil =>
    show (layout.withHealth health).flat = layout.flat ++ healthEntries health []
    unfold withHealth healthEntries
    split
    · rfl
    · rw [List.append_nil]
  | cons start starts ih =>
    rw [flat_mountedAt_cons, flat_mountedAt_cons, ih, List.map_append]
    congr 1
    unfold healthEntries
    split
    · rfl
    · rfl

theorem ignoresPath_mountedAt {layout : Layout α} (starts : List String)
    (h : ∀ entry ∈ layout.written, IgnoresPath entry.2.2) :
    ∀ entry ∈ (layout.mountedAt starts).written, IgnoresPath entry.2.2 := by
  induction starts with
  | nil => exact h
  | cons start starts ih =>
    intro entry hentry
    obtain ⟨inner, hinner, rfl⟩ := List.mem_map.mp hentry
    exact ih inner hinner

end Layout

/-- The settings for a server whose health route stands with its full text. -/
def Config.healthBelow (starts : List String) (config : Config) : Config :=
  { config with
    server.health.path := Layout.inFullBelow starts config.server.health.path }

/-! ## Layers below a start -/

theorem Router.mount_layer (dispatcher : Dispatcher) (start : String) (table : Router Outcome) :
    (table.layer dispatcher.wrap).mount start =
      (Router.empty.nest start table).map (Router.layer dispatcher.wrap) :=
  Router.nest_layer (fun _ _ => rfl) Router.empty table start

/-- A server's routes below any starts are the routes below them in the layers of the server. -/
theorem foldrM_mount {dispatcher : Dispatcher} {layout : Layout Outcome}
    {table : Router Outcome} {starts : List String} {mounted : Router Logged}
    (htable : layout.build = .ok table)
    (hmounted : starts.foldrM Router.mount (table.layer dispatcher.wrap) = .ok mounted) :
    ∃ whole, (layout.mountedAt starts).build = .ok whole ∧
      mounted = whole.layer dispatcher.wrap := by
  induction starts generalizing mounted with
  | nil =>
    cases hmounted
    exact ⟨table, htable, rfl⟩
  | cons start starts ih =>
    rw [List.foldrM_cons, Traversal.bind_eq_ok_iff] at hmounted
    obtain ⟨inner, hinner, hmount⟩ := hmounted
    obtain ⟨below, hbelow, rfl⟩ := ih hinner
    rw [Router.mount_layer, Traversal.map_eq_ok_iff] at hmount
    obtain ⟨whole, hwhole, rfl⟩ := hmount
    exact ⟨whole, Layout.build_nest_eq_ok_iff.mpr ⟨_, below, rfl, hbelow, hwhole⟩, rfl⟩

/-- What a server that was built and put below starts has for a router: the routes of its layout
with the health route, in their places, in the layers of the server. -/
theorem exists_mounted {files : Files} {config : Config} {layout : Layout Outcome}
    {routes : Router Outcome} {server : Server} {events : List Log.Event} {starts : List String}
    {mounted : Router Logged} (hroutes : layout.build = .ok routes)
    (hserver : Server.build files config routes = (.ok server, events))
    (hmounted : starts.foldrM Router.mount server.router = .ok mounted) :
    ∃ catalog whole, Server.catalog files config.messages = (.ok catalog, events) ∧
      ((layout.withHealth config.server.health).mountedAt starts).build = .ok whole ∧
      mounted = whole.layer (Dispatcher.wrap ⟨config.dispatch, catalog⟩) := by
  obtain ⟨catalog, table, hcatalog, htable, rfl⟩ := Server.build_eq_ok_iff.mp hserver
  rw [← Layout.build_withHealth hroutes] at htable
  obtain ⟨whole, hwhole, rfl⟩ := foldrM_mount htable hmounted
  exact ⟨catalog, whole, hcatalog, hwhole, rfl⟩

/-- The health route with its full text is put in behind the routes with theirs. -/
theorem withHealth_inFull {health : Config.Health} {starts : List String}
    {table whole : Router Outcome}
    (h : table.insertAll (Layout.healthEntries health starts) = .ok whole) :
    Server.withHealth { health with path := Layout.inFullBelow starts health.path } table =
      .ok whole := by
  unfold Layout.healthEntries at h
  unfold Server.withHealth
  dsimp only
  split at h
  · next henabled =>
    rw [if_pos henabled]
    exact Router.insertAll_singleton_eq_ok_iff.mp h
  · next henabled =>
    rw [if_neg henabled]
    exact h

/-! ## The flat server -/

/-- A router answers as the server of a flat table does, and settles the failures of the table
with its health route for the path that was sent. -/
structure AnswersAsFlat (files : Files) (config : Config) (entries : List (Router.Entry Outcome))
    (events : List Log.Event) (router : Router Logged) : Prop where
  /-- The entries make a table, the server around it can be built, and it logs the same events
  while it is built and the same answers and events for every request. -/
  answers : ∃ table flat, Router.empty.insertAll entries = .ok table ∧
    Server.build files config table = (.ok flat, events) ∧
    ∀ request, router.respond request = flat.router.respond request
  /-- Failures are settled once, for the path that was sent. -/
  settles : ∃ catalog table whole, Server.catalog files config.messages = (.ok catalog, events) ∧
    Router.empty.insertAll entries = .ok table ∧
    Server.withHealth config.server.health table = .ok whole ∧
    SettlesOnce ⟨config.dispatch, catalog⟩ whole router

/-- A server whose routes are written in any layout, put below any starts, answers as the one flat
server with all texts in full: for services that look at their path with the starts taken off it,
and for all others as they are. -/
theorem mounted_answersAsFlat {files : Files} {config : Config} {layout : Layout Outcome}
    {routes : Router Outcome} {server : Server} {events : List Log.Event} {starts : List String}
    {mounted : Router Logged} (hroutes : layout.build = .ok routes)
    (hserver : Server.build files config routes = (.ok server, events))
    (hmounted : starts.foldrM Router.mount server.router = .ok mounted)
    (hjoined : ((layout.withHealth config.server.health).mountedAt starts).Joined) :
    AnswersAsFlat files (config.healthBelow starts) (layout.mountedAt starts).flat events mounted ∧
      ((∀ entry ∈ layout.written, IgnoresPath entry.2.2) →
        AnswersAsFlat files (config.healthBelow starts) (layout.mountedAt starts).written events
          mounted) := by
  have hflat : AnswersAsFlat files (config.healthBelow starts) (layout.mountedAt starts).flat
      events mounted := by
    obtain ⟨catalog, whole, hcatalog, hwhole, rfl⟩ := exists_mounted hroutes hserver hmounted
    have hall := Layout.insertAll_flat hjoined hwhole
    rw [Layout.flat_withHealth] at hall
    obtain ⟨table, htable, hhealth⟩ := Router.insertAll_append_eq_ok_iff.mp hall
    have hwhole' : Server.withHealth (config.healthBelow starts).server.health table = .ok whole :=
      withHealth_inFull hhealth
    have hsettles := settlesOnce_layer ⟨config.dispatch, catalog⟩ whole
    let flat : Server := ⟨whole.layer (Dispatcher.wrap ⟨config.dispatch, catalog⟩),
      config.server.listenAddress⟩
    have hbuild : Server.build files (config.healthBelow starts) table = (.ok flat, events) :=
      Server.build_eq_ok_iff.mpr ⟨catalog, whole, hcatalog, hwhole', rfl⟩
    exact ⟨⟨table, flat, htable, hbuild, fun _ => rfl⟩,
      ⟨catalog, table, whole, hcatalog, htable, hwhole', hsettles⟩⟩
  refine ⟨hflat, fun hignores => ?_⟩
  rwa [← Layout.flat_eq_written (Layout.ignoresPath_mountedAt starts hignores)]

/-- The token endpoint below `/oauth`, beside the one for user info. -/
def Layout.tokenBelowOAuth : Layout Outcome :=
  .nest (.route .empty .get "/oidc/userinfo" Endpoint.userInfo.run) "/oauth"
    (.route .empty .post "/token" (Endpoint.issueToken Intake.endRemark).run)

/-- The same for two endpoints, one of them nested, in a server below `/idp`. -/
theorem mounted_answersAsFlat_idp :
    ∃ routes server events mounted, Layout.tokenBelowOAuth.build = .ok routes ∧
      Server.build ⟨[]⟩ Config.standard routes = (.ok server, events) ∧
      ["/idp"].foldrM Router.mount server.router = .ok mounted ∧
      AnswersAsFlat ⟨[]⟩ { Config.standard with server.health.path := "/idp/health" }
        [(.get, "/idp/oidc/userinfo", Endpoint.userInfo.run),
          (.post, "/idp/oauth/token", (Endpoint.issueToken Intake.endRemark).run)]
        events mounted := by
  refine ⟨_, _, _, _, rfl, rfl, rfl, ?_⟩
  have hflat := @mounted_answersAsFlat ⟨[]⟩ Config.standard Layout.tokenBelowOAuth _ _ _ ["/idp"] _
    rfl rfl rfl (by decide)
  exact hflat.2 (List.forall_mem_cons.mpr ⟨Endpoint.ignoresPath_run .userInfo,
    List.forall_mem_cons.mpr
      ⟨Endpoint.ignoresPath_run (.issueToken Intake.endRemark), List.forall_mem_nil _⟩⟩)

end IdentityProvider
