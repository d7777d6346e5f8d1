import IdentityProvider.Proofs.Catalog.Overlays
import IdentityProvider.Proofs.Dispatch.Tables
import IdentityProvider.Proofs.Server.Confidentiality
import IdentityProvider.Proofs.Server.Settlement
import Mathlib

/-
  How a server starts, and whose words it then uses.

  A start is refused just where the bundle that the settings name cannot be used (`LacksBundle`).
  Otherwise the texts come from three places, and `Sourced` says which of them a code has.  The
  responses that put a code into words are those of `Quotes`; a server that was built uses the
  sourced text in each of them, and its texts change no other response (`build_startsUp`).
-/

namespace IdentityProvider

open Catalog Tables

/-! ## The places of texts -/

/-- The texts of the bundle that the settings name; none where they name no bundle. -/
inductive HasBundle (files : Files) : Option String → List (String × String) → Prop
  | unnamed : HasBundle files none []
  | read (path document : String) (pairs : List (String × String)) :
    files.text path = .ok document → IsBundle document pairs → HasBundle files (some path) pairs

/-- The bundle that the settings name cannot be used. -/
inductive LacksBundle (files : Files) : Option String → BundleError → Prop
  | unread (path : String) (fault : ReadFault) :
    files.text path = .error fault → LacksBundle files (some path) (.unreadable path fault)
  | notFlat (path document : String) :
    files.text path = .ok document → (∀ pairs, ¬ IsBundle document pairs) →
    LacksBundle files (some path) (.malformed document)

/-- What is logged about the bundle: that its file was read. -/
inductive Loading (files : Files) : Option String → List Log.Event → Prop
  | unnamed : Loading files none []
  | unread (path : String) (fault : ReadFault) :
    files.text path = .error fault → Loading files (some path) []
  | read (path document : String) :
    files.text path = .ok document → Loading files (some path) [.bundleLoading path]

/-- The text of a code: that of the settings themselves, else that of the bundle, else the built-in
one, else the code itself. -/
inductive Sourced (bundle inline : List (String × String)) (code : String) : String → Prop
  | inline (text : String) : LastText inline code text → Sourced bundle inline code text
  | bundle (text : String) : code ∉ inline.map Prod.fst → (code, text) ∈ bundle →
    Sourced bundle inline code text
  | builtin (text : String) : code ∉ inline.map Prod.fst → code ∉ bundle.map Prod.fst →
    (code, text) ∈ Catalog.builtin.entries → Sourced bundle inline code text
  | itself : code ∉ inline.map Prod.fst → code ∉ bundle.map Prod.fst →
    code ∉ Catalog.builtin.codes → Sourced bundle inline code code

/-- The failures that a surface puts into words by the text of a code, and how they look with it. -/
inductive Quotes : Surface → Failure → String → String → Rendering → Prop
  | envelope (denial : Denial) (text : String) :
    Quotes .internal (.domain denial) denial.code text (.envelope ⟨[⟨denial.code, text⟩]⟩)
  | envelopeUnknown (failure : Failure) (text : String) : failure.IsInternal →
    Quotes .internal failure "unknown_error" text (.envelope ⟨[⟨"unknown_error", text⟩]⟩)
  | oauth (denial : Denial) (text : String) :
    Quotes .oauth (.domain denial) denial.code text (.oauth 400 ⟨denial.code, text⟩)
  | oauthUnknown (failure : Failure) (text : String) : failure.IsUnexpected →
    Quotes .oauth failure "unknown_error" text (.oauth 500 ⟨"unknown_error", text⟩)

/-- The built-in texts with those of a bundle put over them, and the others over those. -/
def Catalog.layered (bundle inline : List (String × String)) : Catalog :=
  (Catalog.builtin.overlay bundle).overlay inline

section

variable {files : Files} {path : Option String} {bundle inline : List (String × String)}
  {code text : String}

theorem HasBundle.distinct (h : HasBundle files path bundle) : Toml.DistinctKeys bundle := by
  cases h with
  | unnamed => exact List.nodup_nil
  | read _ document _ _ hbundle => exact hbundle.distinct

theorem HasBundle.unique {other : List (String × String)} (h : HasBundle files path bundle)
    (hother : HasBundle files path other) : bundle = other := by
  cases h with
  | unnamed =>
    cases hother with
    | unnamed => rfl
  | read _ document _ hread hbundle =>
    cases hother with
    | read _ found _ hfound hpairs =>
      rw [hread, Except.ok.injEq] at hfound
      subst hfound
      exact hbundle.unique hpairs

/-- The bundle of the settings can be used or it cannot. -/
theorem hasBundle_or_lacksBundle (files : Files) (path : Option String) :
    (∃ bundle, HasBundle files path bundle) ∨ ∃ fault, LacksBundle files path fault := by
  cases path with
  | none => exact .inl ⟨[], .unnamed⟩
  | some path =>
    cases hread : files.text path with
    | error fault => exact .inr ⟨_, .unread path fault hread⟩
    | ok document =>
      by_cases hbundle : ∃ pairs, IsBundle document pairs
      · obtain ⟨pairs, hpairs⟩ := hbundle
        exact .inl ⟨pairs, .read path document pairs hread hpairs⟩
      · exact .inr ⟨_, .notFlat path document hread (not_exists.mp hbundle)⟩

theorem exists_sourced (bundle inline : List (String × String)) (code : String) :
    ∃ text, Sourced bundle inline code text := by
  by_cases hinline : code ∈ inline.map Prod.fst
  · obtain ⟨text, htext⟩ := exists_lastText hinline
    exact ⟨text, .inline text htext⟩
  by_cases hbundle : code ∈ bundle.map Prod.fst
  · obtain ⟨⟨_, text⟩, hmem, rfl⟩ := List.mem_map.mp hbundle
    exact ⟨text, .bundle text hinline hmem⟩
  by_cases hbuiltin : code ∈ builtin.codes
  · obtain ⟨⟨_, text⟩, hmem, rfl⟩ := List.mem_map.mp hbuiltin
    exact ⟨text, .builtin text hinline hbundle hmem⟩
  · exact ⟨code, .itself hinline hbundle hbuiltin⟩

theorem resolve_layered (hdistinct : Toml.DistinctKeys bundle)
    (h : Sourced bundle inline code text) : (layered bundle inline).resolve code = text := by
  unfold layered resolve
  cases h with
  | inline _ htext => rw [text?_overlay_of_lastText htext, Option.getD_some]
  | bundle _ hinline hmem =>
    have htext : LastText bundle code text := (lastText_iff_mem hdistinct).mpr hmem
    rw [text?_overlay_of_notMem hinline, text?_overlay_of_lastText htext, Option.getD_some]
  | builtin _ hinline hbundle hmem =>
    rw [text?_overlay_of_notMem hinline, text?_overlay_of_notMem hbundle,
      text?_builtin_of_mem hmem, Option.getD_some]
  | itself hinline hbundle hbuiltin =>
    rw [text?_overlay_of_notMem hinline, text?_overlay_of_notMem hbundle,
      text?_builtin_of_notMem hbuiltin, Option.getD_none]

theorem existsUnique_sourced (hdistinct : Toml.DistinctKeys bundle) (code : String) :
    ∃! text, Sourced bundle inline code text := by
  obtain ⟨text, htext⟩ := exists_sourced bundle inline code
  refine ⟨text, htext, fun other hother => ?_⟩
  rw [← resolve_layered hdistinct hother, resolve_layered hdistinct htext]

theorem size_layered (bundle inline : List (String × String)) :
    (layered bundle inline).size = {code | code ∈ builtin.codes ∨ code ∈ bundle.map Prod.fst ∨
      code ∈ inline.map Prod.fst}.ncard := by
  have hnodup : (layered bundle inline).codes.Nodup :=
    nodup_codes_overlay (nodup_codes_overlay nodup_codes_builtin bundle) inline
  refine size_eq_ncard hnodup fun code => ?_
  unfold layered
  rw [mem_codes_overlay, mem_codes_overlay, or_assoc]

end

/-! ## The start -/

section

variable {files : Files} {config : Config} {routes table : Router Outcome}
  {bundle : List (String × String)} {fault : BundleError}

theorem Server.withBundle_of_hasBundle {messages : Config.Messages}
    (h : HasBundle files messages.path bundle) : ∃ loading, Loading files messages.path loading ∧
      Server.withBundle files messages = (.ok (builtin.overlay bundle), loading) := by
  obtain ⟨path, entries⟩ := messages
  unfold Server.withBundle
  cases h with
  | unnamed => exact ⟨[], .unnamed, rfl⟩
  | read path document _ hread hbundle =>
    have hpairs : bundle? document = some bundle := bundle?_eq_some_iff.mpr hbundle
    refine ⟨[.bundleLoading path], .read path document hread, ?_⟩
    simp only [withFile, hread, Catalog.withBundle, hpairs]

theorem Server.withBundle_of_lacksBundle {messages : Config.Messages}
    (h : LacksBundle files messages.path fault) : ∃ loading, Loading files messages.path loading ∧
      Server.withBundle files messages = (.error fault, loading) := by
  obtain ⟨path, entries⟩ := messages
  unfold Server.withBundle
  cases h with
  | unread path fault hread =>
    refine ⟨[], .unread path fault hread, ?_⟩
    simp only [withFile, hread]
  | notFlat path document hread hpairs =>
    have hbundle : bundle? document = none := by
      rw [Option.eq_none_iff_forall_ne_some]
      exact fun pairs hpair => hpairs pairs (bundle?_eq_some_iff.mp hpair)
    refine ⟨[.bundleLoading path], .read path document hread, ?_⟩
    simp only [withFile, hread, Catalog.withBundle, hbundle]

/-- With a bundle that can be used, the server starts. -/
theorem Server.build_of_hasBundle (htable : withHealth config.server.health routes = .ok table)
    (h : HasBundle files config.messages.path bundle) :
    ∃ loading, Loading files config.messages.path loading ∧
      build files config routes =
        (.ok ⟨table.layer
            (Dispatcher.wrap ⟨config.dispatch, layered bundle config.messages.entries⟩),
          config.server.listenAddress⟩,
          loading ++ [.catalogLoaded (layered bundle config.messages.entries).size]) := by
  obtain ⟨loading, hloading, hbundle⟩ := withBundle_of_hasBundle h
  refine ⟨loading, hloading, ?_⟩
  unfold build Server.catalog
  rw [hbundle, htable]
  rfl

/-- Without, it does not. -/
theorem Server.build_of_lacksBundle (config : Config) (routes : Router Outcome)
    (h : LacksBundle files config.messages.path fault) :
    ∃ loading, Loading files config.messages.path loading ∧
      build files config routes = (.error (.bundle fault), loading) := by
  obtain ⟨loading, hloading, hbundle⟩ := withBundle_of_lacksBundle h
  refine ⟨loading, hloading, ?_⟩
  unfold build Server.catalog
  rw [hbundle]

/-- A start is refused for want of a bundle and for nothing else. -/
theorem Server.lacksBundle_of_build {error : StartError}
    (htable : withHealth config.server.health routes = .ok table)
    (h : (build files config routes).1 = .error error) :
    ∃ fault, LacksBundle files config.messages.path fault ∧ error = .bundle fault := by
  obtain ⟨bundle, hbundle⟩ | ⟨fault, hlacks⟩ :=
    hasBundle_or_lacksBundle files config.messages.path
  · obtain ⟨loading, -, hbuild⟩ := build_of_hasBundle htable hbundle
    rw [hbuild] at h
    cases h
  · obtain ⟨loading, -, hbuild⟩ := build_of_lacksBundle config routes hlacks
    rw [hbuild, Except.error.injEq] at h
    exact ⟨fault, hlacks, h.symm⟩

/-- What a server that started serves. -/
theorem Server.router_of_build {server : Server}
    (htable : withHealth config.server.health routes = .ok table)
    (h : (build files config routes).1 = .ok server) :
    ∃ bundle, HasBundle files config.messages.path bundle ∧ server.router = table.layer
      (Dispatcher.wrap ⟨config.dispatch, layered bundle config.messages.entries⟩) := by
  obtain ⟨bundle, hbundle⟩ | ⟨fault, hlacks⟩ :=
    hasBundle_or_lacksBundle files config.messages.path
  · obtain ⟨loading, -, hbuild⟩ := build_of_hasBundle htable hbundle
    rw [hbuild, Except.ok.injEq] at h
    exact ⟨bundle, hbundle, by rw [← h]⟩
  · obtain ⟨loading, -, hbuild⟩ := build_of_lacksBundle config routes hlacks
    rw [hbuild] at h
    cases h

end

/-! ## The words of a running server -/

section

variable {catalog other : Catalog} {surface : Surface} {failure : Failure} {code : String}
  {rendering : Rendering}

theorem Quotes.rendering_eq
    (h : Quotes surface failure code (catalog.resolve code) rendering) :
    failure.rendering catalog surface = rendering := by
  generalize htext : catalog.resolve code = text at h
  cases h with
  | envelope denial =>
    rw [Failure.rendering, Encoding.envelope_domain, ← htext]
    rfl
  | envelopeUnknown _ _ hinternal =>
    rw [Failure.rendering, hinternal.envelope_eq, ← htext]
    rfl
  | oauth denial =>
    rw [← htext]
    rfl
  | oauthUnknown _ _ hunexpected =>
    rw [Failure.rendering, hunexpected.oauth_eq, ← htext]
    rfl

/-- What quotes no code looks the same with any texts. -/
theorem rendering_eq_of_not_quotes
    (h : ∀ code text rendering, ¬ Quotes surface failure code text rendering) :
    failure.rendering catalog surface = failure.rendering other surface := by
  cases surface with
  | internal =>
    cases failure with
    | domain denial => exact absurd (.envelope denial "") (h _ _ _)
    | typeMismatch message =>
      exact absurd (.envelopeUnknown _ "" (.typeMismatch message)) (h _ _ _)
    | unclassified cause => exact absurd (.envelopeUnknown _ "" (.unclassified cause)) (h _ _ _)
    | invalidArgument | constraintViolation | missingParameter | mediaTypeNotAcceptable => rfl
  | oauth =>
    cases failure with
    | domain denial => exact absurd (.oauth denial "") (h _ _ _)
    | missingParameter name message =>
      exact absurd (.oauthUnknown _ "" (.missingParameter name message)) (h _ _ _)
    | mediaTypeNotAcceptable message =>
      exact absurd (.oauthUnknown _ "" (.mediaTypeNotAcceptable message)) (h _ _ _)
    | typeMismatch message => exact absurd (.oauthUnknown _ "" (.typeMismatch message)) (h _ _ _)
    | unclassified cause => exact absurd (.oauthUnknown _ "" (.unclassified cause)) (h _ _ _)
    | invalidArgument | constraintViolation => rfl
  | challenge => rfl

end

/-- How the start of a server comes out, and the words that it uses once it runs. -/
structure StartsUp (files : Files) (config : Config) (table : Router Outcome)
    (started : Except StartError Server × List Log.Event) : Prop where
  /-- A start is refused just where the bundle cannot be used, and for that reason. -/
  refused : ∀ error, started.1 = .error error ↔
    ∃ fault, LacksBundle files config.messages.path fault ∧ error = .bundle fault
  /-- A refused start logs at most that the bundle was read. -/
  refusedLog : ∀ error, started.1 = .error error → Loading files config.messages.path started.2
  /-- A start that goes through logs last, and only once, how many codes have a text. -/
  log : ∀ server, started.1 = .ok server → ∃ bundle loading,
    HasBundle files config.messages.path bundle ∧ Loading files config.messages.path loading ∧
      started.2 = loading ++ [.catalogLoaded {code | code ∈ builtin.codes ∨
        code ∈ bundle.map Prod.fst ∨ code ∈ config.messages.entries.map Prod.fst}.ncard]
  /-- Each code has one text. -/
  sourced : ∀ bundle, HasBundle files config.messages.path bundle →
    ∀ code, ∃! text, Sourced bundle config.messages.entries code text
  /-- A failure that quotes a code is sent with the text of that code. -/
  worded : ∀ server bundle, started.1 = .ok server →
    HasBundle files config.messages.path bundle → ∀ request failure code text rendering,
      Carries (table.serve request) failure → Sourced bundle config.messages.entries code text →
      Quotes (config.dispatch.classify request.sentPath) failure code text rendering →
      ∃ response, Sends rendering response ∧
        (server.router.respond request).1 = response.sentFor request
  /-- A failure that quotes no code is sent as with any texts. -/
  wordless : ∀ server, started.1 = .ok server → ∀ request failure,
    Carries (table.serve request) failure →
      (∀ code text rendering,
        ¬ Quotes (config.dispatch.classify request.sentPath) failure code text rendering) →
      ∀ catalog, (server.router.respond request).1 =
        (Dispatcher.dispatch ⟨config.dispatch, catalog⟩ failure request.sentPath).1.sentFor request

/-- A server whose health route fits the others starts just where its bundle can be used, and then
shows each code by the nearest of its texts. -/
theorem build_startsUp {files : Files} {config : Config} {routes table : Router Outcome}
    (htable : Server.withHealth config.server.health routes = .ok table) :
    StartsUp files config table (Server.build files config routes) where
  refused error := by
    constructor
    · exact Server.lacksBundle_of_build htable
    · rintro ⟨fault, hlacks, rfl⟩
      obtain ⟨loading, -, hbuild⟩ := Server.build_of_lacksBundle config routes hlacks
      rw [hbuild]
  refusedLog error herror := by
    obtain ⟨fault, hlacks, -⟩ := Server.lacksBundle_of_build htable herror
    obtain ⟨loading, hloading, hbuild⟩ := Server.build_of_lacksBundle config routes hlacks
    rwa [hbuild]
  log server hserver := by
    obtain ⟨bundle, hbundle, -⟩ := Server.router_of_build htable hserver
    obtain ⟨loading, hloading, hbuild⟩ := Server.build_of_hasBundle htable hbundle
    refine ⟨bundle, loading, hbundle, hloading, ?_⟩
    rw [hbuild, size_layered]
  sourced bundle hbundle code := existsUnique_sourced hbundle.distinct code
  worded server bundle hserver hbundle request failure code text rendering hfailure htext
      hquotes := by
    obtain ⟨other, hother, hrouter⟩ := Server.router_of_build htable hserver
    rw [← hbundle.unique hother] at hrouter
    rw [← resolve_layered hbundle.distinct htext] at hquotes
    have hrendering := hquotes.rendering_eq
    have hsends : Sends rendering rendering.response := by
      rw [← hrendering]
      exact sends_rendering _ _ failure
    refine ⟨rendering.response, hsends, ?_⟩
    rw [hrouter, respond_wrap_dispatched hfailure,
      dispatch_eq_of_shows (rendering_eq_iff.mp hrendering) hsends]
  wordless server hserver request failure hfailure hquotes catalog := by
    obtain ⟨bundle, -, hrouter⟩ := Server.router_of_build htable hserver
    rw [hrouter, respond_wrap_dispatched hfailure]
    unfold Dispatcher.dispatch Dispatcher.rendering
    rw [rendering_eq_of_not_quotes hquotes]

/-- A file with a text for one code. -/
def nonceFiles : Files :=
  ⟨[(Text.Utf8.encode "/t", .file (Text.Utf8.encode "invalid_nonce = \"Nonce mismatch\"\n"))]⟩

/-- Settings that name this file and have a text of their own for its code. -/
def nonceConfig : Config :=
  { Config.standard with messages := ⟨some "/t", [("invalid_nonce", "Nonce does not match")]⟩ }

/-- A route that fails with the code. -/
def nonceRoutes : Router Outcome :=
  ⟨[⟨"/oauth/fail/coded",
    ⟨[.literal "oauth".toList, .literal "fail".toList, .literal "coded".toList]⟩,
    [(.get, (Endpoint.raise (.domain (.coded "invalid_nonce"))).run)]⟩]⟩

theorem hasBundle_nonce :
    HasBundle nonceFiles nonceConfig.messages.path [("invalid_nonce", "Nonce mismatch")] := by
  have hread : nonceFiles.text "/t" = .ok "invalid_nonce = \"Nonce mismatch\"\n" := by cbv
  have hbundle : IsBundle "invalid_nonce = \"Nonce mismatch\"\n"
      [("invalid_nonce", "Nonce mismatch")] := by
    unfold IsBundle
    cbv
  exact .read "/t" _ _ hread hbundle

/-- Where the bundle and the settings both have a text for a code, that of the settings is sent. -/
theorem build_startsUp_nonce :
    ∃ table server, Server.withHealth nonceConfig.server.health nonceRoutes = .ok table ∧
      (Server.build nonceFiles nonceConfig nonceRoutes).1 = .ok server ∧
      StartsUp nonceFiles nonceConfig table (Server.build nonceFiles nonceConfig nonceRoutes) ∧
      (server.router.respond
          ⟨"GET", "/oauth/fail/coded", "/oauth/fail/coded", none, [], []⟩).1 =
        ⟨400, [("content-type", "application/json")],
          oauthText ⟨"invalid_nonce", "Nonce does not match"⟩, none⟩ := by
  have htable : Server.withHealth nonceConfig.server.health nonceRoutes = .ok _ := rfl
  have hstarts : StartsUp nonceFiles nonceConfig _ _ := build_startsUp htable
  obtain ⟨loading, -, hbuild⟩ := Server.build_of_hasBundle htable hasBundle_nonce
  have hserver := congrArg Prod.fst hbuild
  have htext : Sourced [("invalid_nonce", "Nonce mismatch")] nonceConfig.messages.entries
      "invalid_nonce" "Nonce does not match" :=
    .inline _ ⟨[], [], rfl, List.not_mem_nil⟩
  obtain ⟨response, hsends, hsent⟩ := hstarts.worded _ _ hserver hasBundle_nonce
    ⟨"GET", "/oauth/fail/coded", "/oauth/fail/coded", none, [], []⟩ _ _ _ _
    (.raised _ _ rfl) htext (.oauth (.coded "invalid_nonce") _)
  refine ⟨_, _, htable, hserver, hstarts, ?_⟩
  rw [hsent]
  cases hsends
  rfl

end IdentityProvider
