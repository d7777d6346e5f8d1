/-
  The surfaces on which failures are shown, and which path belongs to which.

  A classifier is an ordered list of rules and a surface for the paths that no rule covers; the
  first rule whose start begins the path decides.  Paths are compared character by character, as
  they were sent.
-/

namespace IdentityProvider

/-- The way in which a failure is shown to the caller. -/
inductive Surface
  /-- Management pages: an envelope of entries, sent as a success. -/
  | internal
  /-- OAuth 2.0 and OpenID Connect: one error and its description, sent as an error. -/
  | oauth
  /-- User info: a bare challenge. -/
  | challenge
  deriving DecidableEq, Repr

/-- The name of a surface in settings and in the log. -/
def Surface.name : Surface → String
  | .internal => "internal"
  | .oauth => "oauth"
  | .challenge => "challenge"

/-- The surface with exactly this name. -/
def Surface.ofName? (name : String) : Option Surface :=
  if name = "internal" then some .internal
  else if name = "oauth" then some .oauth
  else if name = "challenge" then some .challenge
  else none

theorem Surface.ofName?_name (s : Surface) : Surface.ofName? s.name = some s := by
  cases s <;> rfl

/-- What is said of a text that names no surface. -/
def Surface.unknownName : String := "Matching variant not found"

/-- All paths that begin with `start` belong to `surface`. -/
structure SurfaceRule where
  start : String
  surface : Surface
  deriving DecidableEq, Repr

/-- Whether the rule covers the path. -/
def SurfaceRule.covers (rule : SurfaceRule) (path : String) : Bool :=
  rule.start.toList.isPrefixOf path.toList

theorem SurfaceRule.covers_iff {rule : SurfaceRule} {path : String} :
    rule.covers path = true ↔ rule.start.toList <+: path.toList :=
  List.isPrefixOf_iff_prefix

/-- An ordered list of rules, and the surface of the paths that none of them covers. -/
structure Classifier where
  rules : List SurfaceRule
  fallback : Surface
  deriving DecidableEq, Repr

namespace Classifier

/-- The first rule that covers the path. -/
def rule? (classifier : Classifier) (path : String) : Option SurfaceRule :=
  classifier.rules.find? (·.covers path)

/-- The surface of a path. -/
def classify (classifier : Classifier) (path : String) : Surface :=
  match classifier.rule? path with
  | some rule => rule.surface
  | none => classifier.fallback

/-- The rules in force where the settings give none. -/
def standardRules : List SurfaceRule :=
  [⟨"/authorization", .internal⟩, ⟨"/client-mgmt/", .internal⟩,
   ⟨"/oauth/client-mgmt/", .internal⟩, ⟨"/oidc/userinfo", .challenge⟩, ⟨"/oauth/", .oauth⟩]

/-- The standard rules, with `internal` for all other paths. -/
def standard : Classifier := ⟨standardRules, .internal⟩

end Classifier

end IdentityProvider
