import IdentityProvider.Catalog
import IdentityProvider.Config.Decoding
import IdentityProvider.Files
import IdentityProvider.Log.Event
import IdentityProvider.Toml.Document

/-
  Message bundles, and catalogs that are built up in steps.

  A bundle is a TOML document that holds nothing but texts.  A step puts the texts of a bundle, of
  a bundle file or of a list into a catalog; a step that fails leaves the catalog as it was.
-/

namespace IdentityProvider

/-- Why a bundle cannot be used. -/
inductive BundleError
  | unreadable (path : String) (fault : ReadFault)
  /-- The document is not a TOML document with nothing but texts. -/
  | malformed (document : String)
  deriving DecidableEq, Repr

/-- A failure to read a bundle in words, with the remark of the reader of bundles. -/
def BundleError.text (remark : Toml.Remark) : BundleError → String
  | .unreadable path fault => "failed to read message bundle " ++ path ++ ": " ++ fault.text
  | .malformed document => "failed to parse message bundle: " ++ remark document

namespace Catalog

/-- The texts of a bundle. -/
def bundle? (text : String) : Option (List (String × String)) :=
  (Toml.read? text).bind fun entries => (Toml.table entries).texts?

/-- The catalog with the texts of a bundle. -/
def withBundle (catalog : Catalog) (text : String) : Except BundleError Catalog :=
  match bundle? text with
  | some pairs => .ok (catalog.overlay pairs)
  | none => .error (.malformed text)

/-- The catalog with the texts of a bundle file, and what is logged: the file is named once it has
been read. -/
def withFile (catalog : Catalog) (files : Files) (path : String) :
    Except BundleError Catalog × List Log.Event :=
  match files.text path with
  | .error fault => (.error (.unreadable path fault), [])
  | .ok text => (catalog.withBundle text, [.bundleLoading path])

/-- A step in building up a catalog. -/
inductive Step
  | bundle (text : String)
  | file (path : String)
  | entries (pairs : List (String × String))
  deriving DecidableEq, Repr

/-- What a step makes of a catalog. -/
def step (files : Files) (catalog : Catalog) : Step → Except BundleError Catalog
  | .bundle text => catalog.withBundle text
  | .file path => (catalog.withFile files path).1
  | .entries pairs => .ok (catalog.overlay pairs)

/-- The catalog after a step: unchanged where the step fails. -/
def after (files : Files) (catalog : Catalog) (s : Step) : Catalog :=
  match catalog.step files s with
  | .ok next => next
  | .error _ => catalog

end Catalog

end IdentityProvider
