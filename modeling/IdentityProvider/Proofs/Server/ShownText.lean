import IdentityProvider.Proofs.Server.Startup

/-
  Whether a caller is shown any text.

  The built-in texts are not empty, and a code without a text stands for itself; but a step puts
  in whatever text it is given.  So a code that is not empty resolves to the empty text just if the
  last step that mentions it gives it that text (`Runs.resolve_eq_empty_iff`), and only then is a
  failure that is shown by its code shown without a word (`empty_only_if_given`).
-/

namespace IdentityProvider

open Catalog

theorem Catalog.builtin_text_ne {entry : String × String} (h : entry ∈ builtin.entries) :
    entry.2 ≠ "" := by
  have hall : ∀ entry ∈ builtin.entries, entry.2 ≠ "" := by decide
  exact hall entry h

theorem Catalog.Runs.resolve_eq_empty_iff {files : Files} {steps : List Step} {catalog : Catalog}
    (h : Runs files builtin steps catalog) {code : String} (hcode : code ≠ "") :
    catalog.resolve code = "" ↔ Latest files steps code "" := by
  rw [h.resolve_eq_iff]
  constructor
  · intro hshown
    cases hshown with
    | latest _ hlatest => exact hlatest
    | builtin _ _ hmem => exact absurd rfl (builtin_text_ne hmem)
    | itself _ _ => exact absurd rfl hcode
  · exact .latest ""

/-- The failures that are shown by the text of a code, with a code that is not empty. -/
inductive SpeaksBy : Failure → String → Prop
  | domain (denial : Denial) : denial.code ≠ "" → SpeaksBy (.domain denial) denial.code
  | unclassified (cause : Cause) : SpeaksBy (.unclassified cause) "unknown_error"

section

variable {failure : Failure} {code : String}

theorem SpeaksBy.ne_empty (h : SpeaksBy failure code) : code ≠ "" := by
  cases h with
  | domain denial hcode => exact hcode
  | unclassified cause => decide

theorem SpeaksBy.quotes (h : SpeaksBy failure code) (catalog : Catalog) {surface : Surface}
    (hsurface : surface ≠ .challenge) :
    Quotes surface failure code (catalog.resolve code) (failure.rendering catalog surface) := by
  cases surface with
  | internal =>
    cases h with
    | domain denial _ =>
      rw [Failure.rendering, Encoding.envelope_domain]
      exact .envelope denial _
    | unclassified cause => exact .envelopeUnknown _ _ (.unclassified cause)
  | oauth =>
    cases h with
    | domain denial _ => exact .oauth denial _
    | unclassified cause => exact .oauthUnknown _ _ (.unclassified cause)
  | challenge => exact absurd rfl hsurface

end

/-- Where an empty text can come from, after a run of steps from the built-in texts. -/
structure EmptyOnlyIfGiven (files : Files) (steps : List Step) : Prop where
  /-- The catalog after the steps is one that a run of them comes to. -/
  ran : Runs files builtin steps (steps.foldl (after files) builtin)
  /-- A code that is not empty has the empty text just if the last step that mentions it says so. -/
  resolved : ∀ catalog, Runs files builtin steps catalog → ∀ code, code ≠ "" →
    (catalog.resolve code = "" ↔ Latest files steps code "")
  /-- The answer to a denial or to an unclassified failure shows the text of its code, on each
  surface that shows texts, and the text is empty just then. -/
  shown : ∀ dispatcher : Dispatcher, Runs files builtin steps dispatcher.catalog →
    ∀ failure code, SpeaksBy failure code →
    ∀ path, dispatcher.classifier.classify path ≠ .challenge →
    ∃ text rendering,
      Quotes (dispatcher.classifier.classify path) failure code text rendering ∧
      (dispatcher.dispatch failure path).1 = rendering.response ∧
      (text = "" ↔ Latest files steps code "")

/-- No text is empty, unless the last step that mentions its code makes it so. -/
theorem empty_only_if_given (files : Files) (steps : List Step) :
    EmptyOnlyIfGiven files steps where
  ran := runs_foldl_after files builtin steps
  resolved _ h _ hcode := h.resolve_eq_empty_iff hcode
  shown dispatcher h _ code hspeaks _ hsurface :=
    ⟨dispatcher.catalog.resolve code, _, hspeaks.quotes dispatcher.catalog hsurface, rfl,
      h.resolve_eq_empty_iff hspeaks.ne_empty⟩

/-- The built-in texts after a step that gives `unknown_error` the empty text. -/
def silenced : Catalog := [Step.entries [("unknown_error", "")]].foldl (after ⟨[]⟩) builtin

/-- A step can take the words away: here an unclassified failure is shown without any. -/
theorem not_never_empty :
    ¬ (∀ code, code ≠ "" → silenced.resolve code ≠ "") ∧
      (Dispatcher.mk .standard silenced).rendering (.ofError "database unreachable")
        "/oauth/token" = .oauth 500 ⟨"unknown_error", ""⟩ := by
  constructor
  · intro hclaim
    exact hclaim "unknown_error" (by decide) (by decide)
  · decide

end IdentityProvider
