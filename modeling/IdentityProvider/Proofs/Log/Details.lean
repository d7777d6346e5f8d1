import IdentityProvider.Dispatch
import Mathlib.Data.List.Infix

/-
  What a log tells of an error from elsewhere.

  An error is put into contexts on its way, and a failure is put into words by the outermost of
  them.  So the log tells what that context says and nothing else (`tells_iff`): two errors in one
  context leave the same trace and get the same answer (`dispatch_within_congr`), and everything is
  told just if the outermost context repeats it (`tells_outermost`).
-/

namespace IdentityProvider

/-- The cause in a further context. -/
def Cause.within (cause : Cause) (context : String) : Cause :=
  { cause with contexts := cause.contexts ++ [context] }

/-- What an error said and what its contexts say, from the inside out. -/
def Cause.details (cause : Cause) : List String := cause.root :: cause.contexts

/-- What was said last is what the outermost context says. -/
def Cause.outermost (cause : Cause) : String := cause.details.getLast (List.cons_ne_nil _ _)

theorem Cause.text_eq_outermost (cause : Cause) : cause.text = cause.outermost :=
  (List.getLast_eq_getLastD _).symm

@[simp]
theorem Cause.text_within (cause : Cause) (context : String) :
    (cause.within context).text = context := by
  simp [Cause.text, Cause.within]

namespace Log

/-- The failure's event among these tells the words in its field `error`. -/
def Tells (events : List Event) (words : String) : Prop :=
  ∃ event ∈ events, event.level = .error ∧
    ∃ text, event.fields.lookup "error" = some (.plain text) ∧ words.toList <:+: text.toList

section

variable (dispatcher : Dispatcher) (path : String)

theorem tells_iff (failure : Failure) (words : String) :
    Tells (dispatcher.dispatch failure path).2 words ↔ words.toList <:+: failure.text.toList := by
  constructor
  · rintro ⟨event, hevent, hlevel, text, htext, hwords⟩
    have hcases : event = .failureEncountered path failure.text ∨
        event = .failureDispatched path (dispatcher.classifier.classify path) := by
      simpa [Dispatcher.dispatch, Dispatcher.events] using hevent
    rcases hcases with rfl | rfl
    · cases htext
      exact hwords
    · cases hlevel
  · intro hwords
    exact ⟨.failureEncountered path failure.text, List.mem_cons_self, rfl, failure.text, rfl,
      hwords⟩

/-- Behind a context it makes no difference what the cause is. -/
theorem dispatch_within_congr (cause other : Cause) (context : String) :
    dispatcher.dispatch (.unclassified (cause.within context)) path =
      dispatcher.dispatch (.unclassified (other.within context)) path := by
  have htext : (Failure.unclassified (cause.within context)).text =
      (Failure.unclassified (other.within context)).text := by
    show (cause.within context).text = (other.within context).text
    rw [Cause.text_within, Cause.text_within]
  have hrendering : dispatcher.rendering (.unclassified (cause.within context)) path =
      dispatcher.rendering (.unclassified (other.within context)) path := by
    unfold Dispatcher.rendering
    cases dispatcher.classifier.classify path <;> rfl
  unfold Dispatcher.dispatch Dispatcher.events
  rw [hrendering, htext]

/-- A log tells the outermost of what was said of an error. -/
structure TellsOutermost : Prop where
  /-- An error that nobody put into a context is told. -/
  bare : ∀ root, Tells (dispatcher.dispatch (.unclassified ⟨root, []⟩) path).2 root
  /-- Of any other error the last context is told. -/
  context : ∀ (cause : Cause) (context : String),
    Tells (dispatcher.dispatch (.unclassified (cause.within context)) path).2 context
  /-- Everything is told just if the outermost context repeats all the rest. -/
  all_iff : ∀ cause : Cause,
    (∀ detail ∈ cause.details,
      Tells (dispatcher.dispatch (.unclassified cause) path).2 detail) ↔
    ∀ detail ∈ cause.details, detail.toList <:+: cause.outermost.toList
  /-- Of two errors in one context nobody can tell which it was, neither by the answer nor by the
  log. -/
  alike : ∀ (cause other : Cause) (context : String),
    dispatcher.dispatch (.unclassified (cause.within context)) path =
      dispatcher.dispatch (.unclassified (other.within context)) path

end

/-- Of an error from elsewhere the log tells the outermost context, and the error itself where it
has none. -/
theorem tells_outermost (dispatcher : Dispatcher) (path : String) :
    TellsOutermost dispatcher path where
  bare root := (tells_iff dispatcher path _ _).mpr List.infix_rfl
  context cause context := by
    have htext : (Failure.unclassified (cause.within context)).text = context :=
      cause.text_within context
    rw [tells_iff, htext]
  all_iff cause := by
    have htext : (Failure.unclassified cause).text = cause.outermost := cause.text_eq_outermost
    simp only [tells_iff, htext]
  alike := dispatch_within_congr dispatcher path

/-- What was said of an error is not always told: here it was lost behind a context. -/
theorem not_all_told :
    ¬ ∀ (dispatcher : Dispatcher) (path root : String) (contexts : List String),
      ∀ detail ∈ root :: contexts,
        Tells (dispatcher.dispatch (.unclassified ⟨root, contexts⟩) path).2 detail := by
  intro hclaim
  have htold := hclaim ⟨.standard, .builtin⟩ "/oauth/token" "connection refused"
    ["loading the client"] "connection refused" List.mem_cons_self
  exact absurd ((tells_iff _ _ _ _).mp htold) (by decide)

end Log

end IdentityProvider
