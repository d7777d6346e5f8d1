import IdentityProvider.Config
import IdentityProvider.Json.Value
import IdentityProvider.Log.Filter
import IdentityProvider.Text.Hidden

/-
  How events are written, and the log as a whole.

  A line of text names the level, the target, the message and the fields; a JSON line is an object
  with the same parts.  Times are left to whoever writes the lines out.
-/

namespace IdentityProvider.Log

namespace FieldValue

/-- A value in a line of text. -/
def text : FieldValue → List Char
  | .quoted text => Text.Quoted.encode text.toList
  | .plain text => text.toList
  | .count n => Nat.toDigits 10 n

/-- A value in a JSON line. -/
def json : FieldValue → Json
  | .quoted text => .ofText text
  | .plain text => .ofText text
  | .count n => .number (Nat.toDigits 10 n)

end FieldValue

namespace Event

/-- The fields of an event in a line of text. -/
def fieldsText (fields : List (String × FieldValue)) : List Char :=
  fields.flatMap fun field => ' ' :: field.1.toList ++ '=' :: field.2.text

/-- An event as a line of text. -/
def text (event : Event) : String :=
  String.ofList (event.level.name.toList ++ ' ' :: event.target.toList ++ ':' :: ' ' ::
    event.message.toList ++ fieldsText event.fields)

/-- An event as a JSON line. -/
def json (event : Event) : Json :=
  .object
    [(['l', 'e', 'v', 'e', 'l'], .ofText event.level.name),
     (['f', 'i', 'e', 'l', 'd', 's'], .object
       ((['m', 'e', 's', 's', 'a', 'g', 'e'], .ofText event.message) ::
         event.fields.map fun field => (field.1.toList, field.2.json))),
     (['t', 'a', 'r', 'g', 'e', 't'], .ofText event.target)]

end Event

/-- A log that has been set up. -/
structure Sink where
  filter : Filter
  format : LogFormat
  deriving DecidableEq, Repr

/-- Why a log cannot be set up. -/
inductive InstallError
  /-- There is one already. -/
  | alreadyInstalled
  deriving DecidableEq, Repr

/-- An installation error in words. -/
def InstallError.text : InstallError → String
  | .alreadyInstalled =>
    "failed to install tracing subscriber: a global default trace dispatcher has already been set"

namespace Sink

/-- The log that settings ask for. -/
def ofSettings (settings : Config.Logging) : Sink :=
  ⟨(Filter.ofText settings.filter).1, settings.format⟩

/-- Sets up the log, which is possible once. -/
def install (installed : Option Sink) (settings : Config.Logging) : Except InstallError Sink :=
  match installed with
  | none => .ok (ofSettings settings)
  | some _ => .error .alreadyInstalled

/-- The events that are logged, in order. -/
def admitted (sink : Sink) (events : List Event) : List Event := events.filter sink.filter.admits

/-- An event in the form of the log. -/
def line (sink : Sink) (event : Event) : String :=
  match sink.format with
  | .text => event.text
  | .json => event.json.render

/-- The lines of the log. -/
def lines (sink : Sink) (events : List Event) : List String := (sink.admitted events).map sink.line

end Sink

end IdentityProvider.Log
