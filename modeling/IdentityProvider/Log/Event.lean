import IdentityProvider.Surface

/-
  The events that the provider logs, as data.

  How an event is written is the business of `Log.Line`; which events are written at all is decided
  by a `Log.Filter` from their level and target.
-/

namespace IdentityProvider.Log

/-- How important an event is. -/
inductive Level
  | error
  | warn
  | info
  | debug
  | trace
  deriving DecidableEq, Repr

/-- The name of a level in a log line. -/
def Level.name : Level → String
  | .error => "ERROR"
  | .warn => "WARN"
  | .info => "INFO"
  | .debug => "DEBUG"
  | .trace => "TRACE"

/-- The more detailed a level, the greater its rank. -/
def Level.rank : Level → Nat
  | .error => 1
  | .warn => 2
  | .info => 3
  | .debug => 4
  | .trace => 5

/-- The value of a field of an event. -/
inductive FieldValue
  /-- A text that a log line puts between quotes. -/
  | quoted (text : String)
  /-- A text that a log line shows as it is. -/
  | plain (text : String)
  | count (n : Nat)
  deriving DecidableEq, Repr

/-- An event. -/
inductive Event
  /-- A failure reached the dispatcher. -/
  | failureEncountered (path error : String)
  /-- The dispatcher chose a surface for a failure. -/
  | failureDispatched (path : String) (surface : Surface)
  /-- A bundle of messages was read. -/
  | bundleLoading (path : String)
  /-- The catalog of messages is complete. -/
  | catalogLoaded (size : Nat)
  deriving DecidableEq, Repr

namespace Event

/-- The level of an event. -/
def level : Event → Level
  | .failureEncountered _ _ => .error
  | .failureDispatched _ _ => .debug
  | .bundleLoading _ => .debug
  | .catalogLoaded _ => .debug

/-- The part of the program from which an event comes. -/
def target : Event → String
  | .failureEncountered _ _ => "idp_dispatch::dispatcher"
  | .failureDispatched _ _ => "idp_dispatch::dispatcher"
  | .bundleLoading _ => "idp_core::messages"
  | .catalogLoaded _ => "idp_server"

/-- What an event says. -/
def message : Event → String
  | .failureEncountered _ _ => "unhandled failure encountered during request processing"
  | .failureDispatched _ _ => "dispatching failure"
  | .bundleLoading _ => "loading message bundle"
  | .catalogLoaded _ => "message catalog loaded"

/-- The fields of an event, in the order in which they are written. -/
def fields : Event → List (String × FieldValue)
  | .failureEncountered path error => [("path", .quoted path), ("error", .plain error)]
  | .failureDispatched path surface => [("path", .quoted path), ("surface", .plain surface.name)]
  | .bundleLoading path => [("path", .plain path)]
  | .catalogLoaded size => [("messages", .count size)]

/-- The names of the fields of an event; what it says is one of them. -/
def fieldNames (event : Event) : List String := "message" :: event.fields.map (·.1)

end Event

end IdentityProvider.Log
