import IdentityProvider.Address
import IdentityProvider.Surface

/-
  The settings of the provider, and what they are where nothing is set.

  `fault?` finds the first rule that complete settings break; settings that break none are what
  the server starts from.
-/

namespace IdentityProvider

/-- The form of log lines. -/
inductive LogFormat
  | text
  | json
  deriving DecidableEq, Repr

/-- The format with exactly this name. -/
def LogFormat.ofName? (name : String) : Option LogFormat :=
  if name = "text" then some .text else if name = "json" then some .json else none

/-- The name of a format in settings. -/
def LogFormat.name : LogFormat → String
  | .text => "text"
  | .json => "json"

namespace Config

/-- Whether and where the server says that it is alive. -/
structure Health where
  enabled : Bool
  path : String
  deriving DecidableEq, Repr

/-- The settings of the server. -/
structure Server where
  listenAddress : Address
  health : Health
  deriving DecidableEq, Repr

/-- Where texts for error codes come from. -/
structure Messages where
  /-- The bundle to read, if any. -/
  path : Option String
  /-- Texts that win over all others. -/
  entries : List (String × String)
  deriving DecidableEq, Repr

/-- The settings of the log. -/
structure Logging where
  filter : String
  format : LogFormat
  deriving DecidableEq, Repr

/-- The health route is on, at `/health`. -/
def Health.standard : Health := ⟨true, "/health"⟩

/-- All version 4 addresses of the machine, port 8088. -/
def standardAddress : Address := ⟨.v4 [0, 0, 0, 0], 8088⟩

/-- The settings of the server where nothing is set. -/
def Server.standard : Server := ⟨standardAddress, .standard⟩

/-- No bundle and no texts. -/
def Messages.standard : Messages := ⟨none, []⟩

/-- What is at least worth an information is logged, as text. -/
def Logging.standard : Logging := ⟨"info", .text⟩

end Config

/-- The settings of the provider. -/
structure Config where
  server : Config.Server
  messages : Config.Messages
  /-- Which surface failures are shown on. -/
  dispatch : Classifier
  logging : Config.Logging
  deriving DecidableEq, Repr

namespace Config

/-- The settings where nothing is set. -/
def standard : Config := ⟨.standard, .standard, .standard, .standard⟩

/-- A rule that settings break. -/
inductive Fault
  /-- The list of surface rules is empty. -/
  | noRules
  /-- The start of a rule, at this place in the list, does not begin with a slash. -/
  | relativeRule (index : Nat) (start : String)
  /-- The health route is on and its path does not begin with a slash. -/
  | relativeHealth (path : String)
  deriving DecidableEq, Repr

/-- A fault in words. -/
def Fault.text : Fault → String
  | .noRules => "dispatch.rules must not be empty; omit the key to use the standard rules"
  | .relativeRule index start =>
    "dispatch.rules[" ++ toString index ++ "].prefix must start with '/': `" ++ start ++ "`"
  | .relativeHealth path => "server.health.path must start with '/': `" ++ path ++ "`"

/-- Whether a text begins with a slash. -/
def isAbsolute (text : String) : Bool := text.toList.head? = some '/'

/-- The first rule of the list that does not begin with a slash, counting from `index`. -/
def relativeRule? (index : Nat) : List SurfaceRule → Option Fault
  | [] => none
  | rule :: rules =>
    if isAbsolute rule.start then relativeRule? (index + 1) rules
    else some (.relativeRule index rule.start)

/-- The first fault of the surface rules. -/
def rulesFault? : List SurfaceRule → Option Fault
  | [] => some .noRules
  | rule :: rules => relativeRule? 0 (rule :: rules)

/-- The fault of the health route. -/
def healthFault? (health : Health) : Option Fault :=
  if health.enabled && !isAbsolute health.path then some (.relativeHealth health.path) else none

/-- The first fault of the settings. -/
def fault? (config : Config) : Option Fault :=
  (rulesFault? config.dispatch.rules).or (healthFault? config.server.health)

end Config

end IdentityProvider
