import IdentityProvider.Config.Decoding
import IdentityProvider.Files
import IdentityProvider.Placeholder.Expansion
import IdentityProvider.Toml.Document

/-
  Loading settings from a text or a file.

  The placeholders of the text are expanded, the result is read as TOML and decoded, and the
  settings are checked, in this order; the first step that fails is the error.
-/

namespace IdentityProvider

/-- Why settings cannot be loaded. -/
inductive ConfigError
  | unreadable (path : List UInt8) (fault : ReadFault)
  | unexpanded (error : ExpansionError)
  /-- The expanded text is not a TOML document with nothing but settings. -/
  | malformed (expanded : String)
  | invalid (fault : Config.Fault)
  deriving DecidableEq, Repr

namespace ConfigError

/-- A configuration error in words. -/
def text : ConfigError → String
  | .unreadable path _ => "failed to read config file " ++ Text.Utf8.lenient path
  | .unexpanded _ => "config variable expansion failed"
  | .malformed _ => "failed to parse config"
  | .invalid fault => fault.text

/-- What lies behind a configuration error, if anything does: where the text cannot be read, the
remark of the reader of settings. -/
def cause? (remark : Toml.Remark) : ConfigError → Option String
  | .unreadable _ fault => some fault.text
  | .unexpanded error => some error.text
  | .malformed expanded => some (remark expanded)
  | .invalid _ => none

end ConfigError

namespace Config

/-- The settings that an expanded text writes, checked or not. -/
def parse? (expanded : String) : Option Config := (Toml.read? expanded).bind ofEntries?

/-- The settings that a text writes in an environment. -/
def ofText (env : Environment) (text : String) : Except ConfigError Config :=
  match env.expand text with
  | .error error => .error (.unexpanded error)
  | .ok expanded => match parse? expanded with
    | none => .error (.malformed expanded)
    | some config => match config.fault? with
      | some fault => .error (.invalid fault)
      | none => .ok config

/-- The settings in a file. -/
def load (files : Files) (env : Environment) (path : List UInt8) : Except ConfigError Config :=
  match files.textAt path with
  | .error fault => .error (.unreadable path fault)
  | .ok text => ofText env text

end Config

end IdentityProvider
