import IdentityProvider.Config
import IdentityProvider.Toml.Scalar

/-
  Settings from the tables of a TOML document.

  Every section may be left out, and so may every key with a standard value.  A key that is not a
  setting is refused.  A section can also be written as an array, with its values in the order of
  its keys.
-/

namespace IdentityProvider

namespace Toml

/-- The text of a string. -/
def text? : Toml → Option String
  | .string text => some text
  | _ => none

/-- The value of a boolean. -/
def boolean? : Toml → Option Bool
  | .boolean value => some value
  | _ => none

/-- The items of an array. -/
def items? : Toml → Option (List Toml)
  | .array items => some items
  | _ => none

/-- The key under which a date or time shows its text where a table is expected. -/
def momentKey : String := "$__toml_private_datetime"

/-- The entries of a table; a date or time counts as a table with one entry. -/
def entries? : Toml → Option Entries
  | .table entries => some entries
  | .moment text => some [(momentKey, .string text)]
  | _ => none

/-- A table of texts. -/
def texts? (value : Toml) : Option (List (String × String)) := do
  (← value.entries?).mapM fun (key, value) => value.text?.map (key, ·)

/-- The fields of a section with these keys: a table without other keys, or an array by place. -/
def fields? (keys : List String) : Toml → Option Entries
  | .array items => some (keys.zip items)
  | value => do
    let entries ← value.entries?
    guard (entries.all fun e => keys.contains e.1)
    return entries

/-- The name of a choice: a string, or a table with the name as its one key and nothing in it. -/
def choice? : Toml → Option String
  | .string name => some name
  | .table [(name, .table [])] => some name
  | .table [(name, .array [])] => some name
  | _ => none

/-- The value of a field, or its standard where the field is left out. -/
def Entries.field? (fields : Entries) (key : String) (decode : Toml → Option α) (standard : α) :
    Option α :=
  match fields.lookup key with
  | some value => decode value
  | none => some standard

/-- The value of a field that may not be left out. -/
def Entries.required? (fields : Entries) (key : String) (decode : Toml → Option α) : Option α :=
  (fields.lookup key).bind decode

end Toml

namespace Config

open Toml

/-- The keys of the health section. -/
def healthKeys : List String := ["enabled", "path"]

/-- The keys of the server section. -/
def serverKeys : List String := ["listen_address", "health"]

/-- The keys of the messages section. -/
def messagesKeys : List String := ["path", "entries"]

/-- The keys of a surface rule. -/
def ruleKeys : List String := ["prefix", "surface"]

/-- The keys of the dispatch section. -/
def dispatchKeys : List String := ["rules", "default"]

/-- The keys of the logging section. -/
def loggingKeys : List String := ["filter", "format"]

/-- The sections. -/
def sectionKeys : List String := ["server", "messages", "dispatch", "logging"]

/-- The surface that a value names. -/
def surface? (value : Toml) : Option Surface := value.choice?.bind Surface.ofName?

/-- The log format that a value names. -/
def format? (value : Toml) : Option LogFormat := value.choice?.bind LogFormat.ofName?

/-- The address that a value writes. -/
def address? (value : Toml) : Option Address := value.text?.bind Address.read?

/-- The settings of the health route. -/
def health? (value : Toml) : Option Health := do
  let fields ← value.fields? healthKeys
  return ⟨← fields.field? "enabled" boolean? Health.standard.enabled,
    ← fields.field? "path" text? Health.standard.path⟩

/-- The settings of the server. -/
def server? (value : Toml) : Option Server := do
  let fields ← value.fields? serverKeys
  return ⟨← fields.field? "listen_address" address? Server.standard.listenAddress,
    ← fields.field? "health" health? Server.standard.health⟩

/-- The sources of messages. -/
def messages? (value : Toml) : Option Messages := do
  let fields ← value.fields? messagesKeys
  return ⟨← fields.field? "path" (fun v => v.text?.map some) Messages.standard.path,
    ← fields.field? "entries" texts? Messages.standard.entries⟩

/-- A surface rule. -/
def rule? (value : Toml) : Option SurfaceRule := do
  let fields ← value.fields? ruleKeys
  return ⟨← fields.required? "prefix" text?, ← fields.required? "surface" surface?⟩

/-- A list of surface rules. -/
def rules? (value : Toml) : Option (List SurfaceRule) := do
  (← value.items?).mapM rule?

/-- The surface rules and the surface of all other paths. -/
def dispatch? (value : Toml) : Option Classifier := do
  let fields ← value.fields? dispatchKeys
  return ⟨← fields.field? "rules" rules? Classifier.standard.rules,
    ← fields.field? "default" surface? Classifier.standard.fallback⟩

/-- The settings of the log. -/
def logging? (value : Toml) : Option Logging := do
  let fields ← value.fields? loggingKeys
  return ⟨← fields.field? "filter" text? Logging.standard.filter,
    ← fields.field? "format" format? Logging.standard.format⟩

/-- The settings that the entries of a document make. -/
def ofEntries? (entries : Entries) : Option Config := do
  let fields ← (Toml.table entries).fields? sectionKeys
  return ⟨← fields.field? "server" server? standard.server,
    ← fields.field? "messages" messages? standard.messages,
    ← fields.field? "dispatch" dispatch? standard.dispatch,
    ← fields.field? "logging" logging? standard.logging⟩

end Config

end IdentityProvider
