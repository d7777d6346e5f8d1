import IdentityProvider.Address
import IdentityProvider.Environment

/-
  The command line.

  Two options can be given, each once: `--config FILE` (or `-c FILE`) and `--listen ADDRESS`; a
  value may also be joined to its option.  An option that is not given takes its value from the
  environment, and otherwise from its default.  An option is settled, that is, its value is checked,
  when the next option or the end is reached; a word that is not understood is reported first.

  Words and variables are strings of bytes, and a value is checked in the same way wherever it
  comes from: a file may have any path that is not empty, and an address has to be text.
-/

namespace IdentityProvider

/-- What the command line asks for. -/
structure Arguments where
  /-- The path of the settings file: bytes that need not be text. -/
  config : List UInt8
  /-- The address to listen on in place of the one in the settings. -/
  listen : Option Address
  deriving DecidableEq, Repr

namespace CommandLine

/-- Why the command line is not carried out. -/
inductive Refusal
  | displayHelp
  | unknownArgument
  /-- A value is missing or empty. -/
  | invalidValue
  /-- A value is no address. -/
  | valueValidation
  | invalidUtf8
  /-- An option is given twice. -/
  | argumentConflict
  /-- A value is joined to an option that takes none. -/
  | tooManyValues
  deriving DecidableEq, Repr

/-- A refusal in words. -/
def Refusal.text : Refusal → String
  | .displayHelp => "usage: idp [--config FILE] [--listen ADDRESS]"
  | .unknownArgument => "an argument is not understood"
  | .invalidValue => "an option lacks its value"
  | .valueValidation => "the value of --listen is no address"
  | .invalidUtf8 => "the value of --listen is not UTF-8"
  | .argumentConflict => "an option is given twice"
  | .tooManyValues => "a value is given to an option that takes none"

/-- The byte that options begin with. -/
@[match_pattern] abbrev hyphen : UInt8 := 0x2D

/-- The byte that joins a value to an option. -/
@[match_pattern] abbrev equalsSign : UInt8 := 0x3D

/-- An option with a value. -/
inductive Setting
  | config
  | listen
  deriving DecidableEq, Repr

/-- The long name of an option. -/
def Setting.longName : Setting → List UInt8
  | .config => ['c', 'o', 'n', 'f', 'i', 'g'].map Char.toUInt8
  | .listen => ['l', 'i', 's', 't', 'e', 'n'].map Char.toUInt8

/-- The variable that stands in for an option. -/
def Setting.variableName : Setting → String
  | .config => "IDP_CONFIG"
  | .listen => "IDP_LISTEN"

/-- The long name of the request for help. -/
def helpName : List UInt8 := ['h', 'e', 'l', 'p'].map Char.toUInt8

/-- The settings file where none is named. -/
def standardConfig : List UInt8 := Text.Utf8.encode "idp.toml"

/-- A word of the command line. -/
inductive Word
  /-- Two hyphens: no option follows. -/
  | escape
  /-- A long name, and the value that is joined to it. -/
  | long (name : List UInt8) (value : Option (List UInt8))
  /-- Letters behind one hyphen. -/
  | short (letter : UInt8) (rest : List UInt8)
  | plain (bytes : List UInt8)
  deriving DecidableEq, Repr

/-- What kind of word the bytes make. -/
def Word.ofBytes : List UInt8 → Word
  | [hyphen, hyphen] => .escape
  | hyphen :: hyphen :: bytes =>
    .long (bytes.takeWhile (· ≠ equalsSign))
      (match bytes.dropWhile (· ≠ equalsSign) with
        | [] => none
        | _ :: value => some value)
  | hyphen :: letter :: rest => .short letter rest
  | bytes => .plain bytes

/-- The values that have been checked. -/
structure Settled where
  config : Option (List UInt8)
  listen : Option Address
  deriving DecidableEq, Repr

/-- Nothing yet. -/
def Settled.empty : Settled := ⟨none, none⟩

/-- Whether an option has its value. -/
def Settled.has (settled : Settled) : Setting → Bool
  | .config => settled.config.isSome
  | .listen => settled.listen.isSome

/-- The path that a value names: any bytes, but not none. -/
def fileOf (value : List UInt8) : Except Refusal (List UInt8) :=
  if value = [] then .error .invalidValue else .ok value

/-- The address that a value names. -/
def addressOf (value : List UInt8) : Except Refusal Address :=
  match Text.Utf8.text? value with
  | none => .error .invalidUtf8
  | some text => match Address.read? text with
    | some address => .ok address
    | none => .error .valueValidation

/-- The values with that of one option put in, once it is checked. -/
def Settled.put (settled : Settled) (setting : Setting) (value : List UInt8) :
    Except Refusal Settled :=
  match setting with
  | .config => (fileOf value).map fun file => { settled with config := some file }
  | .listen => (addressOf value).map fun address => { settled with listen := some address }

/-- Settles an option with a value from the command line. -/
def Settled.give (settled : Settled) (setting : Setting) (value : List UInt8) :
    Except Refusal Settled :=
  if settled.has setting then .error .argumentConflict else settled.put setting value

/-- An option that is not settled yet, and its value if that has been read. -/
abbrev Pending := Option (Setting × Option (List UInt8))

/-- Settles the option that is pending. -/
def Settled.settle (settled : Settled) : Pending → Except Refusal Settled
  | none => .ok settled
  | some (_, none) => .error .invalidValue
  | some (setting, some value) => settled.give setting value

/-- Reads an option: one with a joined value is settled at once. -/
def Settled.option (settled : Settled) (pending : Pending) (setting : Setting)
    (joined : Option (List UInt8)) : Except Refusal (Settled × Pending) :=
  match settled.settle pending, joined with
  | .error refusal, _ => .error refusal
  | .ok settled, none => .ok (settled, some (setting, none))
  | .ok settled, some value => (settled.give setting value).map (·, none)

/-- Answers a request for help, unless the option that is pending cannot be settled. -/
def Settled.help (settled : Settled) (pending : Pending) : Except Refusal (Settled × Pending) :=
  match settled.settle pending with
  | .error refusal => .error refusal
  | .ok _ => .error .displayHelp

/-- The value joined to a letter: a sign of equality in front does not belong to it. -/
def joinedValue : List UInt8 → Option (List UInt8)
  | [] => none
  | equalsSign :: value => some value
  | value => some value

/-- Reads a word that is not the escape. -/
def Settled.word (settled : Settled) (pending : Pending) : Word → Except Refusal (Settled × Pending)
  | .long name value =>
    if name = Setting.config.longName then settled.option pending .config value
    else if name = Setting.listen.longName then settled.option pending .listen value
    else if name = helpName then
      if value.isSome then .error .tooManyValues else settled.help pending
    else .error .unknownArgument
  | .short letter rest =>
    if letter = 'c'.toUInt8 then settled.option pending .config (joinedValue rest)
    else if letter = 'h'.toUInt8 then settled.help pending
    else .error .unknownArgument
  | .plain bytes =>
    match pending with
    | some (setting, none) => .ok (settled, some (setting, some bytes))
    | _ => .error .unknownArgument
  | .escape => .ok (settled, pending)

/-- Reads the words behind the program's name. -/
def readWords (settled : Settled) (pending : Pending) : List (List UInt8) → Except Refusal Settled
  | [] => settled.settle pending
  | bytes :: words =>
    match Word.ofBytes bytes with
    | .escape => if words = [] then settled.settle pending else .error .unknownArgument
    | word => match settled.word pending word with
      | .error refusal => .error refusal
      | .ok (settled, pending) => readWords settled pending words

/-- The settings file: from the command line, from the environment, or the standard one. -/
def configOf (settled : Settled) (env : Environment) : Except Refusal (List UInt8) :=
  match settled.config, env.value? Setting.config.variableName with
  | some config, _ => .ok config
  | none, some value => fileOf value
  | none, none => .ok standardConfig

/-- The address to listen on: from the command line or from the environment, if at all. -/
def listenOf (settled : Settled) (env : Environment) : Except Refusal (Option Address) :=
  match settled.listen, env.value? Setting.listen.variableName with
  | some address, _ => .ok (some address)
  | none, some value => (addressOf value).map some
  | none, none => .ok none

/-- What a command line asks for in an environment.  Its first word is the program's name. -/
def readBytes (env : Environment) (words : List (List UInt8)) : Except Refusal Arguments := do
  let settled ← readWords .empty none words.tail
  return ⟨← configOf settled env, ← listenOf settled env⟩

/-- What a command line that is text asks for in an environment. -/
def read (env : Environment) (words : List String) : Except Refusal Arguments :=
  readBytes env (words.map Text.Utf8.encode)

end CommandLine

end IdentityProvider
