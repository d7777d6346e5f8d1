import IdentityProvider.Text.Utf8

/-
  Reading files as text.

  The files that can be read are a value like any other: a list of paths, each with the bytes of a
  file or marked as a directory.  What is not in the list does not exist.  A path is a string of
  bytes, which need not be text.
-/

namespace IdentityProvider

/-- Why a file cannot be read as text. -/
inductive ReadFault
  | notFound
  | isDirectory
  | notDirectory
  | nameTooLong
  /-- The path holds the byte that ends a path. -/
  | nulInPath
  /-- The bytes of the file are not UTF-8. -/
  | notText
  deriving DecidableEq, Repr

/-- A fault in words. -/
def ReadFault.text : ReadFault → String
  | .notFound => "No such file or directory (os error 2)"
  | .isDirectory => "Is a directory (os error 21)"
  | .notDirectory => "Not a directory (os error 20)"
  | .nameTooLong => "File name too long (os error 36)"
  | .nulInPath => "file name contained an unexpected NUL byte"
  | .notText => "stream did not contain valid UTF-8"

/-- What a path leads to. -/
inductive FileEntry
  | file (bytes : List UInt8)
  | directory
  deriving DecidableEq, Repr

/-- The files that can be read. -/
structure Files where
  entries : List (List UInt8 × FileEntry)
  deriving DecidableEq, Repr

namespace Files

/-- The longest path and the longest name in it, in bytes. -/
def pathLimit : Nat := 4095

/-- The longest name in a path, in bytes. -/
def nameLimit : Nat := 255

/-- The byte between the names of a path. -/
def slash : UInt8 := 0x2F

/-- A path without the slashes at its end, which may follow the path of a directory. -/
def trimmed (path : List UInt8) : List UInt8 :=
  match (path.reverse.dropWhile (· = slash)).reverse with
  | [] => if path = [] then path else [slash]
  | kept => kept

/-- The bytes of the file at a path. -/
def bytes (files : Files) (path : List UInt8) : Except ReadFault (List UInt8) :=
  if path.contains 0 then .error .nulInPath
  else if pathLimit < path.length then .error .nameTooLong
  else if files.entries.any fun e => e.2 ≠ .directory && (e.1 ++ [slash]).isPrefixOf path then
    .error .notDirectory
  else if (path.splitOn slash).any fun name => nameLimit < name.length then .error .nameTooLong
  else match files.entries.lookup (trimmed path) with
    | some (.file bytes) => .ok bytes
    | some .directory => .error .isDirectory
    | none => .error .notFound

/-- The text of the file at a path. -/
def textAt (files : Files) (path : List UInt8) : Except ReadFault String :=
  match files.bytes path with
  | .error fault => .error fault
  | .ok bytes => match Text.Utf8.text? bytes with
    | some text => .ok text
    | none => .error .notText

/-- The text of the file at a path that is text itself, as the paths in settings are. -/
def text (files : Files) (path : String) : Except ReadFault String :=
  files.textAt (Text.Utf8.encode path)

end Files

end IdentityProvider
