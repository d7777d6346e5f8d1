import IdentityProvider.Text.Digits

/-
  JSON values and their compact written form.

  An object keeps its members in order and may repeat a name, as the format allows.  Strings are
  lists of characters, numbers are kept as they are written.  `render` writes no blank; in a
  string it escapes the quote, the backslash and the controls below U+0020, and nothing else.
-/

namespace IdentityProvider

/-- A JSON value. -/
inductive Json
  | null
  | boolean (value : Bool)
  | number (lexeme : List Char)
  | string (text : List Char)
  | array (items : List Json)
  | object (members : List (List Char × Json))

namespace Json

open Text.Digits (digit)

/-- A character as it stands inside a string. -/
def escape (c : Char) : List Char :=
  if c = '"' then ['\\', '"']
  else if c = '\\' then ['\\', '\\']
  else if c = '\x08' then ['\\', 'b']
  else if c = '\t' then ['\\', 't']
  else if c = '\n' then ['\\', 'n']
  else if c = '\x0c' then ['\\', 'f']
  else if c = '\r' then ['\\', 'r']
  else if c.toNat < 0x20 then
    ['\\', 'u', '0', '0', digit (c.toNat / 16), digit (c.toNat % 16)]
  else [c]

/-- A string with its quotes. -/
def quote (text : List Char) : List Char := '"' :: (text.flatMap escape ++ ['"'])

mutual

/-- The compact written form of a value. -/
def write : Json → List Char
  | .null => ['n', 'u', 'l', 'l']
  | .boolean true => ['t', 'r', 'u', 'e']
  | .boolean false => ['f', 'a', 'l', 's', 'e']
  | .number lexeme => lexeme
  | .string text => quote text
  | .array [] => ['[', ']']
  | .array (item :: items) => '[' :: (write item ++ writeItems items)
  | .object [] => ['\x7b', '\x7d']
  | .object ((name, value) :: members) =>
    '\x7b' :: (quote name ++ ':' :: (write value ++ writeMembers members))

/-- The items after the first one, and the closing bracket. -/
def writeItems : List Json → List Char
  | [] => [']']
  | item :: items => ',' :: (write item ++ writeItems items)

/-- The members after the first one, and the closing brace. -/
def writeMembers : List (List Char × Json) → List Char
  | [] => ['\x7d']
  | (name, value) :: members => ',' :: (quote name ++ ':' :: (write value ++ writeMembers members))

end

/-- The compact written form as a text. -/
def render (value : Json) : String := String.ofList value.write

/-- A text as a JSON string. -/
def ofText (text : String) : Json := .string text.toList

end Json

end IdentityProvider
