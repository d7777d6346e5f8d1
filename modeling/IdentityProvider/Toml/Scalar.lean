import IdentityProvider.Toml.Moment
import IdentityProvider.Toml.Quoted

/-
  The values of TOML, and those among them that stand without quotes: booleans, numbers, dates and
  times.

  A table keeps its entries in the order in which they were written and holds no key twice.
  Numbers are kept as they are written, and a date or time in its canonical form.
-/

namespace IdentityProvider

/-- A TOML value. -/
inductive Toml
  | string (text : String)
  | boolean (value : Bool)
  | number (lexeme : String)
  | moment (text : String)
  | array (items : List Toml)
  | table (entries : List (String × Toml))

/-- The entries of a TOML table. -/
abbrev Toml.Entries := List (String × Toml)

namespace Toml

open Text (cutAt)

/-- One digit or more, with single low lines between digits. -/
def isDigitRun (digit : Char → Bool) : List Char → Bool
  | [] => false
  | [c] => digit c
  | c :: '_' :: cs => digit c && isDigitRun digit cs
  | c :: cs => digit c && isDigitRun digit cs

/-- A decimal number without a sign: no zero in front of other digits. -/
def isDecimal (cs : List Char) : Bool :=
  isDigitRun Char.isDigit cs && (cs.head? ≠ some '0' || cs = ['0'])

/-- A number without its sign. -/
def unsigned : List Char → List Char
  | '+' :: cs => cs
  | '-' :: cs => cs
  | cs => cs

/-- A number with a radix: it takes no sign. -/
def isRadixed : List Char → Bool
  | '0' :: 'x' :: cs => isDigitRun (Text.Digits.isDigitIn 16) cs
  | '0' :: 'o' :: cs => isDigitRun (Text.Digits.isDigitIn 8) cs
  | '0' :: 'b' :: cs => isDigitRun (Text.Digits.isDigitIn 2) cs
  | _ => false

/-- A number without a sign that has a fraction or an exponent. -/
def isFloat (cs : List Char) : Bool :=
  let (mantissa, exponent) := cutAt 'e' (cs.map fun c => if c = 'E' then 'e' else c)
  let (whole, fraction) := cutAt '.' mantissa
  isDecimal whole && (fraction.isSome || exponent.isSome) &&
    fraction.all (isDigitRun Char.isDigit) &&
    exponent.all fun e => isDigitRun Char.isDigit (unsigned e)

/-- A number. -/
def isNumber (cs : List Char) : Bool :=
  isRadixed cs || isDecimal (unsigned cs) || isFloat (unsigned cs) ||
    unsigned cs = ['i', 'n', 'f'] || unsigned cs = ['n', 'a', 'n']

/-- The value that a text without quotes writes. -/
def bare? (cs : List Char) : Option Toml :=
  if cs = ['t', 'r', 'u', 'e'] then some (.boolean true)
  else if cs = ['f', 'a', 'l', 's', 'e'] then some (.boolean false)
  else if isNumber cs then some (.number (String.ofList cs))
  else (Moment.canonical? cs).map fun text => .moment (String.ofList text)

/-- A character that can be part of a value without quotes. -/
def isBareChar (c : Char) : Bool :=
  !(isSpace c || c = '\r' || c = '\n' || c = ',' || c = '[' || c = ']' || c = '\x7b' ||
    c = '\x7d' || c = '=' || c = '#' || c = '"' || c = '\'')

/-- The value without quotes at the start of a text, and what follows it.  One blank may stand
between a date and its time. -/
def bareValue? (cs : List Char) : Option (Toml × List Char) :=
  let word := cs.takeWhile isBareChar
  match cs.dropWhile isBareChar with
  | ' ' :: d :: rest =>
    if Moment.isDate word ∧ d.isDigit = true then
      (bare? (word ++ ' ' :: (d :: rest).takeWhile isBareChar)).map
        fun value => (value, (d :: rest).dropWhile isBareChar)
    else (bare? word).map fun value => (value, ' ' :: d :: rest)
  | rest => (bare? word).map fun value => (value, rest)

end Toml

end IdentityProvider
