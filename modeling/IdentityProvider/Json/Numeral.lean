import IdentityProvider.Text.Digits

/-
  What a JSON number means to a reader.

  A number without point and exponent is an integer as long as 64 bits can hold it; all others,
  and minus zero, are floating.  A floating number beyond the largest double is out of range.
-/

namespace IdentityProvider.Json

/-- What a number means to a reader. -/
inductive Numeral
  | integer (n : Int)
  | floating
  /-- Beyond the largest double. -/
  | outOfRange
  deriving DecidableEq, Repr

namespace Numeral

/-- The value of a decimal digit. -/
def digitValue (c : Char) : Nat := c.toNat - 0x30

/-- The greatest number of 64 bits. -/
def wordLimit : Nat := Nat.pow 2 64 - 1

/-- The digits read so far as a number of 64 bits, how many more digits were left out because it
was full, and how many digits were taken in. -/
structure Significand where
  value : Nat
  dropped : Nat
  taken : Nat
  deriving DecidableEq, Repr

/-- The significand with a further digit. -/
def Significand.push (s : Significand) (c : Char) : Significand :=
  if s.dropped = 0 ∧ s.value * 10 + digitValue c ≤ wordLimit then
    { s with value := s.value * 10 + digitValue c, taken := s.taken + 1 }
  else { s with dropped := s.dropped + 1 }

/-- The significand of a run of digits, behind others. -/
def Significand.pushAll (s : Significand) (digits : List Char) : Significand :=
  digits.foldl Significand.push s

/-- The number at which a double overflows, after rounding. -/
def doubleLimit : Nat := Nat.pow 2 1024 - Nat.pow 2 970

/-- Whether `value * 10 ^ exponent` is beyond the largest double. -/
def overflows (value : Nat) (exponent : Int) : Bool :=
  value ≠ 0 && 0 ≤ exponent &&
    (308 < exponent || doubleLimit ≤ value * Nat.pow 10 exponent.toNat)

/-- The number of an exponent's digits, cut off where it has more than ten of them. -/
def exponentNumber (digits : List Char) : Nat :=
  let significant := digits.dropWhile (· = '0')
  if (significant.drop 10).isEmpty then significant.foldl (fun n c => 10 * n + digitValue c) 0
  else 10000000000

/-- The exponent that a text writes, sign and digits. -/
def exponentValue : List Char → Int
  | '-' :: digits => -(exponentNumber digits : Int)
  | '+' :: digits => exponentNumber digits
  | digits => exponentNumber digits

/-- Whether a character starts an exponent. -/
def isExponentMark (c : Char) : Bool := c = 'e' || c = 'E'

/-- What a number without its sign means where it is not an integer. -/
def ofReal (digits : List Char) : Numeral :=
  let mantissa := digits.takeWhile fun c => !isExponentMark c
  let exponent := exponentValue ((digits.dropWhile fun c => !isExponentMark c).drop 1)
  let whole := Significand.pushAll ⟨0, 0, 0⟩ (mantissa.takeWhile (· ≠ '.'))
  let all := Significand.pushAll { whole with taken := 0 } ((mantissa.dropWhile (· ≠ '.')).drop 1)
  if overflows all.value (whole.dropped - all.taken + exponent) then .outOfRange else .floating

/-- What a run of digits means. -/
def ofWhole (isNegative : Bool) (digits : List Char) : Numeral :=
  let s := Significand.pushAll ⟨0, 0, 0⟩ digits
  if s.dropped ≠ 0 then ofReal digits
  else if isNegative then
    if s.value = 0 ∨ Nat.pow 2 63 < s.value then .floating else .integer (-(s.value : Int))
  else .integer s.value

/-- What a well-formed number means. -/
def ofLexeme (lexeme : List Char) : Numeral :=
  let isNegative := lexeme.head? = some '-'
  let digits := if isNegative then lexeme.drop 1 else lexeme
  if digits.all Char.isDigit then ofWhole isNegative digits else ofReal digits

end Numeral

end IdentityProvider.Json
