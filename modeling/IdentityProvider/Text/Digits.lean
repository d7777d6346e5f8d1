/-
  Digits and the numbers that they write.

  `Digits.value?` knows the digits up to f, in either case; `Digits.number?` reads a run of digits
  of a radix up to 16, and `value?_digit` says that the digit of a number reads back as that number.
  `Decimal.read` reads a decimal number of limited size from left to right and reports the first
  thing that is wrong: a character that is no digit, or a number that no longer fits.
-/

namespace IdentityProvider.Text

namespace Digits

/-- The digit of a number below 16, in lower case. -/
def digit (n : Nat) : Char :=
  if n < 10 then Char.ofNat (0x30 + n) else Char.ofNat (0x61 + (n - 10))

/-- The number that a digit stands for. -/
def value? (c : Char) : Option Nat :=
  if 0x30 ≤ c.toNat ∧ c.toNat ≤ 0x39 then some (c.toNat - 0x30)
  else if 0x61 ≤ c.toNat ∧ c.toNat ≤ 0x66 then some (c.toNat - 0x61 + 10)
  else if 0x41 ≤ c.toNat ∧ c.toNat ≤ 0x46 then some (c.toNat - 0x41 + 10)
  else none

/-- The number that a digit of this radix stands for. -/
def valueIn? (radix : Nat) (c : Char) : Option Nat := (value? c).filter (· < radix)

/-- A digit of this radix. -/
def isDigitIn (radix : Nat) (c : Char) : Bool := (valueIn? radix c).isSome

/-- The number that these characters write, if all of them are digits; no character writes 0. -/
def number? (radix : Nat) (cs : List Char) : Option Nat :=
  cs.foldlM (fun n c => (valueIn? radix c).map (n * radix + ·)) 0

/-- The digits of a number, in lower case and without leading zeros. -/
def write (radix n : Nat) : List Char := Nat.toDigits radix n

theorem value?_digit : ∀ n < 16, value? (digit n) = some n := by decide

end Digits

namespace Decimal

/-- What is wrong with a number. -/
inductive Fault
  | empty
  | invalidDigit
  | tooLarge
  | tooSmall
  deriving DecidableEq, Repr

/-- A fault in words. -/
def Fault.text : Fault → String
  | .empty => "cannot parse integer from empty string"
  | .invalidDigit => "invalid digit found in string"
  | .tooLarge => "number too large to fit in target type"
  | .tooSmall => "number too small to fit in target type"

/-- The number that digits write behind others, away from zero and at most as far as `limit`. -/
def magnitude (overflow : Fault) (limit : Nat) (n : Nat) : List Char → Except Fault Nat
  | [] => .ok n
  | c :: cs =>
    if c.isDigit = false then .error .invalidDigit
    else if limit < 10 * n + (c.toNat - 0x30) then .error overflow
    else magnitude overflow limit (10 * n + (c.toNat - 0x30)) cs

/-- The number that a text writes, between `least` and `greatest`.  A plus sign may stand in front,
and a minus sign where there are negative numbers. -/
def read (least greatest : Int) (text : String) : Except Fault Int :=
  match text.toList with
  | [] => .error .empty
  | ['+'] => .error .invalidDigit
  | ['-'] => .error .invalidDigit
  | '+' :: cs => (magnitude .tooLarge greatest.toNat 0 cs).map Int.ofNat
  | '-' :: cs =>
    if least < 0 then (magnitude .tooSmall (-least).toNat 0 cs).map fun n => -(n : Int)
    else .error .invalidDigit
  | cs => (magnitude .tooLarge greatest.toNat 0 cs).map Int.ofNat

end Decimal

end IdentityProvider.Text
