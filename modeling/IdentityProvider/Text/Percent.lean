import IdentityProvider.Text.Blank
import IdentityProvider.Text.Digits
import IdentityProvider.Text.Utf8

/-
  Percent-encoded bytes, and the pairs of a form in which they are sent.

  A percent sign with two hexadecimal digits stands for a byte; one without them stands for itself.
-/

namespace IdentityProvider.Text.Percent

/-- The byte of a percent sign, of a plus sign, and so on. -/
def byteOf (c : Char) : UInt8 := UInt8.ofNat c.toNat

/-- The number of a hexadecimal digit that is a byte. -/
def hexValue? (b : UInt8) : Option Nat := Digits.value? (Char.ofNat b.toNat)

/-- The byte that two hexadecimal digits write. -/
def hexByte? (high low : UInt8) : Option UInt8 := do
  return UInt8.ofNat (16 * (← hexValue? high) + (← hexValue? low))

/-- The bytes that percent-encoded bytes stand for. -/
def decode : List UInt8 → List UInt8
  | [] => []
  | [b] => [b]
  | [b, c] => [b, c]
  | b :: high :: low :: rest =>
    if b = byteOf '%' then
      match hexByte? high low with
      | some byte => byte :: decode rest
      | none => b :: decode (high :: low :: rest)
    else b :: decode (high :: low :: rest)

/-- The text of a name or value in a form: a plus sign is a space, and what is not UTF-8 is
replaced. -/
def formText (encoded : List Char) : String :=
  Utf8.lenient (decode (Utf8.encode (String.ofList
    (encoded.map fun c => if c = '+' then ' ' else c))))

/-- A name and its value; the first sign of equality separates them. -/
def formPair (piece : List Char) : String × String :=
  match cutAt '=' piece with
  | (name, some value) => (formText name, formText value)
  | (name, none) => (formText name, "")

/-- The pairs of a form, in order.  Nothing between two ampersands is no pair. -/
def formPairs (form : String) : List (String × String) :=
  ((splitOn '&' form.toList).filter (· ≠ [])).map formPair

end IdentityProvider.Text.Percent
