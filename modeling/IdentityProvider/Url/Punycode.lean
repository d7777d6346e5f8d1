/-
  Punycode: letters of all scripts in the letters and digits of ASCII.
-/

namespace IdentityProvider.Url.Punycode

/-- The number of a digit: the letters first, in either case. -/
def digit? (c : Char) : Option Nat :=
  if 'a' ≤ c ∧ c ≤ 'z' then some (c.toNat - 'a'.toNat)
  else if 'A' ≤ c ∧ c ≤ 'Z' then some (c.toNat - 'A'.toNat)
  else if '0' ≤ c ∧ c ≤ '9' then some (c.toNat - '0'.toNat + 26)
  else none

/-- The threshold of a digit's place. -/
def threshold (place bias : Nat) : Nat := min 26 (max 1 (place - bias))

/-- The bias after a number has been read. -/
def adapt (delta count : Nat) (isFirst : Bool) : Nat :=
  let delta := if isFirst then delta / 700 else delta / 2
  reduce 16 (delta + delta / count) 0
where
  /-- Divides until what is left is small, and counts the divisions. -/
  reduce : Nat → Nat → Nat → Nat
    | 0, delta, k => k + 36 * delta / (delta + 38)
    | fuel + 1, delta, k =>
      if 455 < delta then reduce fuel (delta / 35) (k + 36) else k + 36 * delta / (delta + 38)

/-- A number of variable length at the start of a text, and what follows it. -/
def number? (bias : Nat) : (place weight sum : Nat) → List Char → Option (Nat × List Char)
  | _, _, _, [] => none
  | place, weight, sum, c :: cs => do
    let d ← digit? c
    let t := threshold place bias
    if d < t then return (sum + d * weight, cs)
    else number? bias (place + 36) (weight * (36 - t)) (sum + d * weight) cs

/-- The text with the characters that the numbers put into it. -/
def insertFrom : (fuel code position bias : Nat) → List Char → List Char → Option (List Char)
  | _, _, _, _, text, [] => some text
  | 0, _, _, _, _, _ => none
  | fuel + 1, code, position, bias, text, cs => do
    let (delta, rest) ← number? bias 36 1 0 cs
    let count := text.length + 1
    let code' := code + (position + delta) / count
    let position' := (position + delta) % count
    if code' < 0xD800 ∨ (0xDFFF < code' ∧ code' < 0x110000) then
      insertFrom fuel code' (position' + 1) (adapt delta count (code = 128 ∧ position = 0))
        (text.take position' ++ Char.ofNat code' :: text.drop position') rest
    else none

/-- The text that an encoded text stands for. -/
def decode? (encoded : List Char) : Option (List Char) :=
  let basic := (encoded.reverse.dropWhile (· ≠ '-')).drop 1 |>.reverse
  let numbers := (encoded.reverse.takeWhile (· ≠ '-')).reverse
  insertFrom encoded.length 128 0 72 basic numbers

end IdentityProvider.Url.Punycode
