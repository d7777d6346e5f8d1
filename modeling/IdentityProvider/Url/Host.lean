import IdentityProvider.Address
import IdentityProvider.Text.Hidden
import IdentityProvider.Text.Percent
import IdentityProvider.Url.Punycode

/-
  The hosts of URLs.

  A host is a domain, an IP address, or for schemes without rules of their own any text without
  certain characters.  A domain is compared in its ASCII form; one whose last label is a number
  must be an IP address.
-/

namespace IdentityProvider.Url.Host

open Text

/-- The characters that no domain may hold. -/
def deniedChars : List Char :=
  ['%', '#', '/', ':', '<', '>', '?', '@', '[', '\\', ']', '^', '|', '\x7f']

/-- The characters that no host without rules may hold. -/
def opaqueDeniedChars : List Char :=
  ['\x00', '\t', '\n', '\r', ' ', '#', '/', ':', '<', '>', '?', '@', '[', '\\', ']', '^', '|']

/-- The code points that a domain does without: they join, break or vary the text around them. -/
def ignoredRanges : List (Nat × Nat) :=
  [(0xAD, 0xAD), (0x34F, 0x34F), (0x180B, 0x180D), (0x180F, 0x180F), (0x200B, 0x200B),
   (0x2060, 0x2060), (0x2064, 0x2064), (0xFE00, 0xFE0F), (0xFEFF, 0xFEFF), (0xE0100, 0xE01EF)]

/-- The code points beyond ASCII that no domain may hold. -/
def deniedRanges : List (Nat × Nat) :=
  [(0x80, 0xA0), (0x1680, 0x1680), (0x180E, 0x180E), (0x2000, 0x200A), (0x200C, 0x200F),
   (0x2024, 0x2026), (0x2028, 0x202F), (0x205F, 0x205F), (0x2061, 0x2063), (0x2065, 0x206F),
   (0x2100, 0x2101), (0x2105, 0x2106), (0x2474, 0x249B), (0x2FF0, 0x2FFF), (0x3000, 0x3000),
   (0xE000, 0xF8FF), (0xFDD0, 0xFDEF), (0xFFF9, 0xFFFF), (0x1FFFE, 0x1FFFF),
   (0xE0000, 0xE00FF), (0xE01F0, 0x10FFFF)]

/-- The points that separate labels: the full stop of other scripts is one as well. -/
def isStop (c : Char) : Bool := c = '.' || c = '\u3002' || c = '\uFF0E' || c = '\uFF61'

/-- The characters that stand for a character in the ASCII form of a domain. -/
def mapped? (c : Char) : Option (List Char) :=
  if isStop c then some ['.']
  else if c.toNat < 0x80 then
    if c.toNat ≤ 0x20 ∨ c ∈ deniedChars then none else some [c.toLower]
  else if inRanges ignoredRanges c.toNat then some []
  else if inRanges deniedRanges c.toNat then none
  else if 0xFF01 ≤ c.toNat ∧ c.toNat ≤ 0xFF5E then
    let narrow := Char.ofNat (c.toNat - 0xFEE0)
    if narrow ∈ deniedChars then none else some [narrow.toLower]
  else some [c]

/-- What an encoded label begins with. -/
def encodedMark : List Char := ['x', 'n', '-', '-']

/-- Whether a label stands for something. -/
def isLabel (label : List Char) : Bool :=
  match after? encodedMark label with
  | some encoded =>
    match Punycode.decode? encoded with
    | some text =>
      text.any (fun c => 0x80 ≤ c.toNat) && text.all (fun c => mapped? c = some [c]) &&
        !(text.head?.any isHidden)
    | none => false
  | none => !(label.head?.any isHidden)

/-- The mapped form of a domain, if it is one. -/
def domain? (host : List Char) : Option (List Char) := do
  let characters ← Utf8.characters?
    (Utf8.decode (Percent.decode (Utf8.encode (String.ofList host))))
  let domain := (← characters.mapM mapped?).flatten
  guard ((splitOn '.' domain).all isLabel)
  return domain

/-- The number that a part of a version 4 address writes in decimal, octal or hexadecimal digits. -/
def part? : List Char → Option Nat
  | [] => none
  | '0' :: 'x' :: digits => Digits.number? 16 digits
  | '0' :: d :: digits => Digits.number? 8 (d :: digits)
  | digits => Digits.number? 10 digits

/-- The parts of a domain, without an empty last one. -/
def parts (domain : List Char) : List (List Char) :=
  let all := splitOn '.' domain
  if 1 < all.length ∧ all.getLast? = some [] then all.dropLast else all

/-- Whether the last part of a domain is a number. -/
def endsInNumber (domain : List Char) : Bool :=
  match (parts domain).getLast? with
  | some [] => false
  | some last => last.all Char.isDigit || (part? last).isSome
  | none => false

/-- Whether a domain is a version 4 address. -/
def isAddress (domain : List Char) : Bool :=
  match (parts domain).mapM part? with
  | none => false
  | some numbers =>
    numbers.length ≤ 4 && numbers.dropLast.all (· ≤ 255) &&
      numbers.getLast?.any fun last => last < Nat.pow 256 (5 - numbers.length)

/-- Whether a text is a version 6 address with the bracket behind it. -/
def isBracketed (text : List Char) : Bool :=
  match Address.allGroups? text with
  | some (_, [']']) => true
  | _ => false

/-- Whether a text is a host of a scheme with rules. -/
def isRegular : List Char → Bool
  | '[' :: text => isBracketed text
  | text =>
    match domain? text with
    | none => false
    | some [] => false
    | some domain => if endsInNumber domain then isAddress domain else true

/-- Whether a text is a host of a scheme without rules; it may be empty. -/
def isFree : List Char → Bool
  | '[' :: text => isBracketed text
  | text => text.all fun c => c ∉ opaqueDeniedChars

end IdentityProvider.Url.Host
