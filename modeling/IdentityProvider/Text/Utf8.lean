/-
  Bytes as text.

  `decode` reads bytes as UTF-8 and marks each longest ill-formed piece with `none`, so that one
  reading serves three purposes: the strict one (`text?`, every piece is a character), the lenient
  one (`lenient`, an ill-formed piece becomes U+FFFD) and readers that only mind some of the text.
-/

namespace IdentityProvider.Text.Utf8

/-- A continuation byte. -/
def isTail (b : UInt8) : Bool := 0x80 ≤ b.toNat && b.toNat ≤ 0xBF

/-- The bits that a continuation byte carries. -/
def tailBits (b : UInt8) : Nat := b.toNat % 64

/-- The least and the greatest byte that may follow a first byte; outside of them the sequence
would be overlong, a surrogate or above U+10FFFF. -/
def secondRange (first : Nat) : Nat × Nat :=
  if first = 0xE0 then (0xA0, 0xBF)
  else if first = 0xED then (0x80, 0x9F)
  else if first = 0xF0 then (0x90, 0xBF)
  else if first = 0xF4 then (0x80, 0x8F)
  else (0x80, 0xBF)

/-- The number of bytes of a character with this first byte; 0 where no character starts. -/
def width (first : Nat) : Nat :=
  if first < 0x80 then 1
  else if first < 0xC2 then 0
  else if first < 0xE0 then 2
  else if first < 0xF0 then 3
  else if first < 0xF5 then 4
  else 0

/-- The first piece of a text: a character or an ill-formed piece, and how many bytes it takes
beyond its first one. -/
def piece (b : UInt8) (rest : List UInt8) : Option Char × Nat :=
  let first := b.toNat
  let second := secondRange first
  let fits (c : UInt8) : Bool := second.1 ≤ c.toNat && c.toNat ≤ second.2
  match width first, rest with
  | 1, _ => (some (Char.ofNat first), 0)
  | 2, c :: _ => if fits c then (some (Char.ofNat (first % 32 * 64 + tailBits c)), 1) else (none, 0)
  | 3, c :: d :: _ =>
    if fits c then
      if isTail d then
        (some (Char.ofNat ((first % 16 * 64 + tailBits c) * 64 + tailBits d)), 2)
      else (none, 1)
    else (none, 0)
  | 3, [c] => if fits c then (none, 1) else (none, 0)
  | 4, c :: d :: e :: _ =>
    if fits c then
      if isTail d then
        if isTail e then
          (some (Char.ofNat
            (((first % 8 * 64 + tailBits c) * 64 + tailBits d) * 64 + tailBits e)), 3)
        else (none, 2)
      else (none, 1)
    else (none, 0)
  | 4, [c, d] => if fits c then if isTail d then (none, 2) else (none, 1) else (none, 0)
  | 4, [c] => if fits c then (none, 1) else (none, 0)
  | _, _ => (none, 0)

/-- The pieces of a byte string behind those already seen, the latest of which comes first; the
first `skip` bytes belong to the piece before. -/
def decodeOnto (seen : List (Option Char)) : (skip : Nat) → List UInt8 → List (Option Char)
  | _, [] => seen.reverse
  | skip + 1, _ :: bs => decodeOnto seen skip bs
  | 0, b :: bs => decodeOnto ((piece b bs).1 :: seen) (piece b bs).2 bs

/-- The characters of a byte string; `none` stands for a longest ill-formed piece. -/
def decode (bytes : List UInt8) : List (Option Char) := decodeOnto [] 0 bytes

/-- The pieces as characters, if all of them are. -/
def characters? : List (Option Char) → Option (List Char)
  | [] => some []
  | none :: _ => none
  | some c :: cs => (characters? cs).map (c :: ·)

/-- The text that the bytes spell, if they are UTF-8 throughout. -/
def text? (bytes : List UInt8) : Option String := (characters? (decode bytes)).map String.ofList

/-- The text with U+FFFD in the place of each ill-formed piece. -/
def lenient (bytes : List UInt8) : String :=
  String.ofList ((decode bytes).map (·.getD '\uFFFD'))

/-- The bytes of a text. -/
def encode (text : String) : List UInt8 := text.toUTF8.toList

end IdentityProvider.Text.Utf8
