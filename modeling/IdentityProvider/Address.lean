import IdentityProvider.Text.Digits

/-
  Addresses to listen on: an IP address and a port.

  `read?` accepts `a.b.c.d:port` and `[v6]:port`, where the version 6 address may leave out a run
  of zeros, end in a version 4 address and carry a scope.  `text` writes the shortest form: lower
  case, the first of the longest runs of zeros left out.
-/

namespace IdentityProvider

/-- An IP address. -/
inductive Host
  /-- The four octets of version 4. -/
  | v4 (octets : List Nat)
  /-- The eight groups of version 6, and the scope. -/
  | v6 (groups : List Nat) (scope : Nat)
  deriving DecidableEq, Repr

/-- An IP address and a port. -/
structure Address where
  host : Host
  port : Nat
  deriving DecidableEq, Repr

namespace Address

open Text.Digits

/-- The number that starts a text, at most `limit`, and what follows its digits. -/
def number? (radix limit : Nat) (cs : List Char) : Option (Nat × List Char) := do
  let digits := cs.takeWhile (isDigitIn radix)
  guard (!digits.isEmpty)
  let n ← Text.Digits.number? radix digits
  guard (n ≤ limit)
  return (n, cs.dropWhile (isDigitIn radix))

/-- What follows a character at the start of a text. -/
def after? (c : Char) : List Char → Option (List Char)
  | [] => none
  | d :: cs => if d = c then some cs else none

/-- An octet: at most three digits, and no zero in front of others. -/
def octet? (cs : List Char) : Option (Nat × List Char) := do
  let digits := cs.takeWhile (isDigitIn 10)
  guard (digits.length ≤ 3 ∧ (digits.head? ≠ some '0' ∨ digits = ['0']))
  number? 10 255 cs

/-- The octets of a version 4 address. -/
def octets? (cs : List Char) : Option (List Nat × List Char) := do
  let (a, cs) ← octet? cs
  let (b, cs) ← octet? (← after? '.' cs)
  let (c, cs) ← octet? (← after? '.' cs)
  let (d, cs) ← octet? (← after? '.' cs)
  return ([a, b, c, d], cs)

/-- A group of a version 6 address: at most four hexadecimal digits. -/
def group? (cs : List Char) : Option (Nat × List Char) := do
  guard ((cs.takeWhile (isDigitIn 16)).length ≤ 4)
  number? 16 0xFFFF cs

/-- What follows the colon in front of a group; the first group has none. -/
def separated? (isFirst : Bool) (cs : List Char) : Option (List Char) :=
  if isFirst then some cs else after? ':' cs

/-- As many groups as a text starts with, at most `limit`, whether the last two of them are
written as a version 4 address, and what follows. -/
def groups : (limit : Nat) → (isFirst : Bool) → List Char → List Nat × Bool × List Char
  | 0, _, cs => ([], false, cs)
  | limit + 1, isFirst, cs =>
    match (separated? isFirst cs).bind octets?, limit with
    | some ([a, b, c, d], rest), _ + 1 => ([a * 256 + b, c * 256 + d], true, rest)
    | _, _ =>
      match (separated? isFirst cs).bind group? with
      | some (g, rest) =>
        let (gs, isMapped, rest) := groups limit false rest
        (g :: gs, isMapped, rest)
      | none => ([], false, cs)

/-- The eight groups of a version 6 address. -/
def allGroups? (cs : List Char) : Option (List Nat × List Char) :=
  match groups 8 true cs with
  | (head, isMapped, rest) =>
    if head.length = 8 then some (head, rest)
    else if isMapped then none
    else do
      let rest ← after? ':' (← after? ':' rest)
      let (tail, _, rest) := groups (7 - head.length) true rest
      return (head ++ List.replicate (8 - head.length - tail.length) 0 ++ tail, rest)

/-- The scope of a version 6 address, 0 where there is none. -/
def scope? : List Char → Option (Nat × List Char)
  | '%' :: cs => number? 10 0xFFFFFFFF cs
  | cs => some (0, cs)

/-- The host at the start of a text. -/
def host? : List Char → Option (Host × List Char)
  | '[' :: cs => do
    let (groups, cs) ← allGroups? cs
    let (scope, cs) ← scope? cs
    return (.v6 groups scope, ← after? ']' cs)
  | cs => (octets? cs).map fun (octets, cs) => (.v4 octets, cs)

/-- The address that a text writes. -/
def read? (text : String) : Option Address := do
  let (host, cs) ← host? text.toList
  match ← number? 10 0xFFFF (← after? ':' cs) with
  | (port, []) => return ⟨host, port⟩
  | _ => none

/-- Texts with a separator between neighbours. -/
def joined (separator : Char) : List (List Char) → List Char
  | [] => []
  | [text] => text
  | text :: texts => text ++ separator :: joined separator texts

/-- The octets of a version 4 address in writing. -/
def octetsText (octets : List Nat) : List Char := joined '.' (octets.map (write 10))

/-- How many zeros the groups start with. -/
def zeros (groups : List Nat) : Nat := (groups.takeWhile (· = 0)).length

/-- Where the first of the longest runs of zeros starts, and how long it is. -/
def longestRun : (groups : List Nat) → Nat × Nat
  | [] => (0, 0)
  | g :: gs =>
    let (start, length) := longestRun gs
    if length ≤ zeros (g :: gs) then (0, zeros (g :: gs)) else (start + 1, length)

/-- The groups of a version 6 address in writing. -/
def groupsText (groups : List Nat) : List Char :=
  match groups with
  | [0, 0, 0, 0, 0, 0xFFFF, high, low] =>
    [':', ':', 'f', 'f', 'f', 'f', ':'] ++
      octetsText [high / 256, high % 256, low / 256, low % 256]
  | _ =>
    let (start, length) := longestRun groups
    let part (gs : List Nat) := joined ':' (gs.map (write 16))
    if 1 < length then
      part (groups.take start) ++ ':' :: ':' :: part (groups.drop (start + length))
    else part groups

/-- A host in writing, as it stands in front of a port. -/
def hostText : Host → List Char
  | .v4 octets => octetsText octets
  | .v6 groups scope =>
    '[' :: (groupsText groups ++ if scope = 0 then [']'] else '%' :: (write 10 scope ++ [']']))

/-- An address in writing. -/
def text (address : Address) : String :=
  String.ofList (hostText address.host ++ ':' :: write 10 address.port)

end Address

end IdentityProvider
