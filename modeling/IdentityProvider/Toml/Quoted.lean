import IdentityProvider.Text.Digits

/-
  The strings of TOML: basic ones with escapes and literal ones without, each on one line or on
  several.

  Every reader here starts behind the opening quotes and answers the text of the string and what
  follows its closing quotes.  `skip` counts the characters of an escape that are still to be
  passed over.
-/

namespace IdentityProvider.Toml

/-- A blank that does not end a line. -/
def isSpace (c : Char) : Bool := c = ' ' || c = '\t'

/-- A control character, which may stand neither in a string nor in a comment; the tab may. -/
def isControl (c : Char) : Bool := (c.toNat < 0x20 && c ≠ '\t') || c = '\x7f'

/-- The character with this number, if there is one. -/
def scalar? (n : Nat) : Option Char :=
  if n < 0xD800 ∨ (0xDFFF < n ∧ n < 0x110000) then some (Char.ofNat n) else none

/-- The character that an escape stands for, from behind its backslash on, and the length of the
escape without the backslash. -/
def escape? : List Char → Option (Char × Nat)
  | 'b' :: _ => some ('\x08', 1)
  | 't' :: _ => some ('\t', 1)
  | 'n' :: _ => some ('\n', 1)
  | 'f' :: _ => some ('\x0c', 1)
  | 'r' :: _ => some ('\r', 1)
  | 'e' :: _ => some ('\x1b', 1)
  | '"' :: _ => some ('"', 1)
  | '\\' :: _ => some ('\\', 1)
  | 'x' :: cs => numbered 2 cs
  | 'u' :: cs => numbered 4 cs
  | 'U' :: cs => numbered 8 cs
  | _ => none
where
  /-- An escape by number, with this many digits. -/
  numbered (width : Nat) (cs : List Char) : Option (Char × Nat) :=
    if (cs.take width).length = width then
      ((Text.Digits.number? 16 (cs.take width)).bind scalar?).map fun c => (c, width + 1)
    else none

/-- A basic string on one line. -/
def basic? : (skip : Nat) → List Char → Option (List Char × List Char)
  | _, [] => none
  | skip + 1, _ :: cs => basic? skip cs
  | 0, c :: cs =>
    if c = '"' then some ([], cs)
    else if c = '\\' then
      match escape? cs with
      | some (e, n) => (basic? n cs).map fun (text, rest) => (e :: text, rest)
      | none => none
    else if isControl c then none
    else (basic? 0 cs).map fun (text, rest) => (c :: text, rest)

/-- A literal string on one line. -/
def literal? : List Char → Option (List Char × List Char)
  | [] => none
  | c :: cs =>
    if c = '\'' then some ([], cs)
    else if isControl c then none
    else (literal? cs).map fun (text, rest) => (c :: text, rest)

/-- How many characters the blanks and line ends at the start of a text take. -/
def gapLength : List Char → Nat
  | [] => 0
  | '\r' :: '\n' :: cs => gapLength cs + 2
  | c :: cs => if isSpace c || c = '\n' then gapLength cs + 1 else 0

/-- Whether nothing but blanks stands before the end of the line. -/
def isLineRest (cs : List Char) : Bool :=
  match cs.dropWhile isSpace with
  | '\n' :: _ => true
  | '\r' :: '\n' :: _ => true
  | _ => false

/-- What follows three closing quotes: up to two more quotes belong to the string. -/
def closeLong (quote : Char) : List Char → List Char × List Char
  | a :: b :: rest =>
    if a = quote then if b = quote then ([a, b], rest) else ([a], b :: rest)
    else ([], a :: b :: rest)
  | [a] => if a = quote then ([a], []) else ([], [a])
  | [] => ([], [])

/-- Whether a text starts with three of these quotes. -/
def isTriple (quote : Char) (cs : List Char) : Bool := cs.take 3 = [quote, quote, quote]

/-- A text without the line end at its start. -/
def afterLineEnd : List Char → List Char
  | '\n' :: rest => rest
  | '\r' :: '\n' :: rest => rest
  | rest => rest

/-- A basic string on several lines.  A backslash at the end of a line joins it with what follows
the next blanks and line ends. -/
def longBasic? : (skip : Nat) → List Char → Option (List Char × List Char)
  | _, [] => none
  | skip + 1, _ :: cs => longBasic? skip cs
  | 0, c :: cs =>
    if isTriple '"' (c :: cs) then some (closeLong '"' (cs.drop 2))
    else if c = '\\' then
      if isLineRest cs then longBasic? (gapLength cs) cs
      else match escape? cs with
        | some (e, n) => (longBasic? n cs).map fun (text, rest) => (e :: text, rest)
        | none => none
    else if c = '\n' ∨ (c = '\r' ∧ cs.head? = some '\n') ∨ isControl c = false then
      (longBasic? 0 cs).map fun (text, rest) => (c :: text, rest)
    else none

/-- A literal string on several lines. -/
def longLiteral? : List Char → Option (List Char × List Char)
  | [] => none
  | c :: cs =>
    if isTriple '\'' (c :: cs) then some (closeLong '\'' (cs.drop 2))
    else if c = '\n' ∨ (c = '\r' ∧ cs.head? = some '\n') ∨ isControl c = false then
      (longLiteral? cs).map fun (text, rest) => (c :: text, rest)
    else none

/-- The string at the start of a text, with the quotes that it opens with. -/
def quoted? (text : List Char) : Option (List Char × List Char) :=
  match text with
  | '"' :: cs =>
    if isTriple '"' text then longBasic? 0 (afterLineEnd (cs.drop 2)) else basic? 0 cs
  | '\'' :: cs =>
    if isTriple '\'' text then longLiteral? (afterLineEnd (cs.drop 2)) else literal? cs
  | _ => none

end IdentityProvider.Toml
