import IdentityProvider.Json.Numeral
import IdentityProvider.Json.Value

/-
  The tokens of JSON.

  A lexer goes over the characters of a text one by one.  Where the text is no JSON it answers
  `broken` and nothing more, so that a reader can tell what came before from what is wrong.  The
  pieces of a text that are not characters may stand in strings only; such a string is well formed
  but has no text.
-/

namespace IdentityProvider.Json

/-- A token. -/
inductive Token
  | openBrace
  | closeBrace
  | openBracket
  | closeBracket
  | colon
  | comma
  | null
  | boolean (value : Bool)
  | number (numeral : Numeral)
  /-- A string; one that holds what is no character has no text. -/
  | string (text : Option (List Char))
  /-- What follows is not JSON. -/
  | broken
  deriving DecidableEq, Repr

namespace Lexer

/-- Where in a number the lexer is. -/
inductive NumberPart
  /-- Behind the sign: a digit must follow. -/
  | sign
  /-- Behind a leading zero: no digit may follow. -/
  | zero
  | whole
  /-- Behind the point: a digit must follow. -/
  | point
  | fraction
  /-- Behind the mark of an exponent. -/
  | mark
  /-- Behind the sign of an exponent: a digit must follow. -/
  | exponentSign
  | exponent
  deriving DecidableEq, Repr

/-- Whether a number may end here. -/
def NumberPart.isEnd : NumberPart → Bool
  | .zero => true
  | .whole => true
  | .fraction => true
  | .exponent => true
  | _ => false

/-- The part of a number that the next character belongs to. -/
def NumberPart.next? (part : NumberPart) (c : Char) : Option NumberPart :=
  let isMark := c = 'e' ∨ c = 'E'
  match part with
  | .sign => if c = '0' then some .zero else if c.isDigit then some .whole else none
  | .zero => if c = '.' then some .point else if isMark then some .mark else none
  | .whole =>
    if c.isDigit then some .whole
    else if c = '.' then some .point
    else if isMark then some .mark
    else none
  | .point => if c.isDigit then some .fraction else none
  | .fraction =>
    if c.isDigit then some .fraction else if isMark then some .mark else none
  | .mark =>
    if c.isDigit then some .exponent
    else if c = '+' ∨ c = '-' then some .exponentSign
    else none
  | .exponentSign => if c.isDigit then some .exponent else none
  | .exponent => if c.isDigit then some .exponent else none

/-- Where in a string the lexer is. -/
inductive StringPart
  | plain
  /-- Behind a backslash. -/
  | escape
  /-- In an escape by number: how many digits have been read, and their number. -/
  | hex (count code : Nat)
  deriving DecidableEq, Repr

/-- Where the lexer is.  What it has read of a token is kept with the latest character first. -/
inductive State
  | between
  /-- In a word that is to go on like this. -/
  | word (rest : List Char) (token : Token)
  | number (part : NumberPart) (seen : List Char)
  /-- In a string: its text so far, and the first half of a pair that waits for its second. -/
  | string (part : StringPart) (seen : Option (List Char)) (half : Option Nat)
  | failed
  deriving DecidableEq, Repr

/-- Whether a number is the first half of a pair. -/
def isFirstHalf (n : Nat) : Bool := 0xD800 ≤ n && n ≤ 0xDBFF

/-- Whether a number is the second half of a pair. -/
def isSecondHalf (n : Nat) : Bool := 0xDC00 ≤ n && n ≤ 0xDFFF

/-- The character that two halves make. -/
def paired (first second : Nat) : Char :=
  Char.ofNat (0x10000 + (first - 0xD800) * 0x400 + (second - 0xDC00))

/-- The state behind a character of a string. -/
def pushChar (seen : Option (List Char)) (half : Option Nat) (c : Char) : State :=
  match half with
  | none => .string .plain (seen.map (c :: ·)) none
  | some _ => .string .plain none none

/-- The state behind an escape by number. -/
def pushNumber (seen : Option (List Char)) (half : Option Nat) (n : Nat) : State :=
  match half with
  | some first =>
    if isSecondHalf n then .string .plain (seen.map (paired first n :: ·)) none
    else .string .plain none none
  | none =>
    if isFirstHalf n then .string .plain seen (some n)
    else if isSecondHalf n then .string .plain none none
    else .string .plain (seen.map (Char.ofNat n :: ·)) none

/-- The character that a short escape stands for. -/
def shortEscape? (c : Char) : Option Char :=
  if c = '"' ∨ c = '\\' ∨ c = '/' then some c
  else if c = 'b' then some '\x08'
  else if c = 'f' then some '\x0c'
  else if c = 'n' then some '\n'
  else if c = 'r' then some '\r'
  else if c = 't' then some '\t'
  else none

/-- The text of a string that ends here. -/
def finished (seen : Option (List Char)) (half : Option Nat) : Option (List Char) :=
  match half with
  | none => seen.map List.reverse
  | some _ => none

/-- A step inside a string: the next state, and the token that is complete. -/
def stringStep (part : StringPart) (seen : Option (List Char)) (half : Option Nat) :
    Option Char → State × Option Token
  | none =>
    match part with
    | .plain => (.string .plain none none, none)
    | _ => (.failed, some .broken)
  | some c =>
    match part with
    | .plain =>
      if c = '"' then (.between, some (.string (finished seen half)))
      else if c = '\\' then (.string .escape seen half, none)
      else if c.toNat < 0x20 then (.failed, some .broken)
      else (pushChar seen half c, none)
    | .escape =>
      if c = 'u' then (.string (.hex 0 0) seen half, none)
      else match shortEscape? c with
        | some e => (pushChar seen half e, none)
        | none => (.failed, some .broken)
    | .hex count code =>
      match Text.Digits.value? c with
      | none => (.failed, some .broken)
      | some d =>
        if count = 3 then (pushNumber seen half (code * 16 + d), none)
        else (.string (.hex (count + 1) (code * 16 + d)) seen half, none)

/-- A step between tokens. -/
def betweenStep (c : Char) : State × Option Token :=
  if c = ' ' ∨ c = '\t' ∨ c = '\n' ∨ c = '\r' then (.between, none)
  else if c = '\x7b' then (.between, some .openBrace)
  else if c = '\x7d' then (.between, some .closeBrace)
  else if c = '[' then (.between, some .openBracket)
  else if c = ']' then (.between, some .closeBracket)
  else if c = ':' then (.between, some .colon)
  else if c = ',' then (.between, some .comma)
  else if c = '"' then (.string .plain (some []) none, none)
  else if c = 'n' then (.word ['u', 'l', 'l'] .null, none)
  else if c = 't' then (.word ['r', 'u', 'e'] (.boolean true), none)
  else if c = 'f' then (.word ['a', 'l', 's', 'e'] (.boolean false), none)
  else if c = '-' then (.number .sign ['-'], none)
  else if c = '0' then (.number .zero ['0'], none)
  else if c.isDigit then (.number .whole [c], none)
  else (.failed, some .broken)

/-- The tokens read so far, the latest first, and where the lexer is. -/
structure Progress where
  state : State
  tokens : List Token
  deriving DecidableEq, Repr

/-- The progress in a new state and with the token that was completed on the way. -/
def Progress.move (tokens : List Token) (next : State × Option Token) : Progress :=
  ⟨next.1, next.2.toList ++ tokens⟩

/-- The token of a complete number. -/
def numberToken (seen : List Char) : Token := .number (Numeral.ofLexeme seen.reverse)

/-- A step behind a number: the character belongs to what follows. -/
def afterNumber (part : NumberPart) (seen : List Char) (tokens : List Token) (c : Option Char) :
    Progress :=
  match part.isEnd, part, c with
  | true, .zero, some c =>
    if c.isDigit then ⟨.failed, .broken :: tokens⟩
    else .move (numberToken seen :: tokens) (betweenStep c)
  | true, _, some c => .move (numberToken seen :: tokens) (betweenStep c)
  | true, _, none => ⟨.failed, .broken :: numberToken seen :: tokens⟩
  | false, _, _ => ⟨.failed, .broken :: tokens⟩

/-- A step over a character, or over a piece that is none. -/
def Progress.step (p : Progress) (c : Option Char) : Progress :=
  match p.state, c with
  | .failed, _ => p
  | .between, some c => .move p.tokens (betweenStep c)
  | .between, none => ⟨.failed, .broken :: p.tokens⟩
  | .word [] token, _ => ⟨.failed, .broken :: token :: p.tokens⟩
  | .word (x :: rest) token, c =>
    if c = some x then
      if rest = [] then ⟨.between, token :: p.tokens⟩ else ⟨.word rest token, p.tokens⟩
    else ⟨.failed, .broken :: p.tokens⟩
  | .number part seen, some c =>
    match part.next? c with
    | some next => ⟨.number next (c :: seen), p.tokens⟩
    | none => afterNumber part seen p.tokens (some c)
  | .number part seen, none => afterNumber part seen p.tokens none
  | .string part seen half, c => .move p.tokens (stringStep part seen half c)

/-- All tokens, once the text has ended. -/
def Progress.finish (p : Progress) : List Token :=
  match p.state with
  | .between => p.tokens.reverse
  | .failed => p.tokens.reverse
  | .number part seen =>
    if part.isEnd then (numberToken seen :: p.tokens).reverse else (.broken :: p.tokens).reverse
  | .word _ _ => (.broken :: p.tokens).reverse
  | .string _ _ _ => (.broken :: p.tokens).reverse

/-- Before the first character. -/
def Progress.start : Progress := ⟨.between, []⟩

end Lexer

/-- The tokens of a text. -/
def tokensOf (text : List (Option Char)) : List Token :=
  (text.foldl Lexer.Progress.step .start).finish

mutual

/-- The tokens of a value. -/
def tokens : Json → List Token
  | .null => [.null]
  | .boolean value => [.boolean value]
  | .number lexeme => [.number (Numeral.ofLexeme lexeme)]
  | .string text => [.string (some text)]
  | .array [] => [.openBracket, .closeBracket]
  | .array (item :: items) => .openBracket :: (tokens item ++ itemsTokens items)
  | .object [] => [.openBrace, .closeBrace]
  | .object ((name, value) :: members) =>
    .openBrace :: .string (some name) :: .colon :: (tokens value ++ membersTokens members)

/-- The tokens of the items after the first one, and the closing bracket. -/
def itemsTokens : List Json → List Token
  | [] => [.closeBracket]
  | item :: items => .comma :: (tokens item ++ itemsTokens items)

/-- The tokens of the members after the first one, and the closing brace. -/
def membersTokens : List (List Char × Json) → List Token
  | [] => [.closeBrace]
  | (name, value) :: members =>
    .comma :: .string (some name) :: .colon :: (tokens value ++ membersTokens members)

end

end IdentityProvider.Json
