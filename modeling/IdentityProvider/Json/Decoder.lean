import IdentityProvider.Json.Token

/-
  Reading values of a given kind from JSON tokens.

  A decoder goes over the tokens in order and stops at the first thing that is wrong: the text is
  not JSON (`malformed`), or it is JSON that does not fit the value (`unfit`).  What a value is not
  made of is passed over and only has to be JSON.
-/

namespace IdentityProvider.Json

/-- What is wrong with a text. -/
inductive Fault
  /-- It is not JSON. -/
  | malformed
  /-- It is JSON of the wrong kind, or a member is missing or repeated. -/
  | unfit
  deriving DecidableEq, Repr

/-- Reads a value at the start of a list of tokens, and answers what follows it. -/
abbrev Decoder (α : Type) := List Token → Except Fault (α × List Token)

/-- What is wrong where a value of another kind starts with this token. -/
def Token.mismatch : Token → Fault
  | .openBrace => .unfit
  | .openBracket => .unfit
  | .null => .unfit
  | .boolean _ => .unfit
  | .number .outOfRange => .malformed
  | .number _ => .unfit
  | .string (some _) => .unfit
  | _ => .malformed

/-- What is wrong where a value of another kind should start. -/
def mismatch : List Token → Fault
  | [] => .malformed
  | token :: _ => token.mismatch

namespace Decoder

/-- A string. -/
def text : Decoder String
  | .string (some text) :: rest => .ok (String.ofList text, rest)
  | tokens => .error (mismatch tokens)

/-- An integer between two bounds. -/
def integer (least greatest : Int) : Decoder Int
  | .number (.integer n) :: rest =>
    if least ≤ n ∧ n ≤ greatest then .ok (n, rest) else .error .unfit
  | tokens => .error (mismatch tokens)

/-- A value, or `null` for none. -/
def optional (decode : Decoder α) : Decoder (Option α)
  | .null :: rest => .ok (none, rest)
  | tokens => (decode tokens).map fun (value, rest) => (some value, rest)

end Decoder

/-- What stands where an array or object goes on or ends. -/
inductive Next
  /-- It ends, and this follows. -/
  | over (rest : List Token)
  /-- A further part starts here. -/
  | more (tokens : List Token)
  deriving DecidableEq, Repr

/-- What stands at the start of the tokens, in front of the first part or behind another one. -/
def next (close : Token) (isFirst : Bool) : List Token → Except Fault Next
  | [] => .error .malformed
  | token :: rest =>
    if token = close then .ok (.over rest)
    else if isFirst then .ok (.more (token :: rest))
    else if token = .comma ∧ rest.head? ≠ some close then .ok (.more rest)
    else .error .malformed

namespace Skip

/-- What is open around a value that is passed over. -/
inductive Frame
  | array
  | object
  deriving DecidableEq, Repr

/-- What may come next in a value that is passed over. -/
inductive Expected
  | value
  /-- A value, or the end of the array. -/
  | firstItem
  /-- A name, or the end of the object. -/
  | firstName
  | name
  | colon
  /-- A comma, or the end of what is open. -/
  | separator
  deriving DecidableEq, Repr

/-- The tokens behind a value of which the given arrays and objects are still open. -/
def rest? : (frames : List Frame) → Expected → List Token → Option (List Token)
  | _, _, [] => none
  | frames, expected, token :: tokens =>
    let isValue := expected = .value ∨ expected = .firstItem
    let closed (frames : List Frame) : Option (List Token) :=
      match frames with
      | [] => some tokens
      | frame :: frames => rest? (frame :: frames) .separator tokens
    match token with
    | .openBracket => if isValue then rest? (.array :: frames) .firstItem tokens else none
    | .openBrace => if isValue then rest? (.object :: frames) .firstName tokens else none
    | .null => if isValue then closed frames else none
    | .boolean _ => if isValue then closed frames else none
    | .number _ => if isValue then closed frames else none
    | .string _ =>
      if isValue then closed frames
      else if expected = .firstName ∨ expected = .name then rest? frames .colon tokens
      else none
    | .colon => if expected = .colon then rest? frames .value tokens else none
    | .comma =>
      match expected, frames with
      | .separator, .array :: _ => rest? frames .value tokens
      | .separator, .object :: _ => rest? frames .name tokens
      | _, _ => none
    | .closeBracket =>
      match expected, frames with
      | .separator, .array :: frames => closed frames
      | .firstItem, .array :: frames => closed frames
      | _, _ => none
    | .closeBrace =>
      match expected, frames with
      | .separator, .object :: frames => closed frames
      | .firstName, .object :: frames => closed frames
      | _, _ => none
    | .broken => none

end Skip

/-- What follows a value that is passed over. -/
def skip (tokens : List Token) : Except Fault (List Token) :=
  match Skip.rest? [] .value tokens with
  | some rest => .ok rest
  | none => .error .malformed

/-- The items of an array, behind those read already, the latest first.  The clock is a list of
tokens that is at least as long as the array; it loses one with each item. -/
def itemsFrom (decode : Decoder α) :
    (clock : List Token) → (isFirst : Bool) → List α → Decoder (List α)
  | [], _, _, _ => .error .malformed
  | _ :: clock, isFirst, seen, tokens =>
    match next .closeBracket isFirst tokens with
    | .error fault => .error fault
    | .ok (.over rest) => .ok (seen.reverse, rest)
    | .ok (.more tokens) =>
      match decode tokens with
      | .error fault => .error fault
      | .ok (item, rest) => itemsFrom decode clock false (item :: seen) rest

/-- An array of values of one kind. -/
def Decoder.list (decode : Decoder α) : Decoder (List α)
  | .openBracket :: rest => itemsFrom decode (.openBracket :: rest) true [] rest
  | tokens => .error (mismatch tokens)

/-- A member of a structured value, with what has been read of it kept in a record. -/
structure Field (σ : Type) where
  name : List Char
  /-- Whether the record has this member already. -/
  isSet : σ → Bool
  /-- Reads the member into the record. -/
  read : σ → Decoder σ
  /-- Whether an array of members may end in front of this one. -/
  isOptional : Bool

/-- How a structured value is read: an object with these members in any order and others that are
passed over, or an array of exactly these members in this order. -/
structure Shape (σ β : Type) where
  empty : σ
  fields : List (Field σ)
  /-- The value of a record, unless a member is missing. -/
  finish : σ → Option β

namespace Shape

/-- The members of an object, up to its end.  The clock is a list of tokens that is at least as
long as the object; it loses one with each member. -/
def membersFrom (fields : List (Field σ)) :
    (clock : List Token) → (isFirst : Bool) → σ → Decoder σ
  | [], _, _, _ => .error .malformed
  | _ :: clock, isFirst, record, tokens =>
    match next .closeBrace isFirst tokens with
    | .error fault => .error fault
    | .ok (.over rest) => .ok (record, rest)
    | .ok (.more (.string (some name) :: rest)) =>
      match fields.find? (·.name = name) with
      | some field =>
        if field.isSet record then .error .unfit
        else match rest with
          | .colon :: rest =>
            match field.read record rest with
            | .error fault => .error fault
            | .ok (record, rest) => membersFrom fields clock false record rest
          | _ => .error .malformed
      | none =>
        match rest with
        | .colon :: rest =>
          match skip rest with
          | .error fault => .error fault
          | .ok rest => membersFrom fields clock false record rest
        | _ => .error .malformed
    | .ok (.more _) => .error .malformed

/-- The members in an array, up to its end. -/
def placesFrom : List (Field σ) → (isFirst : Bool) → σ → Decoder σ
  | [], _, record, tokens =>
    match tokens with
    | .closeBracket :: rest => .ok (record, rest)
    | _ => .error .malformed
  | field :: fields, isFirst, record, tokens =>
    match next .closeBracket isFirst tokens with
    | .error fault => .error fault
    | .ok (.over _) =>
      if field.isOptional then placesFrom fields isFirst record tokens else .error .unfit
    | .ok (.more tokens) =>
      match field.read record tokens with
      | .error fault => .error fault
      | .ok (record, rest) => placesFrom fields false record rest

/-- A structured value. -/
def decoder (shape : Shape σ β) : Decoder β := fun tokens =>
  let record := match tokens with
    | .openBrace :: rest =>
      membersFrom shape.fields (.openBrace :: rest) true shape.empty rest
    | .openBracket :: rest => placesFrom shape.fields true shape.empty rest
    | tokens => .error (mismatch tokens)
  match record with
  | .error fault => .error fault
  | .ok (record, rest) => match shape.finish record with
    | some value => .ok (value, rest)
    | none => .error .unfit

end Shape

/-- A member that is read by one decoder into one place of the record. -/
def Field.ofPlace (name : String) (get : σ → Option α) (set : σ → α → σ) (decode : Decoder α) :
    Field σ where
  name := name.toList
  isSet record := (get record).isSome
  read record tokens := (decode tokens).map fun (value, rest) => (set record value, rest)
  isOptional := false

/-- The value that tokens write, with nothing behind it. -/
def decodeAll (decode : Decoder α) (tokens : List Token) : Except Fault α :=
  match decode tokens with
  | .error fault => .error fault
  | .ok (value, []) => .ok value
  | .ok (_, _ :: _) => .error .malformed

/-- The value that bytes or characters write. -/
def read (decode : Decoder α) (text : List (Option Char)) : Except Fault α :=
  decodeAll decode (tokensOf text)

end IdentityProvider.Json
