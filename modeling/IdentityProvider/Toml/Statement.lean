import IdentityProvider.Toml.Scalar

/-
  The statements of a TOML document, as they are written.

  A document is a sequence of headers and assignments, one to a line.  `statements?` reads a whole
  document and says nothing yet about which tables the statements make; that is the business of
  `Toml.Document`.
-/

namespace IdentityProvider.Toml

/-- A value as it is written: an inline table is still a list of assignments. -/
inductive Literal
  | plain (value : Toml)
  | array (items : List Literal)
  | table (members : List (List String × Literal))

/-- A statement.  A key path is never empty. -/
inductive Statement
  /-- A header: the assignments that follow belong to this table, or to a new table at the end of
  this array of tables. -/
  | header (path : List String) (isItem : Bool)
  | assign (path : List String) (value : Literal)

/-- How deep arrays and inline tables may be nested. -/
def nestingLimit : Nat := 80

/-- A character of a key that stands without quotes. -/
def isKeyChar (c : Char) : Bool := c.isAlphanum || c = '_' || c = '-'

/-- What follows the blanks, line ends and comments at the start of a text. -/
def gap? : (inComment : Bool) → List Char → Option (List Char)
  | _, [] => some []
  | true, c :: cs =>
    if c = '\n' then gap? false cs
    else if c = '\r' ∧ cs.head? = some '\n' then gap? true cs
    else if isControl c then none
    else gap? true cs
  | false, c :: cs =>
    if isSpace c || c = '\n' then gap? false cs
    else if c = '\r' then if cs.head? = some '\n' then gap? false cs else none
    else if c = '#' then gap? true cs
    else some (c :: cs)

/-- The key at the start of a text, and what follows it. -/
def key? (text : List Char) : Option (String × List Char) :=
  match text with
  | '"' :: cs => (basic? 0 cs).map fun (key, rest) => (String.ofList key, rest)
  | '\'' :: cs => (literal? cs).map fun (key, rest) => (String.ofList key, rest)
  | _ =>
    if (text.takeWhile isKeyChar).isEmpty then none
    else some (String.ofList (text.takeWhile isKeyChar), text.dropWhile isKeyChar)

/-- The keys at the start of a text, with points between them, and what follows the blanks behind
the last one. -/
def keyPath? : (fuel : Nat) → List Char → Option (List String × List Char)
  | 0, _ => none
  | fuel + 1, text => do
    let (key, rest) ← key? text
    match rest.dropWhile isSpace with
    | '.' :: more =>
      let (keys, rest) ← keyPath? fuel (more.dropWhile isSpace)
      return (key :: keys, rest)
    | rest => return ([key], rest)

/-- The string at the start of a text, and what follows it. -/
def readString? (text : List Char) : Option (Literal × List Char) :=
  (quoted? text).map fun (value, rest) => (.plain (.string (String.ofList value)), rest)

mutual

/-- The value at the start of a text, and what follows it; `room` is how deep it may be nested. -/
def readValue? : (fuel room : Nat) → List Char → Option (Literal × List Char)
  | 0, _, _ => none
  | fuel + 1, room, text =>
    match text with
    | '[' :: cs =>
      match room with
      | 0 => none
      | room + 1 => do
        let (items, rest) ← readItems? fuel room cs
        return (.array items, rest)
    | '\x7b' :: cs =>
      match room with
      | 0 => none
      | room + 1 => do
        let (members, rest) ← readMembers? fuel room cs
        return (.table members, rest)
    | '"' :: _ => readString? text
    | '\'' :: _ => readString? text
    | _ => (bareValue? text).map fun (value, rest) => (.plain value, rest)

/-- The items of an array, from behind its bracket or a comma on, and what follows the array. -/
def readItems? : (fuel room : Nat) → List Char → Option (List Literal × List Char)
  | 0, _, _ => none
  | fuel + 1, room, text => do
    match ← gap? false text with
    | ']' :: rest => return ([], rest)
    | text =>
      let (item, rest) ← readValue? fuel room text
      match ← gap? false rest with
      | ',' :: rest =>
        let (items, rest) ← readItems? fuel room rest
        return (item :: items, rest)
      | ']' :: rest => return ([item], rest)
      | _ => none

/-- The members of an inline table, from behind its brace or a comma on, and what follows the
table. -/
def readMembers? : (fuel room : Nat) → List Char → Option (List (List String × Literal) × List Char)
  | 0, _, _ => none
  | fuel + 1, room, text => do
    match ← gap? false text with
    | '\x7d' :: rest => return ([], rest)
    | text =>
      let (path, rest) ← keyPath? fuel text
      match ← gap? false rest with
      | '=' :: rest =>
        let (value, rest) ← readValue? fuel room (← gap? false rest)
        match ← gap? false rest with
        | ',' :: rest =>
          let (members, rest) ← readMembers? fuel room rest
          return ((path, value) :: members, rest)
        | '\x7d' :: rest => return ([(path, value)], rest)
        | _ => none
      | _ => none

end

/-- What follows the end of a line, its blanks and its comment. -/
def lineEnd? (text : List Char) : Option (List Char) :=
  match text.dropWhile isSpace with
  | [] => some []
  | c :: cs => if c = '\n' ∨ c = '\r' ∨ c = '#' then gap? false (c :: cs) else none

/-- The statement at the start of a text, and what follows it. -/
def statement? (fuel : Nat) : List Char → Option (Statement × List Char)
  | '[' :: '[' :: cs => do
    match ← keyPath? fuel (cs.dropWhile isSpace) with
    | (path, ']' :: ']' :: rest) => return (.header path true, rest)
    | _ => none
  | '[' :: cs => do
    match ← keyPath? fuel (cs.dropWhile isSpace) with
    | (path, ']' :: rest) => return (.header path false, rest)
    | _ => none
  | text => do
    match ← keyPath? fuel text with
    | (path, '=' :: rest) =>
      let (value, rest) ← readValue? fuel nestingLimit (rest.dropWhile isSpace)
      return (.assign path value, rest)
    | _ => none

/-- The statements of a text that starts with one. -/
def statementsFrom? (limit : Nat) : (fuel : Nat) → List Char → Option (List Statement)
  | _, [] => some []
  | 0, _ => none
  | fuel + 1, text => do
    let (statement, rest) ← statement? limit text
    let statements ← statementsFrom? limit fuel (← lineEnd? rest)
    return statement :: statements

/-- A text without the mark that may stand in front of it. -/
def withoutMark : List Char → List Char
  | '\uFEFF' :: text => text
  | text => text

/-- The statements of a document, if it is well formed. -/
def statements? (text : List Char) : Option (List Statement) :=
  let limit := 2 * text.length + 2
  (gap? false (withoutMark text)).bind (statementsFrom? limit limit)

end IdentityProvider.Toml
