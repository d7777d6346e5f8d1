import IdentityProvider.Toml.Statement

/-
  The tables that the statements of a TOML document make.

  While a document is read each table remembers how it came about, because that decides how it may
  still be extended: a table opened by its header takes no dotted key from outside, a table made by
  dotted keys takes no header, and an inline table takes nothing at all.  No key is given twice.
-/

namespace IdentityProvider.Toml

/-- How a table came about. -/
inductive Origin
  /-- Its own header. -/
  | header
  /-- The header of a table inside it. -/
  | implied
  /-- A dotted key. -/
  | dotted
  deriving DecidableEq, Repr

/-- What stands behind a key while the document is read. -/
inductive Node
  /-- A value that takes no more entries. -/
  | leaf (value : Toml)
  | table (origin : Origin) (entries : List (String × Node))
  /-- An array of tables: those that are complete, and the entries of the last one. -/
  | series (earlier : List Toml) (last : List (String × Node))

mutual

/-- A node as a value. -/
def Node.value : Node → Toml
  | .leaf value => value
  | .table _ entries => .table (entriesValue entries)
  | .series earlier last => .array (earlier ++ [.table (entriesValue last)])

/-- Nodes as entries of a table. -/
def entriesValue : List (String × Node) → Entries
  | [] => []
  | (key, node) :: rest => (key, node.value) :: entriesValue rest

end

/-- The entries with another node behind a key that they hold. -/
def replaceNode (key : String) (node : Node) : List (String × Node) → List (String × Node)
  | [] => []
  | (k, n) :: rest => if k = key then (k, node) :: rest else (k, n) :: replaceNode key node rest

/-- The entries with a value behind a key path.  The tables on the way must have been made by
dotted keys, or lie on the way to one that is. -/
def assign : (path : List String) → Toml → List (String × Node) → Option (List (String × Node))
  | [], _, _ => none
  | [key], value, entries =>
    match entries.lookup key with
    | none => some (entries ++ [(key, .leaf value)])
    | some _ => none
  | key :: next :: path, value, entries =>
    match entries.lookup key with
    | none => (assign (next :: path) value []).map fun inner =>
        entries ++ [(key, .table .dotted inner)]
    | some (.leaf _) => none
    | some (.table origin inner) =>
      if origin = .header ∨ (path = [] ∧ origin ≠ .dotted) then none
      else (assign (next :: path) value inner).map fun inner =>
        replaceNode key (.table origin inner) entries
    | some (.series earlier last) =>
      if path = [] then none
      else (assign (next :: path) value last).map fun last =>
        replaceNode key (.series earlier last) entries

/-- The entries in which the table at a header's path has been filled. -/
def fillSection (isItem : Bool) (fill : List (String × Node) → Option (List (String × Node))) :
    (path : List String) → List (String × Node) → Option (List (String × Node))
  | [], _ => none
  | [key], entries =>
    match entries.lookup key with
    | none => (fill []).map fun inner =>
        entries ++ [(key, if isItem then .series [] inner else .table .header inner)]
    | some (.leaf _) => none
    | some (.table origin inner) =>
      if isItem = false ∧ origin = .implied then
        (fill inner).map fun inner => replaceNode key (.table .header inner) entries
      else none
    | some (.series earlier last) =>
      if isItem then
        (fill []).map fun inner =>
          replaceNode key (.series (earlier ++ [.table (entriesValue last)]) inner) entries
      else none
  | key :: next :: path, entries =>
    match entries.lookup key with
    | none => (fillSection isItem fill (next :: path) []).map fun inner =>
        entries ++ [(key, .table .implied inner)]
    | some (.leaf _) => none
    | some (.table origin inner) =>
      (fillSection isItem fill (next :: path) inner).map fun inner =>
        replaceNode key (.table origin inner) entries
    | some (.series earlier last) =>
      (fillSection isItem fill (next :: path) last).map fun last =>
        replaceNode key (.series earlier last) entries

mutual

/-- The value that a literal writes, if its inline tables are well formed. -/
def Literal.value? : Literal → Option Toml
  | .plain value => some value
  | .array items => (itemValues? items).map .array
  | .table members => (assignMembers? members []).map fun entries => .table (entriesValue entries)

/-- The values of a list of literals. -/
def itemValues? : List Literal → Option (List Toml)
  | [] => some []
  | item :: items => do
    let value ← item.value?
    let values ← itemValues? items
    return value :: values

/-- The entries with the members of an inline table. -/
def assignMembers? : List (List String × Literal) → List (String × Node) →
    Option (List (String × Node))
  | [], entries => some entries
  | (path, literal) :: members, entries => do
    let value ← literal.value?
    assignMembers? members (← assign path value entries)

end

/-- A header with the assignments that follow it. -/
structure Section where
  path : List String
  isItem : Bool
  assignments : List (List String × Literal)

/-- The assignments before the first header, and the sections. -/
def sections : List Statement → List (List String × Literal) × List Section
  | [] => ([], [])
  | .assign path value :: rest => ((path, value) :: (sections rest).1, (sections rest).2)
  | .header path isItem :: rest => ([], ⟨path, isItem, (sections rest).1⟩ :: (sections rest).2)

/-- The table that statements make, if they agree with each other. -/
def ofStatements? (statements : List Statement) : Option Entries := do
  let (assignments, sections) := sections statements
  let root ← assignMembers? assignments []
  let root ← sections.foldlM
    (fun root s => fillSection s.isItem (assignMembers? s.assignments) s.path root) root
  return entriesValue root

/-- The table that a TOML document writes, if it writes one. -/
def read? (text : String) : Option Entries := (statements? text.toList).bind ofStatements?

/-- What a reader remarks on a text that is no document, or no document of the wanted kind. -/
abbrev Remark := String → String

end IdentityProvider.Toml
