import IdentityProvider.Environment
import IdentityProvider.Placeholder

/-
  Expansion of the placeholders of a settings text.

  The text is expanded line by line.  A comment line stays as it is; elsewhere each placeholder is
  replaced by the value of its variable or by its fallback, and what was put in is not looked at
  again.  The first placeholder that has neither, or that names no variable, is the error.
-/

namespace IdentityProvider

/-- Why a text cannot be expanded. -/
inductive ExpansionError
  /-- A variable has no value and its placeholder no fallback. -/
  | missing (name : String)
  /-- A placeholder names something other than a variable. -/
  | unsupportedScope (key : String)
  deriving DecidableEq, Repr

/-- An expansion error in words. -/
def ExpansionError.text : ExpansionError → String
  | .missing name => "environment variable not found: `" ++ name ++ "`"
  | .unsupportedScope key => "only variables scoped with 'env.' are supported: `" ++ key ++ "`"

namespace Placeholder

open Text

/-- The scope of variables. -/
def envScope : List Char := ['e', 'n', 'v']

/-- The variable that a placeholder names: what follows `env.`, unless it holds a point. -/
def variableName? (p : Placeholder) : Option String :=
  match cutAt '.' p.key with
  | (scope, some name) =>
    if scope = envScope ∧ '.' ∉ name then some (String.ofList name) else none
  | (_, none) => none

/-- The text in the place of a placeholder. -/
def resolve (env : Environment) (p : Placeholder) : Except ExpansionError (List Char) :=
  match p.variableName? with
  | none => .error (.unsupportedScope (String.ofList p.key))
  | some name => match env.text? name, p.fallback with
    | some value, _ => .ok value.toList
    | none, some fallback => .ok fallback
    | none, none => .error (.missing name)

/-- The text in the place of a part. -/
def Part.resolve (env : Environment) : Part → Except ExpansionError (List Char)
  | .plain c => .ok [c]
  | .slot p => p.resolve env

/-- A line that is a comment: its first character that is not blank is a number sign. -/
def isCommentLine (line : List Char) : Bool := (line.dropWhile isBlank).head? = some '#'

/-- A line with its placeholders replaced. -/
def expandLine (env : Environment) (line : List Char) : Except ExpansionError (List Char) :=
  if isCommentLine line then .ok line
  else (parts line).mapM (Part.resolve env) >>= fun texts => .ok texts.flatten

/-- The variables that the placeholders of a text name, on comment lines too. -/
def variableNames (text : String) : List String :=
  (splitOn '\n' text.toList).flatMap fun line => (parts line).filterMap fun
    | .plain _ => none
    | .slot p => p.variableName?

end Placeholder

/-- A text with the placeholders of its lines replaced. -/
def Environment.expand (env : Environment) (text : String) : Except ExpansionError String := do
  let lines ← (Text.splitOn '\n' text.toList).mapM (Placeholder.expandLine env)
  return String.ofList (Text.joinWith '\n' lines)

end IdentityProvider
