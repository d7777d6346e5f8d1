import IdentityProvider.Text.Digits
import IdentityProvider.Text.Percent

/-
  Reading values from the query of a URL.

  The pairs of a query are read in order, and the first that cannot be read is reported; then the
  first parameter that is missing.  Other parameters are passed over, or refused where the value
  allows no others.
-/

namespace IdentityProvider.Query

/-- Why the value of a parameter cannot be read. -/
inductive Cause
  | number (fault : Text.Decimal.Fault)
  | notBoolean
  | unknownVariant (name : String) (expected : List String)
  deriving DecidableEq, Repr

/-- A name between backticks. -/
def quoted (name : String) : String := "`" ++ name ++ "`"

/-- What is said of a name that is none of those of its kind. -/
def expectation (kinds : String) : List String → String
  | [] => "there are no " ++ kinds
  | [name] => "expected " ++ quoted name
  | [first, second] => "expected " ++ quoted first ++ " or " ++ quoted second
  | names => "expected one of " ++ String.intercalate ", " (names.map quoted)

/-- A cause in words. -/
def Cause.text : Cause → String
  | .number fault => fault.text
  | .notBoolean => "provided string was not `true` or `false`"
  | .unknownVariant name expected =>
    "unknown variant " ++ quoted name ++ ", " ++ expectation "variants" expected

/-- Why a query cannot be read. -/
inductive Fault
  /-- The value of a parameter is not what it should be. -/
  | invalid (name : String) (cause : Cause)
  /-- There is no such parameter. -/
  | unknown (name : String) (expected : List String)
  /-- A parameter is given twice. -/
  | duplicate (name : String)
  /-- A parameter is not given. -/
  | missing (name : String)
  deriving DecidableEq, Repr

namespace Fault

/-- What every fault in words begins with. -/
def textStart : String := "Failed to deserialize query string: "

/-- A fault in words; one that belongs to a parameter names it first. -/
def text : Fault → String
  | .invalid name cause => textStart ++ name ++ ": " ++ cause.text
  | .unknown name expected =>
    textStart ++ name ++ ": unknown field " ++ quoted name ++ ", " ++ expectation "fields" expected
  | .duplicate name => textStart ++ "duplicate field " ++ quoted name
  | .missing name => textStart ++ "missing field " ++ quoted name

end Fault

/-- Reads the value of a parameter. -/
abbrev Reader (α : Type) := String → Except Cause α

namespace Reader

/-- A text. -/
def text : Reader String := .ok

/-- A whole number between two bounds. -/
def integer (least greatest : Int) : Reader Int := fun value =>
  match Text.Decimal.read least greatest value with
  | .ok n => .ok n
  | .error fault => .error (.number fault)

/-- A truth value. -/
def boolean : Reader Bool := fun value =>
  if value = "true" then .ok true else if value = "false" then .ok false else .error .notBoolean

/-- One of the given names. -/
def choice (choices : List (String × α)) : Reader α := fun value =>
  match choices.lookup value with
  | some choice => .ok choice
  | none => .error (.unknownVariant value (choices.map (·.1)))

end Reader

/-- A parameter, with what has been read of it kept in a record. -/
structure Field (σ : Type) where
  name : String
  isSet : σ → Bool
  read : σ → Reader σ

/-- A parameter that is read into one place of the record. -/
def Field.ofPlace (name : String) (get : σ → Option α) (set : σ → α → σ) (read : Reader α) :
    Field σ where
  name := name
  isSet record := (get record).isSome
  read record value := (read value).map (set record)

/-- How a value is read from a query. -/
structure Shape (σ β : Type) where
  empty : σ
  fields : List (Field σ)
  /-- Whether no other parameters are allowed. -/
  isClosed : Bool
  /-- The value of a record, or the name of the first parameter that is missing. -/
  finish : σ → Except String β

/-- The value of a parameter that must be given. -/
def required (name : String) (value : Option α) : Except String α :=
  match value with
  | some value => .ok value
  | none => .error name

namespace Shape

/-- The record with a pair read into it. -/
def step (shape : Shape σ β) (record : σ) (pair : String × String) : Except Fault σ :=
  match shape.fields.find? (·.name = pair.1) with
  | some field =>
    if field.isSet record then .error (.duplicate pair.1)
    else match field.read record pair.2 with
      | .ok record => .ok record
      | .error cause => .error (.invalid pair.1 cause)
  | none =>
    if shape.isClosed then .error (.unknown pair.1 (shape.fields.map (·.name)))
    else .ok record

/-- The value that pairs make. -/
def ofPairs (shape : Shape σ β) (pairs : List (String × String)) : Except Fault β :=
  match pairs.foldlM shape.step shape.empty with
  | .error fault => .error fault
  | .ok record => match shape.finish record with
    | .ok value => .ok value
    | .error name => .error (.missing name)

/-- The value that a query makes; no query is an empty one. -/
def read (shape : Shape σ β) (query : Option String) : Except Fault β :=
  shape.ofPairs (Text.Percent.formPairs (query.getD ""))

end Shape

end IdentityProvider.Query
