import IdentityProvider.Failure
import IdentityProvider.Url

/-
  Checks on values that have been read, and the report on those that fail.

  A report is a tree: a field holds its failed checks, or the report on the value or the values
  that it consists of.  `Report.listed` is what a caller is told: the failed checks of the fields
  themselves, by field name, and of one field in the order of its checks.
-/

namespace IdentityProvider.Validation

/-- A check that fails. -/
structure Failed where
  code : String
  message : Option String
  deriving DecidableEq, Repr

/-- What a failed check says: its message, or its code where it has none. -/
def Failed.text (failed : Failed) : String := failed.message.getD failed.code

/-- What is wrong with a field. -/
inductive Issue
  /-- Checks on the field itself. -/
  | checks (failed : List Failed)
  /-- Checks on the fields of its value. -/
  | nested (fields : List (String × Issue))
  /-- Checks on the fields of some of its values, each with its place. -/
  | items (items : List (Nat × List (String × Issue)))

/-- What is wrong with a value, field by field; empty if nothing is. -/
abbrev Report := List (String × Issue)

namespace Report

/-- The fields with failed checks of their own. -/
def own (report : Report) : List (String × List Failed) :=
  report.filterMap fun
    | (field, .checks failed) => some (field, failed)
    | _ => none

/-- Fields by name. -/
def byName (fields : List (String × List Failed)) : List (String × List Failed) :=
  fields.mergeSort fun a b => decide (a.1 ≤ b.1)

/-- Each failed check with its field. -/
def flat (fields : List (String × List Failed)) : List (String × Failed) :=
  fields.flatMap fun field => field.2.map (field.1, ·)

/-- The failed checks that a caller is told of. -/
def listed (report : Report) : List (String × Failed) := flat (byName report.own)

/-- The listed checks as rejected fields. -/
def fieldErrors (report : Report) : List FieldError :=
  report.listed.map fun (field, failed) => ⟨field, failed.text⟩

/-- The listed checks as violated constraints. -/
def violations (report : Report) : List Violation :=
  report.listed.map fun (field, failed) => ⟨field, failed.text⟩

/-- What is wrong with the field of this name, if anything is. -/
def field (name : String) (failed : List (Option Failed)) : Report :=
  match failed.filterMap id with
  | [] => []
  | found => [(name, .checks found)]

/-- What is wrong with the value of the field of this name, if anything is. -/
def nested (name : String) (inner : Report) : Report :=
  if inner.isEmpty then [] else [(name, .nested inner)]

/-- What is wrong with the values of the field of this name, if anything is. -/
def items (name : String) (inner : List Report) : Report :=
  match (inner.zipIdx.filter fun r => !r.1.isEmpty).map fun r => (r.2, r.1) with
  | [] => []
  | found => [(name, .items found)]

/-- The name under which a check on the value as a whole is reported. -/
def wholeName : String := "__all__"

/-- The report, and where nothing is wrong so far a check on the value as a whole. -/
def whole (report : Report) (check : Option Failed) : Report :=
  if report.isEmpty then field wholeName [check] else report

end Report

/-- The code of a check on a length that has none of its own. -/
def lengthCode : String := "length"

/-- The code of a check on a range that has none of its own. -/
def rangeCode : String := "range"

/-- The code of a check for a URL that has none of its own. -/
def urlCode : String := "url"

/-- Fails unless the text has a number of characters between the two bounds. -/
def length (least : Nat) (most : Option Nat) (failed : Failed) (text : String) : Option Failed :=
  if least ≤ text.length ∧ most.all (text.length ≤ ·) = true then none else some failed

/-- Fails unless the number is between the two bounds. -/
def range (least most : Int) (failed : Failed) (n : Int) : Option Failed :=
  if least ≤ n ∧ n ≤ most then none else some failed

/-- Fails unless the text is an absolute URL. -/
def url (failed : Failed) (text : String) : Option Failed :=
  if Url.isAbsolute text then none else some failed

/-- Fails if the text holds the character. -/
def without (c : Char) (failed : Failed) (text : String) : Option Failed :=
  if text.toList.contains c then some failed else none

end IdentityProvider.Validation
