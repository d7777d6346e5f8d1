import IdentityProvider.Text.Utf8

/-
  The environment: variables and their values.

  A value is a string of bytes.  Settings see only the values that are text; a variable whose
  value is not UTF-8 is to them as if it were not set.
-/

namespace IdentityProvider

/-- The variables that are set, with their values; the first of two with one name counts. -/
structure Environment where
  bindings : List (String × List UInt8)
  deriving DecidableEq, Repr

namespace Environment

/-- The value of a variable, if it is set. -/
def value? (env : Environment) (name : String) : Option (List UInt8) := env.bindings.lookup name

/-- The value of a variable, if it is set and is text. -/
def text? (env : Environment) (name : String) : Option String :=
  (env.value? name).bind Text.Utf8.text?

/-- The environment in which `name` has `value` and all else is as before. -/
def set (env : Environment) (name : String) (value : List UInt8) : Environment :=
  ⟨(name, value) :: env.bindings⟩

theorem value?_set (env : Environment) (name : String) (value : List UInt8) (key : String) :
    (env.set name value).value? key = if key = name then some value else env.value? key := by
  by_cases h : key = name
  · simp [value?, set, h]
  · have hne : (key == name) = false := by simpa using h
    simp [value?, set, List.lookup_cons, h, hne]

end Environment

end IdentityProvider
