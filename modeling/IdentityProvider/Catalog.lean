import IdentityProvider.Failure

/-
  The catalog of messages: the text that is shown for an error code.

  A catalog is a list of codes with their texts in which no code occurs twice; putting a text for
  a code replaces the one before.  `text?_put` says what a lookup finds after that, `keys_put`
  what becomes of the codes.  A code without a text stands for itself.
-/

namespace IdentityProvider

/-- Error codes with their texts, no code twice. -/
structure Catalog where
  entries : List (String × String)
  deriving DecidableEq, Repr

namespace Catalog

/-- The entries with `text` for `code`: in its old place, or at the end where the code is new. -/
def putIn (code text : String) : List (String × String) → List (String × String)
  | [] => [(code, text)]
  | (c, t) :: rest => if c = code then (code, text) :: rest else (c, t) :: putIn code text rest

/-- The catalog with `text` for `code`. -/
def put (catalog : Catalog) (code text : String) : Catalog := ⟨putIn code text catalog.entries⟩

/-- The text of a code, if it has one. -/
def text? (catalog : Catalog) (code : String) : Option String := catalog.entries.lookup code

/-- The text shown for a code: its own, or the code itself. -/
def resolve (catalog : Catalog) (code : String) : String := (catalog.text? code).getD code

/-- The codes that have a text. -/
def codes (catalog : Catalog) : List String := catalog.entries.map (·.1)

/-- How many codes have a text. -/
def size (catalog : Catalog) : Nat := catalog.entries.length

/-- The catalog with all these texts put into it, one after the other. -/
def overlay (catalog : Catalog) (pairs : List (String × String)) : Catalog :=
  pairs.foldl (fun c pair => c.put pair.1 pair.2) catalog

/-- The texts that need no settings. -/
def builtin : Catalog where
  entries :=
    [(ErrorCode.invalidRequest, "Invalid request"),
     (ErrorCode.invalidInput, "Invalid input"),
     (ErrorCode.invalidClientId, "Invalid client id"),
     (ErrorCode.invalidRedirectUri, "Invalid redirect URI"),
     (ErrorCode.invalidTransaction, "Invalid transaction"),
     (ErrorCode.invalidAuthToken, "Invalid or missing auth token"),
     (ErrorCode.unknownError, "Unknown error occurred")]

theorem lookup_putIn (code text key : String) (entries : List (String × String)) :
    (putIn code text entries).lookup key =
      if key = code then some text else entries.lookup key := by
  induction entries with
  | nil =>
    by_cases h : key = code
    · simp [putIn, h]
    · have hne : (key == code) = false := by simpa using h
      simp [putIn, List.lookup_cons, hne, h]
  | cons entry rest ih =>
    obtain ⟨c, t⟩ := entry
    by_cases hk : key = c
    · subst hk
      by_cases hc : key = code
      · simp [putIn, hc]
      · simp [putIn, hc]
    · have hne : (key == c) = false := by simpa using hk
      by_cases hc : c = code
      · subst hc; simp [putIn, List.lookup_cons, hne, hk]
      · simp [putIn, List.lookup_cons, hc, hne, ih]

theorem text?_put (catalog : Catalog) (code text key : String) :
    (catalog.put code text).text? key = if key = code then some text else catalog.text? key :=
  lookup_putIn code text key catalog.entries

theorem keys_putIn (code text : String) (entries : List (String × String)) :
    (putIn code text entries).map (·.1) =
      if code ∈ entries.map (·.1) then entries.map (·.1) else entries.map (·.1) ++ [code] := by
  induction entries with
  | nil => simp [putIn]
  | cons entry rest ih =>
    obtain ⟨c, t⟩ := entry
    by_cases hc : c = code
    · simp [putIn, hc]
    · have hc' : ¬ code = c := fun h => hc h.symm
      by_cases hm : code ∈ rest.map (·.1)
      · simp [putIn, hc, hc', ih, hm]
      · simp [putIn, hc, hc', ih, hm]

theorem codes_put (catalog : Catalog) (code text : String) :
    (catalog.put code text).codes =
      if code ∈ catalog.codes then catalog.codes else catalog.codes ++ [code] :=
  keys_putIn code text catalog.entries

theorem size_eq_length_codes (catalog : Catalog) : catalog.size = catalog.codes.length := by
  simp [size, codes]

end Catalog

end IdentityProvider
