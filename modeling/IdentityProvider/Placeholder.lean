import IdentityProvider.Text.Blank

/-
  Placeholders in a settings text.

  A placeholder is written `{{ env.NAME }}` or, with a fallback, `{{ env.NAME | default("text") }}`.
  `Spells` is that grammar; `read?` finds a placeholder at the start of a text and `parts` cuts a
  line into placeholders and the characters between them, leftmost first and without overlap.
-/

namespace IdentityProvider

/-- A placeholder: what it names, and the text that stands in where that has no value. -/
structure Placeholder where
  key : List Char
  fallback : Option (List Char)
  deriving DecidableEq, Repr

namespace Placeholder

open Text

/-- What a placeholder begins with. -/
def opening : List Char := ['\x7b', '\x7b']

/-- What a placeholder ends with. -/
def closing : List Char := ['\x7d', '\x7d']

/-- What stands before the text of a fallback. -/
def fallbackOpening : List Char := ['d', 'e', 'f', 'a', 'u', 'l', 't', '(', '"']

/-- What stands after the text of a fallback. -/
def fallbackClosing : List Char := ['"', ')']

/-- A character of a key: an ASCII letter or digit, a low line or a point. -/
def isKeyChar (c : Char) : Bool := c.isAlphanum || c = '_' || c = '.'

/-- A run of blanks, possibly empty. -/
def Blanks (cs : List Char) : Prop := ∀ c ∈ cs, isBlank c = true

/-- A key: one or more key characters. -/
def IsKey (key : List Char) : Prop := key ≠ [] ∧ ∀ c ∈ key, isKeyChar c = true

/-- The ways to write a placeholder. -/
inductive Spells : Placeholder → List Char → Prop
  | bare (before key after : List Char) : Blanks before → IsKey key → Blanks after →
    Spells ⟨key, none⟩ (opening ++ before ++ key ++ after ++ closing)
  | withFallback (before key after inner text outer : List Char) :
    Blanks before → IsKey key → Blanks after → Blanks inner → '"' ∉ text → Blanks outer →
    Spells ⟨key, some text⟩
      (opening ++ before ++ key ++ after ++ '|' :: inner ++ fallbackOpening ++ text ++
        fallbackClosing ++ outer ++ closing)

/-- A fallback, from behind its bar on, and what follows it and the blanks after it. -/
def readFallback? (text : List Char) : Option (List Char × List Char) := do
  let rest ← after? fallbackOpening (text.dropWhile isBlank)
  let tail ← after? fallbackClosing (rest.dropWhile (· ≠ '"'))
  return (rest.takeWhile (· ≠ '"'), tail.dropWhile isBlank)

/-- What follows a key and its blanks: an optional fallback and the end of the placeholder. -/
def readEnd? : List Char → Option (Option (List Char) × List Char)
  | '|' :: text => do
    let (fallback, rest) ← readFallback? text
    return (some fallback, ← after? closing rest)
  | text => (after? closing text).map fun rest => (none, rest)

/-- A placeholder from its key on, and what follows it. -/
def readKey? (inside : List Char) : Option (Placeholder × List Char) :=
  if inside.takeWhile isKeyChar = [] then none
  else (readEnd? ((inside.dropWhile isKeyChar).dropWhile isBlank)).map fun (fallback, rest) =>
    (⟨inside.takeWhile isKeyChar, fallback⟩, rest)

/-- The placeholder at the start of a text, and what follows it. -/
def read? (text : List Char) : Option (Placeholder × List Char) :=
  (after? opening text).bind fun behind => readKey? (behind.dropWhile isBlank)

/-- A part of a line: a character that stands for itself, or a placeholder. -/
inductive Part
  | plain (c : Char)
  | slot (placeholder : Placeholder)
  deriving DecidableEq, Repr

theorem after?_length_le {start text rest : List Char} (h : after? start text = some rest) :
    rest.length ≤ text.length := by
  rw [after?_eq_some] at h
  simp [h]

theorem readFallback?_length_le {text fallback rest : List Char}
    (h : readFallback? text = some (fallback, rest)) : rest.length ≤ text.length := by
  simp only [readFallback?, bind, Option.bind_eq_some_iff, pure, Option.some.injEq,
    Prod.mk.injEq] at h
  obtain ⟨inner, hinner, tail, htail, -, rfl⟩ := h
  have h₁ := after?_length_le hinner
  have h₂ := after?_length_le htail
  have h₃ := (List.dropWhile_sublist isBlank (l := text)).length_le
  have h₄ := (List.dropWhile_sublist (· ≠ '"') (l := inner)).length_le
  have h₅ := (List.dropWhile_sublist isBlank (l := tail)).length_le
  omega

theorem readEnd?_length_le {text : List Char} {fallback : Option (List Char)} {rest : List Char}
    (h : readEnd? text = some (fallback, rest)) : rest.length ≤ text.length := by
  unfold readEnd? at h
  split at h
  · simp only [bind, Option.bind_eq_some_iff, pure, Option.some.injEq, Prod.mk.injEq,
      Prod.exists] at h
    obtain ⟨f, tail, hf, r, hr, -, rfl⟩ := h
    have h₁ := readFallback?_length_le hf
    have h₂ := after?_length_le hr
    simp only [List.length_cons]
    omega
  · simp only [Option.map_eq_some_iff, Prod.mk.injEq] at h
    obtain ⟨r, hr, -, rfl⟩ := h
    exact after?_length_le hr

theorem readKey?_length_le {inside : List Char} {p : Placeholder} {rest : List Char}
    (h : readKey? inside = some (p, rest)) : rest.length ≤ inside.length := by
  unfold readKey? at h
  split at h
  · cases h
  · simp only [Option.map_eq_some_iff, Prod.mk.injEq, Prod.exists] at h
    obtain ⟨fallback, tail, hend, -, rfl⟩ := h
    have h₁ := readEnd?_length_le hend
    have h₂ := (List.dropWhile_sublist isBlank (l := inside.dropWhile isKeyChar)).length_le
    have h₃ := (List.dropWhile_sublist isKeyChar (l := inside)).length_le
    omega

theorem read?_length_lt {text : List Char} {p : Placeholder} {rest : List Char}
    (h : read? text = some (p, rest)) : rest.length < text.length := by
  simp only [read?, Option.bind_eq_some_iff] at h
  obtain ⟨behind, hbehind, hkey⟩ := h
  rw [after?_eq_some] at hbehind
  have h₁ := readKey?_length_le hkey
  have h₂ := (List.dropWhile_sublist isBlank (l := behind)).length_le
  have h₃ : text.length = behind.length + 2 := by simp [hbehind, opening]
  omega

/-- The parts of a line.  A placeholder is taken wherever one starts; elsewhere one character is
passed over and the search goes on behind it. -/
def parts (line : List Char) : List Part :=
  match h : read? line with
  | some (p, rest) =>
    have := read?_length_lt h
    .slot p :: parts rest
  | none => match line with
    | [] => []
    | c :: cs => .plain c :: parts cs
termination_by line.length

end Placeholder

end IdentityProvider
