import IdentityProvider.Placeholder
import IdentityProvider.Proofs.Text.Runs

/-
  Reading a placeholder and spelling one are inverse.

  A blank is no key character, and neither a bar nor a brace is one of the two, so every run of
  the reader stops where the grammar starts the next token.  `read?_eq_some_iff`: `read?` finds a
  placeholder exactly if a spelling of it stands at the start of the text.  `spells_unique`: a text
  begins with at most one spelling, and that spells one placeholder.
-/

namespace IdentityProvider.Placeholder

open Text

/-! ## The kinds of characters -/

theorem toNat_of_isKeyChar {c : Char} (h : isKeyChar c = true) :
    0x2E ≤ c.toNat ∧ c.toNat ≤ 0x7A := by
  delta isKeyChar Char.isAlphanum Char.isAlpha Char.isUpper Char.isLower Char.isDigit at h
  simp only [Bool.or_eq_true, Bool.and_eq_true, decide_eq_true_eq, ge_iff_le,
    UInt32.le_iff_toNat_le] at h
  have hc : c.val.toNat = c.toNat := rfl
  have hupper : 'A'.val.toNat = 0x41 ∧ 'Z'.val.toNat = 0x5A := ⟨rfl, rfl⟩
  have hlower : 'a'.val.toNat = 0x61 ∧ 'z'.val.toNat = 0x7A := ⟨rfl, rfl⟩
  have hdigit : '0'.val.toNat = 0x30 ∧ '9'.val.toNat = 0x39 := ⟨rfl, rfl⟩
  rcases h with (h | rfl) | rfl
  · omega
  · decide
  · decide

theorem toNat_of_isBlank {c : Char} (h : isBlank c = true) : c.toNat ≤ 0x20 ∨ 0x85 ≤ c.toNat := by
  rw [isBlank, inRanges, List.any_eq_true] at h
  obtain ⟨range, hrange, hc⟩ := h
  have hends : ∀ r ∈ blankRanges, r.2 ≤ 0x20 ∨ 0x85 ≤ r.1 := by decide
  have hend := hends range hrange
  simp only [Bool.and_eq_true, decide_eq_true_eq] at hc
  omega

theorem isBlank_of_isKeyChar {c : Char} (h : isKeyChar c = true) : isBlank c = false := by
  have hkey := toNat_of_isKeyChar h
  rw [Bool.eq_false_iff]
  intro hblank
  have := toNat_of_isBlank hblank
  omega

theorem IsKey.stopsAt_isBlank {key rest : List Char} (h : IsKey key) :
    StopsAt isBlank (key ++ rest) := by
  obtain ⟨hne, hkey⟩ := h
  cases key with
  | nil => exact absurd rfl hne
  | cons c key =>
    rw [List.cons_append, stopsAt_cons]
    exact isBlank_of_isKeyChar (hkey c List.mem_cons_self)

theorem Blanks.stopsAt_isKeyChar {blanks rest : List Char} (h : Blanks blanks)
    (hrest : StopsAt isKeyChar rest) : StopsAt isKeyChar (blanks ++ rest) := by
  cases blanks with
  | nil => exact hrest
  | cons c blanks =>
    rw [List.cons_append, stopsAt_cons, Bool.eq_false_iff]
    intro hkey
    have hblank := h c List.mem_cons_self
    rw [isBlank_of_isKeyChar hkey] at hblank
    cases hblank

theorem blanks_takeWhile (text : List Char) : Blanks (text.takeWhile isBlank) :=
  mem_takeWhile_kind

/-! ## The reader, token by token -/

theorem readFallback?_eq_some_iff {text fallback rest : List Char} :
    readFallback? text = some (fallback, rest) ↔
      ∃ inner outer, Blanks inner ∧ '"' ∉ fallback ∧ Blanks outer ∧ StopsAt isBlank rest ∧
        text = inner ++ fallbackOpening ++ fallback ++ fallbackClosing ++ outer ++ rest := by
  constructor
  · intro h
    simp only [readFallback?, bind, Option.bind_eq_some_iff, pure, Option.some.injEq,
      Prod.mk.injEq] at h
    obtain ⟨behind, hbehind, tail, htail, rfl, rfl⟩ := h
    rw [after?_eq_some] at hbehind htail
    refine ⟨text.takeWhile isBlank, tail.takeWhile isBlank, blanks_takeWhile text, ?_,
      blanks_takeWhile tail, stopsAt_dropWhile isBlank tail, ?_⟩
    · intro hquote
      have := mem_takeWhile_kind _ hquote
      simp at this
    · have hinner : text = text.takeWhile isBlank ++ (fallbackOpening ++ behind) := by
        rw [← hbehind, List.takeWhile_append_dropWhile]
      have hbody : behind = behind.takeWhile (· ≠ '"') ++ (fallbackClosing ++ tail) := by
        rw [← htail, List.takeWhile_append_dropWhile]
      have houter : tail = tail.takeWhile isBlank ++ tail.dropWhile isBlank :=
        List.takeWhile_append_dropWhile.symm
      calc text = text.takeWhile isBlank ++ (fallbackOpening ++ (behind.takeWhile (· ≠ '"') ++
              (fallbackClosing ++ tail))) := by rw [← hbody, ← hinner]
        _ = text.takeWhile isBlank ++ (fallbackOpening ++ (behind.takeWhile (· ≠ '"') ++
              (fallbackClosing ++ (tail.takeWhile isBlank ++ tail.dropWhile isBlank)))) := by
            rw [← houter]
        _ = _ := by simp only [List.append_assoc]
  · rintro ⟨inner, outer, hinner, hquote, houter, hrest, rfl⟩
    have hopening : ∀ tail, StopsAt isBlank (fallbackOpening ++ tail) := by
      intro tail
      rw [fallbackOpening, List.cons_append, stopsAt_cons]
      decide
    have hbody : ∀ c ∈ fallback, decide (c ≠ '"') = true := by
      intro c hc
      rw [decide_eq_true_eq]
      rintro rfl
      exact hquote hc
    have hclosing : ∀ tail, StopsAt (fun c => decide (c ≠ '"')) (fallbackClosing ++ tail) := by
      intro tail
      rw [fallbackClosing, List.cons_append, stopsAt_cons]
      decide
    simp only [readFallback?, bind, Option.bind_eq_some_iff, pure, Option.some.injEq,
      Prod.mk.injEq, List.append_assoc]
    refine ⟨fallback ++ (fallbackClosing ++ (outer ++ rest)), ?_, outer ++ rest, ?_, ?_, ?_⟩
    · rw [dropWhile_run hinner (hopening _), after?_eq_some]
    · rw [dropWhile_run hbody (hclosing _), after?_eq_some]
    · exact takeWhile_run hbody (hclosing _)
    · exact dropWhile_run houter hrest

/-- What may stand between the blanks behind a key and the end of the placeholder. -/
inductive EndSpells : Option (List Char) → List Char → Prop
  | bare : EndSpells none closing
  | withFallback (inner text outer : List Char) : Blanks inner → '"' ∉ text → Blanks outer →
    EndSpells (some text)
      ('|' :: inner ++ fallbackOpening ++ text ++ fallbackClosing ++ outer ++ closing)

theorem stopsAt_isBlank_closing (rest : List Char) : StopsAt isBlank (closing ++ rest) := by
  rw [closing, List.cons_append, stopsAt_cons]
  decide

theorem EndSpells.stopsAt {fallback : Option (List Char)} {spelling : List Char}
    (h : EndSpells fallback spelling) (rest : List Char) :
    StopsAt isBlank (spelling ++ rest) ∧ StopsAt isKeyChar (spelling ++ rest) := by
  cases h with
  | bare =>
    simp only [closing, List.cons_append, stopsAt_cons]
    decide
  | withFallback inner text outer =>
    simp only [List.cons_append, stopsAt_cons]
    decide

theorem readEnd?_eq_some_iff {text : List Char} {fallback : Option (List Char)}
    {rest : List Char} :
    readEnd? text = some (fallback, rest) ↔
      ∃ spelling, EndSpells fallback spelling ∧ text = spelling ++ rest := by
  constructor
  · intro h
    unfold readEnd? at h
    split at h
    · next tail =>
      simp only [bind, Option.bind_eq_some_iff, pure, Option.some.injEq, Prod.mk.injEq,
        Prod.exists] at h
      obtain ⟨f, behind, hread, r, hclosing, rfl, rfl⟩ := h
      rw [after?_eq_some] at hclosing
      obtain ⟨inner, outer, hinner, hquote, houter, -, rfl⟩ := readFallback?_eq_some_iff.mp hread
      refine ⟨_, .withFallback inner f outer hinner hquote houter, ?_⟩
      rw [hclosing]
      simp only [List.cons_append, List.append_assoc]
    · simp only [Option.map_eq_some_iff, Prod.mk.injEq] at h
      obtain ⟨r, hclosing, rfl, rfl⟩ := h
      rw [after?_eq_some] at hclosing
      exact ⟨closing, .bare, hclosing⟩
  · rintro ⟨spelling, hspelling, rfl⟩
    cases hspelling with
    | bare => rfl
    | withFallback inner text outer hinner hquote houter =>
      have hread : readFallback? (inner ++ fallbackOpening ++ text ++ fallbackClosing ++ outer ++
          (closing ++ rest)) = some (text, closing ++ rest) :=
        readFallback?_eq_some_iff.mpr ⟨inner, outer, hinner, hquote, houter,
          stopsAt_isBlank_closing rest, rfl⟩
      have hclosing : after? closing (closing ++ rest) = some rest := after?_eq_some.mpr rfl
      simp only [List.append_assoc] at hread
      simp only [List.cons_append, List.append_assoc, readEnd?, hread, hclosing, bind,
        Option.bind_some, pure]

theorem readKey?_eq_some_iff {inside : List Char} {p : Placeholder} {rest : List Char} :
    readKey? inside = some (p, rest) ↔
      ∃ after spelling, IsKey p.key ∧ Blanks after ∧ EndSpells p.fallback spelling ∧
        inside = p.key ++ (after ++ (spelling ++ rest)) := by
  constructor
  · intro h
    unfold readKey? at h
    split at h
    · cases h
    · next hne =>
      simp only [Option.map_eq_some_iff, Prod.mk.injEq, Prod.exists] at h
      obtain ⟨fallback, r, hend, rfl, rfl⟩ := h
      obtain ⟨spelling, hspelling, htail⟩ := readEnd?_eq_some_iff.mp hend
      refine ⟨(inside.dropWhile isKeyChar).takeWhile isBlank, spelling,
        ⟨hne, mem_takeWhile_kind⟩, blanks_takeWhile _, hspelling, ?_⟩
      rw [← htail, List.takeWhile_append_dropWhile, List.takeWhile_append_dropWhile]
  · rintro ⟨after, spelling, hkey, hafter, hspelling, rfl⟩
    obtain ⟨hblank, hkeyChar⟩ := hspelling.stopsAt rest
    have hstop := Blanks.stopsAt_isKeyChar hafter hkeyChar
    have hend : readEnd? (spelling ++ rest) = some (p.fallback, rest) :=
      readEnd?_eq_some_iff.mpr ⟨spelling, hspelling, rfl⟩
    rw [readKey?, takeWhile_run hkey.2 hstop, if_neg hkey.1, dropWhile_run hkey.2 hstop,
      dropWhile_run hafter hblank, hend]
    rfl

/-! ## The grammar -/

theorem spells_iff {p : Placeholder} {spelling : List Char} :
    Spells p spelling ↔
      ∃ before after last, Blanks before ∧ IsKey p.key ∧ Blanks after ∧
        EndSpells p.fallback last ∧
        spelling = opening ++ (before ++ (p.key ++ (after ++ last))) := by
  constructor
  · intro h
    cases h with
    | bare before key after hbefore hkey hafter =>
      refine ⟨before, after, closing, hbefore, hkey, hafter, .bare, ?_⟩
      simp only [List.append_assoc]
    | withFallback before key after inner text outer hbefore hkey hafter hinner hquote houter =>
      refine ⟨before, after, _, hbefore, hkey, hafter,
        .withFallback inner text outer hinner hquote houter, ?_⟩
      simp only [List.append_assoc, List.cons_append]
  · obtain ⟨key, fallback⟩ := p
    rintro ⟨before, after, last, hbefore, hkey, hafter, hlast, rfl⟩
    cases hlast with
    | bare =>
      have := Spells.bare before key after hbefore hkey hafter
      simpa only [List.append_assoc] using this
    | withFallback inner text outer hinner hquote houter =>
      have := Spells.withFallback before key after inner text outer hbefore hkey hafter hinner
        hquote houter
      simpa only [List.append_assoc, List.cons_append] using this

theorem read?_eq_some_iff {text : List Char} {p : Placeholder} {rest : List Char} :
    read? text = some (p, rest) ↔ ∃ spelling, Spells p spelling ∧ text = spelling ++ rest := by
  constructor
  · intro h
    simp only [read?, Option.bind_eq_some_iff] at h
    obtain ⟨behind, hopening, hkey⟩ := h
    rw [after?_eq_some] at hopening
    obtain ⟨after, last, hisKey, hafter, hlast, hinside⟩ := readKey?_eq_some_iff.mp hkey
    refine ⟨opening ++ (behind.takeWhile isBlank ++ (p.key ++ (after ++ last))),
      spells_iff.mpr ⟨_, after, last, blanks_takeWhile behind, hisKey, hafter, hlast, rfl⟩, ?_⟩
    simp only [List.append_assoc]
    rw [hopening, ← hinside, List.takeWhile_append_dropWhile]
  · rintro ⟨spelling, hspelling, rfl⟩
    obtain ⟨before, after, last, hbefore, hkey, hafter, hlast, rfl⟩ := spells_iff.mp hspelling
    have hread : readKey? (p.key ++ (after ++ (last ++ rest))) = some (p, rest) :=
      readKey?_eq_some_iff.mpr ⟨after, last, hkey, hafter, hlast, rfl⟩
    simp only [List.append_assoc, read?, Option.bind_eq_some_iff]
    refine ⟨before ++ (p.key ++ (after ++ (last ++ rest))), after?_eq_some.mpr rfl, ?_⟩
    rw [dropWhile_run hbefore hkey.stopsAt_isBlank, hread]

theorem spells_unique {p q : Placeholder} {a b restA restB : List Char} (ha : Spells p a)
    (hb : Spells q b) (h : a ++ restA = b ++ restB) : p = q ∧ a = b ∧ restA = restB := by
  have hreadA : read? (a ++ restA) = some (p, restA) := read?_eq_some_iff.mpr ⟨a, ha, rfl⟩
  have hreadB : read? (a ++ restA) = some (q, restB) := read?_eq_some_iff.mpr ⟨b, hb, h⟩
  rw [hreadA, Option.some.injEq, Prod.mk.injEq] at hreadB
  obtain ⟨rfl, rfl⟩ := hreadB
  exact ⟨rfl, List.append_cancel_right h, rfl⟩

end IdentityProvider.Placeholder
