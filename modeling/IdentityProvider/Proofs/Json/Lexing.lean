import IdentityProvider.Json.Token

/-
  The lexer undoes the quotes.

  `Lexer.Reads cs ts` says that the characters `cs`, met where a token may start, come to the
  tokens `ts` and leave the lexer where a token may start again.  Such readings can be put one
  behind the other (`Reads.append`), and a quoted text reads as that text, whatever its characters
  are (`reads_quote`): nothing inside a text can be taken for a token.
-/

namespace IdentityProvider.Json

namespace Lexer

/-- The characters come to these tokens, from where a token may start to where one may start. -/
def Reads (cs : List Char) (ts : List Token) : Prop :=
  ∀ before, (cs.map some).foldl Progress.step ⟨.between, before⟩ =
    ⟨.between, ts.reverse ++ before⟩

theorem Reads.append {cs ds : List Char} {ts us : List Token} (h : Reads cs ts)
    (h' : Reads ds us) : Reads (cs ++ ds) (ts ++ us) := by
  intro before
  rw [List.map_append, List.foldl_append, h before, h' (ts.reverse ++ before),
    List.reverse_append, List.append_assoc]

theorem reads_char {c : Char} {t : Token} (h : betweenStep c = (.between, some t)) :
    Reads [c] [t] := by
  intro before
  show Progress.move before (betweenStep c) = _
  rw [h]
  rfl

theorem Reads.cons {c : Char} {t : Token} {cs : List Char} {ts : List Token}
    (hc : betweenStep c = (.between, some t)) (h : Reads cs ts) : Reads (c :: cs) (t :: ts) :=
  (reads_char hc).append h

/-! ## Texts -/

/-- Inside a string that has read `seen` so far, the latest character first. -/
def inside (seen : List Char) (before : List Token) : Progress :=
  ⟨.string .plain (some seen) none, before⟩

theorem step_plain {c : Char} (hquote : c ≠ '"') (hslash : c ≠ '\\') (hcontrol : ¬ c.toNat < 0x20)
    (seen : List Char) (before : List Token) :
    (inside seen before).step (some c) = inside (c :: seen) before := by
  show Progress.move before (stringStep .plain (some seen) none (some c)) = _
  simp only [stringStep, if_neg hquote, if_neg hslash, if_neg hcontrol]
  rfl

/-- A short escape stands for its character. -/
theorem foldl_short {c mark : Char} (hmark : mark ≠ 'u') (h : shortEscape? mark = some c)
    (seen : List Char) (before : List Token) :
    (['\\', mark].map some).foldl Progress.step (inside seen before) =
      inside (c :: seen) before := by
  show Progress.move before (stringStep .escape (some seen) none (some mark)) = _
  simp only [stringStep, if_neg hmark, h]
  rfl

theorem step_hex {d : Char} {n : Nat} (h : Text.Digits.value? d = some n) {count : Nat}
    (hcount : count ≠ 3) (code : Nat) (seen : List Char) (before : List Token) :
    Progress.step ⟨.string (.hex count code) (some seen) none, before⟩ (some d) =
      ⟨.string (.hex (count + 1) (code * 16 + n)) (some seen) none, before⟩ := by
  show Progress.move before (stringStep (.hex count code) (some seen) none (some d)) = _
  simp only [stringStep, h, if_neg hcount]
  rfl

theorem step_lastHex {d c : Char} {n code : Nat} (h : Text.Digits.value? d = some n)
    (hcode : code * 16 + n = c.toNat) (hsmall : c.toNat < 0xD800) (seen : List Char)
    (before : List Token) :
    Progress.step ⟨.string (.hex 3 code) (some seen) none, before⟩ (some d) =
      inside (c :: seen) before := by
  have hfirst : isFirstHalf c.toNat = false := by simp [isFirstHalf, Nat.not_le.mpr hsmall]
  have hsecond : isSecondHalf c.toNat = false := by
    rw [isSecondHalf, Bool.and_eq_false_iff]
    exact .inl (decide_eq_false (by omega))
  show Progress.move before (stringStep (.hex 3 code) (some seen) none (some d)) = _
  simp only [stringStep, h, hcode, pushNumber, hfirst, hsecond, Char.ofNat_toNat]
  rfl

/-- An escape by number stands for the control that has this number. -/
theorem foldl_number {c : Char} (h : c.toNat < 0x20) (seen : List Char) (before : List Token) :
    (['\\', 'u', '0', '0', Text.Digits.digit (c.toNat / 16), Text.Digits.digit (c.toNat % 16)].map
      some).foldl Progress.step (inside seen before) = inside (c :: seen) before := by
  have hhigh := Text.Digits.value?_digit (c.toNat / 16) (by omega)
  have hlow := Text.Digits.value?_digit (c.toNat % 16) (by omega)
  -- the two zeros lead to here
  show Progress.step (Progress.step ⟨.string (.hex 2 0) (some seen) none, before⟩
    (some (Text.Digits.digit (c.toNat / 16)))) (some (Text.Digits.digit (c.toNat % 16))) = _
  rw [step_hex hhigh (by decide)]
  exact step_lastHex hlow (by omega) (by omega) seen before

/-- A character as it is written inside a string reads as that character. -/
theorem foldl_escape (c : Char) (seen : List Char) (before : List Token) :
    ((escape c).map some).foldl Progress.step (inside seen before) =
      inside (c :: seen) before := by
  unfold escape
  split
  · next h =>
    subst h
    exact foldl_short (by decide) (by decide) seen before
  split
  · next h =>
    subst h
    exact foldl_short (by decide) (by decide) seen before
  split
  · next h =>
    subst h
    exact foldl_short (by decide) (by decide) seen before
  split
  · next h =>
    subst h
    exact foldl_short (by decide) (by decide) seen before
  split
  · next h =>
    subst h
    exact foldl_short (by decide) (by decide) seen before
  split
  · next h =>
    subst h
    exact foldl_short (by decide) (by decide) seen before
  split
  · next h =>
    subst h
    exact foldl_short (by decide) (by decide) seen before
  split
  · next h => exact foldl_number h seen before
  · next hquote hslash _ _ _ _ _ hcontrol => exact step_plain hquote hslash hcontrol seen before

theorem foldl_escapes (text seen : List Char) (before : List Token) :
    ((text.flatMap escape).map some).foldl Progress.step (inside seen before) =
      inside (text.reverse ++ seen) before := by
  induction text generalizing seen with
  | nil => rfl
  | cons c text ih =>
    rw [List.flatMap_cons, List.map_append, List.foldl_append, foldl_escape, ih,
      List.reverse_cons, List.append_assoc]
    rfl

/-- A quoted text reads as that text. -/
theorem reads_quote (text : List Char) : Reads (quote text) [.string (some text)] := by
  intro before
  show ((text.flatMap escape ++ ['"']).map some).foldl Progress.step (inside [] before) = _
  rw [List.map_append, List.foldl_append, foldl_escapes, List.append_nil]
  show Progress.move before (.between, some (.string (some text.reverse.reverse))) = _
  rw [List.reverse_reverse]
  rfl

end Lexer

end IdentityProvider.Json
