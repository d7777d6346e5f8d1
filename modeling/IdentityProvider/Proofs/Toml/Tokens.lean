import IdentityProvider.Proofs.Placeholder.Grammar
import IdentityProvider.Proofs.Toml.Front

/-
  The characters of keys and of values without quotes.

  Both stand on one line and begin with a character that is neither blank, in the wider sense of
  White_Space, nor a number sign (`IsToken`).  A key in quotes may hold such characters, but it does
  not begin with one.
-/

namespace IdentityProvider.Toml

open Text (isBlank cutAt)

/-- A run of characters on one line that begins with neither a blank nor a number sign. -/
structure IsToken (token : List Char) : Prop where
  head : ∃ c more, token = c :: more ∧ isBlank c = false ∧ c ≠ '#'
  line : '\n' ∉ token

theorem IsToken.append {token more : List Char} (h : IsToken token) (hmore : '\n' ∉ more) :
    IsToken (token ++ more) where
  head := by
    obtain ⟨c, rest, rfl, hc⟩ := h.head
    exact ⟨c, rest ++ more, rfl, hc⟩
  line hmem := (List.mem_append.mp hmem).elim h.line hmore

theorem notMem_takeWhile {kind : Char → Bool} {c : Char} (h : kind c = false) (text : List Char) :
    c ∉ text.takeWhile kind := by
  intro hc
  rw [Text.mem_takeWhile_kind c hc] at h
  cases h

/-! ## Keys -/

theorem notMem_of_digits {radix n : Nat} {cs : List Char}
    (h : Text.Digits.number? radix cs = some n) : '\n' ∉ cs := by
  have hfold : ∀ (cs : List Char) (m : Nat),
      cs.foldlM (fun n c => (Text.Digits.valueIn? radix c).map (n * radix + ·)) m = some n →
        '\n' ∉ cs := by
    intro cs
    induction cs with
    | nil =>
      intro m _
      exact List.not_mem_nil
    | cons c cs ih =>
      intro m hm
      rw [List.foldlM_cons] at hm
      obtain ⟨next, hnext, hrest⟩ := Option.bind_eq_some_iff.mp hm
      obtain ⟨_, hdigit, _⟩ := Option.map_eq_some_iff.mp hnext
      refine List.not_mem_cons_of_ne_of_not_mem ?_ (ih next hrest)
      rintro rfl
      cases hdigit
  exact hfold cs 0 h

/-- An escape does not go over the end of a line. -/
theorem notMem_take_of_escape? {cs : List Char} {e : Char} {n : Nat}
    (h : escape? cs = some (e, n)) : '\n' ∉ cs.take n := by
  have hnumbered : ∀ width (cs : List Char), escape?.numbered width cs = some (e, n) →
      ∃ m, n = m + 1 ∧ '\n' ∉ cs.take m := by
    intro width cs h
    obtain ⟨_, hnumber⟩ := Option.ite_none_right_eq_some.mp h
    obtain ⟨_, hc, heq⟩ := Option.map_eq_some_iff.mp hnumber
    obtain ⟨_, hdigits, _⟩ := Option.bind_eq_some_iff.mp hc
    cases heq
    exact ⟨width, rfl, notMem_of_digits hdigits⟩
  unfold escape? at h
  split at h
  case h_9 | h_10 | h_11 =>
    -- the number stands behind its letter
    obtain ⟨m, rfl, hm⟩ := hnumbered _ _ h
    rw [List.take_succ_cons]
    exact List.not_mem_cons_of_ne_of_not_mem (by decide) hm
  case h_12 => cases h
  all_goals
    cases h
    simp

theorem basic?_line {skip : Nat} {text value rest : List Char}
    (h : basic? skip text = some (value, rest)) (hskip : '\n' ∉ text.take skip) :
    ∃ front, text = front ++ rest ∧ '\n' ∉ front := by
  fun_induction basic? skip text generalizing value with
  | case1 => cases h
  | case2 skip c cs ih =>
    obtain ⟨hc, hskip⟩ := List.ne_and_not_mem_of_not_mem_cons hskip
    obtain ⟨front, rfl, hfront⟩ := ih h hskip
    exact ⟨c :: front, rfl, List.not_mem_cons_of_ne_of_not_mem hc hfront⟩
  | case3 cs =>
    cases h
    exact ⟨['"'], rfl, by decide⟩
  | case4 cs e n hescape _ ih =>
    obtain ⟨⟨inner, tail⟩, hinner, heq⟩ := Option.map_eq_some_iff.mp h
    cases heq
    obtain ⟨front, rfl, hfront⟩ := ih hinner (notMem_take_of_escape? hescape)
    exact ⟨'\\' :: front, rfl, List.not_mem_cons_of_ne_of_not_mem (by decide) hfront⟩
  | case5 => cases h
  | case6 => cases h
  | case7 c cs hquote hslash hcontrol ih =>
    obtain ⟨⟨inner, tail⟩, hinner, heq⟩ := Option.map_eq_some_iff.mp h
    cases heq
    obtain ⟨front, rfl, hfront⟩ := ih hinner List.not_mem_nil
    refine ⟨c :: front, rfl, List.not_mem_cons_of_ne_of_not_mem ?_ hfront⟩
    rintro rfl
    exact hcontrol rfl

theorem literal?_line {text value rest : List Char} (h : literal? text = some (value, rest)) :
    ∃ front, text = front ++ rest ∧ '\n' ∉ front := by
  fun_induction literal? text generalizing value with
  | case1 => cases h
  | case2 cs =>
    cases h
    exact ⟨['\''], rfl, by decide⟩
  | case3 => cases h
  | case4 c cs hquote hcontrol ih =>
    obtain ⟨⟨inner, tail⟩, hinner, heq⟩ := Option.map_eq_some_iff.mp h
    cases heq
    obtain ⟨front, rfl, hfront⟩ := ih hinner
    refine ⟨c :: front, rfl, List.not_mem_cons_of_ne_of_not_mem ?_ hfront⟩
    rintro rfl
    exact hcontrol rfl

theorem isBlank_of_isKeyChar {c : Char} (h : isKeyChar c = true) : isBlank c = false := by
  simp only [isKeyChar, Bool.or_eq_true, decide_eq_true_eq] at h
  obtain (h | rfl) | rfl := h
  · exact Placeholder.isBlank_of_isKeyChar (by simp [Placeholder.isKeyChar, h])
  · decide
  · decide

theorem isToken_of_key? {text rest : List Char} {key : String} (h : key? text = some (key, rest)) :
    ∃ token, text = token ++ rest ∧ IsToken token := by
  by_cases hbasic : text.head? = some '"'
  · obtain ⟨cs, rfl⟩ := List.head?_eq_some_iff.mp hbasic
    rw [key?_basic] at h
    obtain ⟨⟨value, tail⟩, hvalue, heq⟩ := Option.map_eq_some_iff.mp h
    cases heq
    obtain ⟨front, rfl, hfront⟩ := basic?_line hvalue List.not_mem_nil
    exact ⟨'"' :: front, rfl, ⟨_, _, rfl, by decide, by decide⟩,
      List.not_mem_cons_of_ne_of_not_mem (by decide) hfront⟩
  by_cases hliteral : text.head? = some '\''
  · obtain ⟨cs, rfl⟩ := List.head?_eq_some_iff.mp hliteral
    rw [key?_literal] at h
    obtain ⟨⟨value, tail⟩, hvalue, heq⟩ := Option.map_eq_some_iff.mp h
    cases heq
    obtain ⟨front, rfl, hfront⟩ := literal?_line hvalue
    exact ⟨'\'' :: front, rfl, ⟨_, _, rfl, by decide, by decide⟩,
      List.not_mem_cons_of_ne_of_not_mem (by decide) hfront⟩
  rw [key?_bare hbasic hliteral] at h
  obtain ⟨hne, heq⟩ := Option.ite_none_left_eq_some.mp h
  cases heq
  refine ⟨_, List.takeWhile_append_dropWhile.symm, ?_, ?_⟩
  · obtain ⟨c, more, hmore⟩ := List.exists_cons_of_ne_nil (mt List.isEmpty_iff.mpr hne)
    have hc : isKeyChar c = true :=
      Text.mem_takeWhile_kind c (by rw [hmore]; exact List.mem_cons_self)
    refine ⟨c, more, hmore, isBlank_of_isKeyChar hc, ?_⟩
    rintro rfl
    cases hc
  · exact notMem_takeWhile rfl text

theorem isToken_of_keyPath? {fuel : Nat} {text rest : List Char} {path : List String}
    (h : keyPath? fuel text = some (path, rest)) :
    ∃ token, text = token ++ rest ∧ IsToken token := by
  induction fuel generalizing text path with
  | zero => cases h
  | succ fuel ih =>
    obtain ⟨key, behind, hkey, hpath⟩ := keyPath?_succ_eq_some_iff.mp h
    obtain ⟨token, rfl, htoken⟩ := isToken_of_key? hkey
    have hspaces : behind = behind.takeWhile isSpace ++ behind.dropWhile isSpace :=
      List.takeWhile_append_dropWhile.symm
    obtain ⟨more, keys, hmore, hkeys, rfl⟩ | ⟨_, hrest, rfl⟩ := hpath
    · obtain ⟨inner, hinner, hinnerToken⟩ := ih hkeys
      refine ⟨token ++ (behind.takeWhile isSpace ++ '.' :: (more.takeWhile isSpace ++ inner)), ?_,
        htoken.append ?_⟩
      · rw [List.append_assoc, List.append_assoc, List.cons_append, List.append_assoc, ← hinner,
          List.takeWhile_append_dropWhile, ← hmore, ← hspaces]
      · have hspace := @notMem_takeWhile isSpace '\n' rfl
        have hpoint : '\n' ≠ '.' := by decide
        simp only [List.mem_append, List.mem_cons, hspace, hpoint, hinnerToken.line, or_self,
          not_false_eq_true]
    · refine ⟨token ++ behind.takeWhile isSpace, ?_, htoken.append (notMem_takeWhile rfl behind)⟩
      rw [List.append_assoc, ← hrest, ← hspaces]

/-! ## Values without quotes -/

theorem isBlank_of_isDigit {c : Char} (h : c.isDigit = true) : isBlank c = false :=
  Placeholder.isBlank_of_isKeyChar (by simp [Placeholder.isKeyChar, Char.isAlphanum, h])

section

variable {c : Char}

theorem ne_of_isBlank (h : isBlank c = true) {d : Char} (hd : isBlank d = false) : c ≠ d := by
  rintro rfl
  rw [h] at hd
  cases hd

theorem isDigit_of_isBlank (h : isBlank c = true) : c.isDigit = false := by
  rw [Bool.eq_false_iff]
  intro hdigit
  rw [isBlank_of_isDigit hdigit] at h
  cases h

theorem isDigitRun_of_isBlank (h : isBlank c = true) (cs : List Char) :
    isDigitRun Char.isDigit (c :: cs) = false := by
  unfold isDigitRun
  split
  · next heq => cases heq
  · next heq =>
    cases heq
    exact isDigit_of_isBlank h
  · next heq =>
    cases heq
    rw [isDigit_of_isBlank h, Bool.false_and]
  · next heq =>
    cases heq
    rw [isDigit_of_isBlank h, Bool.false_and]

theorem isDecimal_of_isBlank (h : isBlank c = true) (cs : List Char) :
    isDecimal (c :: cs) = false := by
  rw [isDecimal, isDigitRun_of_isBlank h, Bool.false_and]

theorem cutAt_fst_cons {sep : Char} (h : c ≠ sep) (cs : List Char) :
    (cutAt sep (c :: cs)).1 = c :: (cutAt sep cs).1 := by
  rw [cutAt, if_neg h]

theorem isFloat_of_isBlank (h : isBlank c = true) (cs : List Char) : isFloat (c :: cs) = false := by
  unfold isFloat
  dsimp only
  rw [List.map_cons, if_neg (ne_of_isBlank h (by decide)),
    cutAt_fst_cons (ne_of_isBlank h (by decide)), cutAt_fst_cons (ne_of_isBlank h (by decide)),
    isDecimal_of_isBlank h]
  simp only [Bool.false_and]

theorem isNumber_of_isBlank (h : isBlank c = true) (cs : List Char) :
    isNumber (c :: cs) = false := by
  have hsign : unsigned (c :: cs) = c :: cs := by
    unfold unsigned
    split
    · next heq => exact absurd (List.cons.inj heq).1 (ne_of_isBlank h (by decide))
    · next heq => exact absurd (List.cons.inj heq).1 (ne_of_isBlank h (by decide))
    · rfl
  have hradix : isRadixed (c :: cs) = false := by
    have hzero : c ≠ '0' := ne_of_isBlank h (by decide)
    unfold isRadixed
    split
    all_goals first
      | rfl
      | next heq => exact absurd (List.cons.inj heq).1 hzero
  have hinf : c ≠ 'i' := ne_of_isBlank h (by decide)
  have hnan : c ≠ 'n' := ne_of_isBlank h (by decide)
  rw [isNumber, hsign, hradix, isDecimal_of_isBlank h, isFloat_of_isBlank h]
  simp [hinf, hnan]

theorem fixed?_of_isBlank (h : isBlank c = true) (width : Nat) (cs : List Char) :
    Moment.fixed? width (c :: cs) = none := by
  have hvalue : Text.Digits.valueIn? 10 c = none := by
    have hc := Placeholder.toNat_of_isBlank h
    unfold Text.Digits.valueIn? Text.Digits.value?
    split
    · omega
    · split
      · omega
      · split
        · omega
        · rfl
  unfold Moment.fixed? Text.Digits.number?
  rw [List.foldlM_cons, hvalue]
  exact ite_self none

theorem canonical?_of_isBlank (h : isBlank c = true) (cs : List Char) :
    Moment.canonical? (c :: cs) = none := by
  have hdate : Moment.isDate ((c :: cs).take 10) = false := by
    unfold Moment.isDate
    rw [List.take_succ_cons, List.take_succ_cons, fixed?_of_isBlank h]
  have htime : Moment.isHourMinute ((c :: cs).take 5) = false := by
    unfold Moment.isHourMinute Moment.isUpTo
    rw [List.take_succ_cons, List.take_succ_cons, fixed?_of_isBlank h]
    rfl
  rw [Moment.canonical?, hdate, if_neg Bool.false_ne_true, Moment.time?, htime,
    if_neg Bool.false_ne_true]

/-- A value without quotes does not begin with a blank. -/
theorem bare?_of_isBlank (h : isBlank c = true) (cs : List Char) : bare? (c :: cs) = none := by
  have htrue : c ≠ 't' := ne_of_isBlank h (by decide)
  have hfalse : c ≠ 'f' := ne_of_isBlank h (by decide)
  rw [bare?, if_neg (by simp [htrue]), if_neg (by simp [hfalse]), isNumber_of_isBlank h,
    if_neg Bool.false_ne_true, canonical?_of_isBlank h]
  rfl

end

theorem isToken_of_bare? {word more : List Char} {value : Toml}
    (hword : ∀ c ∈ word, isBareChar c = true) (hne : word ≠ [])
    (h : bare? (word ++ more) = some value) : IsToken word where
  head := by
    obtain ⟨c, rest, rfl⟩ := List.exists_cons_of_ne_nil hne
    refine ⟨c, rest, rfl, ?_, ?_⟩
    · rw [Bool.eq_false_iff]
      intro hblank
      rw [List.cons_append, bare?_of_isBlank hblank] at h
      cases h
    · rintro rfl
      cases hword _ List.mem_cons_self
  line hline := by cases hword _ hline

theorem isToken_of_bareValue? {text rest : List Char} {value : Toml}
    (h : bareValue? text = some (value, rest)) : ∃ token, text = token ++ rest ∧ IsToken token := by
  have htext : text = text.takeWhile isBareChar ++ text.dropWhile isBareChar :=
    List.takeWhile_append_dropWhile.symm
  by_cases hdated : ∃ d more, text.dropWhile isBareChar = ' ' :: d :: more ∧
      Moment.isDate (text.takeWhile isBareChar) = true ∧ d.isDigit = true
  · obtain ⟨d, more, hdrop, hdate, hdigit⟩ := hdated
    rw [bareValue?_dated rfl hdrop ⟨hdate, hdigit⟩] at h
    obtain ⟨_, hvalue, heq⟩ := Option.map_eq_some_iff.mp h
    cases heq
    have hne : text.takeWhile isBareChar ≠ [] := by
      intro hnil
      rw [hnil] at hdate
      cases hdate
    have hline : '\n' ∉ ' ' :: (d :: more).takeWhile isBareChar :=
      List.not_mem_cons_of_ne_of_not_mem (by decide) (notMem_takeWhile rfl _)
    refine ⟨_, ?_, (isToken_of_bare? Text.mem_takeWhile_kind hne hvalue).append hline⟩
    rw [List.append_assoc, List.cons_append, List.takeWhile_append_dropWhile, ← hdrop, ← htext]
  · rw [bareValue?_undated rfl rfl fun d more hdrop hdate => hdated ⟨d, more, hdrop, hdate⟩] at h
    obtain ⟨_, hvalue, heq⟩ := Option.map_eq_some_iff.mp h
    cases heq
    have hne : text.takeWhile isBareChar ≠ [] := by
      intro hnil
      rw [hnil, bare?_nil] at hvalue
      cases hvalue
    rw [← List.append_nil (text.takeWhile isBareChar)] at hvalue
    exact ⟨_, htext, isToken_of_bare? Text.mem_takeWhile_kind hne hvalue⟩

end IdentityProvider.Toml
