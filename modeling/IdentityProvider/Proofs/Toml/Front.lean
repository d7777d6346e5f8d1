import IdentityProvider.Proofs.Text.Runs
import IdentityProvider.Toml.Statement

/-
  What the readers of strings, keys and plain values take off the front of a text.

  A reader takes a front part off the text and looks at no more than the first character behind
  it, or the first two where a date may go on with a time.  So the same is read off the same front
  before everything that begins like the rest (`quoted?_front`, `gap?_front`, `keyPath?_front`,
  `bareValue?_front`).
-/

namespace IdentityProvider.Toml

/-! ## Beginnings -/

theorem head?_append_congr {rest other : List Char} (h : other.head? = rest.head?)
    (front : List Char) : (front ++ other).head? = (front ++ rest).head? := by
  rw [List.head?_append, List.head?_append, h]

theorem head?_append_cons (front : List Char) (c : Char) (rest other : List Char) :
    (front ++ c :: other).head? = (front ++ c :: rest).head? :=
  head?_append_congr (List.head?_cons.trans List.head?_cons.symm) front

theorem take_two_append_cons {rest other : List Char} (h : other.head? = rest.head?)
    (front : List Char) (c : Char) :
    (front ++ c :: other).take 2 = (front ++ c :: rest).take 2 := by
  match front with
  | [] => rw [List.nil_append, List.nil_append, List.take_succ_cons, List.take_succ_cons,
      List.take_one, List.take_one, h]
  | [_] => rfl
  | _ :: _ :: _ => rfl

theorem head?_eq_of_take {n : Nat} {rest other : List Char}
    (h : other.take (n + 1) = rest.take (n + 1)) : other.head? = rest.head? := by
  cases rest with
  | nil => rw [List.take_eq_nil_iff.mp (h.trans List.take_nil) |>.resolve_left (Nat.succ_ne_zero n)]
  | cons c rest =>
    cases other with
    | nil => cases h
    | cons d other => exact congrArg some (List.cons.inj h).1

/-- A run is found again in front of what begins in the same way. -/
theorem takeWhile_congr {kind : Char → Bool} {text other : List Char}
    (h : other.head? = (text.dropWhile kind).head?) :
    (text.takeWhile kind ++ other).takeWhile kind = text.takeWhile kind ∧
      (text.takeWhile kind ++ other).dropWhile kind = other := by
  have hstops : Text.StopsAt kind other := fun c hc =>
    Text.stopsAt_dropWhile kind text c (h ▸ hc)
  exact ⟨Text.takeWhile_run Text.mem_takeWhile_kind hstops,
    Text.dropWhile_run Text.mem_takeWhile_kind hstops⟩

/-! ## Strings -/

theorem numbered_append {width n : Nat} {front rest : List Char} {c : Char}
    (h : escape?.numbered width (front ++ rest) = some (c, n)) (hn : n ≤ front.length + 1)
    (other : List Char) : escape?.numbered width (front ++ other) = some (c, n) := by
  unfold escape?.numbered at h ⊢
  obtain ⟨hlength, hnumber⟩ := Option.ite_none_right_eq_some.mp h
  obtain ⟨d, hd, heq⟩ := Option.map_eq_some_iff.mp hnumber
  obtain ⟨rfl, rfl⟩ := Prod.mk.inj heq
  have hwidth : width ≤ front.length := by omega
  rw [List.take_append_of_le_length hwidth] at hlength hd ⊢
  rw [if_pos hlength, hd]
  rfl

/-- An escape is read from its own characters. -/
theorem escape?_append {n : Nat} {front rest : List Char} {c : Char}
    (h : escape? (front ++ rest) = some (c, n)) (hn : n < front.length) (other : List Char) :
    escape? (front ++ other) = some (c, n) := by
  cases front with
  | nil => exact absurd hn (Nat.not_lt_zero n)
  | cons d front =>
    have hn' : n ≤ front.length + 1 := by
      rw [List.length_cons] at hn
      omega
    rw [List.cons_append] at h ⊢
    unfold escape? at h
    split at h
    case h_9 | h_10 | h_11 =>
      -- the number stands behind its letter
      next heq =>
        obtain ⟨rfl, rfl⟩ := List.cons.inj heq
        exact numbered_append h hn' other
    case h_12 => cases h
    all_goals
      next heq =>
        obtain ⟨rfl, rfl⟩ := List.cons.inj heq
        exact h

theorem basic?_front {skip : Nat} {text value rest : List Char}
    (h : basic? skip text = some (value, rest)) :
    ∃ front, text = front ++ rest ∧ skip < front.length ∧
      ∀ other, basic? skip (front ++ other) = some (value, other) := by
  fun_induction basic? skip text generalizing value with
  | case1 => cases h
  | case2 skip c cs ih =>
    obtain ⟨front, rfl, hskip, hfront⟩ := ih h
    exact ⟨c :: front, rfl, Nat.succ_lt_succ hskip, hfront⟩
  | case3 cs =>
    cases h
    exact ⟨['"'], rfl, Nat.one_pos, fun _ => rfl⟩
  | case4 cs e n hescape _ ih =>
    obtain ⟨⟨inner, tail⟩, hinner, heq⟩ := Option.map_eq_some_iff.mp h
    cases heq
    obtain ⟨front, rfl, hskip, hfront⟩ := ih hinner
    refine ⟨'\\' :: front, rfl, Nat.succ_pos _, fun other => ?_⟩
    rw [List.cons_append, basic?, if_neg (by decide), if_pos rfl, escape?_append hescape hskip]
    show Option.map _ (basic? n (front ++ other)) = _
    rw [hfront]
    rfl
  | case5 => cases h
  | case6 => cases h
  | case7 c cs hquote hslash hcontrol ih =>
    obtain ⟨⟨inner, tail⟩, hinner, heq⟩ := Option.map_eq_some_iff.mp h
    cases heq
    obtain ⟨front, rfl, _, hfront⟩ := ih hinner
    refine ⟨c :: front, rfl, Nat.succ_pos _, fun other => ?_⟩
    rw [List.cons_append, basic?, if_neg hquote, if_neg hslash, if_neg hcontrol, hfront]
    rfl

theorem literal?_front {text value rest : List Char} (h : literal? text = some (value, rest)) :
    ∃ front, text = front ++ rest ∧ front ≠ [] ∧
      ∀ other, literal? (front ++ other) = some (value, other) := by
  fun_induction literal? text generalizing value with
  | case1 => cases h
  | case2 cs =>
    cases h
    exact ⟨['\''], rfl, List.cons_ne_nil _ _, fun _ => rfl⟩
  | case3 => cases h
  | case4 c cs hquote hcontrol ih =>
    obtain ⟨⟨inner, tail⟩, hinner, heq⟩ := Option.map_eq_some_iff.mp h
    cases heq
    obtain ⟨front, rfl, _, hfront⟩ := ih hinner
    refine ⟨c :: front, rfl, List.cons_ne_nil _ _, fun other => ?_⟩
    rw [List.cons_append, literal?, if_neg hquote, if_neg hcontrol, hfront]
    rfl

/-- Up to two quotes behind the closing ones belong to the string. -/
theorem closeLong_eq_iff {quote : Char} {text value rest : List Char} :
    closeLong quote text = (value, rest) ↔ text = value ++ rest ∧
      ((value = [] ∨ value = [quote]) ∧ rest.head? ≠ some quote ∨ value = [quote, quote]) := by
  constructor
  · intro h
    unfold closeLong at h
    split at h
    · split at h
      · next ha =>
        split at h
        · next hb =>
          cases h
          exact ⟨rfl, .inr (by rw [ha, hb])⟩
        · next hb =>
          cases h
          exact ⟨rfl, .inl ⟨.inr (by rw [ha]), fun hhead => hb (Option.some.inj hhead)⟩⟩
      · next ha =>
        cases h
        exact ⟨rfl, .inl ⟨.inl rfl, fun hhead => ha (Option.some.inj hhead)⟩⟩
    · split at h
      · next ha =>
        cases h
        exact ⟨rfl, .inl ⟨.inr (by rw [ha]), by simp⟩⟩
      · next ha =>
        cases h
        exact ⟨rfl, .inl ⟨.inl rfl, fun hhead => ha (Option.some.inj hhead)⟩⟩
    · cases h
      exact ⟨rfl, .inl ⟨.inl rfl, by simp⟩⟩
  · rintro ⟨rfl, ⟨rfl | rfl, hrest⟩ | rfl⟩
    · cases rest with
      | nil => rfl
      | cons a rest =>
        have ha : a ≠ quote := fun heq => hrest (congrArg some heq)
        cases rest with
        | nil => exact if_neg ha
        | cons b rest => exact if_neg ha
    · cases rest with
      | nil => exact if_pos rfl
      | cons b rest => exact (if_pos rfl).trans (if_neg fun heq => hrest (congrArg some heq))
    · exact (if_pos rfl).trans (if_pos rfl)

theorem isTriple_cons_append {quote c : Char} {front rest other : List Char}
    (h : 1 ≤ front.length) (hother : other.head? = rest.head?) :
    isTriple quote (c :: (front ++ other)) = isTriple quote (c :: (front ++ rest)) := by
  have htake : other.take (2 - front.length) = rest.take (2 - front.length) := by
    rcases Nat.le_one_iff_eq_zero_or_eq_one.mp (show 2 - front.length ≤ 1 by omega) with hn | hn
    · rw [hn, List.take_zero, List.take_zero]
    · rw [hn, List.take_one, List.take_one, hother]
  unfold isTriple
  rw [List.take_succ_cons, List.take_succ_cons, List.take_append, List.take_append, htake]

/-- The quotes at the end of a long string, with those that belong to it. -/
theorem exists_front_of_isTriple {quote : Char} {text value rest : List Char}
    (htriple : isTriple quote text = true) (h : closeLong quote (text.drop 3) = (value, rest)) :
    ∃ front, text = front ++ rest ∧ 3 ≤ front.length ∧ ∀ other, other.head? = rest.head? →
      isTriple quote (front ++ other) = true ∧
        closeLong quote ((front ++ other).drop 3) = (value, other) := by
  obtain ⟨hdrop, hvalue⟩ := closeLong_eq_iff.mp h
  have htake : text.take 3 = [quote, quote, quote] := of_decide_eq_true htriple
  refine ⟨[quote, quote, quote] ++ value, ?_, by simp, fun other hother => ⟨?_, ?_⟩⟩
  · rw [List.append_assoc, ← hdrop, ← htake, List.take_append_drop]
  · exact decide_eq_true rfl
  · exact closeLong_eq_iff.mpr ⟨rfl, hother ▸ hvalue⟩

theorem gapLength_cons {c d : Char} (h : ¬ (c = '\r' ∧ d = '\n')) (cs : List Char) :
    gapLength (c :: d :: cs) =
      if isSpace c || c = '\n' then gapLength (d :: cs) + 1 else 0 := by
  rw [gapLength]
  intro tail hc htail
  exact h ⟨hc, (List.cons.inj htail).1⟩

/-- The blanks and line ends at the start are found by looking two characters further. -/
theorem gapLength_append {front rest : List Char}
    (h : gapLength (front ++ rest) + 2 ≤ front.length) (other : List Char) :
    gapLength (front ++ other) = gapLength (front ++ rest) := by
  match front with
  | [] => exact absurd h (by simp)
  | [c] =>
    rw [List.length_singleton] at h
    omega
  | c :: d :: front =>
    by_cases hline : c = '\r' ∧ d = '\n'
    · obtain ⟨rfl, rfl⟩ := hline
      simp only [List.cons_append, gapLength, List.length_cons] at h ⊢
      have hrest : gapLength (front ++ rest) + 2 ≤ front.length := by omega
      rw [gapLength_append hrest other]
    · rw [List.cons_append, List.cons_append, gapLength_cons hline] at h
      rw [List.cons_append, List.cons_append, List.cons_append, List.cons_append,
        gapLength_cons hline, gapLength_cons hline]
      split
      · next hc =>
        rw [if_pos hc, List.length_cons] at h
        have hrest : gapLength (d :: front ++ rest) + 2 ≤ (d :: front).length := by
          rw [List.cons_append]
          omega
        rw [← List.cons_append, ← List.cons_append, gapLength_append hrest other]
      · rfl

theorem isLineRest_cons {c : Char} (h : isSpace c = true) (cs : List Char) :
    isLineRest (c :: cs) = isLineRest cs := by
  unfold isLineRest
  rw [List.dropWhile_cons_of_pos h]

theorem isLineRest_append {front rest : List Char} (h : isLineRest (front ++ rest) = true)
    (hgap : gapLength (front ++ rest) + 2 ≤ front.length) (other : List Char) :
    isLineRest (front ++ other) = true := by
  match front with
  | [] => exact absurd hgap (by simp)
  | [c] =>
    rw [List.length_singleton] at hgap
    omega
  | c :: d :: front =>
    rw [List.cons_append] at h ⊢
    by_cases hc : isSpace c = true
    · have hreturn : c ≠ '\r' := by
        rintro rfl
        exact absurd hc (by decide)
      rw [isLineRest_cons hc] at h ⊢
      refine isLineRest_append h ?_ other
      rw [List.cons_append, List.cons_append, gapLength_cons (fun hline => hreturn hline.1), hc,
        Bool.true_or, if_pos rfl, List.length_cons] at hgap
      rw [List.cons_append]
      omega
    · unfold isLineRest at h ⊢
      rw [List.dropWhile_cons_of_neg hc] at h ⊢
      split at h
      · next heq =>
        obtain ⟨rfl, _⟩ := List.cons.inj heq
        rfl
      · next heq =>
        obtain ⟨hreturn, hnext⟩ := List.cons.inj heq
        obtain ⟨rfl, _⟩ := List.cons.inj hnext
        rw [hreturn]
        rfl
      · cases h

/-- What can be escaped is not the end of a line. -/
theorem isLineRest_of_escape? {cs : List Char} {e : Char × Nat} (h : escape? cs = some e) :
    isLineRest cs = false := by
  unfold escape? at h
  split at h <;> first | rfl | cases h

theorem longBasic?_front {skip : Nat} {text value rest : List Char}
    (h : longBasic? skip text = some (value, rest)) :
    ∃ front, text = front ++ rest ∧ skip + 3 ≤ front.length ∧ ∀ other,
      other.head? = rest.head? → longBasic? skip (front ++ other) = some (value, other) := by
  fun_induction longBasic? skip text generalizing value with
  | case1 => cases h
  | case2 skip c cs ih =>
    obtain ⟨front, rfl, hskip, hfront⟩ := ih h
    refine ⟨c :: front, rfl, ?_, hfront⟩
    rw [List.length_cons]
    omega
  | case3 c cs htriple =>
    obtain ⟨front, htext, hlength, hfront⟩ :=
      exists_front_of_isTriple htriple (Option.some.inj h)
    refine ⟨front, htext, by omega, fun other hother => ?_⟩
    obtain ⟨htriple', hclose⟩ := hfront other hother
    cases front with
    | nil => cases hlength
    | cons d front =>
      rw [List.cons_append] at htriple' hclose ⊢
      rw [longBasic?, if_pos htriple']
      exact congrArg some hclose
  | case4 cs hline htriple ih =>
    obtain ⟨front, rfl, hskip, hfront⟩ := ih h
    refine ⟨'\\' :: front, rfl, by rw [List.length_cons]; omega, fun other hother => ?_⟩
    have hgap : gapLength (front ++ rest) + 2 ≤ front.length := by omega
    rw [← isTriple_cons_append (by omega) hother] at htriple
    rw [List.cons_append, longBasic?, if_neg htriple, if_pos rfl,
      if_pos (isLineRest_append hline hgap other), gapLength_append hgap other]
    exact hfront other hother
  | case5 cs hline e n hescape htriple ih =>
    obtain ⟨⟨inner, tail⟩, hinner, heq⟩ := Option.map_eq_some_iff.mp h
    cases heq
    obtain ⟨front, rfl, hskip, hfront⟩ := ih hinner
    refine ⟨'\\' :: front, rfl, by rw [List.length_cons]; omega, fun other hother => ?_⟩
    have hescape' := escape?_append hescape (by omega) other
    rw [← isTriple_cons_append (by omega) hother] at htriple
    rw [List.cons_append, longBasic?, if_neg htriple, if_pos rfl,
      isLineRest_of_escape? hescape', if_neg Bool.false_ne_true, hescape']
    show Option.map _ (longBasic? n (front ++ other)) = _
    rw [hfront other hother]
    rfl
  | case6 => cases h
  | case7 c cs htriple hslash hplain ih =>
    obtain ⟨⟨inner, tail⟩, hinner, heq⟩ := Option.map_eq_some_iff.mp h
    cases heq
    obtain ⟨front, rfl, hskip, hfront⟩ := ih hinner
    refine ⟨c :: front, rfl, by rw [List.length_cons]; omega, fun other hother => ?_⟩
    rw [← isTriple_cons_append (by omega) hother] at htriple
    rw [List.cons_append, longBasic?, if_neg htriple, if_neg hslash,
      head?_append_congr hother, if_pos hplain, hfront other hother]
    rfl
  | case8 => cases h

theorem longLiteral?_front {text value rest : List Char}
    (h : longLiteral? text = some (value, rest)) :
    ∃ front, text = front ++ rest ∧ 3 ≤ front.length ∧ ∀ other,
      other.head? = rest.head? → longLiteral? (front ++ other) = some (value, other) := by
  fun_induction longLiteral? text generalizing value with
  | case1 => cases h
  | case2 c cs htriple =>
    obtain ⟨front, htext, hlength, hfront⟩ :=
      exists_front_of_isTriple htriple (Option.some.inj h)
    refine ⟨front, htext, hlength, fun other hother => ?_⟩
    obtain ⟨htriple', hclose⟩ := hfront other hother
    cases front with
    | nil => cases hlength
    | cons d front =>
      rw [List.cons_append] at htriple' hclose ⊢
      rw [longLiteral?, if_pos htriple']
      exact congrArg some hclose
  | case3 c cs htriple hplain ih =>
    obtain ⟨⟨inner, tail⟩, hinner, heq⟩ := Option.map_eq_some_iff.mp h
    cases heq
    obtain ⟨front, rfl, hlength, hfront⟩ := ih hinner
    refine ⟨c :: front, rfl, by rw [List.length_cons]; omega, fun other hother => ?_⟩
    rw [← isTriple_cons_append (by omega) hother] at htriple
    rw [List.cons_append, longLiteral?, if_neg htriple,
      head?_append_congr hother, if_pos hplain, hfront other hother]
    rfl
  | case4 => cases h

/-- The line end at the start of a long string is passed over. -/
theorem afterLineEnd_front {text front rest : List Char}
    (h : afterLineEnd text = front ++ rest) (hlength : 2 ≤ front.length) :
    ∃ lineEnd, text = lineEnd ++ (front ++ rest) ∧
      ∀ other, afterLineEnd (lineEnd ++ (front ++ other)) = front ++ other := by
  match front with
  | [] | [_] => simp at hlength
  | c :: d :: front =>
    unfold afterLineEnd at h
    split at h
    · exact ⟨['\n'], by rw [h]; rfl, fun _ => rfl⟩
    · exact ⟨['\r', '\n'], by rw [h]; rfl, fun _ => rfl⟩
    · next hline hreturn =>
      refine ⟨[], h, fun other => ?_⟩
      rw [h] at hline hreturn
      unfold afterLineEnd
      split
      · next heq =>
        obtain ⟨rfl, _⟩ := List.cons.inj heq
        exact absurd rfl (hline _)
      · next heq =>
        obtain ⟨hc, hnext⟩ := List.cons.inj heq
        obtain ⟨hd, _⟩ := List.cons.inj hnext
        exact absurd (by rw [hc, hd]; rfl) (hreturn (front ++ rest))
      · rfl

theorem eq_of_isTriple {quote : Char} {text : List Char} (h : isTriple quote text = true) :
    text = [quote, quote, quote] ++ text.drop 3 := by
  have htake : text.take 3 = [quote, quote, quote] := of_decide_eq_true h
  rw [← htake, List.take_append_drop]

theorem quoted?_basic (cs : List Char) : quoted? ('"' :: cs) =
    if isTriple '"' ('"' :: cs) then longBasic? 0 (afterLineEnd (cs.drop 2)) else basic? 0 cs :=
  rfl

theorem quoted?_literal (cs : List Char) : quoted? ('\'' :: cs) =
    if isTriple '\'' ('\'' :: cs) then longLiteral? (afterLineEnd (cs.drop 2))
    else literal? cs :=
  rfl

/-- A string that opens with three quotes or with one. -/
theorem opened_front {quote : Char} {reader long short : List Char → Option (List Char × List Char)}
    (hreader : ∀ cs, reader (quote :: cs) =
      if isTriple quote (quote :: cs) then long (afterLineEnd (cs.drop 2)) else short cs)
    (hlong : ∀ {text value rest}, long text = some (value, rest) → ∃ front, text = front ++ rest ∧
      3 ≤ front.length ∧ ∀ other, other.head? = rest.head? →
        long (front ++ other) = some (value, other))
    (hshort : ∀ {text value rest}, short text = some (value, rest) →
      ∃ front, text = front ++ rest ∧ front ≠ [] ∧ ∀ other,
        short (front ++ other) = some (value, other))
    {cs value rest : List Char} (h : reader (quote :: cs) = some (value, rest)) :
    ∃ front, quote :: cs = front ++ rest ∧ front ≠ [] ∧ ∀ other,
      other.head? = rest.head? → reader (front ++ other) = some (value, other) := by
  rw [hreader] at h
  split at h
  · next htriple =>
    obtain ⟨front, hafter, hlength, hfront⟩ := hlong h
    obtain ⟨lineEnd, hdrop, hline⟩ := afterLineEnd_front hafter (by omega)
    refine ⟨[quote, quote, quote] ++ (lineEnd ++ front), ?_, List.cons_ne_nil _ _, ?_⟩
    · rw [eq_of_isTriple htriple, List.append_assoc, List.append_assoc]
      exact congrArg _ hdrop
    · intro other hother
      have hopen : isTriple quote (quote :: quote :: quote :: (lineEnd ++ (front ++ other))) =
          true := decide_eq_true rfl
      rw [List.append_assoc, List.append_assoc]
      show reader (quote :: (quote :: quote :: (lineEnd ++ (front ++ other)))) = _
      rw [hreader, if_pos hopen]
      show long (afterLineEnd (lineEnd ++ (front ++ other))) = _
      rw [hline, hfront other hother]
  · next htriple =>
    obtain ⟨front, rfl, hne, hfront⟩ := hshort h
    refine ⟨quote :: front, rfl, List.cons_ne_nil _ _, fun other hother => ?_⟩
    rw [← isTriple_cons_append (List.length_pos_iff.mpr hne) hother] at htriple
    rw [List.cons_append, hreader, if_neg htriple, hfront]

theorem quoted?_front {text value rest : List Char} (h : quoted? text = some (value, rest)) :
    ∃ front, text = front ++ rest ∧ front ≠ [] ∧ ∀ other,
      other.head? = rest.head? → quoted? (front ++ other) = some (value, other) := by
  cases text with
  | nil => cases h
  | cons c cs =>
    by_cases hbasic : c = '"'
    · subst hbasic
      refine opened_front quoted?_basic longBasic?_front (fun hshort => ?_) h
      obtain ⟨front, htext, hlength, hfront⟩ := basic?_front hshort
      exact ⟨front, htext, List.length_pos_iff.mp hlength, hfront⟩
    · by_cases hliteral : c = '\''
      · subst hliteral
        exact opened_front quoted?_literal longLiteral?_front literal?_front h
      · unfold quoted? at h
        split at h
        · next heq => exact absurd (List.cons.inj heq).1 hbasic
        · next heq => exact absurd (List.cons.inj heq).1 hliteral
        · cases h

/-! ## Gaps and keys -/

theorem gap?_front {inComment : Bool} {text rest : List Char}
    (h : gap? inComment text = some rest) : ∃ front, text = front ++ rest ∧
      ∀ other, other.head? = rest.head? → gap? inComment (front ++ other) = some other := by
  fun_induction gap? inComment text with
  | case1 =>
    cases h
    refine ⟨[], rfl, fun other hother => ?_⟩
    rw [List.head?_eq_none_iff.mp hother]
    rfl
  | case2 cs ih =>
    obtain ⟨front, rfl, hfront⟩ := ih h
    exact ⟨'\n' :: front, rfl, hfront⟩
  | case3 c cs hline hreturn ih =>
    obtain ⟨front, rfl, hfront⟩ := ih h
    refine ⟨c :: front, rfl, fun other hother => ?_⟩
    rw [List.cons_append, gap?, if_neg hline, head?_append_congr hother, if_pos hreturn]
    exact hfront other hother
  | case4 => cases h
  | case5 c cs hline hreturn hcontrol ih =>
    obtain ⟨front, rfl, hfront⟩ := ih h
    refine ⟨c :: front, rfl, fun other hother => ?_⟩
    rw [List.cons_append, gap?, if_neg hline, head?_append_congr hother, if_neg hreturn,
      if_neg hcontrol]
    exact hfront other hother
  | case6 c cs hblank ih =>
    obtain ⟨front, rfl, hfront⟩ := ih h
    refine ⟨c :: front, rfl, fun other hother => ?_⟩
    rw [List.cons_append, gap?, if_pos hblank]
    exact hfront other hother
  | case7 cs hhead hblank ih =>
    obtain ⟨front, rfl, hfront⟩ := ih h
    refine ⟨'\r' :: front, rfl, fun other hother => ?_⟩
    rw [List.cons_append, gap?, if_neg hblank, if_pos rfl, head?_append_congr hother, if_pos hhead]
    exact hfront other hother
  | case8 => cases h
  | case9 cs hblank hreturn ih =>
    obtain ⟨front, rfl, hfront⟩ := ih h
    refine ⟨'#' :: front, rfl, fun other hother => ?_⟩
    rw [List.cons_append, gap?, if_neg hblank, if_neg hreturn, if_pos rfl]
    exact hfront other hother
  | case10 c cs hblank hreturn hmark =>
    cases h
    refine ⟨[], rfl, fun other hother => ?_⟩
    obtain ⟨more, rfl⟩ : ∃ more, other = c :: more := List.head?_eq_some_iff.mp hother
    rw [List.nil_append, gap?, if_neg hblank, if_neg hreturn, if_neg hmark]

theorem key?_basic (cs : List Char) :
    key? ('"' :: cs) = (basic? 0 cs).map fun (key, rest) => (String.ofList key, rest) := rfl

theorem key?_literal (cs : List Char) :
    key? ('\'' :: cs) = (literal? cs).map fun (key, rest) => (String.ofList key, rest) := rfl

theorem key?_bare {text : List Char} (hbasic : text.head? ≠ some '"')
    (hliteral : text.head? ≠ some '\'') :
    key? text = if (text.takeWhile isKeyChar).isEmpty then none
      else some (String.ofList (text.takeWhile isKeyChar), text.dropWhile isKeyChar) := by
  unfold key?
  split
  · exact absurd rfl hbasic
  · exact absurd rfl hliteral
  · rfl

theorem key?_front {text rest : List Char} {key : String} (h : key? text = some (key, rest)) :
    ∃ front, text = front ++ rest ∧ front ≠ [] ∧
      ∀ other, other.head? = rest.head? → key? (front ++ other) = some (key, other) := by
  by_cases hbasic : text.head? = some '"'
  · obtain ⟨cs, rfl⟩ := List.head?_eq_some_iff.mp hbasic
    rw [key?_basic] at h
    obtain ⟨⟨value, tail⟩, hvalue, heq⟩ := Option.map_eq_some_iff.mp h
    cases heq
    obtain ⟨front, rfl, _, hfront⟩ := basic?_front hvalue
    refine ⟨'"' :: front, rfl, List.cons_ne_nil _ _, fun other _ => ?_⟩
    rw [List.cons_append, key?_basic, hfront]
    rfl
  by_cases hliteral : text.head? = some '\''
  · obtain ⟨cs, rfl⟩ := List.head?_eq_some_iff.mp hliteral
    rw [key?_literal] at h
    obtain ⟨⟨value, tail⟩, hvalue, heq⟩ := Option.map_eq_some_iff.mp h
    cases heq
    obtain ⟨front, rfl, _, hfront⟩ := literal?_front hvalue
    refine ⟨'\'' :: front, rfl, List.cons_ne_nil _ _, fun other _ => ?_⟩
    rw [List.cons_append, key?_literal, hfront]
    rfl
  rw [key?_bare hbasic hliteral] at h
  obtain ⟨hne, heq⟩ := Option.ite_none_left_eq_some.mp h
  cases heq
  rw [List.isEmpty_iff] at hne
  refine ⟨_, List.takeWhile_append_dropWhile.symm, hne, fun other hother => ?_⟩
  obtain ⟨htake, hdrop⟩ := takeWhile_congr hother
  have hhead := head?_append_congr hother (text.takeWhile isKeyChar)
  rw [List.takeWhile_append_dropWhile] at hhead
  rw [key?_bare (hhead ▸ hbasic) (hhead ▸ hliteral), htake, hdrop, if_neg]
  rwa [List.isEmpty_iff]

theorem keyPath?_succ_eq_some_iff {fuel : Nat} {text rest : List Char} {path : List String} :
    keyPath? (fuel + 1) text = some (path, rest) ↔ ∃ key behind, key? text = some (key, behind) ∧
      ((∃ more keys, behind.dropWhile isSpace = '.' :: more ∧
          keyPath? fuel (more.dropWhile isSpace) = some (keys, rest) ∧ path = key :: keys) ∨
        (rest.head? ≠ some '.' ∧ behind.dropWhile isSpace = rest ∧ path = [key])) := by
  rw [keyPath?]
  constructor
  · intro h
    obtain ⟨⟨key, behind⟩, hkey, h⟩ := Option.bind_eq_some_iff.mp h
    refine ⟨key, behind, hkey, ?_⟩
    dsimp only at h
    split at h
    · next more hmore =>
      obtain ⟨⟨keys, tail⟩, hkeys, heq⟩ := Option.bind_eq_some_iff.mp h
      cases heq
      exact .inl ⟨more, keys, hmore, hkeys, rfl⟩
    · next hpoint =>
      cases h
      refine .inr ⟨fun hhead => ?_, rfl, rfl⟩
      obtain ⟨more, hmore⟩ := List.head?_eq_some_iff.mp hhead
      exact hpoint more hmore
  · rintro ⟨key, behind, hkey, ⟨more, keys, hmore, hkeys, rfl⟩ | ⟨hpoint, rfl, rfl⟩⟩
    · rw [hkey]
      dsimp only [bind, Option.bind]
      rw [hmore]
      show (keyPath? fuel (more.dropWhile isSpace)).bind _ = _
      rw [hkeys]
      rfl
    · rw [hkey]
      dsimp only [bind, Option.bind]
      split
      · next hmore => exact absurd (by rw [hmore]; rfl) hpoint
      · rfl

theorem spaces_front {text rest : List Char} (h : text.dropWhile isSpace = rest) :
    ∃ front, text = front ++ rest ∧
      ∀ other, other.head? = rest.head? → (front ++ other).dropWhile isSpace = other := by
  refine ⟨text.takeWhile isSpace, ?_, fun other hother => ?_⟩
  · rw [← h, List.takeWhile_append_dropWhile]
  · exact (takeWhile_congr (h ▸ hother)).2

theorem keyPath?_front {fuel : Nat} {text rest : List Char} {path : List String}
    (h : keyPath? fuel text = some (path, rest)) :
    ∃ front, text = front ++ rest ∧ front ≠ [] ∧ ∀ fuel' other, front.length ≤ fuel' →
      other.head? = rest.head? → keyPath? fuel' (front ++ other) = some (path, other) := by
  induction fuel generalizing text path with
  | zero => cases h
  | succ fuel ih =>
    obtain ⟨key, behind, hkey, hpath⟩ := keyPath?_succ_eq_some_iff.mp h
    obtain ⟨front, rfl, hne, hfront⟩ := key?_front hkey
    have hlength := List.length_pos_iff.mpr hne
    obtain ⟨more, keys, hmore, hkeys, rfl⟩ | ⟨hpoint, hrest, rfl⟩ := hpath
    · obtain ⟨spaces, rfl, hspaces⟩ := spaces_front hmore
      obtain ⟨inner, hinner, _, hinnerFront⟩ := ih hkeys
      obtain ⟨spaces', rfl, hspaces'⟩ := spaces_front hinner
      refine ⟨front ++ (spaces ++ '.' :: (spaces' ++ inner)), by simp,
        List.append_ne_nil_of_left_ne_nil hne _, fun fuel' other hfuel hother => ?_⟩
      simp only [List.length_append, List.length_cons] at hfuel
      obtain ⟨fuel', rfl⟩ := Nat.exists_eq_succ_of_ne_zero (show fuel' ≠ 0 by omega)
      simp only [List.append_assoc, List.cons_append]
      have hinner' := head?_append_congr hother inner
      refine keyPath?_succ_eq_some_iff.mpr ⟨key, spaces ++ '.' :: (spaces' ++ (inner ++ other)), ?_,
        .inl ⟨spaces' ++ (inner ++ other), keys, ?_, ?_, rfl⟩⟩
      · exact hfront _ (head?_append_cons spaces '.' _ _)
      · exact hspaces _ rfl
      · rw [hspaces' _ hinner']
        exact hinnerFront fuel' other (by omega) hother
    · obtain ⟨spaces, rfl, hspaces⟩ := spaces_front hrest
      refine ⟨front ++ spaces, by simp, List.append_ne_nil_of_left_ne_nil hne _,
        fun fuel' other hfuel hother => ?_⟩
      rw [List.length_append] at hfuel
      obtain ⟨fuel', rfl⟩ := Nat.exists_eq_succ_of_ne_zero (show fuel' ≠ 0 by omega)
      rw [List.append_assoc]
      refine keyPath?_succ_eq_some_iff.mpr ⟨key, spaces ++ other, ?_, .inr ⟨?_, ?_, rfl⟩⟩
      · exact hfront _ (head?_append_congr hother spaces)
      · rwa [hother]
      · exact hspaces other hother

/-! ## Values -/

section

variable {text word rest : List Char}

/-- A date with a time behind a blank. -/
theorem bareValue?_dated {d : Char} {more : List Char} (htake : text.takeWhile isBareChar = word)
    (hdrop : text.dropWhile isBareChar = ' ' :: d :: more)
    (hdate : Moment.isDate word = true ∧ d.isDigit = true) :
    bareValue? text = (bare? (word ++ ' ' :: (d :: more).takeWhile isBareChar)).map
      fun value => (value, (d :: more).dropWhile isBareChar) := by
  unfold bareValue?
  rw [htake, hdrop]
  exact if_pos hdate

theorem bareValue?_undated (htake : text.takeWhile isBareChar = word)
    (hdrop : text.dropWhile isBareChar = rest)
    (hdate : ∀ d more, rest = ' ' :: d :: more →
      ¬ (Moment.isDate word = true ∧ d.isDigit = true)) :
    bareValue? text = (bare? word).map fun value => (value, rest) := by
  unfold bareValue?
  rw [htake, hdrop]
  dsimp only
  split
  · exact if_neg (hdate _ _ rfl)
  · rfl

end

theorem bare?_nil : bare? [] = none := by decide

/-- A value without quotes begins with a character that one can hold. -/
theorem bareValue?_cons_of_not {c : Char} (h : isBareChar c = false) (cs : List Char) :
    bareValue? (c :: cs) = none := by
  have hc : ¬ isBareChar c = true := by simp [h]
  rw [bareValue?_undated (List.takeWhile_cons_of_neg hc) (List.dropWhile_cons_of_neg hc)
    fun d more _ hdate => absurd hdate.1 (by decide), bare?_nil]
  rfl

theorem isBareChar_of_isDigit {c : Char} (h : c.isDigit = true) : isBareChar c = true := by
  have hne : ∀ d : Char, d.isDigit = false → c ≠ d := by
    rintro d hd rfl
    rw [h] at hd
    cases hd
  simp [isBareChar, isSpace, hne ' ' rfl, hne '\t' rfl, hne '\r' rfl, hne '\n' rfl, hne ',' rfl,
    hne '[' rfl, hne ']' rfl, hne '\x7b' rfl, hne '\x7d' rfl, hne '=' rfl, hne '#' rfl,
    hne '"' rfl, hne '\'' rfl]

theorem exists_eq_of_take_two {a b : Char} {more rest : List Char}
    (h : (a :: b :: more).take 2 = rest.take 2) : ∃ more', rest = a :: b :: more' := by
  match rest with
  | [] => cases h
  | [_] => cases h
  | c :: d :: rest =>
    obtain ⟨rfl, htail⟩ := List.cons.inj h
    obtain ⟨rfl, _⟩ := List.cons.inj htail
    exact ⟨rest, rfl⟩

theorem bareValue?_front {text rest : List Char} {value : Toml}
    (h : bareValue? text = some (value, rest)) : ∃ front, text = front ++ rest ∧ front ≠ [] ∧
      ∀ other, other.take 2 = rest.take 2 → bareValue? (front ++ other) = some (value, other) := by
  have htext : text = text.takeWhile isBareChar ++ text.dropWhile isBareChar :=
    List.takeWhile_append_dropWhile.symm
  by_cases hdated : ∃ d more, text.dropWhile isBareChar = ' ' :: d :: more ∧
      Moment.isDate (text.takeWhile isBareChar) = true ∧ d.isDigit = true
  · obtain ⟨d, more, hdrop, hdate, hdigit⟩ := hdated
    rw [bareValue?_dated rfl hdrop ⟨hdate, hdigit⟩] at h
    obtain ⟨_, hvalue, heq⟩ := Option.map_eq_some_iff.mp h
    cases heq
    have htime : (d :: more).takeWhile isBareChar = d :: more.takeWhile isBareChar :=
      List.takeWhile_cons_of_pos (isBareChar_of_isDigit hdigit)
    refine ⟨text.takeWhile isBareChar ++ ' ' :: (d :: more).takeWhile isBareChar, ?_,
      List.append_ne_nil_of_right_ne_nil _ (List.cons_ne_nil _ _), fun other hother => ?_⟩
    · rw [List.append_assoc, List.cons_append, List.takeWhile_append_dropWhile, ← hdrop, ← htext]
    · rw [List.append_assoc, List.cons_append]
      obtain ⟨htake', hdrop'⟩ := @takeWhile_congr isBareChar text
        (' ' :: ((d :: more).takeWhile isBareChar ++ other)) (by rw [hdrop]; rfl)
      obtain ⟨htake'', hdrop''⟩ := takeWhile_congr (head?_eq_of_take hother)
      rw [htime, List.cons_append] at htake'' hdrop'' hdrop'
      rw [htime, List.cons_append] at htake' ⊢
      rw [bareValue?_dated htake' hdrop' ⟨hdate, hdigit⟩, htake'', hdrop'', ← htime, hvalue]
      rfl
  · have hundated : ∀ d more, text.dropWhile isBareChar = ' ' :: d :: more →
        ¬ (Moment.isDate (text.takeWhile isBareChar) = true ∧ d.isDigit = true) :=
      fun d more hdrop hdate => hdated ⟨d, more, hdrop, hdate⟩
    rw [bareValue?_undated rfl rfl hundated] at h
    obtain ⟨_, hvalue, heq⟩ := Option.map_eq_some_iff.mp h
    cases heq
    refine ⟨text.takeWhile isBareChar, htext, fun hnil => ?_, fun other hother => ?_⟩
    · rw [hnil, bare?_nil] at hvalue
      cases hvalue
    · obtain ⟨htake', hdrop'⟩ := takeWhile_congr (head?_eq_of_take hother)
      rw [bareValue?_undated htake' hdrop', hvalue]
      · rfl
      · rintro d more rfl
        obtain ⟨more', hdrop⟩ := exists_eq_of_take_two hother
        exact hundated d more' hdrop

end IdentityProvider.Toml
