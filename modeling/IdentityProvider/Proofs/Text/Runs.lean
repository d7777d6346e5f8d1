import IdentityProvider.Text.Blank

/-
  Where the runs and the pieces of a text end.

  A run of characters of one kind is taken as a whole if what follows it does not go on in the
  same kind (`takeWhile_run`, `dropWhile_run`); a cut at a separator leaves no separator in front
  (`cutAt_eq_some_iff`), and pieces without separators are found again in the text that joins
  them (`splitOn_joinWith`).  A mark is found where it first occurs (`afterFirst?_eq_some_iff`),
  and never across a character that it does not hold (`infix_append_cons`).
-/

namespace IdentityProvider.Text

/-- The text does not begin with a character of this kind. -/
def StopsAt (kind : Char → Bool) (text : List Char) : Prop :=
  ∀ c, text.head? = some c → kind c = false

theorem stopsAt_cons {kind : Char → Bool} {c : Char} {text : List Char} :
    StopsAt kind (c :: text) ↔ kind c = false := by
  constructor
  · intro h
    exact h c rfl
  · intro h d hd
    cases hd
    exact h

theorem stopsAt_dropWhile (kind : Char → Bool) (text : List Char) :
    StopsAt kind (text.dropWhile kind) := by
  intro c h
  have hnot := List.head?_dropWhile_not kind text
  rw [h] at hnot
  exact hnot

theorem StopsAt.takeWhile_eq_nil {kind : Char → Bool} {text : List Char}
    (h : StopsAt kind text) : text.takeWhile kind = [] := by
  cases text with
  | nil => rfl
  | cons c text => rw [List.takeWhile_cons, stopsAt_cons.mp h]; rfl

theorem StopsAt.dropWhile_eq_self {kind : Char → Bool} {text : List Char}
    (h : StopsAt kind text) : text.dropWhile kind = text := by
  cases text with
  | nil => rfl
  | cons c text => rw [List.dropWhile_cons, stopsAt_cons.mp h]; rfl

theorem takeWhile_run {kind : Char → Bool} {run rest : List Char}
    (hrun : ∀ c ∈ run, kind c = true) (hrest : StopsAt kind rest) :
    (run ++ rest).takeWhile kind = run := by
  rw [List.takeWhile_append_of_pos hrun, hrest.takeWhile_eq_nil, List.append_nil]

theorem dropWhile_run {kind : Char → Bool} {run rest : List Char}
    (hrun : ∀ c ∈ run, kind c = true) (hrest : StopsAt kind rest) :
    (run ++ rest).dropWhile kind = rest := by
  rw [List.dropWhile_append_of_pos hrun, hrest.dropWhile_eq_self]

theorem mem_takeWhile_kind {kind : Char → Bool} {text : List Char} :
    ∀ c ∈ text.takeWhile kind, kind c = true :=
  List.all_eq_true.mp List.all_takeWhile

theorem cutAt_eq_some_iff {sep : Char} {text front back : List Char} :
    cutAt sep text = (front, some back) ↔ text = front ++ sep :: back ∧ sep ∉ front := by
  induction text generalizing front with
  | nil => simp [cutAt]
  | cons c text ih =>
    by_cases hc : c = sep
    · subst hc
      cases front with
      | nil => simp [cutAt]
      | cons d front =>
        simp only [cutAt, if_true, Prod.mk.injEq, List.nil_eq, reduceCtorEq, false_and,
          List.cons_append, List.cons.injEq, List.mem_cons, not_or, false_iff, not_and]
        intro h hne
        exact absurd h.1 hne
    · cases front with
      | nil =>
        simp only [cutAt, if_neg hc, Prod.mk.injEq, reduceCtorEq, false_and, List.nil_append,
          List.cons.injEq, false_iff, not_and]
        intro h
        exact absurd h.1 hc
      | cons d front =>
        have hcut := @ih front
        rw [cutAt, if_neg hc, Prod.mk.injEq, List.cons.injEq, List.cons_append, List.cons.injEq,
          List.mem_cons, not_or]
        rw [Prod.ext_iff] at hcut
        constructor
        · rintro ⟨⟨rfl, hfront⟩, hback⟩
          obtain ⟨htext, hmem⟩ := hcut.mp ⟨hfront, hback⟩
          exact ⟨⟨rfl, htext⟩, fun h => hc h.symm, hmem⟩
        · rintro ⟨⟨rfl, htext⟩, -, hmem⟩
          obtain ⟨hfront, hback⟩ := hcut.mpr ⟨htext, hmem⟩
          exact ⟨⟨rfl, hfront⟩, hback⟩

theorem cutAt_eq_none_iff {sep : Char} {text front : List Char} :
    cutAt sep text = (front, none) ↔ front = text ∧ sep ∉ text := by
  induction text generalizing front with
  | nil => simp [cutAt, eq_comm]
  | cons c text ih =>
    by_cases hc : c = sep
    · simp [cutAt, hc]
    · have hcut := @ih (cutAt sep text).1
      rw [Prod.ext_iff] at hcut
      simp only [true_and] at hcut
      rw [cutAt, if_neg hc, Prod.mk.injEq, List.mem_cons, not_or]
      constructor
      · rintro ⟨rfl, hback⟩
        obtain ⟨hfront, hmem⟩ := hcut.mp hback
        exact ⟨by rw [hfront], Ne.symm hc, hmem⟩
      · rintro ⟨rfl, -, hmem⟩
        have hback : (cutAt sep text).2 = none := congrArg Prod.snd (ih.mpr ⟨rfl, hmem⟩)
        exact ⟨by rw [(hcut.mp hback).1], hback⟩

theorem splitOn_piece {sep : Char} {piece rest : List Char} (h : sep ∉ piece) :
    splitOn sep (piece ++ sep :: rest) = piece :: splitOn sep rest := by
  induction piece with
  | nil => rw [List.nil_append, splitOn, if_pos rfl]
  | cons c piece ih =>
    rw [List.mem_cons, not_or] at h
    rw [List.cons_append, splitOn, if_neg (Ne.symm h.1), ih h.2]

theorem splitOn_of_notMem {sep : Char} {text : List Char} (h : sep ∉ text) :
    splitOn sep text = [text] := by
  induction text with
  | nil => rfl
  | cons c text ih =>
    rw [List.mem_cons, not_or] at h
    rw [splitOn, if_neg (Ne.symm h.1), ih h.2]

/-- A piece holds only characters of the text. -/
theorem mem_of_mem_splitOn {sep c : Char} {text piece : List Char}
    (hpiece : piece ∈ splitOn sep text) (hc : c ∈ piece) : c ∈ text := by
  induction text generalizing piece with
  | nil =>
    rw [splitOn, List.mem_singleton] at hpiece
    rw [hpiece] at hc
    exact hc
  | cons d text ih =>
    rw [splitOn] at hpiece
    split at hpiece
    · rcases List.mem_cons.mp hpiece with rfl | hpiece
      · cases hc
      · exact List.mem_cons_of_mem d (ih hpiece hc)
    · split at hpiece
      · rw [List.mem_singleton.mp hpiece] at hc
        exact List.mem_cons.mpr (.inl (List.mem_singleton.mp hc))
      · next first rest heq =>
        rw [heq] at ih
        rcases List.mem_cons.mp hpiece with rfl | hpiece
        · rcases List.mem_cons.mp hc with rfl | hc
          · exact List.mem_cons_self
          · exact List.mem_cons_of_mem d (ih List.mem_cons_self hc)
        · exact List.mem_cons_of_mem d (ih (List.mem_cons_of_mem first hpiece) hc)

/-- A piece holds no separator. -/
theorem notMem_of_mem_splitOn {sep : Char} {text piece : List Char}
    (hpiece : piece ∈ splitOn sep text) : sep ∉ piece := by
  induction text generalizing piece with
  | nil =>
    rw [splitOn, List.mem_singleton] at hpiece
    rw [hpiece]
    exact List.not_mem_nil
  | cons c text ih =>
    rw [splitOn] at hpiece
    split at hpiece
    · rcases List.mem_cons.mp hpiece with rfl | hpiece
      · exact List.not_mem_nil
      · exact ih hpiece
    · next hc =>
      split at hpiece
      · rw [List.mem_singleton.mp hpiece]
        exact fun hsep => hc (List.mem_singleton.mp hsep).symm
      · next first rest heq =>
        rw [heq] at ih
        rcases List.mem_cons.mp hpiece with rfl | hpiece
        · exact List.not_mem_cons_of_ne_of_not_mem (Ne.symm hc) (ih List.mem_cons_self)
        · exact ih (List.mem_cons_of_mem first hpiece)

/-- Pieces that hold no separator are found again. -/
theorem splitOn_joinWith {sep : Char} {pieces : List (List Char)} (hne : pieces ≠ [])
    (h : ∀ piece ∈ pieces, sep ∉ piece) : splitOn sep (joinWith sep pieces) = pieces := by
  induction pieces with
  | nil => exact absurd rfl hne
  | cons piece pieces ih =>
    rw [List.forall_mem_cons] at h
    cases pieces with
    | nil => exact splitOn_of_notMem h.1
    | cons next pieces =>
      have hrest := List.cons_ne_nil next pieces
      rw [joinWith_cons hrest, splitOn_piece h.1, ih hrest h.2]

/-! ## Where a mark occurs -/

/-- The text goes on like this behind the first place at which the mark occurs. -/
def FollowsFirst (mark text rest : List Char) : Prop :=
  ∃ front, text = front ++ mark ++ rest ∧
    ∀ earlier later, text = earlier ++ mark ++ later → front.length ≤ earlier.length

/-- What follows the mark elsewhere is a part of what follows its first place. -/
theorem FollowsFirst.suffix {mark text rest earlier later : List Char}
    (h : FollowsFirst mark text rest) (htext : text = earlier ++ mark ++ later) :
    later <:+ rest := by
  obtain ⟨front, hfront, hfirst⟩ := h
  have hle := hfirst earlier later htext
  have hlength := congrArg List.length (hfront.symm.trans htext)
  simp only [List.length_append] at hlength
  have hrest : rest <:+ text := hfront ▸ List.suffix_append _ _
  have hlater : later <:+ text := htext ▸ List.suffix_append _ _
  exact List.suffix_of_suffix_length_le hlater hrest (by omega)

theorem afterFirst?_eq_none_iff {mark text : List Char} :
    afterFirst? mark text = none ↔ ¬ mark <:+: text := by
  have hafter : ∀ text, after? mark text = none ↔ ¬ mark <+: text := by
    intro text
    rw [Option.eq_none_iff_forall_ne_some]
    constructor
    · rintro h ⟨rest, htext⟩
      exact h rest (after?_eq_some.mpr htext.symm)
    · intro h rest hrest
      exact h ⟨rest, (after?_eq_some.mp hrest).symm⟩
  induction text with
  | nil => rw [afterFirst?, hafter, List.prefix_nil, List.infix_nil]
  | cons c text ih =>
    rw [afterFirst?, List.infix_cons_iff, not_or, ← hafter]
    cases after? mark (c :: text) with
    | none => exact ih.trans (and_iff_right rfl).symm
    | some rest => simp only [reduceCtorEq, false_and]

theorem afterFirst?_eq_some_iff {mark text rest : List Char} :
    afterFirst? mark text = some rest ↔ FollowsFirst mark text rest := by
  induction text with
  | nil =>
    rw [afterFirst?, after?_eq_some]
    constructor
    · intro h
      exact ⟨[], h, fun _ _ _ => Nat.zero_le _⟩
    · rintro ⟨front, h, -⟩
      have hfront : front = [] := by
        cases front with
        | nil => rfl
        | cons d front => cases h
      rw [h, hfront]
      rfl
  | cons c text ih =>
    rw [afterFirst?]
    cases hafter : after? mark (c :: text) with
    | some found =>
      have hfound := after?_eq_some.mp hafter
      constructor
      · rintro h
        cases h
        exact ⟨[], hfound, fun _ _ _ => Nat.zero_le _⟩
      · rintro ⟨front, htext, hfirst⟩
        have hfront : front = [] := List.eq_nil_of_length_eq_zero
          (Nat.le_zero.mp (hfirst [] found hfound))
        rw [hfront] at htext
        rw [List.append_cancel_left (hfound.symm.trans htext)]
    | none =>
      have hnone : ∀ later, c :: text ≠ mark ++ later := by
        intro later h
        rw [after?_eq_some.mpr h] at hafter
        cases hafter
      dsimp only
      rw [ih]
      constructor
      · rintro ⟨front, rfl, hfirst⟩
        refine ⟨c :: front, rfl, ?_⟩
        intro earlier later htext
        cases earlier with
        | nil => exact absurd htext (hnone later)
        | cons d earlier =>
          rw [List.cons_append, List.cons_append, List.cons.injEq] at htext
          exact Nat.succ_le_succ (hfirst earlier later htext.2)
      · rintro ⟨front, htext, hfirst⟩
        cases front with
        | nil => exact absurd htext (hnone rest)
        | cons d front =>
          rw [List.cons_append, List.cons_append, List.cons.injEq] at htext
          refine ⟨front, htext.2, ?_⟩
          intro earlier later h
          exact Nat.le_of_succ_le_succ (hfirst (c :: earlier) later (by rw [h]; rfl))

/-- Of two places at which a character stands, one is the other, or comes before it. -/
theorem append_cons_eq_append_cons {a b x y : List Char} {c : Char}
    (h : a ++ c :: x = b ++ c :: y) :
    (a = b ∧ x = y) ∨ (∃ m, a = b ++ c :: m ∧ y = m ++ c :: x) ∨
      ∃ m, b = a ++ c :: m ∧ x = m ++ c :: y := by
  rcases List.append_eq_append_iff.mp h with ⟨m, hb, hx⟩ | ⟨m, ha, hy⟩
  · cases m with
    | nil => exact .inl ⟨by rw [hb, List.append_nil], (List.cons.inj hx).2⟩
    | cons d m =>
      rw [List.cons_append, List.cons.injEq] at hx
      obtain ⟨rfl, hx⟩ := hx
      exact .inr (.inr ⟨m, hb, hx⟩)
  · cases m with
    | nil => exact .inl ⟨by rw [ha, List.append_nil], (List.cons.inj hy).2.symm⟩
    | cons d m =>
      rw [List.cons_append, List.cons.injEq] at hy
      obtain ⟨rfl, hy⟩ := hy
      exact .inr (.inl ⟨m, ha, hy⟩)

/-- A character does not stand earlier in a text than where it comes first. -/
theorem length_le_of_append_cons {a b x y : List Char} {c : Char} (hc : c ∉ a)
    (h : a ++ c :: x = b ++ c :: y) : a.length ≤ b.length := by
  rcases append_cons_eq_append_cons h with ⟨rfl, -⟩ | ⟨m, rfl, -⟩ | ⟨m, rfl, -⟩
  · exact Nat.le_refl _
  · exact absurd (List.mem_append_right b List.mem_cons_self) hc
  · rw [List.length_append]
    exact Nat.le_add_right _ _

/-- A mark occurs in front of a character that it does not hold, or behind it. -/
theorem infix_append_cons {mark front back : List Char} {c : Char} (hc : c ∉ mark)
    (h : mark <:+: front ++ c :: back) : mark <:+: front ∨ mark <:+: back := by
  obtain ⟨before, after, h⟩ := h
  rw [List.append_assoc] at h
  rcases List.append_eq_append_iff.mp h with ⟨inner, hfront, hmark⟩ | ⟨inner, hbefore, hback⟩
  · rcases List.append_eq_append_iff.mp hmark with ⟨gap, hinner, -⟩ | ⟨gap, hgap, htail⟩
    · exact .inl ⟨before, gap, by rw [hfront, hinner, List.append_assoc]⟩
    · cases gap with
      | nil => exact .inl ⟨before, [], by rw [hfront, hgap, List.append_nil, List.append_nil]⟩
      | cons d gap =>
        rw [List.cons_append, List.cons.injEq] at htail
        refine absurd ?_ hc
        rw [hgap, htail.1]
        exact List.mem_append_right inner List.mem_cons_self
  · cases inner with
    | nil =>
      cases mark with
      | nil => exact .inl (List.nil_infix)
      | cons m mark =>
        rw [List.nil_append, List.cons_append, List.cons.injEq] at hback
        exact absurd (hback.1 ▸ List.mem_cons_self) hc
    | cons d inner =>
      rw [List.cons_append, List.cons.injEq] at hback
      exact .inr ⟨inner, after, by rw [hback.2, List.append_assoc]⟩

end IdentityProvider.Text
