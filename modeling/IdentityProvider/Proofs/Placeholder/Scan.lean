import IdentityProvider.Proofs.Placeholder.Cut

/-
  Placeholders at the positions of a line.

  `Form` is the pattern of a placeholder with each run of blanks on its own, so that one text can
  have the form in several ways.  They all name the same placeholder and end at the same position
  (`found?_eq_some_iff`): a reader that tries them in another order finds nothing else.  The search
  through a line goes on one character further where nothing is found, so a placeholder is missed
  only where one that starts earlier has taken some of it (`Cuts.taken_or_covered`).
-/

namespace IdentityProvider.Placeholder

open Text

/-! ## The form of a placeholder -/

/-- The clause with a fallback, or nothing. -/
inductive Clause : Option (List Char) → List Char → Prop
  | absent : Clause none []
  | present (blanks text : List Char) : Blanks blanks → '"' ∉ text →
    Clause (some text) ('|' :: blanks ++ fallbackOpening ++ text ++ fallbackClosing)

/-- The text has the form of the placeholder: two braces, a key, perhaps a clause and two braces,
with any blanks between them. -/
def Form (p : Placeholder) (text : List Char) : Prop :=
  ∃ first second third clause, Blanks first ∧ Blanks second ∧ Blanks third ∧ IsKey p.key ∧
    Clause p.fallback clause ∧
    text = opening ++ first ++ p.key ++ second ++ clause ++ third ++ closing

theorem Blanks.append {a b : List Char} (ha : Blanks a) (hb : Blanks b) : Blanks (a ++ b) := by
  intro c hc
  rcases List.mem_append.mp hc with hc | hc
  · exact ha c hc
  · exact hb c hc

theorem blanks_nil : Blanks [] := fun _ hc => absurd hc List.not_mem_nil

/-- Without a clause the blanks behind the key can be split anywhere, and it does not show. -/
theorem form_iff_spells {p : Placeholder} {text : List Char} : Form p text ↔ Spells p text := by
  obtain ⟨key, fallback⟩ := p
  constructor
  · rintro ⟨first, second, third, clause, hfirst, hsecond, hthird, hkey, hclause, rfl⟩
    cases hclause with
    | absent =>
      have hspells := Spells.bare first key (second ++ third) hfirst hkey (hsecond.append hthird)
      simpa only [List.append_assoc, List.nil_append] using hspells
    | present blanks text hblanks htext =>
      have hspells := Spells.withFallback first key second blanks text third hfirst hkey hsecond
        hblanks htext hthird
      simpa only [List.append_assoc, List.cons_append] using hspells
  · intro h
    cases h with
    | bare before key after hbefore hkey hafter =>
      refine ⟨before, after, [], [], hbefore, hafter, blanks_nil, hkey, .absent, ?_⟩
      simp only [List.append_nil]
    | withFallback before key after inner text outer hbefore hkey hafter hinner htext houter =>
      refine ⟨before, after, outer, _, hbefore, hafter, houter, hkey,
        .present inner text hinner htext, ?_⟩
      simp only [List.append_assoc, List.cons_append]

/-! ## Places -/

/-- A placeholder in a line, with the positions at which it starts and ends. -/
structure Place where
  start : Nat
  stop : Nat
  placeholder : Placeholder
  deriving DecidableEq, Repr

/-- The text of the line between the two positions has the form of the placeholder. -/
def Stands (line : List Char) (place : Place) : Prop :=
  ∃ before text after, line = before ++ text ++ after ∧ before.length = place.start ∧
    (before ++ text).length = place.stop ∧ Form place.placeholder text

/-- What the reader finds when it is tried at a position of the line. -/
def found? (line : List Char) (start : Nat) : Option Place :=
  (read? (line.drop start)).map fun (p, rest) => ⟨start, line.length - rest.length, p⟩

section

variable {line : List Char} {place other : Place} {start : Nat}

/-- The reader succeeds at a position just where a placeholder starts, and finds that one. -/
theorem found?_eq_some_iff :
    found? line start = some place ↔ Stands line place ∧ place.start = start := by
  unfold found?
  rw [Option.map_eq_some_iff]
  constructor
  · rintro ⟨⟨p, rest⟩, hread, rfl⟩
    obtain ⟨spelling, hspelling, hdrop⟩ := read?_eq_some_iff.mp hread
    have hne : line.drop start ≠ [] := hdrop ▸ hspelling.ne_nil rest
    have hstart : start ≤ line.length := by
      by_cases hle : start ≤ line.length
      · exact hle
      · exact absurd (List.drop_eq_nil_of_le (Nat.le_of_not_le hle)) hne
    have hlength : line.length - start = spelling.length + rest.length := by
      rw [← List.length_drop, hdrop, List.length_append]
    refine ⟨⟨line.take start, spelling, rest, ?_, List.length_take_of_le hstart, ?_,
      form_iff_spells.mpr hspelling⟩, rfl⟩
    · rw [List.append_assoc, ← hdrop, List.take_append_drop]
    · rw [List.length_append, List.length_take_of_le hstart]
      dsimp only
      omega
  · rintro ⟨⟨before, text, after, rfl, hbefore, hstop, hform⟩, hstart⟩
    have hread : read? (text ++ after) = some (place.placeholder, after) :=
      read?_eq_some_iff.mpr ⟨text, form_iff_spells.mp hform, rfl⟩
    refine ⟨(place.placeholder, after), ?_, ?_⟩
    · rw [← hstart, ← hbefore, List.append_assoc, List.drop_left, hread]
    · have hlength : (before ++ text ++ after).length - after.length = place.stop := by
        rw [List.length_append, Nat.add_sub_cancel, hstop]
      dsimp only
      rw [hlength, ← hstart]

/-- At most one placeholder starts at a position, and it ends at one position. -/
theorem Stands.unique (h : Stands line place) (hother : Stands line other)
    (hstart : place.start = other.start) : place = other := by
  have hfound := found?_eq_some_iff.mpr ⟨h, hstart⟩
  rw [found?_eq_some_iff.mpr ⟨hother, rfl⟩, Option.some.injEq] at hfound
  exact hfound.symm

end

/-! ## The search -/

/-- The places of the placeholders of a cut that begins at a position. -/
def places (position : Nat) : List Slot → List Place
  | [] => []
  | slot :: slots =>
    ⟨position + slot.lead.length, position + slot.lead.length + slot.spelling.length,
      slot.placeholder⟩ :: places (position + slot.lead.length + slot.spelling.length) slots

theorem Stands.begins {line : List Char} {place : Place} (h : Stands line place) :
    Begins (line.drop place.start) := by
  obtain ⟨before, text, after, rfl, hbefore, -, hform⟩ := h
  rw [← hbefore, List.append_assoc, List.drop_left]
  exact begins_of_spells (form_iff_spells.mp hform) after

theorem Quiet.not_begins_drop {text rest : List Char} (h : Quiet text rest) {i : Nat}
    (hi : i < text.length) : ¬ Begins ((text ++ rest).drop i) := by
  rw [List.drop_append_of_le_length (Nat.le_of_lt hi)]
  apply h (text.take i) (text.drop i) (List.take_append_drop i text).symm
  rw [← List.length_pos_iff, List.length_drop]
  exact Nat.sub_pos_of_lt hi

/-- No placeholder starts where a text is quiet. -/
theorem Quiet.not_stands {front text rest : List Char} (h : Quiet text rest) {place : Place}
    (hstart : front.length ≤ place.start) (hstop : place.start < front.length + text.length) :
    ¬ Stands (front ++ (text ++ rest)) place := by
  intro hplace
  have hbegins := hplace.begins
  rw [List.drop_append, List.drop_eq_nil_of_le hstart, List.nil_append] at hbegins
  exact h.not_begins_drop (by omega) hbegins

theorem Stands.start_lt {line : List Char} {place : Place} (h : Stands line place) :
    place.start < line.length := by
  obtain ⟨before, text, after, rfl, hbefore, -, hform⟩ := h
  have hne := (form_iff_spells.mp hform).ne_nil after
  rw [← List.length_pos_iff] at hne
  rw [List.append_assoc, List.length_append, hbefore]
  exact Nat.lt_add_of_pos_right hne

section

variable {text tail : List Char} {slots : List Slot}

/-- Where a placeholder is taken, it stands. -/
theorem Cuts.stands (h : Cuts text slots tail) (front : List Char) :
    ∀ place ∈ places front.length slots, Stands (front ++ text) place := by
  induction h generalizing front with
  | tail text hquiet =>
    intro place hplace
    cases hplace
  | slot lead spelling rest tail p slots hquiet hspelling _ ih =>
    intro place hplace
    have hline : front ++ (lead ++ (spelling ++ rest)) = (front ++ lead ++ spelling) ++ rest := by
      simp only [List.append_assoc]
    have hlength : (front ++ lead ++ spelling).length =
        front.length + lead.length + spelling.length := by
      simp only [List.length_append]
    rcases List.mem_cons.mp hplace with rfl | hlater
    · refine ⟨front ++ lead, spelling, rest, hline, List.length_append, hlength, ?_⟩
      exact form_iff_spells.mpr hspelling
    · rw [hline]
      apply ih (front ++ lead ++ spelling)
      rw [hlength]
      exact hlater

/-- No placeholder is taken before the cut begins. -/
theorem le_start_of_mem_places {position : Nat} {place : Place}
    (hplace : place ∈ places position slots) : position ≤ place.start := by
  induction slots generalizing position with
  | nil => cases hplace
  | cons slot slots ih =>
    rcases List.mem_cons.mp hplace with rfl | hlater
    · exact Nat.le_add_right _ _
    · have hle := ih hlater
      omega

/-- The places follow each other without overlap. -/
theorem pairwise_places (position : Nat) (slots : List Slot) :
    (places position slots).Pairwise fun a b => a.stop ≤ b.start := by
  induction slots generalizing position with
  | nil => exact List.Pairwise.nil
  | cons slot slots ih =>
    apply List.Pairwise.cons
    · intro later hlater
      exact le_start_of_mem_places hlater
    · exact ih _

/-- A placeholder that stands behind the start of the cut is taken, or one that starts earlier has
taken the character at which it starts. -/
theorem Cuts.taken_or_covered (h : Cuts text slots tail) (front : List Char) {place : Place}
    (hplace : Stands (front ++ text) place) (hstart : front.length ≤ place.start) :
    place ∈ places front.length slots ∨ ∃ earlier ∈ places front.length slots,
      earlier.start < place.start ∧ place.start < earlier.stop := by
  induction h generalizing front with
  | tail text hquiet =>
    have hstop := hplace.start_lt
    rw [List.length_append] at hstop
    rw [← List.append_nil text] at hplace
    exact absurd hplace (hquiet.not_stands hstart hstop)
  | slot lead spelling rest tail p slots hquiet hspelling hcut ih =>
    have hline : front ++ (lead ++ (spelling ++ rest)) = (front ++ lead ++ spelling) ++ rest := by
      simp only [List.append_assoc]
    have hlength : (front ++ lead ++ spelling).length =
        front.length + lead.length + spelling.length := by
      simp only [List.length_append]
    have hfirst := (Cuts.slot lead spelling rest tail p slots hquiet hspelling hcut).stands front _
      List.mem_cons_self
    rcases Nat.lt_trichotomy place.start (front.length + lead.length) with hlead | hhere | hbehind
    · exact absurd hplace (hquiet.not_stands hstart hlead)
    · refine .inl (List.mem_cons.mpr (.inl ?_))
      exact hplace.unique hfirst hhere
    · by_cases hinside : place.start < front.length + lead.length + spelling.length
      · exact .inr ⟨_, List.mem_cons_self, hbehind, hinside⟩
      · rw [hline] at hplace
        have hlater := ih (front ++ lead ++ spelling) hplace (by omega)
        rw [hlength] at hlater
        rcases hlater with hmem | ⟨earlier, hmem, hcovers⟩
        · exact .inl (List.mem_cons_of_mem _ hmem)
        · exact .inr ⟨earlier, List.mem_cons_of_mem _ hmem, hcovers⟩

end

/-- How a line is searched for placeholders. -/
structure ScansExactly (line : List Char) : Prop where
  /-- The reader succeeds at a position just where a placeholder stands, and finds that one. -/
  found : ∀ start place, found? line start = some place ↔ Stands line place ∧ place.start = start
  /-- Only one placeholder starts at a position, in whatever way its form is matched. -/
  unambiguous : ∀ place other, Stands line place → Stands line other →
    place.start = other.start → place = other
  /-- Where none is found, the search goes on at the next character. -/
  resumes : ∀ before c after, line = before ++ c :: after → found? line before.length = none →
    parts (c :: after) = .plain c :: parts after
  /-- The search takes every placeholder, unless one that starts earlier has taken the character at
  which it starts. -/
  searched : ∃ slots tail, Cuts line slots tail ∧
    parts line = slots.flatMap Slot.parts ++ tail.map .plain ∧
    (∀ place ∈ places 0 slots, Stands line place) ∧
    (places 0 slots).Pairwise (fun a b => a.stop ≤ b.start) ∧
    ∀ place, Stands line place → place ∈ places 0 slots ∨
      ∃ earlier ∈ places 0 slots, earlier.start < place.start ∧ place.start < earlier.stop

/-- Every line is searched so. -/
theorem scansExactly (line : List Char) : ScansExactly line where
  found start place := found?_eq_some_iff
  unambiguous place other h hother := h.unique hother
  resumes before c after hline hnone := by
    apply parts_cons
    rw [← read?_eq_none_iff]
    unfold found? at hnone
    rw [Option.map_eq_none_iff, hline, List.drop_left] at hnone
    exact hnone
  searched := by
    obtain ⟨slots, tail, hcut⟩ := exists_cuts line
    refine ⟨slots, tail, hcut, hcut.parts_eq, hcut.stands [], pairwise_places 0 slots, ?_⟩
    intro place hplace
    exact hcut.taken_or_covered [] hplace (Nat.zero_le _)

/-- Behind three braces the placeholder starts at the second. -/
example : found? "\x7b\x7b\x7b env.A \x7d\x7d".toList 0 = none ∧
    found? "\x7b\x7b\x7b env.A \x7d\x7d".toList 1 = some ⟨1, 12, ⟨"env.A".toList, none⟩⟩ := by
  decide

end IdentityProvider.Placeholder
