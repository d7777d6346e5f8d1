import IdentityProvider.Proofs.Placeholder.Grammar

/-
  Lines cut at their placeholders, leftmost first.

  `Cuts` says how a line has to be cut, without saying how the places are found: each spelling
  starts at the first place, at or behind the end of the one before, where a spelling can start at
  all.  A line has exactly one such cut (`exists_cuts`, `Cuts.unique`), and it is the one that
  `parts` makes (`Cuts.parts_eq`).
-/

namespace IdentityProvider.Placeholder

/-- A placeholder stands at the start of the text. -/
def Begins (text : List Char) : Prop :=
  ∃ p spelling rest, Spells p spelling ∧ text = spelling ++ rest

/-- No placeholder starts within the text, with `rest` behind it. -/
def Quiet (text rest : List Char) : Prop :=
  ∀ before after, text = before ++ after → after ≠ [] → ¬ Begins (after ++ rest)

/-- A placeholder of a line as it is spelled, and what stands between it and the one before. -/
structure Slot where
  lead : List Char
  placeholder : Placeholder
  spelling : List Char

/-- The leftmost cut of a line: its placeholders with their leads, and what follows the last. -/
inductive Cuts : List Char → List Slot → List Char → Prop
  | tail (text : List Char) : Quiet text [] → Cuts text [] text
  | slot (lead spelling rest tail : List Char) (p : Placeholder) (slots : List Slot) :
    Quiet lead (spelling ++ rest) → Spells p spelling → Cuts rest slots tail →
    Cuts (lead ++ (spelling ++ rest)) (⟨lead, p, spelling⟩ :: slots) tail

theorem begins_iff {text : List Char} : Begins text ↔ ∃ p rest, read? text = some (p, rest) := by
  constructor
  · rintro ⟨p, spelling, rest, hspelling, htext⟩
    exact ⟨p, rest, read?_eq_some_iff.mpr ⟨spelling, hspelling, htext⟩⟩
  · rintro ⟨p, rest, hread⟩
    obtain ⟨spelling, hspelling, htext⟩ := read?_eq_some_iff.mp hread
    exact ⟨p, spelling, rest, hspelling, htext⟩

theorem read?_eq_none_iff {text : List Char} : read? text = none ↔ ¬ Begins text := by
  rw [begins_iff, Option.eq_none_iff_forall_ne_some]
  constructor
  · rintro h ⟨p, rest, hread⟩
    exact h (p, rest) hread
  · intro h found hread
    exact h ⟨found.1, found.2, hread⟩

theorem quiet_nil (rest : List Char) : Quiet [] rest := by
  intro before after h hafter
  exact absurd (List.append_eq_nil_iff.mp h.symm).2 hafter

theorem quiet_cons {c : Char} {text rest : List Char} :
    Quiet (c :: text) rest ↔ ¬ Begins (c :: (text ++ rest)) ∧ Quiet text rest := by
  constructor
  · intro h
    refine ⟨h [] (c :: text) rfl (List.cons_ne_nil c text), ?_⟩
    intro before after htext hafter
    exact h (c :: before) after (by rw [htext]; rfl) hafter
  · rintro ⟨hfirst, hrest⟩ before after htext hafter
    cases before with
    | nil =>
      rw [List.nil_append] at htext
      rw [← htext]
      exact hfirst
    | cons d before => exact hrest before after (List.cons.inj htext).2 hafter

/-! ## One cut for each line -/

theorem begins_of_spells {p : Placeholder} {spelling : List Char} (h : Spells p spelling)
    (rest : List Char) : Begins (spelling ++ rest) := ⟨p, spelling, rest, h, rfl⟩

/-- A lead ends at the first place where a placeholder starts, so no two leads differ. -/
theorem lead_unique {a b restA restB : List Char} (ha : Quiet a restA) (hb : Quiet b restB)
    (hrestA : Begins restA) (hrestB : Begins restB) (h : a ++ restA = b ++ restB) :
    a = b ∧ restA = restB := by
  rcases List.append_eq_append_iff.mp h with ⟨more, hlead, hrest⟩ | ⟨more, hlead, hrest⟩
  · cases more with
    | nil => exact ⟨by rw [hlead, List.append_nil], hrest⟩
    | cons c more =>
      rw [hrest] at hrestA
      exact absurd hrestA (hb a (c :: more) hlead (List.cons_ne_nil c more))
  · cases more with
    | nil => exact ⟨by rw [hlead, List.append_nil], hrest.symm⟩
    | cons c more =>
      rw [hrest] at hrestB
      exact absurd hrestB (ha b (c :: more) hlead (List.cons_ne_nil c more))

theorem not_quiet_append {text rest : List Char} (hne : rest ≠ []) (hrest : Begins rest) :
    ¬ Quiet (text ++ rest) [] := by
  intro h
  refine h text rest rfl hne ?_
  rw [List.append_nil]
  exact hrest

theorem Spells.ne_nil {p : Placeholder} {spelling : List Char} (h : Spells p spelling)
    (rest : List Char) : spelling ++ rest ≠ [] := by
  obtain ⟨before, after, last, -, -, -, -, rfl⟩ := spells_iff.mp h
  exact List.cons_ne_nil _ _

theorem Cuts.unique {text tailA tailB : List Char} {slotsA slotsB : List Slot}
    (ha : Cuts text slotsA tailA) (hb : Cuts text slotsB tailB) :
    slotsA = slotsB ∧ tailA = tailB := by
  induction ha generalizing slotsB tailB with
  | tail text hquiet =>
    cases hb with
    | tail => exact ⟨rfl, rfl⟩
    | slot lead spelling rest tail p slots _ hspelling =>
      exact absurd hquiet
        (not_quiet_append (hspelling.ne_nil rest) (begins_of_spells hspelling rest))
  | slot lead spelling rest tail p slots hquiet hspelling _ ih =>
    generalize htext : lead ++ (spelling ++ rest) = text at hb
    cases hb with
    | tail _ hquietB =>
      rw [← htext] at hquietB
      exact absurd hquietB
        (not_quiet_append (hspelling.ne_nil rest) (begins_of_spells hspelling rest))
    | slot leadB spellingB restB tailB q slotsB hquietB hspellingB hcutB =>
      obtain ⟨rfl, hrest⟩ := lead_unique hquiet hquietB (begins_of_spells hspelling rest)
        (begins_of_spells hspellingB restB) htext
      obtain ⟨rfl, rfl, rfl⟩ := spells_unique hspelling hspellingB hrest
      obtain ⟨rfl, rfl⟩ := ih hcutB
      exact ⟨rfl, rfl⟩

theorem exists_cuts (text : List Char) : ∃ slots tail, Cuts text slots tail := by
  induction text using parts.induct with
  | case1 text p rest hread _ ih =>
    obtain ⟨spelling, hspelling, rfl⟩ := read?_eq_some_iff.mp hread
    obtain ⟨slots, tail, hcut⟩ := ih
    exact ⟨_, tail, .slot [] spelling rest tail p slots (quiet_nil _) hspelling hcut⟩
  | case2 => exact ⟨[], [], .tail [] (quiet_nil [])⟩
  | case3 c text hread ih =>
    have hnot : ¬ Begins (c :: text) := read?_eq_none_iff.mp hread
    obtain ⟨slots, tail, hcut⟩ := ih
    cases hcut with
    | tail _ hquiet =>
      refine ⟨[], c :: text, .tail _ (quiet_cons.mpr ⟨?_, hquiet⟩)⟩
      rw [List.append_nil]
      exact hnot
    | slot lead spelling rest tail p slots hquiet hspelling hcut =>
      exact ⟨_, tail, .slot (c :: lead) spelling rest tail p slots
        (quiet_cons.mpr ⟨hnot, hquiet⟩) hspelling hcut⟩

/-! ## The cut that is made -/

theorem parts_of_spells {p : Placeholder} {spelling : List Char} (h : Spells p spelling)
    (rest : List Char) : parts (spelling ++ rest) = .slot p :: parts rest := by
  have hread : read? (spelling ++ rest) = some (p, rest) :=
    read?_eq_some_iff.mpr ⟨spelling, h, rfl⟩
  rw [parts]
  split
  · next q restB hreadB =>
    rw [hread, Option.some.injEq, Prod.mk.injEq] at hreadB
    obtain ⟨rfl, rfl⟩ := hreadB
    rfl
  · next hnone =>
    rw [hread] at hnone
    cases hnone

theorem parts_nil : parts [] = [] := by
  rw [parts]
  rfl

theorem parts_cons {c : Char} {text : List Char} (h : ¬ Begins (c :: text)) :
    parts (c :: text) = .plain c :: parts text := by
  rw [parts]
  split
  · next p rest hread => exact absurd (begins_iff.mpr ⟨p, rest, hread⟩) h
  · rfl

theorem Quiet.parts_append {text rest : List Char} (h : Quiet text rest) :
    parts (text ++ rest) = text.map .plain ++ parts rest := by
  induction text with
  | nil => rfl
  | cons c text ih =>
    obtain ⟨hfirst, hquiet⟩ := quiet_cons.mp h
    rw [List.cons_append, parts_cons hfirst, ih hquiet]
    rfl

/-- The parts of a lead and of the placeholder behind it. -/
def Slot.parts (slot : Slot) : List Part := slot.lead.map .plain ++ [.slot slot.placeholder]

theorem Cuts.parts_eq {text tail : List Char} {slots : List Slot} (h : Cuts text slots tail) :
    parts text = slots.flatMap Slot.parts ++ tail.map .plain := by
  induction h with
  | tail text hquiet =>
    have hparts := hquiet.parts_append
    rw [List.append_nil, parts_nil, List.append_nil] at hparts
    exact hparts
  | slot lead spelling rest tail p slots hquiet hspelling _ ih =>
    rw [hquiet.parts_append, parts_of_spells hspelling, ih, List.flatMap_cons, Slot.parts]
    simp only [List.append_assoc, List.cons_append, List.nil_append]

end IdentityProvider.Placeholder
