import IdentityProvider.Proofs.Placeholder.Dependence

/-
  A placeholder of a text and what the expansion does with it.

  An `Occurrence` is a placeholder at its place: its line among the lines of the text, and its slot
  among those of the line.  The expansion leaves it as it is if its line is a comment
  (`Occurrence.isLeft_iff`), and then it makes no text fail; otherwise a value takes its place, or
  the whole text is refused (`Occurrence.isExpanded`).
-/

namespace IdentityProvider.Placeholder

open Text

/-! ## Lines and what is filled in -/

theorem fill_append {a b : List Slot} {values others : List (List Char)} (tail : List Char)
    (h : values.length = a.length) :
    fill (a ++ b) (values ++ others) tail = fill a values (fill b others tail) := by
  induction a generalizing values with
  | nil =>
    rw [List.length_nil, List.length_eq_zero_iff] at h
    subst h
    cases b with
    | nil => rfl
    | cons slot b => rfl
  | cons slot a ih =>
    cases values with
    | nil => cases h
    | cons value values =>
      rw [List.cons_append, List.cons_append, fill, fill, ih (Nat.succ.inj h)]

theorem fill_tail {slots : List Slot} {values : List (List Char)} (tail more : List Char)
    (h : values.length = slots.length) :
    fill slots values (tail ++ more) = fill slots values tail ++ more := by
  induction slots generalizing values with
  | nil =>
    rw [List.length_nil, List.length_eq_zero_iff] at h
    subst h
    rfl
  | cons slot slots ih =>
    cases values with
    | nil => cases h
    | cons value values =>
      rw [fill, fill, ih (Nat.succ.inj h), List.append_assoc, List.append_assoc]

/-- A line is filled before a slot, at it and behind it. -/
theorem fill_slot {a b : List Slot} {values others : List (List Char)} (slot : Slot)
    (value tail : List Char) (h : values.length = a.length) :
    fill (a ++ slot :: b) (values ++ value :: others) tail =
      fill a values slot.lead ++ (value ++ fill b others tail) := by
  rw [fill_append tail h, fill, fill_tail _ _ h]

theorem expandsTo_iff {env : Environment} {reading : Reading} {out : List Char} :
    reading.ExpandsTo env out ↔ ∃ values, reading.slots.mapM (Slot.resolve env) = .ok values ∧
      out = fill reading.slots values reading.tail := by
  simp only [Reading.ExpandsTo, Traversal.mapM_eq_ok_iff, Slot.resolve, resolve_eq_ok_iff]

/-- The slots of a cut are spelled as they are read. -/
theorem Cuts.spells {line tail : List Char} {slots : List Slot} (h : Cuts line slots tail) :
    ∀ slot ∈ slots, Spells slot.placeholder slot.spelling := by
  induction h with
  | tail text hquiet => exact List.forall_mem_nil _
  | slot lead spelling rest tail p slots hquiet hspelling _ ih =>
    exact List.forall_mem_cons.mpr ⟨hspelling, ih⟩

/-- A fallback is shorter than the placeholder that it belongs to. -/
theorem length_fallback_lt {p : Placeholder} {spelling fallback : List Char}
    (h : Spells p spelling) (hfallback : p.fallback = some fallback) :
    fallback.length < spelling.length := by
  cases h with
  | bare => cases hfallback
  | withFallback before key after inner text outer =>
    cases hfallback
    simp only [List.length_append, List.length_cons]
    omega

/-- The environment in which nothing is set. -/
def bareEnvironment : Environment := ⟨[]⟩

theorem fallback_of_hasValue {p : Placeholder} {value : List Char}
    (h : HasValue bareEnvironment p value) : p.fallback = some value := by
  cases h with
  | ofVariable name fallback value _ hvalue => cases hvalue
  | ofFallback => rfl

/-- Where nothing is set a line with placeholders gets shorter. -/
theorem length_fill_add_le {slots : List Slot} {values : List (List Char)} (tail : List Char)
    (hslots : ∀ slot ∈ slots, Spells slot.placeholder slot.spelling)
    (hvalues : List.Forall₂ (fun slot value => HasValue bareEnvironment slot.placeholder value)
      slots values) :
    (fill slots values tail).length + slots.length ≤
      (fill slots (slots.map Slot.spelling) tail).length := by
  induction hvalues with
  | nil => exact Nat.le_refl _
  | cons hvalue _ ih =>
    rw [List.forall_mem_cons] at hslots
    have hlt := length_fallback_lt hslots.1 (fallback_of_hasValue hvalue)
    have hrest := ih hslots.2
    simp only [List.map_cons, fill, List.length_append, List.length_cons]
    omega

theorem Spells.exists_eq {p : Placeholder} {spelling : List Char} (h : Spells p spelling) :
    ∃ inside, spelling = '\x7b' :: (inside ++ ['\x7d']) := by
  cases h with
  | bare before key after =>
    exact ⟨'\x7b' :: (before ++ key ++ after ++ ['\x7d']), by simp [opening, closing]⟩
  | withFallback before key after inner text outer =>
    exact ⟨'\x7b' :: (before ++ key ++ after ++ '|' :: inner ++ fallbackOpening ++ text ++
      fallbackClosing ++ outer ++ ['\x7d']), by simp [opening, closing]⟩

/-- No placeholder starts in a text without a brace. -/
theorem quiet_of_notMem {text : List Char} (h : '\x7b' ∉ text) (rest : List Char) :
    Quiet text rest := by
  rintro before after rfl hafter ⟨p, spelling, more, hspelling, heq⟩
  obtain ⟨inside, rfl⟩ := hspelling.exists_eq
  obtain ⟨c, after, rfl⟩ := List.exists_cons_of_ne_nil hafter
  obtain ⟨rfl, _⟩ := List.cons.inj heq
  exact h (List.mem_append_right before List.mem_cons_self)

/-- Lines with the line feeds that end them. -/
def ended (lines : List (List Char)) : List Char := lines.flatMap fun line => line ++ ['\n']

theorem joinWith_ended (above : List (List Char)) (line : List Char) (below : List (List Char)) :
    joinWith '\n' (above ++ line :: below) = ended above ++ joinWith '\n' (line :: below) := by
  induction above with
  | nil => rfl
  | cons first above ih =>
    have hne := List.append_ne_nil_of_right_ne_nil above (List.cons_ne_nil line below)
    rw [List.cons_append, joinWith_cons hne, ih]
    simp only [ended, List.flatMap_cons, List.append_assoc, List.cons_append, List.nil_append]

/-- The text ends here, or the line does. -/
theorem exists_ending (line : List Char) (below : List (List Char)) :
    ∃ ending, joinWith '\n' (line :: below) = line ++ ending ∧
      (ending = [] ∨ ∃ more, ending = '\n' :: more) := by
  cases below with
  | nil => exact ⟨[], by rw [List.append_nil]; rfl, .inl rfl⟩
  | cons next below => exact ⟨_, joinWith_cons (List.cons_ne_nil next below), .inr ⟨_, rfl⟩⟩

/-! ## Placeholders in their place -/

/-- A placeholder of a text, at its place in the leftmost cut of its line. -/
structure Occurrence (text : String) where
  above : List (List Char)
  line : List Char
  below : List (List Char)
  earlier : List Slot
  slot : Slot
  later : List Slot
  tail : List Char
  lines_eq : lines text = above ++ line :: below
  cuts : Cuts line (earlier ++ slot :: later) tail

namespace Occurrence

variable {text : String} (o : Occurrence text)

/-- What stands in front of the placeholder on its line. -/
def front : List Char := fill o.earlier (o.earlier.map Slot.spelling) o.slot.lead

/-- What stands behind the placeholder on its line. -/
def back : List Char := fill o.later (o.later.map Slot.spelling) o.tail

/-- The text in front of the line. -/
def start : List Char := ended o.above

/-- In every environment the expansion leaves the line as it is. -/
def IsLeft : Prop := ∀ env, expandLine env o.line = .ok o.line

/-- In this environment a value takes the place of the placeholder, and without one the text is not
expanded at all. -/
structure IsExpanded (env : Environment) : Prop where
  /-- The value stands between the expansions of what stands around the placeholder. -/
  filled : ∀ out, expandLine env o.line = .ok out → ∃ before value after,
    out = before ++ (value ++ after) ∧ HasValue env o.slot.placeholder value ∧
      (Reading.mk o.earlier o.slot.lead).ExpandsTo env before ∧
      (Reading.mk o.later o.tail).ExpandsTo env after
  /-- A fault of the placeholder makes the text fail, with this fault or with an earlier one. -/
  refused : ∀ e, HasFault env o.slot.placeholder e → ∃ fault, env.expand text = .error fault

theorem line_eq : o.line = o.front ++ (o.slot.spelling ++ o.back) := by
  have hfill := o.cuts.fill_spellings
  rw [List.map_append, List.map_cons, fill_slot _ _ _ (List.length_map _)] at hfill
  exact hfill.symm

theorem text_eq : ∃ ending, text.toList = o.start ++ (o.line ++ ending) ∧
    (ending = [] ∨ ∃ more, ending = '\n' :: more) := by
  obtain ⟨ending, hending, hcases⟩ := exists_ending o.line o.below
  refine ⟨ending, ?_, hcases⟩
  have hlines := o.lines_eq
  rw [lines] at hlines
  rw [← joinWith_splitOn '\n' text.toList, hlines, joinWith_ended, hending]
  rfl

theorem start_cases : o.start = [] ∨ ∃ more, o.start = more ++ ['\n'] := by
  unfold start ended
  rcases List.eq_nil_or_concat o.above with h | ⟨above, line, h⟩
  · exact .inl (by rw [h]; rfl)
  · refine .inr ⟨above.flatMap (fun line => line ++ ['\n']) ++ line, ?_⟩
    rw [h, List.concat_eq_append, List.flatMap_append, List.append_assoc, List.flatMap_singleton]

theorem notMem_line : '\n' ∉ o.line := by
  have hlines := o.lines_eq
  rw [lines] at hlines
  exact notMem_of_mem_splitOn (hlines ▸ List.mem_append_right _ List.mem_cons_self)

theorem exists_spelling_eq : ∃ inside, o.slot.spelling = '\x7b' :: (inside ++ ['\x7d']) :=
  (o.cuts.spells _ (List.mem_append_right _ List.mem_cons_self)).exists_eq

/-! ## What the expansion does -/

theorem isReading (h : ¬ IsComment o.line) :
    IsReading o.line ⟨o.earlier ++ o.slot :: o.later, o.tail⟩ :=
  .cut o.line o.tail _ h o.cuts

theorem isLeft_iff : o.IsLeft ↔ IsComment o.line := by
  refine ⟨fun h => ?_, fun h env => expandLine_of_isComment h⟩
  by_contra hnot
  obtain ⟨values, hvalues, hfill⟩ :=
    (expandLine_eq_ok_iff (o.isReading hnot)).mp (h bareEnvironment)
  have hlength := length_fill_add_le o.tail (o.cuts.spells) hvalues
  rw [o.cuts.fill_spellings, ← hfill, List.length_append, List.length_cons] at hlength
  omega

/-- The line of a placeholder that is not left goes on with a value in its place. -/
theorem exists_values {env : Environment} {out : List Char} (h : ¬ IsComment o.line)
    (hout : expandLine env o.line = .ok out) : ∃ before value after,
      out = before ++ (value ++ after) ∧ HasValue env o.slot.placeholder value ∧
        (Reading.mk o.earlier o.slot.lead).ExpandsTo env before ∧
        (Reading.mk o.later o.tail).ExpandsTo env after := by
  obtain ⟨values, hvalues, rfl⟩ :=
    expandsTo_iff.mp ((expandLine_eq_ok_iff (o.isReading h)).mp hout)
  obtain ⟨earlier, _, hearlier, hrest, rfl⟩ := Traversal.mapM_append_eq_ok_iff.mp hvalues
  obtain ⟨value, later, hvalue, hlater, rfl⟩ := Traversal.mapM_cons_eq_ok_iff.mp hrest
  have hlength := (Traversal.mapM_eq_ok_iff.mp hearlier).length_eq.symm
  exact ⟨_, value, _, fill_slot o.slot value o.tail hlength, resolve_eq_ok_iff.mp hvalue,
    expandsTo_iff.mpr ⟨earlier, hearlier, rfl⟩, expandsTo_iff.mpr ⟨later, hlater, rfl⟩⟩

theorem exists_fault {env : Environment} {e : ExpansionError} (h : ¬ IsComment o.line)
    (he : HasFault env o.slot.placeholder e) : ∃ fault, env.expand text = .error fault := by
  cases hexpand : env.expand text with
  | error fault => exact ⟨fault, rfl⟩
  | ok out =>
    obtain ⟨outs, houts, _⟩ := expand_eq_ok_iff.mp hexpand
    rw [o.lines_eq] at houts
    obtain ⟨_, _, _, hrest, _⟩ := Traversal.mapM_append_eq_ok_iff.mp houts
    obtain ⟨_, _, hline, _⟩ := Traversal.mapM_cons_eq_ok_iff.mp hrest
    obtain ⟨_, value, _, _, hvalue, _⟩ := o.exists_values h hline
    exact absurd he (exists_hasValue_iff.mp ⟨value, hvalue⟩ e)

/-- The placeholders of a comment make no text fail. -/
theorem expand_eq_error_of_isComment (h : IsComment o.line) (env : Environment)
    (e : ExpansionError) : env.expand text = .error e ↔
      (o.above ++ o.below).mapM (expandLine env) = .error e := by
  rw [expand_eq_error_iff, o.lines_eq, Traversal.mapM_append_eq_error_iff,
    mapM_expandLine_cons_of_isComment h, ← Traversal.mapM_append_eq_error_iff]

theorem isExpanded (h : ¬ IsComment o.line) (env : Environment) : o.IsExpanded env where
  filled _ hout := o.exists_values h hout
  refused _ he := o.exists_fault h he

end Occurrence

end IdentityProvider.Placeholder
