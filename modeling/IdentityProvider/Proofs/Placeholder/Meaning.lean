import IdentityProvider.Placeholder.Expansion
import IdentityProvider.Proofs.Placeholder.Cut
import IdentityProvider.Proofs.Traversal

/-
  What the expansion of a text means.

  `HasValue` and `HasFault` say what stands in for a placeholder and what is wrong with one,
  `IsReading` how a line is to be read: a comment as it is, any other line cut at its
  placeholders.  An expanded line is its reading with the values filled in (`expandLine_eq`), and a
  text fails with the fault of its first faulty placeholder.
-/

namespace IdentityProvider.Placeholder

open Text

/-! ## The value of a placeholder -/

/-- What stands in for a placeholder: the value of its variable, or its fallback if that is not
set or is no text. -/
inductive HasValue (env : Environment) : Placeholder → List Char → Prop
  | ofVariable (name : List Char) (fallback : Option (List Char)) (value : String) :
    '.' ∉ name → env.text? (String.ofList name) = some value →
    HasValue env ⟨envScope ++ '.' :: name, fallback⟩ value.toList
  | ofFallback (name text : List Char) :
    '.' ∉ name → env.text? (String.ofList name) = none →
    HasValue env ⟨envScope ++ '.' :: name, some text⟩ text

/-- What is wrong with a placeholder: its key names no variable, or it has nothing that could
stand in for it. -/
inductive HasFault (env : Environment) : Placeholder → ExpansionError → Prop
  | scope (key : List Char) (fallback : Option (List Char)) :
    (∀ name, key = envScope ++ '.' :: name → '.' ∈ name) →
    HasFault env ⟨key, fallback⟩ (.unsupportedScope (String.ofList key))
  | missing (name : List Char) :
    '.' ∉ name → env.text? (String.ofList name) = none →
    HasFault env ⟨envScope ++ '.' :: name, none⟩ (.missing (String.ofList name))

theorem variableName?_eq_some_iff {p : Placeholder} {name : String} :
    p.variableName? = some name ↔
      ∃ chars, p.key = envScope ++ '.' :: chars ∧ '.' ∉ chars ∧ name = String.ofList chars := by
  constructor
  · intro h
    unfold variableName? at h
    split at h
    · next scope chars hcut =>
      split at h
      · next hscope =>
        obtain ⟨rfl, hchars⟩ := hscope
        exact ⟨chars, (cutAt_eq_some_iff.mp hcut).1, hchars, (Option.some.inj h).symm⟩
      · cases h
    · cases h
  · rintro ⟨chars, hkey, hchars, rfl⟩
    have hcut : cutAt '.' p.key = (envScope, some chars) :=
      cutAt_eq_some_iff.mpr ⟨hkey, by decide⟩
    unfold variableName?
    rw [hcut]
    exact if_pos ⟨rfl, hchars⟩

theorem variableName?_eq_none_iff {p : Placeholder} :
    p.variableName? = none ↔ ∀ chars, p.key = envScope ++ '.' :: chars → '.' ∈ chars := by
  constructor
  · intro h chars hkey
    by_contra hchars
    rw [variableName?_eq_some_iff.mpr ⟨chars, hkey, hchars, rfl⟩] at h
    cases h
  · intro h
    rw [Option.eq_none_iff_forall_ne_some]
    intro name hname
    obtain ⟨chars, hkey, hchars, -⟩ := variableName?_eq_some_iff.mp hname
    exact hchars (h chars hkey)

theorem resolve_of_key {env : Environment} {name : List Char} {fallback : Option (List Char)}
    (hname : '.' ∉ name) :
    resolve env ⟨envScope ++ '.' :: name, fallback⟩ =
      match env.text? (String.ofList name), fallback with
      | some value, _ => .ok value.toList
      | none, some text => .ok text
      | none, none => .error (.missing (String.ofList name)) := by
  have hvariable : variableName? ⟨envScope ++ '.' :: name, fallback⟩ = some (String.ofList name) :=
    variableName?_eq_some_iff.mpr ⟨name, rfl, hname, rfl⟩
  cases htext : env.text? (String.ofList name) with
  | some value => simp only [resolve, hvariable, htext]
  | none =>
    cases fallback with
    | some text => simp only [resolve, hvariable, htext]
    | none => simp only [resolve, hvariable, htext]

theorem resolve_eq_ok_iff {env : Environment} {p : Placeholder} {value : List Char} :
    p.resolve env = .ok value ↔ HasValue env p value := by
  obtain ⟨key, fallback⟩ := p
  constructor
  · intro h
    cases hvariable : variableName? ⟨key, fallback⟩ with
    | none =>
      rw [resolve, hvariable] at h
      cases h
    | some name =>
      obtain ⟨chars, hkey, hchars, rfl⟩ := variableName?_eq_some_iff.mp hvariable
      obtain rfl : key = envScope ++ '.' :: chars := hkey
      rw [resolve_of_key hchars] at h
      cases hvalue : env.text? (String.ofList chars) with
      | some text =>
        rw [hvalue] at h
        cases h
        exact .ofVariable chars fallback text hchars hvalue
      | none =>
        rw [hvalue] at h
        cases fallback with
        | some text =>
          cases h
          exact .ofFallback chars value hchars hvalue
        | none => cases h
  · intro h
    cases h with
    | ofVariable name _ text hname hvalue => rw [resolve_of_key hname, hvalue]
    | ofFallback name _ hname hvalue => rw [resolve_of_key hname, hvalue]

theorem resolve_eq_error_iff {env : Environment} {p : Placeholder} {e : ExpansionError} :
    p.resolve env = .error e ↔ HasFault env p e := by
  obtain ⟨key, fallback⟩ := p
  constructor
  · intro h
    cases hvariable : variableName? ⟨key, fallback⟩ with
    | none =>
      rw [resolve, hvariable] at h
      cases h
      exact .scope key fallback (variableName?_eq_none_iff.mp hvariable)
    | some name =>
      obtain ⟨chars, hkey, hchars, rfl⟩ := variableName?_eq_some_iff.mp hvariable
      obtain rfl : key = envScope ++ '.' :: chars := hkey
      rw [resolve_of_key hchars] at h
      cases hvalue : env.text? (String.ofList chars) with
      | some text =>
        rw [hvalue] at h
        cases h
      | none =>
        rw [hvalue] at h
        cases fallback with
        | some text => cases h
        | none =>
          cases h
          exact .missing chars hchars hvalue
  · intro h
    cases h with
    | scope _ _ hkey => rw [resolve, variableName?_eq_none_iff.mpr hkey]
    | missing name hname hvalue => rw [resolve_of_key hname, hvalue]

/-- A placeholder has a value or a fault, and not both. -/
theorem exists_hasValue_iff {env : Environment} {p : Placeholder} :
    (∃ value, HasValue env p value) ↔ ∀ e, ¬ HasFault env p e := by
  simp only [← resolve_eq_ok_iff, ← resolve_eq_error_iff]
  cases p.resolve env with
  | ok value => simp
  | error e => simp

/-! ## The reading of a line -/

/-- A comment: the first character that is not blank is a number sign. -/
def IsComment (line : List Char) : Prop :=
  ∃ blanks rest, Blanks blanks ∧ line = blanks ++ '#' :: rest

theorem isCommentLine_iff {line : List Char} : isCommentLine line = true ↔ IsComment line := by
  rw [isCommentLine, decide_eq_true_eq]
  constructor
  · intro h
    obtain ⟨rest, hrest⟩ := List.head?_eq_some_iff.mp h
    refine ⟨line.takeWhile isBlank, rest, blanks_takeWhile line, ?_⟩
    rw [← hrest, List.takeWhile_append_dropWhile]
  · rintro ⟨blanks, rest, hblanks, rfl⟩
    have hstop : StopsAt isBlank ('#' :: rest) := stopsAt_cons.mpr (by decide)
    rw [dropWhile_run hblanks hstop]
    rfl

/-- A line as it is read: its placeholders with their leads, and what follows the last. -/
structure Reading where
  slots : List Slot
  tail : List Char

/-- How a line is to be read: a comment has no placeholders, any other line has those of its
leftmost cut. -/
inductive IsReading : List Char → Reading → Prop
  | comment (line : List Char) : IsComment line → IsReading line ⟨[], line⟩
  | cut (line tail : List Char) (slots : List Slot) :
    ¬ IsComment line → Cuts line slots tail → IsReading line ⟨slots, tail⟩

/-- The leads with the values behind them, and the tail. -/
def fill : List Slot → List (List Char) → List Char → List Char
  | slot :: slots, value :: values, tail => slot.lead ++ (value ++ fill slots values tail)
  | _, _, tail => tail

/-- What a line as read expands to. -/
def Reading.ExpandsTo (env : Environment) (reading : Reading) (out : List Char) : Prop :=
  ∃ values, List.Forall₂ (fun slot value => HasValue env slot.placeholder value)
    reading.slots values ∧ out = fill reading.slots values reading.tail

theorem exists_isReading (line : List Char) : ∃ reading, IsReading line reading := by
  by_cases h : IsComment line
  · exact ⟨_, .comment line h⟩
  · obtain ⟨slots, tail, hcut⟩ := exists_cuts line
    exact ⟨_, .cut line tail slots h hcut⟩

theorem IsReading.unique {line : List Char} {a b : Reading} (ha : IsReading line a)
    (hb : IsReading line b) : a = b := by
  cases ha with
  | comment hcomment =>
    cases hb with
    | comment => rfl
    | cut _ _ hnot => exact absurd hcomment hnot
  | cut tail slots hnot hcut =>
    cases hb with
    | comment hcomment => exact absurd hcomment hnot
    | cut tailB slotsB _ hcutB =>
      obtain ⟨rfl, rfl⟩ := hcut.unique hcutB
      rfl

theorem mapM_resolve_plain (env : Environment) (text : List Char) :
    (text.map Part.plain).mapM (Part.resolve env) = .ok (text.map fun c => [c]) := by
  rw [Traversal.mapM_eq_ok_iff, List.forall₂_map_left_iff, List.forall₂_map_right_iff]
  exact List.forall₂_same.mpr fun c _ => rfl

theorem flatten_map_singleton (text : List Char) : (text.map fun c => [c]).flatten = text := by
  induction text with
  | nil => rfl
  | cons c text ih => rw [List.map_cons, List.flatten_cons, ih]; rfl

/-- The text in the place of a slot's placeholder. -/
def Slot.resolve (env : Environment) (slot : Slot) : Except ExpansionError (List Char) :=
  slot.placeholder.resolve env

theorem mapM_resolve_slotParts (env : Environment) (slot : Slot) :
    slot.parts.mapM (Part.resolve env) =
      (slot.resolve env).map fun value => slot.lead.map (fun c => [c]) ++ [value] := by
  rw [Slot.parts, List.mapM_append, mapM_resolve_plain, List.mapM_cons, List.mapM_nil,
    Part.resolve, Slot.resolve]
  cases slot.placeholder.resolve env with
  | ok value => rfl
  | error e => rfl

theorem mapM_resolve_parts (env : Environment) (slots : List Slot) (tail : List Char) :
    ((slots.flatMap Slot.parts ++ tail.map Part.plain).mapM (Part.resolve env)).map List.flatten =
      (slots.mapM (Slot.resolve env)).map fun values => fill slots values tail := by
  induction slots with
  | nil =>
    rw [List.flatMap_nil, List.nil_append, mapM_resolve_plain]
    exact congrArg Except.ok (flatten_map_singleton tail)
  | cons slot slots ih =>
    rw [List.flatMap_cons, List.append_assoc, List.mapM_append, mapM_resolve_slotParts,
      List.mapM_cons]
    cases slot.resolve env with
    | error e => rfl
    | ok value =>
      calc _ = (((slots.flatMap Slot.parts ++ tail.map Part.plain).mapM (Part.resolve env)).map
              List.flatten).map fun out => slot.lead ++ (value ++ out) := by
            cases (slots.flatMap Slot.parts ++ tail.map Part.plain).mapM (Part.resolve env) with
            | error e => rfl
            | ok texts =>
              refine congrArg Except.ok ?_
              rw [List.flatten_append, List.flatten_append, flatten_map_singleton,
                List.flatten_singleton, List.append_assoc]
        _ = _ := by
            rw [ih]
            cases slots.mapM (Slot.resolve env) with
            | error e => rfl
            | ok values => rfl

/-- An expanded line is its reading with the values of its placeholders filled in. -/
theorem expandLine_eq {env : Environment} {line : List Char} {reading : Reading}
    (h : IsReading line reading) :
    expandLine env line = (reading.slots.mapM (Slot.resolve env)).map fun values =>
      fill reading.slots values reading.tail := by
  cases h with
  | comment hcomment =>
    rw [expandLine, if_pos (isCommentLine_iff.mpr hcomment)]
    rfl
  | cut tail slots hnot hcut =>
    rw [expandLine, if_neg (mt isCommentLine_iff.mp hnot), hcut.parts_eq, ← mapM_resolve_parts]
    cases (slots.flatMap Slot.parts ++ tail.map Part.plain).mapM (Part.resolve env) with
    | error e => rfl
    | ok texts => rfl

theorem expandLine_eq_ok_iff {env : Environment} {line out : List Char} {reading : Reading}
    (h : IsReading line reading) :
    expandLine env line = .ok out ↔ reading.ExpandsTo env out := by
  have hvalues : ∀ values, reading.slots.mapM (Slot.resolve env) = .ok values ↔
      List.Forall₂ (fun slot value => HasValue env slot.placeholder value) reading.slots values := by
    intro values
    simp only [Traversal.mapM_eq_ok_iff, Slot.resolve, resolve_eq_ok_iff]
  rw [expandLine_eq h, Reading.ExpandsTo]
  simp only [← hvalues]
  cases reading.slots.mapM (Slot.resolve env) with
  | error e => simp [Except.map]
  | ok values => simp [Except.map, eq_comm]

theorem expandLine_eq_error_iff {env : Environment} {line : List Char} {reading : Reading}
    {e : ExpansionError} (h : IsReading line reading) :
    expandLine env line = .error e ↔ reading.slots.mapM (Slot.resolve env) = .error e := by
  rw [expandLine_eq h]
  cases reading.slots.mapM (Slot.resolve env) with
  | error e => simp [Except.map]
  | ok values => simp [Except.map]

theorem exists_expandLine_eq_ok_iff {env : Environment} {line : List Char} {reading : Reading}
    (h : IsReading line reading) :
    (∃ out, expandLine env line = .ok out) ↔
      ∃ values, reading.slots.mapM (Slot.resolve env) = .ok values := by
  rw [expandLine_eq h]
  cases reading.slots.mapM (Slot.resolve env) with
  | error e => simp [Except.map]
  | ok values => simp [Except.map]

/-! ## The meaning of a text -/

theorem exists_readings (lines : List (List Char)) :
    ∃ readings, List.Forall₂ IsReading lines readings := by
  induction lines with
  | nil => exact ⟨[], .nil⟩
  | cons line lines ih =>
    obtain ⟨readings, hreadings⟩ := ih
    obtain ⟨reading, hreading⟩ := exists_isReading line
    exact ⟨reading :: readings, .cons hreading hreadings⟩

theorem readings_unique {lines : List (List Char)} {a b : List Reading}
    (ha : List.Forall₂ IsReading lines a) (hb : List.Forall₂ IsReading lines b) : a = b := by
  induction ha generalizing b with
  | nil =>
    cases hb
    rfl
  | cons hline _ ih =>
    cases hb with
    | cons hlineB hb => rw [hline.unique hlineB, ih hb]

theorem mapM_expandLine_eq_ok_iff {env : Environment} {lines outs : List (List Char)}
    {readings : List Reading} (h : List.Forall₂ IsReading lines readings) :
    lines.mapM (expandLine env) = .ok outs ↔
      List.Forall₂ (Reading.ExpandsTo env) readings outs := by
  rw [Traversal.mapM_eq_ok_iff]
  induction h generalizing outs with
  | nil =>
    cases outs with
    | nil => simp
    | cons out outs => simp
  | cons hline _ ih =>
    cases outs with
    | nil => simp
    | cons out outs =>
      rw [List.forall₂_cons, List.forall₂_cons, expandLine_eq_ok_iff hline, ih]

/-- Expansion fails in the order of the placeholders, wherever the lines end between them. -/
theorem mapM_expandLine_eq_error_iff {env : Environment} {lines : List (List Char)}
    {readings : List Reading} {e : ExpansionError} (h : List.Forall₂ IsReading lines readings) :
    lines.mapM (expandLine env) = .error e ↔
      (readings.flatMap Reading.slots).mapM (Slot.resolve env) = .error e := by
  induction h with
  | nil => rfl
  | cons hline _ ih =>
    rw [List.flatMap_cons, Traversal.mapM_cons_eq_error_iff, Traversal.mapM_append_eq_error_iff,
      expandLine_eq_error_iff hline, exists_expandLine_eq_ok_iff hline, ih]

/-- The first faulty placeholder of a text has this fault. -/
def FirstFault (env : Environment) (slots : List Slot) (e : ExpansionError) : Prop :=
  ∃ before slot after, slots = before ++ slot :: after ∧
    (∀ s ∈ before, ∀ e, ¬ HasFault env s.placeholder e) ∧ HasFault env slot.placeholder e

theorem mapM_resolve_eq_error_iff {env : Environment} {slots : List Slot} {e : ExpansionError} :
    slots.mapM (Slot.resolve env) = .error e ↔ FirstFault env slots e := by
  simp only [Traversal.mapM_eq_error_iff, FirstFault, Slot.resolve, resolve_eq_ok_iff,
    exists_hasValue_iff, resolve_eq_error_iff]

theorem exists_firstFault_iff {env : Environment} {slots : List Slot} :
    (∃ e, FirstFault env slots e) ↔ ∃ slot ∈ slots, ∃ e, HasFault env slot.placeholder e := by
  constructor
  · rintro ⟨e, before, slot, after, rfl, -, hfault⟩
    exact ⟨slot, List.mem_append_right before List.mem_cons_self, e, hfault⟩
  · rintro ⟨slot, hslot, e, hfault⟩
    induction slots with
    | nil => cases hslot
    | cons first slots ih =>
      by_cases hfirst : ∃ e, HasFault env first.placeholder e
      · obtain ⟨e, hfirst⟩ := hfirst
        exact ⟨e, [], first, slots, rfl, List.forall_mem_nil _, hfirst⟩
      · rcases List.mem_cons.mp hslot with rfl | hslot
        · exact absurd ⟨e, hfault⟩ hfirst
        · obtain ⟨e, before, next, after, rfl, hbefore, hnext⟩ := ih hslot
          refine ⟨e, first :: before, next, after, rfl, ?_, hnext⟩
          exact List.forall_mem_cons.mpr ⟨fun e he => hfirst ⟨e, he⟩, hbefore⟩

theorem Cuts.fill_spellings {text tail : List Char} {slots : List Slot}
    (h : Cuts text slots tail) : fill slots (slots.map Slot.spelling) tail = text := by
  induction h with
  | tail text hquiet => rfl
  | slot lead spelling rest tail p slots hquiet hspelling _ ih =>
    rw [List.map_cons, fill, ih]

theorem IsReading.fill_spellings {line : List Char} {reading : Reading}
    (h : IsReading line reading) :
    fill reading.slots (reading.slots.map Slot.spelling) reading.tail = line := by
  cases h with
  | comment hcomment => rfl
  | cut tail slots hnot hcut => exact hcut.fill_spellings

theorem expand_eq {env : Environment} {text : String} :
    env.expand text = ((splitOn '\n' text.toList).mapM (expandLine env)).map fun lines =>
      String.ofList (joinWith '\n' lines) := by
  rw [Environment.expand]
  cases (splitOn '\n' text.toList).mapM (expandLine env) with
  | error e => rfl
  | ok lines => rfl

/-- Every line of a text has exactly one reading.  The expansion fills the values of the
placeholders into the readings, in the place of the spellings, and joins the lines again; it fails
exactly if a placeholder has a fault, and then with the first fault there is. -/
theorem expand_fills_readings (env : Environment) (text : String) :
    ∃ readings : List Reading,
      List.Forall₂ IsReading (splitOn '\n' text.toList) readings ∧
      (∀ others, List.Forall₂ IsReading (splitOn '\n' text.toList) others → others = readings) ∧
      List.Forall₂ (fun line reading =>
          line = fill reading.slots (reading.slots.map Slot.spelling) reading.tail)
        (splitOn '\n' text.toList) readings ∧
      (∀ out, env.expand text = .ok out ↔
        ∃ lines, List.Forall₂ (Reading.ExpandsTo env) readings lines ∧
          out = String.ofList (joinWith '\n' lines)) ∧
      (∀ e, env.expand text = .error e ↔ FirstFault env (readings.flatMap Reading.slots) e) ∧
      ((∃ e, env.expand text = .error e) ↔
        ∃ slot ∈ readings.flatMap Reading.slots, ∃ e, HasFault env slot.placeholder e) := by
  obtain ⟨readings, hreadings⟩ := exists_readings (splitOn '\n' text.toList)
  have herror : ∀ e, env.expand text = .error e ↔
      FirstFault env (readings.flatMap Reading.slots) e := by
    intro e
    rw [← mapM_resolve_eq_error_iff, ← mapM_expandLine_eq_error_iff hreadings, expand_eq]
    cases (splitOn '\n' text.toList).mapM (expandLine env) with
    | error e => simp [Except.map]
    | ok lines => simp [Except.map]
  refine ⟨readings, hreadings, fun others hothers => readings_unique hothers hreadings,
    hreadings.imp fun line reading hline => hline.fill_spellings.symm, ?_, herror, ?_⟩
  · intro out
    simp only [← mapM_expandLine_eq_ok_iff hreadings, expand_eq]
    cases (splitOn '\n' text.toList).mapM (expandLine env) with
    | error e => simp [Except.map]
    | ok lines => simp [Except.map, eq_comm]
  · simp only [herror, exists_firstFault_iff]

end IdentityProvider.Placeholder
