import IdentityProvider.Config.Loading
import IdentityProvider.Proofs.Placeholder.Meaning

/-
  What an expansion depends on.

  `Names` collects the variables that a text asks for, those of the placeholders outside its
  comments.  Environments that agree on these expand the text alike (`expand_congr`).  Comment
  lines are inert: texts that agree but for their comments (`AgreeBut`) fail with the same fault
  or are expanded line for line to texts that agree but for the same comments
  (`mapM_expandLine_error_iff_of_agreeBut`, `exists_agreeBut_zip`).
-/

namespace IdentityProvider.Placeholder

open Text

/-- The lines of a text. -/
def lines (text : String) : List (List Char) := splitOn '\n' text.toList

/-! ## Variables -/

/-- The text asks for the variable: a placeholder outside comments names it. -/
inductive Names (text : String) : String → Prop
  | slot (line : List Char) (reading : Reading) (slot : Slot) (name : List Char) :
    line ∈ lines text → IsReading line reading → slot ∈ reading.slots →
    slot.placeholder.key = envScope ++ '.' :: name → '.' ∉ name → Names text (String.ofList name)

section

variable {env other : Environment}

theorem resolve_congr {p : Placeholder}
    (h : ∀ name, p.key = envScope ++ '.' :: name → '.' ∉ name →
      env.text? (String.ofList name) = other.text? (String.ofList name)) :
    p.resolve env = p.resolve other := by
  unfold resolve
  cases hvariable : p.variableName? with
  | none => rfl
  | some named =>
    obtain ⟨name, hkey, hname, rfl⟩ := variableName?_eq_some_iff.mp hvariable
    dsimp only
    rw [h name hkey hname]

theorem expandLine_congr {line : List Char} {reading : Reading} (hreading : IsReading line reading)
    (h : ∀ slot ∈ reading.slots, slot.placeholder.resolve env = slot.placeholder.resolve other) :
    expandLine env line = expandLine other line := by
  have hslots : reading.slots.mapM (Slot.resolve env) = reading.slots.mapM (Slot.resolve other) :=
    Traversal.mapM_congr h
  rw [expandLine_eq hreading, expandLine_eq hreading, hslots]

/-- An expansion reads no variable but those that the text asks for. -/
theorem expand_congr {text : String}
    (h : ∀ name, Names text name → env.text? name = other.text? name) :
    env.expand text = other.expand text := by
  have hlines : (lines text).mapM (expandLine env) = (lines text).mapM (expandLine other) := by
    refine Traversal.mapM_congr fun line hline => ?_
    obtain ⟨reading, hreading⟩ := exists_isReading line
    refine expandLine_congr hreading fun slot hslot => resolve_congr fun name hkey hname => ?_
    exact h _ (.slot line reading slot name hline hreading hslot hkey hname)
  rw [expand_eq, expand_eq]
  exact congrArg _ hlines

end

/-! ## Comments -/

/-- Two lists agree but for elements of a kind, which may stand anywhere in either of them. -/
inductive AgreeBut (kind : α → Prop) : List α → List α → Prop
  | nil : AgreeBut kind [] []
  | both (a : α) (xs ys : List α) : AgreeBut kind xs ys → AgreeBut kind (a :: xs) (a :: ys)
  | left (a : α) (xs ys : List α) : kind a → AgreeBut kind xs ys → AgreeBut kind (a :: xs) ys
  | right (a : α) (xs ys : List α) : kind a → AgreeBut kind xs ys → AgreeBut kind xs (a :: ys)

/-- A comment with the text that it was expanded to, which is itself. -/
def IsKeptComment (expansion : List Char × List Char) : Prop :=
  IsComment expansion.1 ∧ expansion.2 = expansion.1

section

variable {env : Environment} {ours theirs : List (List Char)}

theorem expandLine_of_isComment {line : List Char} (h : IsComment line) :
    expandLine env line = .ok line :=
  if_pos (isCommentLine_iff.mpr h)

theorem mapM_expandLine_cons_of_isComment {line : List Char} (h : IsComment line)
    {e : ExpansionError} :
    (line :: ours).mapM (expandLine env) = .error e ↔ ours.mapM (expandLine env) = .error e := by
  rw [Traversal.mapM_cons_eq_error_iff, expandLine_of_isComment h]
  simp

/-- Comments make no difference to the fault of the lines. -/
theorem mapM_expandLine_error_iff_of_agreeBut (h : AgreeBut IsComment ours theirs)
    {e : ExpansionError} :
    ours.mapM (expandLine env) = .error e ↔ theirs.mapM (expandLine env) = .error e := by
  induction h with
  | nil => rfl
  | both line ours theirs _ ih =>
    rw [Traversal.mapM_cons_eq_error_iff, Traversal.mapM_cons_eq_error_iff, ih]
  | left comment ours theirs hcomment _ ih =>
    rw [mapM_expandLine_cons_of_isComment hcomment, ih]
  | right comment ours theirs hcomment _ ih =>
    rw [mapM_expandLine_cons_of_isComment hcomment, ih]

/-- Comments make no difference to what the other lines are expanded to. -/
theorem exists_agreeBut_zip (h : AgreeBut IsComment ours theirs) {outs : List (List Char)}
    (houts : ours.mapM (expandLine env) = .ok outs) :
    ∃ otherOuts, theirs.mapM (expandLine env) = .ok otherOuts ∧
      AgreeBut IsKeptComment (ours.zip outs) (theirs.zip otherOuts) := by
  induction h generalizing outs with
  | nil =>
    cases houts
    exact ⟨[], rfl, .nil⟩
  | both line ours theirs _ ih =>
    obtain ⟨out, rest, hout, hrest, rfl⟩ := Traversal.mapM_cons_eq_ok_iff.mp houts
    obtain ⟨otherRest, hotherRest, hagree⟩ := ih hrest
    exact ⟨out :: otherRest,
      Traversal.mapM_cons_eq_ok_iff.mpr ⟨out, otherRest, hout, hotherRest, rfl⟩, .both _ _ _ hagree⟩
  | left comment ours theirs hcomment _ ih =>
    obtain ⟨out, rest, hout, hrest, rfl⟩ := Traversal.mapM_cons_eq_ok_iff.mp houts
    rw [expandLine_of_isComment hcomment] at hout
    cases hout
    obtain ⟨otherOuts, hotherOuts, hagree⟩ := ih hrest
    exact ⟨otherOuts, hotherOuts, .left _ _ _ ⟨hcomment, rfl⟩ hagree⟩
  | right comment ours theirs hcomment _ ih =>
    obtain ⟨otherOuts, hotherOuts, hagree⟩ := ih houts
    exact ⟨comment :: otherOuts, Traversal.mapM_cons_eq_ok_iff.mpr
      ⟨comment, otherOuts, expandLine_of_isComment hcomment, hotherOuts, rfl⟩,
      .right _ _ _ ⟨hcomment, rfl⟩ hagree⟩

end

/-! ## Texts -/

/-- The lines of the text are expanded to these, one for one. -/
def ExpandsLines (env : Environment) (text : String) (outs : List (List Char)) : Prop :=
  List.Forall₂ (fun line out => expandLine env line = .ok out) (lines text) outs

/-- Nothing makes a difference to the text but the variables that it asks for outside its
comments. -/
structure DependsOnNames (text : String) : Prop where
  /-- Environments that agree on these variables expand the text alike. -/
  expanded : ∀ env other : Environment,
    (∀ name, Names text name → env.text? name = other.text? name) →
      env.expand text = other.expand text
  /-- The settings that are loaded from it are the same, or the error is. -/
  loaded : ∀ env other : Environment,
    (∀ name, Names text name → env.text? name = other.text? name) →
      Config.ofText env text = Config.ofText other text
  /-- With other comments the text is refused for the same fault. -/
  refused : ∀ env other e, AgreeBut IsComment (lines text) (lines other) →
    (Environment.expand env text = .error e ↔ env.expand other = .error e)
  /-- With other comments every other line is expanded to the same. -/
  kept : ∀ env other out, AgreeBut IsComment (lines text) (lines other) →
    Environment.expand env text = .ok out → ∃ outs otherOuts,
      ExpandsLines env text outs ∧ out = String.ofList (joinWith '\n' outs) ∧
      ExpandsLines env other otherOuts ∧
      env.expand other = .ok (String.ofList (joinWith '\n' otherOuts)) ∧
      AgreeBut IsKeptComment ((lines text).zip outs) ((lines other).zip otherOuts)

theorem expand_eq_error_iff {env : Environment} {text : String} {e : ExpansionError} :
    env.expand text = .error e ↔ (lines text).mapM (expandLine env) = .error e := by
  rw [expand_eq, ← lines]
  cases (lines text).mapM (expandLine env) with
  | error fault => simp [Except.map]
  | ok outs => simp [Except.map]

theorem expand_eq_ok_iff {env : Environment} {text out : String} :
    env.expand text = .ok out ↔ ∃ outs, (lines text).mapM (expandLine env) = .ok outs ∧
      String.ofList (joinWith '\n' outs) = out := by
  rw [expand_eq, ← lines]
  exact Traversal.map_eq_ok_iff

/-- Every text depends on the variables that it asks for outside its comments and on nothing
else. -/
theorem dependsOnNames (text : String) : DependsOnNames text where
  expanded _ _ h := expand_congr h
  loaded env other h := by
    unfold Config.ofText
    rw [expand_congr h]
  refused env other e h := by
    rw [expand_eq_error_iff, expand_eq_error_iff, mapM_expandLine_error_iff_of_agreeBut h]
  kept env other out h hout := by
    obtain ⟨outs, houts, rfl⟩ := expand_eq_ok_iff.mp hout
    obtain ⟨otherOuts, hotherOuts, hagree⟩ := exists_agreeBut_zip h houts
    exact ⟨outs, otherOuts, Traversal.mapM_eq_ok_iff.mp houts, rfl,
      Traversal.mapM_eq_ok_iff.mp hotherOuts, expand_eq_ok_iff.mpr ⟨otherOuts, hotherOuts, rfl⟩,
      hagree⟩

end IdentityProvider.Placeholder
