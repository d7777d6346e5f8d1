import IdentityProvider.Intake
import IdentityProvider.Proofs.Text.Runs

/-
  Texts that say that a parameter is missing.

  Such a text holds a mark that ends with a backtick, and another backtick further behind; the
  name between the two is what is read off (`missingName?_eq_some_iff`).  Whether a text says so is
  found out backtick by backtick: one that ends the mark needs another behind it, and one that does
  neither can be left behind (`saysMissing_across`).
-/

namespace IdentityProvider

namespace Intake

/-- What stands in front of the backtick in the mark of a missing parameter. -/
def missingStem : List Char := "missing field ".toList

/-- The text says that a parameter is missing: behind the mark the backtick is closed again. -/
def SaysMissing (text : List Char) : Prop :=
  ∃ front back, text = front ++ missingMark ++ back ∧ '`' ∈ back

/-- The name that stands behind the first mark, up to the next backtick. -/
def FirstMissing (text name : List Char) : Prop :=
  ∃ back, Text.FollowsFirst missingMark text (name ++ '`' :: back) ∧ '`' ∉ name

theorem missingMark_eq : missingMark = missingStem ++ ['`'] := by decide

theorem FirstMissing.saysMissing {text name : List Char} (h : FirstMissing text name) :
    SaysMissing text := by
  obtain ⟨back, ⟨front, htext, -⟩, -⟩ := h
  exact ⟨front, _, htext, List.mem_append_right _ List.mem_cons_self⟩

theorem missingName?_eq_some_iff {text name : String} :
    missingName? text = some name ↔ FirstMissing text.toList name.toList := by
  unfold missingName? FirstMissing
  simp only [Option.bind_eq_bind, Option.bind_eq_some_iff, Text.afterFirst?_eq_some_iff]
  constructor
  · rintro ⟨rest, hrest, hname⟩
    cases hcut : Text.cutAt '`' rest with
    | mk front back =>
      rw [hcut] at hname
      cases back with
      | none => cases hname
      | some back =>
        cases hname
        obtain ⟨rfl, hmem⟩ := Text.cutAt_eq_some_iff.mp hcut
        rw [String.toList_ofList]
        exact ⟨back, hrest, hmem⟩
  · rintro ⟨back, hrest, hmem⟩
    refine ⟨_, hrest, ?_⟩
    rw [Text.cutAt_eq_some_iff.mpr ⟨rfl, hmem⟩]
    exact congrArg some String.ofList_toList

theorem missingName?_eq_none_iff {text : String} :
    missingName? text = none ↔ ¬ SaysMissing text.toList := by
  constructor
  · rintro hnone ⟨front, back, htext, hback⟩
    cases hfirst : Text.afterFirst? missingMark text.toList with
    | none =>
      refine Text.afterFirst?_eq_none_iff.mp hfirst ?_
      exact ⟨front, back, htext.symm⟩
    | some rest =>
      -- The closing backtick of any mark also closes the name behind the first one.
      have hmem : '`' ∈ rest :=
        ((Text.afterFirst?_eq_some_iff.mp hfirst).suffix htext).subset hback
      unfold missingName? at hnone
      rw [hfirst] at hnone
      cases hcut : Text.cutAt '`' rest with
      | mk name closing =>
        cases closing with
        | none => exact (Text.cutAt_eq_none_iff.mp hcut).2 hmem
        | some closing =>
          simp only [Option.bind_eq_bind, Option.bind_some, hcut] at hnone
          cases hnone
  · intro hnot
    rw [Option.eq_none_iff_forall_ne_some]
    intro name hname
    exact hnot (missingName?_eq_some_iff.mp hname).saysMissing

/-! ## Backtick by backtick -/

section

variable {front back typed gap lead : List Char}

theorem saysMissing_iff {text : List Char} : SaysMissing text ↔
    ∃ front back, text = (front ++ missingStem) ++ '`' :: back ∧ '`' ∈ back := by
  unfold SaysMissing
  simp only [missingMark_eq, List.append_assoc, List.singleton_append]

theorem not_saysMissing_of_notMem (h : '`' ∉ front) : ¬ SaysMissing front := by
  rintro ⟨before, after, rfl, hafter⟩
  exact h (List.mem_append_right _ hafter)

/-- A backtick ends the mark, closes the name behind the mark or is no part of either. -/
theorem saysMissing_across : SaysMissing (front ++ '`' :: back) ↔
    missingMark <:+: front ∨ (missingStem <:+ front ∧ '`' ∈ back) ∨ SaysMissing back := by
  have hstem : '`' ∉ missingStem := by decide
  rw [saysMissing_iff]
  constructor
  · rintro ⟨before, after, htext, hafter⟩
    rcases Text.append_cons_eq_append_cons htext with
      ⟨rfl, rfl⟩ | ⟨m, rfl, -⟩ | ⟨m, hbefore, rfl⟩
    · exact .inr (.inl ⟨List.suffix_append _ _, hafter⟩)
    · refine .inl ⟨before, m, ?_⟩
      rw [missingMark_eq]
      simp only [List.append_assoc, List.singleton_append]
    · have hwhole : '`' :: m <:+ before ++ missingStem := hbefore ▸ List.suffix_append _ _
      have hshort : ¬ '`' :: m <:+ missingStem := fun h => hstem (h.subset List.mem_cons_self)
      have hlong : missingStem <:+ '`' :: m :=
        (List.suffix_or_suffix_of_suffix (List.suffix_append _ _) hwhole).resolve_right hshort
      rcases List.suffix_cons_iff.mp hlong with heq | ⟨inner, rfl⟩
      · exact absurd (heq ▸ List.mem_cons_self) hstem
      · exact .inr (.inr (saysMissing_iff.mpr ⟨inner, after, rfl, hafter⟩))
  · rintro (⟨before, after, rfl⟩ | ⟨⟨before, rfl⟩, hback⟩ | hback)
    · refine ⟨before, after ++ '`' :: back, ?_, List.mem_append_right _ List.mem_cons_self⟩
      rw [missingMark_eq]
      simp only [List.append_assoc, List.cons_append, List.nil_append]
    · exact ⟨before, back, rfl, hback⟩
    · obtain ⟨before, after, rfl, hafter⟩ := saysMissing_iff.mp hback
      refine ⟨front ++ '`' :: before, after, ?_, hafter⟩
      simp only [List.append_assoc, List.cons_append]

theorem not_mark_infix_of_notMem (h : '`' ∉ front) : ¬ missingMark <:+: front :=
  fun hmark => h (hmark.subset (by decide))

/-- Nothing in front of the first backtick matters if it does not end with the stem. -/
theorem saysMissing_lead (hfront : '`' ∉ front) (hstem : ¬ missingStem <:+ front) :
    SaysMissing (front ++ '`' :: back) ↔ SaysMissing back := by
  rw [saysMissing_across, or_iff_right (not_mark_infix_of_notMem hfront),
    or_iff_right fun h => hstem h.1]

/-- What stands in front of a long enough lead does not complete the stem. -/
theorem not_stem_suffix_append (hlead : missingStem.length ≤ lead.length)
    (hstem : ¬ missingStem <:+ lead) : ¬ missingStem <:+ front ++ lead := by
  intro h
  exact hstem (List.suffix_of_suffix_length_le h (List.suffix_append front lead) hlead)

/-- A name between backticks. -/
theorem saysMissing_name {name rest : List Char} (hgap : '`' ∉ gap)
    (hstem : ¬ missingStem <:+ gap) (hname : '`' ∉ name) :
    SaysMissing (gap ++ '`' :: (name ++ '`' :: rest)) ↔
      (missingStem <:+ name ∧ '`' ∈ rest) ∨ SaysMissing rest := by
  rw [saysMissing_lead hgap hstem, saysMissing_across,
    or_iff_right (not_mark_infix_of_notMem hname)]

/-- Names between backticks, with the same gap between neighbours: all but the last have a
backtick further behind. -/
theorem saysMissing_names {names : List (List Char)} {between : List Char}
    (hbetween : '`' ∉ between) (hbetweenStem : ¬ missingStem <:+ between) (hgap : '`' ∉ gap)
    (hstem : ¬ missingStem <:+ gap) (hnames : ∀ name ∈ names, '`' ∉ name) :
    SaysMissing (gap ++ between.intercalate (names.map fun name => '`' :: (name ++ ['`']))) ↔
      ∃ name ∈ names.dropLast, missingStem <:+ name := by
  induction names generalizing gap with
  | nil =>
    rw [List.map_nil, List.intercalate_nil, List.append_nil]
    simp only [not_saysMissing_of_notMem hgap, List.dropLast_nil, List.not_mem_nil, false_and,
      exists_false]
  | cons name names ih =>
    obtain ⟨hname, hlater⟩ := List.forall_mem_cons.mp hnames
    cases names with
    | nil =>
      have hnil : ¬ SaysMissing [] := not_saysMissing_of_notMem List.not_mem_nil
      rw [List.map_singleton, List.intercalate_singleton, saysMissing_name hgap hstem hname]
      simp only [List.not_mem_nil, and_false, hnil, or_self, List.dropLast_singleton, false_and,
        exists_false]
    | cons next names =>
      have hshape : gap ++ between.intercalate
            ((name :: next :: names).map fun name => '`' :: (name ++ ['`'])) =
          gap ++ '`' :: (name ++ '`' :: (between ++ between.intercalate
            ((next :: names).map fun name => '`' :: (name ++ ['`'])))) := by
        simp only [List.map_cons, List.intercalate_cons_cons, List.append_assoc, List.cons_append,
          List.nil_append]
      have hmem : '`' ∈ between ++ between.intercalate
          ((next :: names).map fun name => '`' :: (name ++ ['`'])) := by
        cases names with
        | nil => simp
        | cons later names => simp
      rw [hshape, saysMissing_name hgap hstem hname, ih hbetween hbetweenStem hlater,
        List.dropLast_cons_cons]
      simp only [hmem, and_true, List.mem_cons, exists_eq_or_imp]

end

end Intake

end IdentityProvider
