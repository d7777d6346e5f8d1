import IdentityProvider.Validation
import Mathlib.Data.List.Nodup

/-
  The list of failed checks that a caller is told of.

  `Listing` says what such a list has to be: each failed check once, by the names of the fields,
  and the checks of one field in their order.  There is only one such list (`Listing.unique`), and
  the fields with failed checks lead to it in whatever order they come (`listing_flat_byName`).
  `Declared` is what a value has to pass: checks on its fields.  A report on a value lists just the
  declared checks that fail (`Declared.listing_of_perm`), and the first of the list is the first
  failed check of the first field that has one (`Declared.firstFailed_of_listing`).
-/

namespace IdentityProvider.Validation

/-! ## Entries with names -/

/-- The entries with this name. -/
def named (name : String) (entries : List (String × β)) : List (String × β) :=
  entries.filter (·.1 = name)

section

variable {name : String} {entry : String × β} {entries others : List (String × β)}

theorem mem_named_iff : entry ∈ named name entries ↔ entry ∈ entries ∧ entry.1 = name := by
  rw [named, List.mem_filter, decide_eq_true_iff]

theorem named_cons (name : String) (entry : String × β) (entries : List (String × β)) :
    named name (entry :: entries) =
      if entry.1 = name then entry :: named name entries else named name entries := by
  unfold named
  rw [List.filter_cons]
  simp only [decide_eq_true_eq]

theorem named_append (name : String) (entries others : List (String × β)) :
    named name (entries ++ others) = named name entries ++ named name others :=
  List.filter_append entries others

theorem named_eq_self (h : ∀ entry ∈ entries, entry.1 = name) : named name entries = entries :=
  List.filter_eq_self.mpr fun entry hentry => decide_eq_true (h entry hentry)

theorem named_eq_nil (h : ∀ entry ∈ entries, entry.1 ≠ name) : named name entries = [] := by
  rw [List.eq_nil_iff_forall_not_mem]
  intro entry hentry
  rw [mem_named_iff] at hentry
  exact h entry hentry.1 hentry.2

theorem named_eq_singleton (hdistinct : (entries.map Prod.fst).Nodup) (hentry : entry ∈ entries) :
    named entry.1 entries = [entry] := by
  obtain ⟨before, after, rfl⟩ := List.append_of_mem hentry
  rw [List.map_append, List.map_cons, List.nodup_middle, List.nodup_cons, List.mem_append,
    not_or] at hdistinct
  have hbefore : named entry.1 before = [] :=
    named_eq_nil fun other hother heq => hdistinct.1.1 (heq ▸ List.mem_map_of_mem hother)
  have hafter : named entry.1 after = [] :=
    named_eq_nil fun other hother heq => hdistinct.1.2 (heq ▸ List.mem_map_of_mem hother)
  rw [named_append, named_cons, if_pos rfl, hbefore, hafter, List.nil_append]

/-- Where no name stands twice, the order of the entries does not show within one name. -/
theorem named_eq_of_perm (hperm : entries.Perm others) (hdistinct : (others.map Prod.fst).Nodup)
    (name : String) : named name entries = named name others := by
  have hnamed : (named name entries).Perm (named name others) := hperm.filter _
  have hnodup : ((named name others).map Prod.fst).Nodup :=
    hdistinct.sublist (List.filter_sublist.map Prod.fst)
  have hname : ∀ entry ∈ named name others, entry.1 = name :=
    fun entry hentry => (mem_named_iff.mp hentry).2
  generalize named name others = found at hnamed hnodup hname
  match found with
  | [] => exact hnamed.eq_nil
  | [entry] => exact List.perm_singleton.mp hnamed
  | entry :: next :: found =>
    have hsame : entry.1 = next.1 := by
      rw [hname entry List.mem_cons_self,
        hname next (List.mem_cons_of_mem entry List.mem_cons_self)]
    rw [List.map_cons, List.map_cons, List.nodup_cons, hsame] at hnodup
    exact absurd List.mem_cons_self hnodup.1

end

/-! ## Listings -/

/-- The list holds the failed checks, by the names of their fields, and those of one field in their
order. -/
structure Listing (failures listed : List (String × Failed)) : Prop where
  /-- Each failed check is listed, and as often as it fails. -/
  each : listed.Perm failures
  /-- The names of the fields ascend. -/
  ascending : listed.Pairwise fun a b => a.1 ≤ b.1
  /-- The checks of one field stay in their order. -/
  inOrder : ∀ name, named name listed = named name failures

section

variable {first second : String × Failed} {listed others failures : List (String × Failed)}

theorem mem_of_named_eq (h : ∀ name, named name listed = named name others)
    (hfirst : first ∈ listed) : first ∈ others := by
  have hmem : first ∈ named first.1 listed := mem_named_iff.mpr ⟨hfirst, rfl⟩
  rw [h, mem_named_iff] at hmem
  exact hmem.1

theorem head_le_of_mem (h : (second :: others).Pairwise fun a b => a.1 ≤ b.1)
    (hfirst : first ∈ second :: others) : second.1 ≤ first.1 := by
  rcases List.mem_cons.mp hfirst with rfl | hlater
  · exact String.le_refl first.1
  · exact (List.pairwise_cons.mp h).1 first hlater

/-- Names that ascend, and the order within each name, decide a list. -/
theorem eq_of_named_eq (h : listed.Pairwise fun a b => a.1 ≤ b.1)
    (hothers : others.Pairwise fun a b => a.1 ≤ b.1)
    (hnamed : ∀ name, named name listed = named name others) : listed = others := by
  induction listed generalizing others with
  | nil =>
    rw [eq_comm, List.eq_nil_iff_forall_not_mem]
    intro entry hentry
    exact List.not_mem_nil (mem_of_named_eq (fun name => (hnamed name).symm) hentry)
  | cons first listed ih =>
    cases others with
    | nil => exact absurd (mem_of_named_eq hnamed List.mem_cons_self) List.not_mem_nil
    | cons second others =>
      -- each head is in the other list, so neither name is greater than the other
      have hfirst : first ∈ second :: others := mem_of_named_eq hnamed List.mem_cons_self
      have hsecond : second ∈ first :: listed :=
        mem_of_named_eq (fun name => (hnamed name).symm) List.mem_cons_self
      have hname : first.1 = second.1 :=
        String.le_antisymm (head_le_of_mem h hsecond) (head_le_of_mem hothers hfirst)
      have hheads := hnamed first.1
      rw [named_cons, named_cons, if_pos rfl, if_pos hname.symm, List.cons.injEq] at hheads
      obtain ⟨rfl, htails⟩ := hheads
      -- the tails agree within the name of the heads by `htails`, within others as before
      congr 1
      refine ih (List.pairwise_cons.mp h).2 (List.pairwise_cons.mp hothers).2 fun name => ?_
      by_cases hsame : first.1 = name
      · rw [← hsame, htails]
      · have hlater := hnamed name
        rwa [named_cons, named_cons, if_neg hsame, if_neg hsame] at hlater

theorem Listing.unique (h : Listing failures listed) (hothers : Listing failures others) :
    listed = others := by
  refine eq_of_named_eq h.ascending hothers.ascending fun name => ?_
  rw [h.inOrder, hothers.inOrder]

end

/-! ## Fields in any order -/

section

variable {fields others : List (String × List Failed)}

theorem named_flat (fields : List (String × List Failed)) (name : String) :
    named name (Report.flat fields) = Report.flat (named name fields) := by
  unfold Report.flat
  induction fields with
  | nil => rfl
  | cons field fields ih =>
    have hown : ∀ entry ∈ field.2.map (field.1, ·), entry.1 = field.1 := by
      intro entry hentry
      obtain ⟨failed, -, rfl⟩ := List.mem_map.mp hentry
      rfl
    rw [List.flatMap_cons, named_append, named_cons, ih]
    by_cases hname : field.1 = name
    · rw [if_pos hname, named_eq_self fun entry hentry => (hown entry hentry).trans hname,
        List.flatMap_cons]
    · rw [if_neg hname, named_eq_nil fun entry hentry => hown entry hentry ▸ hname,
        List.nil_append]

theorem pairwise_byName (fields : List (String × List Failed)) :
    (Report.byName fields).Pairwise fun a b => a.1 ≤ b.1 := by
  have hsorted : (Report.byName fields).Pairwise fun a b => decide (a.1 ≤ b.1) = true := by
    refine List.pairwise_mergeSort (fun a b c hab hbc => ?_) (fun a b => ?_) fields
    · rw [decide_eq_true_iff] at hab hbc ⊢
      exact String.le_trans hab hbc
    · rw [Bool.or_eq_true, decide_eq_true_iff, decide_eq_true_iff]
      exact String.le_total a.1 b.1
  exact hsorted.imp of_decide_eq_true

/-- The fields with failed checks lead to one listing, in whatever order they come. -/
theorem listing_flat_byName (hperm : fields.Perm others)
    (hdistinct : (others.map Prod.fst).Nodup) :
    Listing (Report.flat others) (Report.flat (Report.byName fields)) := by
  have hsorted : (Report.byName fields).Perm others :=
    (List.mergeSort_perm fields _).trans hperm
  refine ⟨hsorted.flatMap_right _, ?_, fun name => ?_⟩
  · refine List.pairwise_flatMap.mpr ⟨fun field _ => ?_, ?_⟩
    · exact List.pairwise_map.mpr (List.pairwise_of_forall fun _ _ => String.le_refl field.1)
    · refine (pairwise_byName fields).imp fun {a b} hle first hfirst second hsecond => ?_
      obtain ⟨failed, -, rfl⟩ := List.mem_map.mp hfirst
      obtain ⟨next, -, rfl⟩ := List.mem_map.mp hsecond
      exact hle
  · rw [named_flat, named_flat, named_eq_of_perm hsorted hdistinct]

end

/-! ## Declared checks -/

/-- A field of a value, with the checks on it in their order. -/
structure FieldRule (α : Type) where
  name : String
  checks : List (α → Option Failed)

/-- The checks that fail. -/
def FieldRule.failed (rule : FieldRule α) (value : α) : List Failed :=
  rule.checks.filterMap (· value)

/-- What a value has to pass: checks on its fields, of which no two have one name. -/
structure Declared (α : Type) where
  fields : List (FieldRule α)
  distinct : (fields.map FieldRule.name).Nodup

namespace Declared

/-- The failed checks of a value, each with its field. -/
def failures (declared : Declared α) (value : α) : List (String × Failed) :=
  declared.fields.flatMap fun rule => (rule.failed value).map (rule.name, ·)

/-- The value passes all checks. -/
def Passes (declared : Declared α) (value : α) : Prop :=
  ∀ rule ∈ declared.fields, ∀ check ∈ rule.checks, check value = none

/-- The report on a value: its fields with failed checks, as they are declared. -/
def report (declared : Declared α) (value : α) : Report :=
  declared.fields.flatMap fun rule => Report.field rule.name (rule.checks.map (· value))

/-- The first failed check of the field that is first by name among those that have one. -/
def FirstFailed (declared : Declared α) (value : α) (failed : Failed) : Prop :=
  ∃ rule ∈ declared.fields, ∃ before check after,
    rule.checks = before ++ check :: after ∧ (∀ earlier ∈ before, earlier value = none) ∧
      check value = some failed ∧
      ∀ other ∈ declared.fields, (∃ check ∈ other.checks, check value ≠ none) →
        rule.name ≤ other.name

section

variable {declared : Declared α} {value : α}

theorem failures_eq_nil_iff : declared.failures value = [] ↔ declared.Passes value := by
  unfold failures Passes FieldRule.failed
  rw [List.flatMap_eq_nil_iff]
  simp only [List.map_eq_nil_iff, List.filterMap_eq_nil_iff]

theorem report_field (rule : FieldRule α) (value : α) :
    Report.field rule.name (rule.checks.map (· value)) =
      if rule.failed value = [] then [] else [(rule.name, .checks (rule.failed value))] := by
  have hfound : (rule.checks.map (· value)).filterMap id = rule.failed value := by
    rw [List.filterMap_map]
    rfl
  unfold Report.field
  rw [hfound]
  cases rule.failed value with
  | nil => rfl
  | cons failed later => rfl

theorem report_eq_nil_iff : declared.report value = [] ↔ declared.Passes value := by
  rw [← failures_eq_nil_iff]
  unfold report failures
  rw [List.flatMap_eq_nil_iff, List.flatMap_eq_nil_iff]
  refine forall₂_congr fun rule _ => ?_
  rw [report_field, List.map_eq_nil_iff, ite_eq_left_iff]
  simp

theorem flat_own_report (declared : Declared α) (value : α) :
    Report.flat (declared.report value).own = declared.failures value := by
  unfold report failures
  generalize declared.fields = rules
  induction rules with
  | nil => rfl
  | cons rule rules ih =>
    rw [List.flatMap_cons, List.flatMap_cons, ← ih, report_field]
    by_cases hnone : rule.failed value = []
    · rw [if_pos hnone, hnone, List.map_nil, List.nil_append, List.nil_append]
    · rw [if_neg hnone]
      rfl

theorem nodup_own_report (declared : Declared α) (value : α) :
    ((declared.report value).own.map Prod.fst).Nodup := by
  refine declared.distinct.sublist ?_
  unfold report
  generalize declared.fields = rules
  induction rules with
  | nil => exact List.nil_sublist []
  | cons rule rules ih =>
    rw [List.flatMap_cons, List.map_cons, report_field]
    by_cases hnone : rule.failed value = []
    · rw [if_pos hnone, List.nil_append]
      exact ih.cons rule.name
    · rw [if_neg hnone]
      exact ih.cons_cons rule.name

/-- A report with the declared fields, in whatever order, lists just the checks that fail. -/
theorem listing_of_perm {report : Report} (h : report.Perm (declared.report value)) :
    Listing (declared.failures value) report.listed := by
  rw [← flat_own_report]
  exact listing_flat_byName (h.filterMap _) (nodup_own_report declared value)

theorem failures_eq_flat (declared : Declared α) (value : α) :
    declared.failures value =
      Report.flat (declared.fields.map fun rule => (rule.name, rule.failed value)) := by
  unfold failures Report.flat
  rw [List.flatMap_map]

/-- The failed checks of one field are those of the only rule for it. -/
theorem named_failures {rule : FieldRule α} (hrule : rule ∈ declared.fields) :
    named rule.name (declared.failures value) = (rule.failed value).map (rule.name, ·) := by
  have hdistinct :
      ((declared.fields.map fun rule => (rule.name, rule.failed value)).map Prod.fst).Nodup := by
    rw [List.map_map]
    exact declared.distinct
  have hentry : (rule.name, rule.failed value) ∈
      declared.fields.map fun rule => (rule.name, rule.failed value) :=
    List.mem_map_of_mem hrule
  rw [failures_eq_flat, named_flat, named_eq_singleton hdistinct hentry]
  exact List.append_nil _

/-- The first check of a listing is the first that fails. -/
theorem firstFailed_of_listing {name : String} {failed : Failed}
    {later : List (String × Failed)}
    (h : Listing (declared.failures value) ((name, failed) :: later)) :
    declared.FirstFailed value failed := by
  have hfirst : (name, failed) ∈ declared.failures value := h.each.mem_iff.mp List.mem_cons_self
  obtain ⟨rule, hrule, hmem⟩ := List.mem_flatMap.mp hfirst
  obtain ⟨_, -, heq⟩ := List.mem_map.mp hmem
  obtain rfl : rule.name = name := congrArg Prod.fst heq
  -- within its own field the listed check is the first that the rule finds
  have hown := h.inOrder rule.name
  rw [named_failures hrule, named_cons, if_pos rfl, eq_comm, List.map_eq_cons_iff] at hown
  obtain ⟨first, rest, hrest, hsame, -⟩ := hown
  obtain rfl : failed = first := congrArg Prod.snd hsame.symm
  obtain ⟨before, check, after, hchecks, hbefore, hcheck, -⟩ :=
    List.filterMap_eq_cons_iff.mp hrest
  refine ⟨rule, hrule, before, check, after, hchecks, hbefore, hcheck, ?_⟩
  rintro other hother ⟨found, hfound, hfails⟩
  obtain ⟨issue, hissue⟩ := Option.ne_none_iff_exists'.mp hfails
  have hlisted : (other.name, issue) ∈ (rule.name, failed) :: later := by
    rw [h.each.mem_iff]
    refine List.mem_flatMap.mpr ⟨other, hother, List.mem_map_of_mem ?_⟩
    exact List.mem_filterMap.mpr ⟨found, hfound, hissue⟩
  exact head_le_of_mem h.ascending hlisted

theorem FirstFailed.unique {failed other : Failed} (h : declared.FirstFailed value failed)
    (hother : declared.FirstFailed value other) : failed = other := by
  obtain ⟨rule, hrule, before, check, after, hchecks, hbefore, hcheck, hleast⟩ := h
  obtain ⟨next, hnext, first, found, rest, hfirst, hpassed, hfound, hlesser⟩ := hother
  have hcheck_mem : check ∈ rule.checks :=
    hchecks ▸ List.mem_append_right before List.mem_cons_self
  have hfound_mem : found ∈ next.checks :=
    hfirst ▸ List.mem_append_right first List.mem_cons_self
  have hname : rule.name = next.name := String.le_antisymm
    (hleast next hnext ⟨found, hfound_mem, by rw [hfound]; exact Option.some_ne_none other⟩)
    (hlesser rule hrule ⟨check, hcheck_mem, by rw [hcheck]; exact Option.some_ne_none failed⟩)
  obtain rfl : rule = next := List.inj_on_of_nodup_map declared.distinct hrule hnext hname
  have hfailed : rule.failed value = failed :: after.filterMap (· value) :=
    List.filterMap_eq_cons_iff.mpr ⟨before, check, after, hchecks, hbefore, hcheck, rfl⟩
  have hothers : rule.failed value = other :: rest.filterMap (· value) :=
    List.filterMap_eq_cons_iff.mpr ⟨first, found, rest, hfirst, hpassed, hfound, rfl⟩
  rw [hfailed, List.cons.injEq] at hothers
  exact hothers.1

end

end Declared

end IdentityProvider.Validation
