import IdentityProvider.Forms.Profile
import IdentityProvider.Proofs.Intake.Admission

/-
  Failed checks inside the values that a value consists of.

  A report is a tree, and `Report.failures` lists the failed checks of all its leaves, each with the
  way to it.  A caller is told of those at the first step only (`Located.own?`): the list holds each
  of them as often as it fails and nothing else (`listed_perm`).  So all failed checks are told just
  if none lies deeper, and a value that fails none but deeper ones is refused without a word of
  what is wrong (`tells_own`), as a profile with an unusable contact is (`not_told_in_full`).
-/

namespace IdentityProvider

open Validation

namespace Validation

/-! ## Checks at any depth -/

/-- A step towards a failed check. -/
inductive Step
  /-- Into the field of this name. -/
  | field (name : String)
  /-- To the value at this place of a list. -/
  | place (index : Nat)
  deriving DecidableEq, Repr

/-- A failed check with the way to it, from the outside in. -/
structure Located where
  way : List Step
  failed : Failed
  deriving DecidableEq, Repr

/-- The same check, seen from one step further out. -/
def Located.behind (step : Step) (located : Located) : Located :=
  ⟨step :: located.way, located.failed⟩

/-- A check on a field of the value itself, with the name of the field. -/
def Located.own? : Located → Option (String × Failed)
  | ⟨[.field name], failed⟩ => some (name, failed)
  | _ => none

mutual

/-- The failed checks of an issue. -/
def Issue.failures : Issue → List Located
  | .checks failed => failed.map fun f => ⟨[], f⟩
  | .nested fields => fieldFailures fields
  | .items items => itemFailures items

/-- The failed checks of some fields. -/
def fieldFailures : List (String × Issue) → List Located
  | [] => []
  | (name, issue) :: fields =>
    issue.failures.map (Located.behind (.field name)) ++ fieldFailures fields

/-- The failed checks of some values of a list. -/
def itemFailures : List (Nat × List (String × Issue)) → List Located
  | [] => []
  | (index, fields) :: items =>
    (fieldFailures fields).map (Located.behind (.place index)) ++ itemFailures items

end

/-- The failed checks of a report, at any depth. -/
def Report.failures (report : Report) : List Located := fieldFailures report

section

variable {located : Located} {fields : List (String × Issue)}

/-- Behind a further step nothing is a check on a field of the value itself. -/
theorem Located.own?_behind (step : Step) (h : located.way ≠ []) :
    (located.behind step).own? = none := by
  obtain ⟨way, failed⟩ := located
  cases way with
  | nil => exact absurd rfl h
  | cons first way => cases step <;> rfl

theorem way_ne_nil_of_mem_fieldFailures (h : located ∈ fieldFailures fields) :
    located.way ≠ [] := by
  induction fields with
  | nil => exact absurd h List.not_mem_nil
  | cons field fields ih =>
    rw [fieldFailures, List.mem_append] at h
    obtain h | h := h
    · obtain ⟨inner, -, rfl⟩ := List.mem_map.mp h
      exact List.cons_ne_nil _ _
    · exact ih h

theorem way_ne_nil_of_mem_itemFailures {items : List (Nat × List (String × Issue))}
    (h : located ∈ itemFailures items) : located.way ≠ [] := by
  induction items with
  | nil => exact absurd h List.not_mem_nil
  | cons item items ih =>
    rw [itemFailures, List.mem_append] at h
    obtain h | h := h
    · obtain ⟨inner, -, rfl⟩ := List.mem_map.mp h
      exact List.cons_ne_nil _ _
    · exact ih h

/-- No check inside a value is one on a field of the value around it. -/
theorem filterMap_own?_behind {failures : List Located} (name : String)
    (h : ∀ located ∈ failures, located.way ≠ []) :
    (failures.map (Located.behind (.field name))).filterMap Located.own? = [] := by
  rw [List.filterMap_eq_nil_iff]
  intro located hlocated
  obtain ⟨inner, hinner, rfl⟩ := List.mem_map.mp hlocated
  exact Located.own?_behind _ (h inner hinner)

theorem filterMap_own?_checks (name : String) (failed : List Failed) :
    ((failed.map fun f => (⟨[], f⟩ : Located)).map (Located.behind (.field name))).filterMap
      Located.own? = failed.map (name, ·) := by
  rw [List.map_map, List.filterMap_map, ← List.filterMap_eq_map]
  rfl

/-- The fields with failed checks of their own are what the report has at the first step. -/
theorem flat_own (report : Report) :
    Report.flat report.own = report.failures.filterMap Located.own? := by
  unfold Report.failures
  induction report with
  | nil => rfl
  | cons field report ih =>
    obtain ⟨name, issue⟩ := field
    rw [fieldFailures, List.filterMap_append, ← ih]
    cases issue with
    | checks failed =>
      rw [Issue.failures, filterMap_own?_checks]
      rfl
    | nested fields =>
      rw [Issue.failures, filterMap_own?_behind name fun _ => way_ne_nil_of_mem_fieldFailures]
      rfl
    | items items =>
      rw [Issue.failures, filterMap_own?_behind name fun _ => way_ne_nil_of_mem_itemFailures]
      rfl

theorem listed_perm (report : Report) :
    report.listed.Perm (report.failures.filterMap Located.own?) := by
  rw [← flat_own]
  exact (List.mergeSort_perm _ _).flatMap_right _

theorem listed_eq_nil_iff (report : Report) :
    report.listed = [] ↔ ∀ located ∈ report.failures, located.own? = none := by
  rw [← List.filterMap_eq_nil_iff]
  constructor
  · intro h
    exact (h ▸ listed_perm report).nil_eq.symm
  · intro h
    exact (h ▸ listed_perm report).eq_nil

/-- Nothing is left out of the list just if no failed check lies deeper. -/
theorem length_listed_eq_iff (report : Report) :
    report.listed.length = report.failures.length ↔
      ∀ located ∈ report.failures, located.own? ≠ none := by
  rw [(listed_perm report).length_eq, List.filterMap_length_eq_length]
  simp only [Option.isSome_iff_ne_none]

end

end Validation

/-! ## What is told -/

/-- What a caller is told of a value with this report: the failed checks on the fields of the value
itself, and nothing of those inside them. -/
structure TellsOwn (report : Report) : Prop where
  /-- The list holds each failed check of a field itself, as often as it fails. -/
  listed : report.listed.Perm (report.failures.filterMap Located.own?)
  /-- All failed checks are told just if none lies deeper. -/
  all_iff : (report.fieldErrors.length = report.failures.length ∧
      report.violations.length = report.failures.length) ↔
    ∀ located ∈ report.failures, located.own? ≠ none
  /-- A body with the report is refused for these checks, and without any if all lie deeper. -/
  body : ∀ {α : Type} (decode : Json.Decoder α) (remark : Intake.Remark) (reportOn : α → Report)
    (request : Request) (value : α), HoldsJson decode request value → reportOn value = report →
    report ≠ [] →
    ∃ errors message,
      Intake.json decode remark reportOn request = .error (.invalidArgument errors message) ∧
        errors.Perm ((report.failures.filterMap Located.own?).map fun entry =>
          ⟨entry.1, entry.2.text⟩) ∧
        (errors = [] ↔ ∀ located ∈ report.failures, located.own? = none)
  /-- So is a query. -/
  query : ∀ {σ α : Type} (shape : Query.Shape σ α) (reportOn : α → Report) (request : Request)
    (value : α), HoldsQuery shape request value → reportOn value = report → report ≠ [] →
    ∃ violations message,
      Intake.query shape reportOn request = .error (.constraintViolation violations message) ∧
        violations.Perm ((report.failures.filterMap Located.own?).map fun entry =>
          ⟨entry.1, entry.2.text⟩) ∧
        (violations = [] ↔ ∀ located ∈ report.failures, located.own? = none)

theorem tells_own (report : Report) : TellsOwn report where
  listed := listed_perm report
  all_iff := by
    rw [Report.fieldErrors, Report.violations, List.length_map, List.length_map, and_self]
    exact length_listed_eq_iff report
  body decode remark reportOn request value hholds hreport hfails := by
    subst hreport
    refine ⟨_, _, (takesIn_json decode remark reportOn).refuses hholds hfails, ?_, ?_⟩
    · exact (listed_perm _).map _
    · rw [List.map_eq_nil_iff]
      exact listed_eq_nil_iff _
  query shape reportOn request value hholds hreport hfails := by
    subst hreport
    refine ⟨_, _, (takesIn_query shape reportOn).refuses hholds hfails, ?_, ?_⟩
    · exact (listed_perm _).map _
    · rw [List.map_eq_nil_iff]
      exact listed_eq_nil_iff _

/-- A profile in which nothing is wrong but the mail address of the contact. -/
def unreachableProfile : Profile := ⟨"Ann", none, "UTC", some ⟨""⟩, []⟩

/-- The request that sends this profile. -/
def unreachableProfileRequest : Request where
  method := "POST"
  path := "/profile"
  sentPath := "/profile"
  query := none
  headers := [("content-type", Text.Utf8.encode "application/json")]
  body := Text.Utf8.encode
    "\x7b\"displayName\":\"Ann\",\"timeZone\":\"UTC\",\"contact\":\x7b\"mail\":\"\"\x7d\x7d"

theorem failures_unreachableProfile :
    unreachableProfile.report.failures =
      [⟨[.field "contact", .field "mail"], ⟨"length", none⟩⟩] := by cbv

theorem holdsJson_unreachableProfile :
    HoldsJson Profile.shape.decoder unreachableProfileRequest unreachableProfile := by
  have hjson : Intake.isJson unreachableProfileRequest = true := by cbv
  have hlength : unreachableProfileRequest.body.length ≤ 2097152 := by cbv
  have hread : Json.read Profile.shape.decoder (Text.Utf8.decode unreachableProfileRequest.body) =
      .ok unreachableProfile := by cbv
  exact ⟨isJson_iff.mp hjson, hlength, hread⟩

/-- A failed check inside a contact is dropped, and the profile is refused without any. -/
theorem not_told_in_full :
    (¬ ∀ (profile : Profile), ∀ located ∈ profile.report.failures,
      ∃ entry ∈ profile.report.fieldErrors, entry.message = located.failed.text) ∧
    ¬ ∀ (remark : Intake.Remark) (request : Request) (errors : List FieldError)
        (message : String),
      Intake.json Profile.shape.decoder remark Profile.report request =
        .error (.invalidArgument errors message) → errors ≠ [] := by
  have hlisted : unreachableProfile.report.listed = [] := by
    rw [listed_eq_nil_iff, failures_unreachableProfile]
    decide
  constructor
  · intro htold
    have hmem : (⟨[.field "contact", .field "mail"], ⟨"length", none⟩⟩ : Located) ∈
        unreachableProfile.report.failures := by
      rw [failures_unreachableProfile]
      exact List.mem_singleton_self _
    obtain ⟨entry, hentry, -⟩ := htold unreachableProfile _ hmem
    rw [Report.fieldErrors, hlisted] at hentry
    exact List.not_mem_nil hentry
  · intro hnonempty
    have hfails : unreachableProfile.report ≠ [] := by
      intro hnil
      have hfailures := failures_unreachableProfile
      rw [hnil] at hfailures
      cases hfailures
    have hrefused := (takesIn_json Profile.shape.decoder Intake.endRemark Profile.report).refuses
      holdsJson_unreachableProfile hfails
    rw [hlisted] at hrefused
    exact hnonempty _ _ _ _ hrefused rfl

end IdentityProvider
