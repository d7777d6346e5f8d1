import IdentityProvider.Forms.Search
import IdentityProvider.Proofs.Intake.MissingMark
import Mathlib

/-
  What a caller is told of a query that cannot be read.

  The failure is made from the fault in words: it names a missing parameter if the words say so
  anywhere, so also where they only quote what was sent.  `Fault.Misleads` describes the faults
  for which this happens (`Fault.saysMissing_iff`), and `query_fault_told` the failure for every
  fault.  The declared names are taken to hold no backtick, which every fault of a query inherits
  (`Shape.IsPlain.read`).
-/

namespace IdentityProvider

open Query

/-! ## Faults -/

namespace Query

open Intake

/-- The name holds no backtick. -/
def Plain (name : String) : Prop := '`' ∉ name.toList

instance : DecidablePred Plain := fun name => inferInstanceAs (Decidable ('`' ∉ name.toList))

/-- What was sent makes the words of the fault say that a parameter is missing: it holds the mark,
or it ends with the stem of the mark and the quote that ends it serves as the backtick.  An
expected name that ends with the stem does the same, unless it is the last. -/
def Misleads (sent : String) (expected : List String) : Prop :=
  missingMark <:+: sent.toList ∨ (missingStem <:+ sent.toList ∧ expected ≠ []) ∨
    ∃ name ∈ expected.dropLast, missingStem <:+ name.toList

/-- The faults that quote what was sent, with what misleads. -/
inductive Fault.Misleads : Fault → Prop
  | value (name sent : String) (expected : List String) : Query.Misleads sent expected →
    Fault.Misleads (.invalid name (.unknownVariant sent expected))
  | parameter (sent : String) (expected : List String) : Query.Misleads sent expected →
    Fault.Misleads (.unknown sent expected)

/-- The names that the declaration of a parameter brings into a cause are plain. -/
def Cause.IsPlain : Cause → Prop
  | .unknownVariant _ expected => ∀ name ∈ expected, Plain name
  | _ => True

/-- The declared names in a fault are plain; what was sent need not be. -/
def Fault.IsPlain : Fault → Prop
  | .invalid name cause => Plain name ∧ cause.IsPlain
  | .unknown _ expected => ∀ name ∈ expected, Plain name
  | .duplicate name => Plain name
  | .missing name => Plain name

/-- The names of the parameters are plain, and so are those of the values to choose from. -/
structure Shape.IsPlain (shape : Shape σ α) : Prop where
  fields : ∀ field ∈ shape.fields, Plain field.name
  causes : ∀ field ∈ shape.fields, ∀ record value cause, field.read record value = .error cause →
    cause.IsPlain
  finish : ∀ record name, shape.finish record = .error name → Plain name

section

variable {shape : Shape σ α}

/-- One pair is read, or the fault is plain. -/
theorem Shape.IsPlain.step (h : shape.IsPlain) {record : σ} {pair : String × String} {fault : Fault}
    (hstep : shape.step record pair = .error fault) : fault.IsPlain := by
  unfold Shape.step at hstep
  cases hfind : shape.fields.find? (·.name = pair.1) with
  | none =>
    simp only [hfind] at hstep
    split at hstep
    · cases hstep
      intro name hname
      obtain ⟨field, hfield, rfl⟩ := List.mem_map.mp hname
      exact h.fields field hfield
    · cases hstep
  | some field =>
    have hmem := List.mem_of_find?_eq_some hfind
    have hname : field.name = pair.1 := by simpa using List.find?_some hfind
    have hplain : Plain pair.1 := hname ▸ h.fields field hmem
    simp only [hfind] at hstep
    split at hstep
    · cases hstep
      exact hplain
    · cases hread : field.read record pair.2 with
      | ok record =>
        rw [hread] at hstep
        cases hstep
      | error cause =>
        rw [hread] at hstep
        cases hstep
        exact ⟨hplain, h.causes field hmem record pair.2 cause hread⟩

/-- The fault in a list of pairs is that of one of them. -/
theorem Shape.IsPlain.pairs (h : shape.IsPlain) {record : σ} {pairs : List (String × String)}
    {fault : Fault} (hpairs : pairs.foldlM shape.step record = .error fault) : fault.IsPlain := by
  induction pairs generalizing record with
  | nil => cases hpairs
  | cons pair pairs ih =>
    rw [List.foldlM_cons] at hpairs
    cases hstep : shape.step record pair with
    | error first =>
      rw [hstep] at hpairs
      cases hpairs
      exact h.step hstep
    | ok next =>
      rw [hstep] at hpairs
      exact ih hpairs

theorem Shape.IsPlain.read (h : shape.IsPlain) {query : Option String} {fault : Fault}
    (hread : shape.read query = .error fault) : fault.IsPlain := by
  unfold Shape.read Shape.ofPairs at hread
  cases hpairs : (Text.Percent.formPairs (query.getD "")).foldlM shape.step shape.empty with
  | error first =>
    rw [hpairs] at hread
    cases hread
    exact h.pairs hpairs
  | ok record =>
    rw [hpairs] at hread
    cases hfinish : shape.finish record with
    | ok value =>
      simp only [hfinish] at hread
      cases hread
    | error name =>
      simp only [hfinish] at hread
      cases hread
      exact h.finish record name hfinish

end

section

variable {kinds sent : String} {expected : List String} {front : List Char}

theorem toList_quoted (name : String) : (quoted name).toList = '`' :: (name.toList ++ ['`']) := by
  unfold quoted
  rw [String.toList_append, String.toList_append]
  rfl

/-- What is quoted, with the text in front of it and behind it. -/
theorem toList_quoting (lead sent between tail : String) :
    (lead ++ quoted sent ++ between ++ tail).toList =
      lead.toList ++ '`' :: (sent.toList ++ '`' :: (between ++ tail).toList) := by
  simp only [String.toList_append, toList_quoted, List.append_assoc, List.cons_append,
    List.nil_append]

/-- The names one by one, between backticks and with commas between them. -/
theorem toList_intercalate_quoted (names : List String) :
    (String.intercalate ", " (names.map quoted)).toList = ", ".toList.intercalate
      ((names.map String.toList).map fun name => '`' :: (name ++ ['`'])) := by
  have hquoted : String.toList ∘ quoted = (fun name => '`' :: (name ++ ['`'])) ∘ String.toList :=
    funext toList_quoted
  rw [String.toList_intercalate, List.map_map, List.map_map, hquoted]

theorem mem_expectation_iff (hkinds : Plain kinds) :
    '`' ∈ (", " ++ expectation kinds expected).toList ↔ expected ≠ [] := by
  unfold Plain at hkinds
  fun_cases expectation kinds expected with
  | case1 => simp [hkinds]
  | case2 name => simp [toList_quoted]
  | case3 first second => simp [toList_quoted]
  | case4 _ hnil hone htwo =>
    cases expected with
    | nil => exact (hnil rfl).elim
    | cons first others =>
      cases others with
      | nil => exact (hone first rfl).elim
      | cons second others => simp [toList_quoted]

theorem saysMissing_expectation (hkinds : Plain kinds) (hexpected : ∀ name ∈ expected, Plain name) :
    SaysMissing (", " ++ expectation kinds expected).toList ↔
      ∃ name ∈ expected.dropLast, missingStem <:+ name.toList := by
  have hnil : ¬ SaysMissing [] := not_saysMissing_of_notMem List.not_mem_nil
  fun_cases expectation kinds expected with
  | case1 =>
    have hmem : '`' ∉ (", " ++ ("there are no " ++ kinds)).toList := by
      simpa [Plain] using hkinds
    simp only [not_saysMissing_of_notMem hmem, List.dropLast_nil, List.not_mem_nil, false_and,
      exists_false]
  | case2 name =>
    have hname : Plain name := hexpected name List.mem_cons_self
    have htext : (", " ++ ("expected " ++ quoted name)).toList =
        ", expected ".toList ++ '`' :: (name.toList ++ '`' :: []) := by
      simp [toList_quoted]
    rw [htext, saysMissing_name (by decide) (by decide) hname]
    simp only [List.not_mem_nil, and_false, hnil, or_self, List.dropLast_singleton, false_and,
      exists_false]
  | case3 first second =>
    obtain ⟨hfirst, hsecond⟩ := List.forall_mem_cons.mp hexpected
    have htext : (", " ++ ("expected " ++ quoted first ++ " or " ++ quoted second)).toList =
        ", expected ".toList ++ '`' :: (first.toList ++ '`' ::
          (" or ".toList ++ '`' :: (second.toList ++ '`' :: []))) := by
      simp [toList_quoted]
    rw [htext, saysMissing_name (by decide) (by decide) hfirst,
      saysMissing_name (by decide) (by decide) (hsecond second List.mem_cons_self)]
    simp [hnil]
  | case4 =>
    have htext : (", " ++ ("expected one of " ++
          String.intercalate ", " (expected.map quoted))).toList =
        ", expected one of ".toList ++ ", ".toList.intercalate
          ((expected.map String.toList).map fun name => '`' :: (name ++ ['`'])) := by
      rw [String.toList_append, String.toList_append, toList_intercalate_quoted,
        ← List.append_assoc]
      rfl
    have hnames : ∀ name ∈ expected.map String.toList, '`' ∉ name := by
      intro name hname
      obtain ⟨plain, hplain, rfl⟩ := List.mem_map.mp hname
      exact hexpected plain hplain
    rw [htext, saysMissing_names (by decide) (by decide) (by decide) (by decide) hnames,
      ← List.map_dropLast]
    constructor
    · rintro ⟨_, hmem, hstem⟩
      obtain ⟨name, hname, rfl⟩ := List.mem_map.mp hmem
      exact ⟨name, hname, hstem⟩
    · rintro ⟨name, hname, hstem⟩
      exact ⟨name.toList, List.mem_map_of_mem hname, hstem⟩

/-- What was sent misleads behind a text that neither holds the mark nor ends with its stem. -/
theorem saysMissing_sent (hmark : missingMark <:+: front → missingMark <:+: sent.toList)
    (hstem : ¬ missingStem <:+ front) (hkinds : Plain kinds)
    (hexpected : ∀ name ∈ expected, Plain name) :
    SaysMissing (front ++ '`' :: (sent.toList ++ '`' ::
      (", " ++ expectation kinds expected).toList)) ↔ Misleads sent expected := by
  unfold Misleads
  rw [saysMissing_across, saysMissing_across, mem_expectation_iff hkinds,
    saysMissing_expectation hkinds hexpected]
  constructor
  · rintro (h | ⟨h, -⟩ | h)
    · exact .inl (hmark h)
    · exact absurd h hstem
    · exact h
  · intro h
    exact .inr (.inr h)

/-- The mark is not made up of what stands around a text that was sent. -/
theorem mark_infix_of_infix_lead
    (h : missingMark <:+: (Fault.textStart ++ sent ++ ": unknown field ").toList) :
    missingMark <:+: sent.toList := by
  have hcolon : ':' ∉ missingMark := by decide
  have htext : (Fault.textStart ++ sent ++ ": unknown field ").toList =
      "Failed to deserialize query string".toList ++ ':' :: (' ' :: sent.toList ++
        ':' :: " unknown field ".toList) := by
    simp [Fault.textStart]
  rw [htext] at h
  rcases Text.infix_append_cons hcolon h with h | h
  · exact absurd h (not_mark_infix_of_notMem (by decide))
  · rcases Text.infix_append_cons hcolon h with h | h
    · rcases List.infix_cons_iff.mp h with h | h
      · have hmark : missingMark = 'm' :: "issing field `".toList := by decide
        obtain ⟨rest, hrest⟩ := h
        rw [hmark, List.cons_append] at hrest
        exact absurd (List.cons.inj hrest).1 (by decide)
      · exact h
    · exact absurd h (not_mark_infix_of_notMem (by decide))

end

/-! ### The words of each fault -/

section

variable {name : String} {sent : String} {expected : List String}

theorem not_saysMissing_duplicate (hname : Plain name) :
    ¬ SaysMissing (Fault.duplicate name).text.toList := by
  have htext : (Fault.duplicate name).text.toList =
      (Fault.textStart ++ "duplicate field ").toList ++ '`' :: (name.toList ++ '`' :: []) := by
    simp [Fault.text, toList_quoted]
  rw [htext, saysMissing_name (by decide) (by decide) hname]
  rintro (⟨-, hmem⟩ | hempty)
  · cases hmem
  · exact not_saysMissing_of_notMem List.not_mem_nil hempty

/-- What stands in front of the cause holds no backtick. -/
theorem notMem_lead (hname : Plain name) : '`' ∉ (Fault.textStart ++ name ++ ": ").toList := by
  simp only [String.toList_append, List.mem_append, not_or]
  exact ⟨⟨by decide, hname⟩, by decide⟩

theorem not_saysMissing_number (hname : Plain name) (fault : Text.Decimal.Fault) :
    ¬ SaysMissing (Fault.invalid name (.number fault)).text.toList := by
  have hfault : '`' ∉ fault.text.toList := by cases fault <;> decide
  have htext : (Fault.invalid name (.number fault)).text.toList =
      (Fault.textStart ++ name ++ ": ").toList ++ fault.text.toList := String.toList_append
  apply not_saysMissing_of_notMem
  rw [htext, List.mem_append, not_or]
  exact ⟨notMem_lead hname, hfault⟩

theorem not_saysMissing_notBoolean (hname : Plain name) :
    ¬ SaysMissing (Fault.invalid name .notBoolean).text.toList := by
  have hcause : Cause.notBoolean.text.toList = "provided string was not ".toList ++
      '`' :: ("true".toList ++ '`' :: (" or ".toList ++ '`' :: ("false".toList ++ ['`']))) := by
    decide
  have htext : (Fault.invalid name .notBoolean).text.toList =
      ((Fault.textStart ++ name ++ ": ").toList ++ "provided string was not ".toList) ++
        '`' :: ("true".toList ++ '`' :: (" or ".toList ++ '`' :: ("false".toList ++ ['`']))) := by
    rw [List.append_assoc, ← hcause]
    exact String.toList_append
  rw [htext, saysMissing_lead, saysMissing_name (by decide) (by decide) (by decide),
    saysMissing_lead (by decide) (by decide)]
  · rintro (⟨hstem, -⟩ | hempty)
    · exact absurd hstem (by decide)
    · exact not_saysMissing_of_notMem List.not_mem_nil hempty
  · rw [List.mem_append, not_or]
    exact ⟨notMem_lead hname, by decide⟩
  · exact not_stem_suffix_append (by decide) (by decide)

theorem saysMissing_unknownVariant_iff (hname : Plain name)
    (hexpected : ∀ name ∈ expected, Plain name) :
    SaysMissing (Fault.invalid name (.unknownVariant sent expected)).text.toList ↔
      Misleads sent expected := by
  have htext : (Fault.invalid name (.unknownVariant sent expected)).text.toList =
      ((Fault.textStart ++ name ++ ": ").toList ++ "unknown variant ".toList) ++
        '`' :: (sent.toList ++ '`' :: (", " ++ expectation "variants" expected).toList) := by
    rw [List.append_assoc, ← toList_quoting]
    exact String.toList_append
  have hfront : '`' ∉ (Fault.textStart ++ name ++ ": ").toList ++ "unknown variant ".toList := by
    rw [List.mem_append, not_or]
    exact ⟨notMem_lead hname, by decide⟩
  rw [htext]
  apply saysMissing_sent _ _ (by decide) hexpected
  · intro hmark
    exact absurd hmark (not_mark_infix_of_notMem hfront)
  · exact not_stem_suffix_append (by decide) (by decide)

theorem saysMissing_unknown_iff (hexpected : ∀ name ∈ expected, Plain name) :
    SaysMissing (Fault.unknown sent expected).text.toList ↔ Misleads sent expected := by
  have htext : (Fault.unknown sent expected).text.toList =
      (Fault.textStart ++ sent ++ ": unknown field ").toList ++
        '`' :: (sent.toList ++ '`' :: (", " ++ expectation "fields" expected).toList) :=
    toList_quoting _ _ _ _
  rw [htext]
  apply saysMissing_sent mark_infix_of_infix_lead _ (by decide) hexpected
  rw [String.toList_append]
  exact not_stem_suffix_append (by decide) (by decide)

/-- The words of a fault say that a parameter is missing only where it misleads. -/
theorem Fault.saysMissing_iff {fault : Fault} (hplain : fault.IsPlain)
    (hmissing : ∀ name, fault ≠ .missing name) :
    SaysMissing fault.text.toList ↔ fault.Misleads := by
  cases fault with
  | missing name => exact absurd rfl (hmissing name)
  | duplicate name => exact iff_of_false (not_saysMissing_duplicate hplain) nofun
  | invalid name cause =>
    obtain ⟨hname, hcause⟩ := hplain
    cases cause with
    | number fault => exact iff_of_false (not_saysMissing_number hname fault) nofun
    | notBoolean => exact iff_of_false (not_saysMissing_notBoolean hname) nofun
    | unknownVariant sent expected =>
      rw [saysMissing_unknownVariant_iff hname hcause]
      constructor
      · exact .value name sent expected
      · rintro ⟨⟩
        assumption
  | unknown sent expected =>
    rw [saysMissing_unknown_iff hplain]
    constructor
    · exact .parameter sent expected
    · rintro ⟨⟩
      assumption

end

end Query

/-! ## What a caller is told -/

namespace Intake

/-- What a caller would be told by the kind of a fault alone. -/
inductive Classified : Fault → Failure → Prop
  | missing (name : String) :
    Classified (.missing name) (.missingParameter name (name ++ " is required"))
  | mismatch (fault : Fault) : (∀ name, fault ≠ .missing name) →
    Classified fault (.typeMismatch fault.text)

/-- What a caller is told: a fault that misleads is taken for the absence of the parameter that its
words name first. -/
inductive Told : Fault → Failure → Prop
  | missing (name : String) :
    Told (.missing name) (.missingParameter name (name ++ " is required"))
  | mismatch (fault : Fault) : (∀ name, fault ≠ .missing name) → ¬ fault.Misleads →
    Told fault (.typeMismatch fault.text)
  | misled (fault : Fault) (name : String) : fault.Misleads →
    FirstMissing fault.text.toList name.toList →
    Told fault (.missingParameter name (name ++ " is required"))

theorem queryFailure_of_firstMissing {fault : Fault} {name : String}
    (h : FirstMissing fault.text.toList name.toList) :
    queryFailure fault = .missingParameter name (name ++ " is required") := by
  unfold queryFailure
  rw [missingName?_eq_some_iff.mpr h]
  rfl

theorem queryFailure_of_not_saysMissing {fault : Fault} (h : ¬ SaysMissing fault.text.toList) :
    queryFailure fault = .typeMismatch fault.text := by
  unfold queryFailure
  rw [missingName?_eq_none_iff.mpr h]

/-- A parameter that is missing is named by the first mark, as no backtick comes before it. -/
theorem firstMissing_missing {name : String} (hname : Plain name) :
    FirstMissing (Fault.missing name).text.toList name.toList := by
  have htext : (Fault.missing name).text.toList =
      (Fault.textStart.toList ++ missingStem) ++ '`' :: (name.toList ++ ['`']) := by
    have happend : (Fault.missing name).text.toList =
        (Fault.textStart ++ "missing field ").toList ++ (quoted name).toList :=
      String.toList_append
    rw [happend, String.toList_append, toList_quoted]
    rfl
  have hfront : '`' ∉ Fault.textStart.toList ++ missingStem := by decide
  refine ⟨[], ⟨Fault.textStart.toList, ?_, ?_⟩, hname⟩
  · rw [htext, missingMark_eq]
    simp only [List.append_assoc, List.singleton_append]
  · intro earlier later hearlier
    rw [missingMark_eq, ← List.append_assoc, List.append_assoc, List.singleton_append,
      htext] at hearlier
    have hle := Text.length_le_of_append_cons hfront hearlier
    rw [List.length_append, List.length_append] at hle
    exact Nat.le_of_add_le_add_right hle

theorem told_queryFailure {fault : Fault} (hplain : fault.IsPlain) :
    Told fault (queryFailure fault) := by
  by_cases hmissing : ∃ name, fault = .missing name
  · obtain ⟨name, rfl⟩ := hmissing
    rw [queryFailure_of_firstMissing (firstMissing_missing hplain)]
    exact .missing name
  · have hother : ∀ name, fault ≠ .missing name := not_exists.mp hmissing
    cases hname : missingName? fault.text with
    | none =>
      have hsays := missingName?_eq_none_iff.mp hname
      rw [queryFailure_of_not_saysMissing hsays]
      exact .mismatch fault hother fun h => hsays ((Fault.saysMissing_iff hplain hother).mpr h)
    | some name =>
      have hfirst := missingName?_eq_some_iff.mp hname
      rw [queryFailure_of_firstMissing hfirst]
      exact .misled fault name ((Fault.saysMissing_iff hplain hother).mp hfirst.saysMissing) hfirst

theorem queryFailure_of_told {fault : Fault} {failure : Failure} (hplain : fault.IsPlain)
    (h : Told fault failure) : queryFailure fault = failure := by
  cases h with
  | missing name => exact queryFailure_of_firstMissing (firstMissing_missing hplain)
  | mismatch _ hother hnot =>
    exact queryFailure_of_not_saysMissing fun h => hnot ((Fault.saysMissing_iff hplain hother).mp h)
  | misled _ name _ hfirst => exact queryFailure_of_firstMissing hfirst

/-- Every fault in a query is told by its kind, unless its words quote something that misleads. -/
theorem query_fault_told {shape : Shape σ α} (hplain : shape.IsPlain)
    (report : α → Validation.Report) {request : Request} {fault : Fault}
    (hread : shape.read request.query = .error fault) (failure : Failure) :
    query shape report request = .error failure ↔ Told fault failure := by
  have hfault := hplain.read hread
  have hquery : query shape report request = .error (queryFailure fault) := by
    unfold query
    rw [hread]
  rw [hquery, Except.error.injEq]
  constructor
  · rintro rfl
    exact told_queryFailure hfault
  · exact queryFailure_of_told hfault

end Intake

namespace Query

theorem Field.ofPlace_read_eq_error {get : σ → Option α} {set : σ → α → σ} {read : Reader α}
    {name value : String} {record : σ} {cause : Cause}
    (h : (Field.ofPlace name get set read).read record value = .error cause) :
    read value = .error cause := by
  cases hread : read value with
  | ok parsed =>
    have hok : (Field.ofPlace name get set read).read record value = .ok (set record parsed) := by
      simp only [Field.ofPlace, hread, Except.map]
    rw [hok] at h
    cases h
  | error first =>
    have herror : (Field.ofPlace name get set read).read record value = .error first := by
      simp only [Field.ofPlace, hread, Except.map]
    exact congrArg Except.error (Except.error.inj (herror.symm.trans h))

theorem Reader.integer_isPlain {least greatest : Int} {value : String} {cause : Cause}
    (h : Reader.integer least greatest value = .error cause) : cause.IsPlain := by
  unfold Reader.integer at h
  split at h <;> cases h
  trivial

theorem Reader.boolean_isPlain {value : String} {cause : Cause}
    (h : Reader.boolean value = .error cause) : cause.IsPlain := by
  unfold Reader.boolean at h
  split at h
  · cases h
  · split at h <;> cases h
    trivial

theorem Reader.choice_isPlain {choices : List (String × α)} {value : String} {cause : Cause}
    (hchoices : ∀ choice ∈ choices, Plain choice.1)
    (h : Reader.choice choices value = .error cause) : cause.IsPlain := by
  unfold Reader.choice at h
  split at h <;> cases h
  intro name hname
  obtain ⟨choice, hchoice, rfl⟩ := List.mem_map.mp hname
  exact hchoices choice hchoice

end Query

theorem Search.isPlain_shape : Search.shape.IsPlain where
  fields := by
    intro field hfield
    have hnames : ∀ name ∈ Search.shape.fields.map (·.name), Plain name := by decide
    exact hnames field.name (List.mem_map_of_mem hfield)
  causes := by
    intro field hfield record value cause hread
    simp only [Search.shape, List.mem_cons, List.not_mem_nil, or_false] at hfield
    rcases hfield with rfl | rfl | rfl | rfl
    · cases Field.ofPlace_read_eq_error hread
    · exact Reader.choice_isPlain (by decide) (Field.ofPlace_read_eq_error hread)
    · exact Reader.boolean_isPlain (Field.ofPlace_read_eq_error hread)
    · exact Reader.integer_isPlain (Field.ofPlace_read_eq_error hread)
  finish := by
    intro record name hfinish
    simp only [Search.shape, required] at hfinish
    cases hq : record.q with
    | none =>
      rw [hq] at hfinish
      cases hfinish
      decide
    | some q =>
      rw [hq] at hfinish
      cases hfinish

/-- A search for a prompt that reads like the absence of a parameter. -/
def misleadingSearch : Request where
  method := "GET"
  path := "/search"
  sentPath := "/search"
  query := some "q=a&prompt=missing+field+%60x%60"
  headers := []
  body := []

/-- What is wrong with that search: there is no such prompt. -/
def misleadingFault : Fault :=
  .invalid "prompt" (.unknownVariant "missing field `x`" ["none", "login", "select_account"])

theorem read_misleadingSearch :
    Search.shape.read misleadingSearch.query = .error misleadingFault := by
  cbv

theorem misleads_misleadingFault : misleadingFault.Misleads :=
  .value _ _ _ (.inl (by decide))

theorem firstMissing_misleadingFault :
    Intake.FirstMissing misleadingFault.text.toList "x".toList :=
  Intake.missingName?_eq_some_iff.mp (by decide +kernel)

/-- The search is refused for a parameter that nobody declared. -/
theorem query_fault_told_search :
    Intake.query Search.shape Search.report misleadingSearch =
      .error (.missingParameter "x" "x is required") :=
  (Intake.query_fault_told Search.isPlain_shape Search.report read_misleadingSearch _).mpr
    (.misled misleadingFault "x" misleads_misleadingFault firstMissing_misleadingFault)

/-- Faults are not told by their kind alone, not even where all declared names are plain. -/
theorem not_classified_by_kind :
    ¬ ∀ (σ α : Type) (shape : Shape σ α) (report : α → Validation.Report) (request : Request)
      (fault : Fault), shape.IsPlain → shape.read request.query = .error fault →
      ∃ failure, Intake.query shape report request = .error failure ∧
        Intake.Classified fault failure := by
  intro hclassified
  obtain ⟨failure, htold, hkind⟩ := hclassified _ _ Search.shape Search.report misleadingSearch
    misleadingFault Search.isPlain_shape read_misleadingSearch
  have hquery : Intake.query Search.shape Search.report misleadingSearch =
      .error (.missingParameter "x" "x is required") := by
    unfold Intake.query
    rw [read_misleadingSearch]
    exact congrArg Except.error (Intake.queryFailure_of_firstMissing firstMissing_misleadingFault)
  rw [hquery] at htold
  cases htold
  cases hkind

end IdentityProvider
