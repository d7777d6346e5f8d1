import IdentityProvider.Forms.Search
import IdentityProvider.Intake
import IdentityProvider.Proofs.Log.Extent
import Mathlib

/-
  Where a log of text breaks its lines.

  A text between quotes holds no line break (`Quoted.notMem_encode`), and of the other parts of a
  line only a plain value can hold one (`Event.count_text`).  The path of a failure is quoted and
  its words are plain: so the event of a surface is one line, and the event of a failure breaks
  just where the words of the failure do (`Dispatched.count_failed`).  Words that quote what was
  sent break where the sender wants them to.
-/

namespace IdentityProvider

namespace Text

/-- The characters behind which a text goes on in a new line. -/
def lineBreaks : List Char := ['\n', '\x0b', '\x0c', '\r', '\u0085', '\u2028', '\u2029']

/-- A character that every terminal shows: printable and in ASCII. -/
def isPrintable (c : Char) : Bool := 0x20 ≤ c.toNat && c.toNat ≤ 0x7E

theorem notMem_of_all_printable {c : Char} (hc : c ∈ lineBreaks) {text : List Char}
    (h : text.all isPrintable = true) : c ∉ text := by
  have hbreaks : lineBreaks.all (fun c => !isPrintable c) = true := by decide
  intro hmem
  have hnot := List.all_eq_true.mp hbreaks c hc
  rw [List.all_eq_true.mp h c hmem] at hnot
  cases hnot

/-! ## Texts between quotes -/

theorem isHidden_of_mem {range : Nat × Nat} {c : Char} (h : range ∈ hiddenRanges)
    (hleast : range.1 ≤ c.toNat) (hgreatest : c.toNat ≤ range.2) : isHidden c = true := by
  refine List.any_eq_true.mpr ⟨range, h, ?_⟩
  rw [decide_eq_true hleast, decide_eq_true hgreatest]
  rfl

-- the table of hidden characters is long
set_option maxRecDepth 4000 in
theorem isHidden_of_mem_lineBreaks {c : Char} (hc : c ∈ lineBreaks) : isHidden c = true := by
  have hcontrols : (0x0, 0x1F) ∈ hiddenRanges := List.mem_cons_self
  have hlatin : (0x7F, 0xA0) ∈ hiddenRanges := List.mem_cons_of_mem _ List.mem_cons_self
  have hseparators : (0x2028, 0x202F) ∈ hiddenRanges := by decide
  simp only [lineBreaks, List.mem_cons, List.not_mem_nil, or_false] at hc
  rcases hc with rfl | rfl | rfl | rfl | rfl | rfl | rfl
  · exact isHidden_of_mem hcontrols (by decide) (by decide)
  · exact isHidden_of_mem hcontrols (by decide) (by decide)
  · exact isHidden_of_mem hcontrols (by decide) (by decide)
  · exact isHidden_of_mem hcontrols (by decide) (by decide)
  · exact isHidden_of_mem hlatin (by decide) (by decide)
  · exact isHidden_of_mem hseparators (by decide) (by decide)
  · exact isHidden_of_mem hseparators (by decide) (by decide)

theorem isPrintable_digitChar : ∀ n < 16, isPrintable n.digitChar = true := by
  decide

theorem all_isPrintable_toDigits {radix : Nat} (hradix : 1 < radix) (hle : radix ≤ 16) (n : Nat) :
    (Nat.toDigits radix n).all isPrintable = true := by
  induction n using Nat.strongRecOn with
  | ind n ih =>
    rw [Nat.toDigits_eq_if hradix]
    split
    · next hn =>
      rw [List.all_cons, isPrintable_digitChar n (by omega), List.all_nil, Bool.and_true]
    · next hn =>
      have hmod := Nat.mod_lt n (Nat.zero_lt_of_lt hradix)
      have hfront := ih (n / radix) (Nat.div_lt_self (by omega) hradix)
      have hlast := isPrintable_digitChar (n % radix) (by omega)
      rw [List.all_append, hfront, List.all_cons, hlast, List.all_nil]
      rfl

theorem Quoted.all_isPrintable_byNumber (c : Char) :
    (Quoted.byNumber c).all isPrintable = true := by
  have hmarks : ['\\', 'u', '\x7b'].all isPrintable = true := by decide
  show (['\\', 'u', '\x7b'] ++ (Nat.toDigits 16 c.toNat ++ ['\x7d'])).all isPrintable = true
  rw [List.all_append, List.all_append, hmarks,
    all_isPrintable_toDigits (by decide) (Nat.le_refl 16)]
  rfl

/-- No character shows as a line break between quotes. -/
theorem Quoted.notMem_escape {c : Char} (hc : c ∈ lineBreaks) (d : Char) :
    c ∉ Quoted.escape d := by
  unfold Quoted.escape
  split
  · exact notMem_of_all_printable hc (by decide)
  split
  · exact notMem_of_all_printable hc (by decide)
  split
  · exact notMem_of_all_printable hc (by decide)
  split
  · exact notMem_of_all_printable hc (by decide)
  split
  · exact notMem_of_all_printable hc (by decide)
  split
  · exact notMem_of_all_printable hc (by decide)
  split
  · exact notMem_of_all_printable hc (Quoted.all_isPrintable_byNumber d)
  · next hvisible =>
    -- a character that is shown as it is has a shape of its own
    rw [List.mem_singleton]
    rintro rfl
    exact hvisible (isHidden_of_mem_lineBreaks hc)

theorem Quoted.notMem_encode {c : Char} (hc : c ∈ lineBreaks) (text : List Char) :
    c ∉ Quoted.encode text := by
  have hquote : c ∉ ['"'] := notMem_of_all_printable hc (by decide)
  unfold Quoted.encode
  rw [List.mem_cons, List.mem_append, List.mem_flatMap, not_or, not_or]
  rw [List.mem_singleton] at hquote ⊢
  exact ⟨hquote, fun ⟨d, _, hmem⟩ => Quoted.notMem_escape hc d hmem, hquote⟩

end Text

namespace Log

open Text (lineBreaks notMem_of_all_printable)

/-! ## Events -/

/-- The part of a value that a line shows as it is. -/
def FieldValue.asItIs : FieldValue → List Char
  | .quoted _ => []
  | .plain text => text.toList
  | .count _ => []

/-- The texts that the line of an event shows as they are. -/
def Event.asItIs (event : Event) : List Char := event.fields.flatMap fun field => field.2.asItIs

section

variable {c : Char} (hc : c ∈ lineBreaks)
include hc

theorem FieldValue.count_text (value : FieldValue) : value.text.count c = value.asItIs.count c := by
  cases value with
  | quoted text => exact List.count_eq_zero.mpr (Text.Quoted.notMem_encode hc text.toList)
  | plain text => rfl
  | count n =>
    have hdigits := Text.all_isPrintable_toDigits (by decide : 1 < 10) (by decide) n
    exact List.count_eq_zero.mpr (notMem_of_all_printable hc hdigits)

theorem Event.count_fieldsText {fields : List (String × FieldValue)}
    (hnames : ∀ field ∈ fields, field.1.toList.all Text.isPrintable = true) :
    (Event.fieldsText fields).count c =
      (fields.flatMap fun field => field.2.asItIs).count c := by
  induction fields with
  | nil => rfl
  | cons field fields ih =>
    rw [List.forall_mem_cons] at hnames
    have hname : (' ' :: field.1.toList ++ ['=']).all Text.isPrintable = true := by
      rw [List.all_append, List.all_cons, hnames.1]
      rfl
    have hfield : Event.fieldsText (field :: fields) =
        (' ' :: field.1.toList ++ ['=']) ++ (field.2.text ++ Event.fieldsText fields) := by
      simp [Event.fieldsText]
    have hzero := List.count_eq_zero.mpr (notMem_of_all_printable hc hname)
    rw [hfield, List.flatMap_cons, @List.count_append _ _ c (_ ++ _) _, hzero, List.count_append,
      List.count_append, field.2.count_text hc, ih hnames.2, Nat.zero_add]

/-- A line breaks where the texts break that it shows as they are, and nowhere else. -/
theorem Event.count_text (event : Event) : event.text.toList.count c = event.asItIs.count c := by
  have hlead : (event.level.name.toList ++ ' ' :: event.target.toList ++ ':' :: ' ' ::
      event.message.toList).all Text.isPrintable = true := by
    cases event <;> simp only [Event.level, Level.name, Event.target, Event.message] <;> decide
  have hnames : ∀ field ∈ event.fields, field.1.toList.all Text.isPrintable = true := by
    cases event <;> simp only [Event.fields, List.forall_mem_cons] <;> decide
  unfold Event.text
  rw [String.toList_ofList, List.count_append, Event.count_fieldsText hc hnames,
    List.count_eq_zero.mpr (notMem_of_all_printable hc hlead), Nat.zero_add]
  rfl

end

theorem Dispatched.count_failed {c : Char} (hc : c ∈ lineBreaks) (d : Dispatched) :
    d.failed.text.toList.count c = d.failure.text.toList.count c := by
  have hfailed : d.failed.asItIs = d.failure.text.toList := by
    show [] ++ (d.failure.text.toList ++ []) = _
    rw [List.nil_append, List.append_nil]
  rw [Event.count_text hc, hfailed]

theorem Dispatched.notMem_surfaced {c : Char} (hc : c ∈ lineBreaks) (d : Dispatched) :
    c ∉ d.surfaced.text.toList := by
  have hname : (d.surfaced.asItIs).all Text.isPrintable = true := by
    show ([] ++ ((d.dispatcher.classifier.classify d.path).name.toList ++ [])).all _ = true
    cases d.dispatcher.classifier.classify d.path <;> rfl
  rw [← List.count_eq_zero, Event.count_text hc]
  exact List.count_eq_zero.mpr (notMem_of_all_printable hc hname)

/-! ## The written log -/

/-- A log as it is written: every event ends its line. -/
def written (lines : List String) : List Char := lines.flatMap fun line => line.toList ++ ['\n']

theorem count_written (lines : List String) : (written lines).count '\n' =
    lines.length + (lines.map fun line => line.toList.count '\n').sum := by
  induction lines with
  | nil => rfl
  | cons line lines ih =>
    have hcons : written (line :: lines) = line.toList ++ '\n' :: written lines := by
      simp [written]
    rw [hcons, List.count_append, List.count_cons_self, ih, List.length_cons, List.map_cons,
      List.sum_cons]
    omega

theorem count_written_dispatches (run : List Dispatched) :
    (written ((Dispatched.events run).map Event.text)).count '\n' =
      2 * run.length + (run.map fun d => d.failure.text.toList.count '\n').sum := by
  induction run with
  | nil => rfl
  | cons d run ih =>
    have hnewline : '\n' ∈ lineBreaks := List.mem_cons_self
    have hevents : Dispatched.events (d :: run) =
        d.failed :: d.surfaced :: Dispatched.events run := List.flatMap_cons
    have hsurfaced := List.count_eq_zero.mpr (d.notMem_surfaced hnewline)
    rw [count_written] at ih ⊢
    simp only [hevents, List.map_cons, List.sum_cons, List.length_cons, hsurfaced,
      d.count_failed hnewline] at ih ⊢
    omega

/-- Lines that hold no break are found again in the log. -/
theorem splitOn_written {lines : List String} (h : ∀ line ∈ lines, '\n' ∉ line.toList) :
    Text.splitOn '\n' (written lines) = lines.map String.toList ++ [[]] := by
  induction lines with
  | nil => rfl
  | cons line lines ih =>
    rw [List.forall_mem_cons] at h
    have hcons : written (line :: lines) = line.toList ++ '\n' :: written lines := by
      simp [written]
    rw [hcons, Text.splitOn_piece h.1, ih h.2]
    rfl

/-- The filter admits both events of every dispatch. -/
def Filter.AdmitsAll (filter : Filter) (run : List Dispatched) : Prop :=
  ∀ d ∈ run, filter.admits d.failed = true ∧ filter.admits d.surfaced = true

/-- A log of text writes all events of the dispatches that it admits. -/
theorem lines_of_admitsAll {filter : Filter} {run : List Dispatched} (h : filter.AdmitsAll run) :
    Sink.lines ⟨filter, .text⟩ (Dispatched.events run) =
      (Dispatched.events run).map Event.text := by
  have hall : ∀ event ∈ Dispatched.events run, filter.admits event = true := by
    intro event hevent
    obtain ⟨d, hd, hmem⟩ := List.mem_flatMap.mp hevent
    have hcases : event = d.failed ∨ event = d.surfaced := by
      simpa [Dispatcher.dispatch, Dispatcher.events, Dispatched.failed, Dispatched.surfaced]
        using hmem
    rcases hcases with rfl | rfl
    · exact (h d hd).1
    · exact (h d hd).2
  unfold Sink.lines Sink.admitted
  rw [List.filter_eq_self.mpr hall]
  rfl

/-- Where a log of text breaks its lines. -/
structure BreaksWithWords : Prop where
  /-- The event of a surface is one line, whatever the path is. -/
  surfaced : ∀ (d : Dispatched) (c : Char), c ∈ lineBreaks → c ∉ d.surfaced.text.toList
  /-- The event of a failure breaks as often as the failure's words do, whatever the path is. -/
  failed : ∀ (d : Dispatched) (c : Char), c ∈ lineBreaks →
    d.failed.text.toList.count c = d.failure.text.toList.count c
  /-- A run of dispatches takes two lines each, and one more for every break in their words. -/
  count : ∀ (filter : Filter) (run : List Dispatched), filter.AdmitsAll run →
    (written (Sink.lines ⟨filter, .text⟩ (Dispatched.events run))).count '\n' =
      2 * run.length + (run.map fun d => d.failure.text.toList.count '\n').sum
  /-- It takes just two lines each if no words break. -/
  count_eq_iff : ∀ (filter : Filter) (run : List Dispatched), filter.AdmitsAll run →
    ((written (Sink.lines ⟨filter, .text⟩ (Dispatched.events run))).count '\n' =
      2 * run.length ↔ ∀ d ∈ run, '\n' ∉ d.failure.text.toList)
  /-- Every line is then the line of one event, in the order of the events. -/
  lines : ∀ (filter : Filter) (run : List Dispatched), filter.AdmitsAll run →
    (∀ d ∈ run, '\n' ∉ d.failure.text.toList) →
    Text.splitOn '\n' (written (Sink.lines ⟨filter, .text⟩ (Dispatched.events run))) =
      (run.flatMap fun d => [d.failed.text.toList, d.surfaced.text.toList]) ++ [[]]

/-- A log of text breaks its lines behind every event, where the words of a failure break, and
nowhere else. -/
theorem breaks_with_words : BreaksWithWords where
  surfaced d c hc := d.notMem_surfaced hc
  failed d c hc := d.count_failed hc
  count filter run hadmits := by
    rw [lines_of_admitsAll hadmits, count_written_dispatches]
  count_eq_iff filter run hadmits := by
    rw [lines_of_admitsAll hadmits, count_written_dispatches]
    simp only [Nat.add_eq_left, List.sum_eq_zero_iff, List.forall_mem_map, List.count_eq_zero]
  lines filter run hadmits hwords := by
    have hnewline : '\n' ∈ lineBreaks := List.mem_cons_self
    have hevents : Dispatched.events run = run.flatMap fun d => [d.failed, d.surfaced] := rfl
    have hlines : ∀ line ∈ (Dispatched.events run).map Event.text, '\n' ∉ line.toList := by
      intro line hline
      obtain ⟨event, hevent, rfl⟩ := List.mem_map.mp hline
      obtain ⟨d, hd, hmem⟩ := List.mem_flatMap.mp (hevents ▸ hevent)
      simp only [List.mem_cons, List.not_mem_nil, or_false] at hmem
      rcases hmem with rfl | rfl
      · rw [← List.count_eq_zero, d.count_failed hnewline]
        exact List.count_eq_zero.mpr (hwords d hd)
      · exact d.notMem_surfaced hnewline
    rw [lines_of_admitsAll hadmits, splitOn_written hlines, hevents]
    simp only [List.map_flatMap, List.map_cons, List.map_nil]

/-! ## Words that break -/

/-- A search for a prompt that has a line of a log in it. -/
def forgingSearch : Request where
  method := "GET"
  path := "/search"
  sentPath := "/search"
  query := some "q=a&prompt=%0A2026-01-01T00:00:00.000000Z+ERROR+idp:+forged"
  headers := []
  body := []

/-- What is wrong with that search: there is no such prompt. -/
def forgingFault : Query.Fault :=
  .invalid "prompt" (.unknownVariant "\n2026-01-01T00:00:00.000000Z ERROR idp: forged"
    ["none", "login", "select_account"])

/-- The dispatch of the failure with which that search is refused. -/
def forgingDispatch : Dispatched :=
  ⟨⟨.standard, .builtin⟩, .typeMismatch forgingFault.text, "/search"⟩

theorem query_forgingSearch :
    Intake.query Search.shape Search.report forgingSearch = .error forgingDispatch.failure := by
  have hread : Search.shape.read forgingSearch.query = .error forgingFault := by cbv
  have hname : Intake.missingName? forgingFault.text = none := by decide +kernel
  unfold Intake.query Intake.queryFailure
  rw [hread]
  dsimp only
  rw [hname]
  rfl

theorem count_forgingDispatch : forgingDispatch.failure.text.toList.count '\n' = 1 := by
  decide +kernel

/-- The dispatch of a refused search takes three lines of the log. -/
theorem breaks_with_words_forged :
    Intake.query Search.shape Search.report forgingSearch = .error forgingDispatch.failure ∧
    (Filter.mk [.events none none Level.debug.rank]).AdmitsAll [forgingDispatch] ∧
    (written (Sink.lines ⟨⟨[.events none none Level.debug.rank]⟩, .text⟩
      (Dispatched.events [forgingDispatch]))).count '\n' = 3 := by
  have hadmits : (Filter.mk [.events none none Level.debug.rank]).AdmitsAll [forgingDispatch] := by
    intro d hd
    rw [List.mem_singleton] at hd
    subst hd
    exact ⟨rfl, rfl⟩
  refine ⟨query_forgingSearch, hadmits, ?_⟩
  rw [breaks_with_words.count _ _ hadmits, List.map_singleton, List.sum_singleton,
    count_forgingDispatch]
  rfl

/-- The events of a dispatch are not one line each: the words of a failure can break. -/
theorem not_one_line_each :
    ¬ ∀ (dispatcher : Dispatcher) (failure : Failure) (path : String),
      ∀ event ∈ (dispatcher.dispatch failure path).2, ∀ c ∈ lineBreaks, c ∉ event.text.toList := by
  intro hclaim
  have hnot : '\n' ∉ forgingDispatch.failed.text.toList :=
    hclaim forgingDispatch.dispatcher forgingDispatch.failure forgingDispatch.path _
      List.mem_cons_self '\n' List.mem_cons_self
  have hcount := forgingDispatch.count_failed (c := '\n') List.mem_cons_self
  rw [List.count_eq_zero.mpr hnot, count_forgingDispatch] at hcount
  cases hcount

end Log

end IdentityProvider
