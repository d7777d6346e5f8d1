import IdentityProvider.Catalog.Bundle
import IdentityProvider.Proofs.Toml.Keys
import Mathlib.Data.Set.Card

/-
  What a catalog says after any run of steps.

  A step puts texts into the catalog or fails (`Step.Puts`, `Step.Fails`); the texts of a bundle
  may be put in in any order, because the keys of a document are distinct.  `Runs` is a run of
  steps with any such orders.  After it a code has the text of the last step that mentions it
  (`Latest`), failing that its built-in one, failing that it stands for itself (`Shown`), and the
  catalog holds just the codes that are built in or mentioned.
-/

namespace IdentityProvider.Catalog

/-! ## One overlay -/

/-- The last of the pairs with this code has this text. -/
def LastText (pairs : List (String × String)) (code text : String) : Prop :=
  ∃ before after, pairs = before ++ (code, text) :: after ∧ code ∉ after.map Prod.fst

theorem lastText_cons_iff {pair : String × String} {pairs : List (String × String)}
    {code text : String} : LastText (pair :: pairs) code text ↔
      LastText pairs code text ∨ (pair = (code, text) ∧ code ∉ pairs.map Prod.fst) := by
  constructor
  · rintro ⟨before, after, hpairs, hafter⟩
    cases before with
    | nil =>
      rw [List.nil_append, List.cons.injEq] at hpairs
      obtain ⟨rfl, rfl⟩ := hpairs
      exact .inr ⟨rfl, hafter⟩
    | cons first before =>
      rw [List.cons_append, List.cons.injEq] at hpairs
      exact .inl ⟨before, after, hpairs.2, hafter⟩
  · rintro (⟨before, after, rfl, hafter⟩ | ⟨rfl, hcode⟩)
    · exact ⟨pair :: before, after, rfl, hafter⟩
    · exact ⟨[], pairs, rfl, hcode⟩

theorem LastText.mem {pairs : List (String × String)} {code text : String}
    (h : LastText pairs code text) : (code, text) ∈ pairs := by
  obtain ⟨before, after, rfl, -⟩ := h
  exact List.mem_append_right before List.mem_cons_self

theorem LastText.mem_codes {pairs : List (String × String)} {code text : String}
    (h : LastText pairs code text) : code ∈ pairs.map Prod.fst :=
  List.mem_map_of_mem h.mem

theorem exists_lastText {pairs : List (String × String)} {code : String}
    (h : code ∈ pairs.map Prod.fst) : ∃ text, LastText pairs code text := by
  induction pairs with
  | nil => cases h
  | cons pair pairs ih =>
    by_cases hlater : code ∈ pairs.map Prod.fst
    · obtain ⟨text, htext⟩ := ih hlater
      exact ⟨text, lastText_cons_iff.mpr (.inl htext)⟩
    · rw [List.map_cons, List.mem_cons] at h
      have hcode := h.resolve_right hlater
      exact ⟨pair.2, lastText_cons_iff.mpr (.inr ⟨by rw [hcode], hlater⟩)⟩

/-- Where no code stands twice, each pair is the last with its code. -/
theorem lastText_iff_mem {pairs : List (String × String)} (h : Toml.DistinctKeys pairs)
    {code text : String} : LastText pairs code text ↔ (code, text) ∈ pairs := by
  constructor
  · exact LastText.mem
  · intro hmem
    obtain ⟨before, after, rfl⟩ := List.append_of_mem hmem
    refine ⟨before, after, rfl, ?_⟩
    unfold Toml.DistinctKeys at h
    rw [List.map_append, List.map_cons] at h
    exact (List.nodup_cons.mp h.of_append_right).1

theorem overlay_cons (catalog : Catalog) (pair : String × String)
    (pairs : List (String × String)) :
    catalog.overlay (pair :: pairs) = (catalog.put pair.1 pair.2).overlay pairs := rfl

theorem text?_overlay_of_notMem {pairs : List (String × String)} {code : String}
    (h : code ∉ pairs.map Prod.fst) (catalog : Catalog) :
    (catalog.overlay pairs).text? code = catalog.text? code := by
  induction pairs generalizing catalog with
  | nil => rfl
  | cons pair pairs ih =>
    rw [List.map_cons, List.mem_cons, not_or] at h
    rw [overlay_cons, ih h.2, text?_put, if_neg h.1]

theorem text?_overlay_of_lastText {pairs : List (String × String)} {code text : String}
    (h : LastText pairs code text) (catalog : Catalog) :
    (catalog.overlay pairs).text? code = some text := by
  induction pairs generalizing catalog with
  | nil =>
    obtain ⟨before, after, hpairs, -⟩ := h
    simp at hpairs
  | cons pair pairs ih =>
    rw [overlay_cons]
    rcases lastText_cons_iff.mp h with hlater | ⟨rfl, hcode⟩
    · exact ih hlater _
    · rw [text?_overlay_of_notMem hcode, text?_put, if_pos rfl]

theorem mem_codes_put {catalog : Catalog} {code text key : String} :
    key ∈ (catalog.put code text).codes ↔ key ∈ catalog.codes ∨ key = code := by
  rw [codes_put]
  split
  · next hcode => exact ⟨.inl, fun h => h.elim id fun heq => heq ▸ hcode⟩
  · rw [List.mem_append, List.mem_singleton]

theorem mem_codes_overlay {catalog : Catalog} {pairs : List (String × String)} {key : String} :
    key ∈ (catalog.overlay pairs).codes ↔ key ∈ catalog.codes ∨ key ∈ pairs.map Prod.fst := by
  induction pairs generalizing catalog with
  | nil => simp [overlay]
  | cons pair pairs ih =>
    rw [overlay_cons, ih, mem_codes_put, List.map_cons, List.mem_cons, or_assoc]

theorem nodup_codes_put {catalog : Catalog} (h : catalog.codes.Nodup) (code text : String) :
    (catalog.put code text).codes.Nodup := by
  rw [codes_put]
  split
  · exact h
  · next hcode =>
    rw [← List.concat_eq_append]
    exact List.Nodup.concat hcode h

theorem nodup_codes_overlay {catalog : Catalog} (h : catalog.codes.Nodup)
    (pairs : List (String × String)) : (catalog.overlay pairs).codes.Nodup := by
  induction pairs generalizing catalog with
  | nil => exact h
  | cons pair pairs ih => exact ih (nodup_codes_put h pair.1 pair.2)

/-- Where no code stands twice, the size of a catalog is the number of its codes. -/
theorem size_eq_ncard {catalog : Catalog} (h : catalog.codes.Nodup) {property : String → Prop}
    (hcodes : ∀ code, code ∈ catalog.codes ↔ property code) :
    catalog.size = {code | property code}.ncard := by
  have hset : {code | property code} = (catalog.codes.toFinset : Set String) := by
    ext code
    rw [Set.mem_ofPred_eq, Finset.mem_coe, List.mem_toFinset, hcodes]
  rw [hset, Set.ncard_coe_finset, List.toFinset_card_of_nodup h, size_eq_length_codes]

/-! ## Steps -/

/-- The document is a flat table of just these texts. -/
def IsBundle (document : String) (pairs : List (String × String)) : Prop :=
  Toml.read? document = some (pairs.map fun pair => (pair.1, .string pair.2))

theorem text?_eq_some_iff {value : Toml} {text : String} :
    value.text? = some text ↔ value = .string text := by
  cases value with
  | string other => simp [Toml.text?]
  | boolean | number | moment | array | table => simp [Toml.text?]

theorem bundle?_eq_some_iff {document : String} {pairs : List (String × String)} :
    bundle? document = some pairs ↔ IsBundle document pairs := by
  have htexts : ∀ entries : Toml.Entries, (Toml.table entries).texts? = some pairs ↔
      entries = pairs.map fun pair => (pair.1, .string pair.2) := by
    intro entries
    show entries.mapM (fun entry => entry.2.text?.map (entry.1, ·)) = some pairs ↔ _
    induction entries generalizing pairs with
    | nil => cases pairs <;> simp
    | cons entry entries ih =>
      rw [List.mapM_cons]
      cases pairs with
      | nil => simp [Option.bind_eq_some_iff]
      | cons pair pairs =>
        simp [Option.bind_eq_some_iff, text?_eq_some_iff, ih, Prod.ext_iff, and_assoc, and_left_comm]
  unfold bundle? IsBundle
  rw [Option.bind_eq_some_iff]
  simp only [htexts, exists_eq_right]

theorem IsBundle.distinct {document : String} {pairs : List (String × String)}
    (h : IsBundle document pairs) : Toml.DistinctKeys pairs := by
  have hdistinct := Toml.read?_distinct h
  unfold Toml.DistinctKeys at *
  rwa [List.map_map] at hdistinct

/-- The texts that a step puts into a catalog, in the order in which it does so.  Those of a bundle
come in any order. -/
inductive Step.Puts (files : Files) : Step → List (String × String) → Prop
  | bundle (document : String) (pairs order : List (String × String)) :
    IsBundle document pairs → order.Perm pairs → Puts files (.bundle document) order
  | file (path document : String) (order : List (String × String)) :
    files.text path = .ok document → Puts files (.bundle document) order →
    Puts files (.file path) order
  | entries (pairs : List (String × String)) : Puts files (.entries pairs) pairs

/-- The step puts nothing into a catalog. -/
def Step.Fails (files : Files) (step : Step) : Prop := ∀ order, ¬ step.Puts files order

/-- The step puts a text for the code, and no other one after it. -/
def Step.Gives (files : Files) (step : Step) (code text : String) : Prop :=
  ∃ order, step.Puts files order ∧ LastText order code text

/-- The step puts a text for the code. -/
def Step.Mentions (files : Files) (step : Step) (code : String) : Prop :=
  ∃ order, step.Puts files order ∧ code ∈ order.map Prod.fst

section

variable {files : Files} {step : Step} {order : List (String × String)} {code text : String}

theorem IsBundle.unique {document : String} {pairs others : List (String × String)}
    (h : IsBundle document pairs) (hother : IsBundle document others) : pairs = others := by
  have hpairs := bundle?_eq_some_iff.mpr h
  rw [bundle?_eq_some_iff.mpr hother, Option.some.injEq] at hpairs
  exact hpairs.symm

/-- The order in which the texts of a bundle are put in does not matter. -/
theorem IsBundle.lastText_iff_mem {document : String} {pairs : List (String × String)}
    (h : IsBundle document pairs) (horder : order.Perm pairs) :
    LastText order code text ↔ (code, text) ∈ pairs := by
  have hdistinct : Toml.DistinctKeys order := by
    unfold Toml.DistinctKeys
    rw [(horder.map Prod.fst).nodup_iff]
    exact h.distinct
  rw [Catalog.lastText_iff_mem hdistinct, horder.mem_iff]

namespace Step

theorem Puts.lastText_iff {other : List (String × String)} (h : step.Puts files order)
    (hother : step.Puts files other) : LastText order code text ↔ LastText other code text := by
  induction h generalizing other with
  | bundle document pairs order hpairs horder =>
    cases hother with
    | bundle _ others other hothers hother =>
      rw [hpairs.lastText_iff_mem horder, hothers.lastText_iff_mem hother, hpairs.unique hothers]
  | file path document order hfile hputs ih =>
    cases hother with
    | file _ found other hfound hother =>
      rw [hfile, Except.ok.injEq] at hfound
      exact ih (hfound ▸ hother)
  | entries pairs =>
    cases hother with
    | entries _ => rfl

theorem Puts.gives_iff (h : step.Puts files order) :
    step.Gives files code text ↔ LastText order code text := by
  constructor
  · rintro ⟨other, hother, htext⟩
    exact (hother.lastText_iff h).mp htext
  · intro htext
    exact ⟨order, h, htext⟩

theorem mentions_iff : step.Mentions files code ↔ ∃ text, step.Gives files code text := by
  constructor
  · rintro ⟨order, hputs, hcode⟩
    obtain ⟨text, htext⟩ := exists_lastText hcode
    exact ⟨text, order, hputs, htext⟩
  · rintro ⟨text, order, hputs, htext⟩
    exact ⟨order, hputs, htext.mem_codes⟩

theorem Puts.mentions_iff (h : step.Puts files order) :
    step.Mentions files code ↔ code ∈ order.map Prod.fst := by
  constructor
  · intro hcode
    obtain ⟨text, htext⟩ := Step.mentions_iff.mp hcode
    exact (h.gives_iff.mp htext).mem_codes
  · intro hcode
    exact ⟨order, h, hcode⟩

theorem Fails.not_mentions (h : step.Fails files) : ¬ step.Mentions files code :=
  fun ⟨order, hputs, _⟩ => h order hputs

theorem not_fails_of_puts (h : step.Puts files order) : ¬ step.Fails files :=
  fun hfails => hfails order h

end Step

theorem withBundle_cases (files : Files) (catalog : Catalog) (document : String) :
    (∃ order, (Step.bundle document).Puts files order ∧
      catalog.withBundle document = .ok (catalog.overlay order)) ∨
    ((Step.bundle document).Fails files ∧ ∃ error, catalog.withBundle document = .error error) := by
  unfold withBundle
  cases hbundle : bundle? document with
  | some pairs =>
    have hpairs : IsBundle document pairs := bundle?_eq_some_iff.mp hbundle
    exact .inl ⟨pairs, .bundle document pairs pairs hpairs (.refl pairs), rfl⟩
  | none =>
    refine .inr ⟨?_, .malformed document, rfl⟩
    rintro order ⟨_, pairs, _, hpairs, -⟩
    rw [bundle?_eq_some_iff.mpr hpairs] at hbundle
    cases hbundle

/-- A step goes through and puts its texts into the catalog, or it fails. -/
theorem step_cases (files : Files) (catalog : Catalog) (step : Step) :
    (∃ order, step.Puts files order ∧ catalog.step files step = .ok (catalog.overlay order)) ∨
      (step.Fails files ∧ ∃ error, catalog.step files step = .error error) := by
  cases step with
  | bundle document => exact withBundle_cases files catalog document
  | file path =>
    cases hfile : files.text path with
    | error fault =>
      have hstep : catalog.step files (.file path) = .error (.unreadable path fault) := by
        simp only [Catalog.step, withFile, hfile]
      refine .inr ⟨fun order hputs => ?_, _, hstep⟩
      cases hputs with
      | file _ document order hdocument hputs =>
        rw [hfile] at hdocument
        cases hdocument
    | ok document =>
      have hstep : catalog.step files (.file path) = catalog.withBundle document := by
        simp only [Catalog.step, withFile, hfile]
      rw [hstep]
      obtain ⟨order, hputs, hbundle⟩ | ⟨hfails, hbundle⟩ :=
        withBundle_cases files catalog document
      · exact .inl ⟨order, .file path document order hfile hputs, hbundle⟩
      · refine .inr ⟨fun order hputs => ?_, hbundle⟩
        cases hputs with
        | file _ found order hfound hputs =>
          rw [hfile, Except.ok.injEq] at hfound
          exact hfails order (hfound ▸ hputs)
  | entries pairs => exact .inl ⟨pairs, .entries pairs, rfl⟩

end

/-! ## Runs of steps -/

/-- A run of steps takes one catalog to another: each step puts in its texts, in any order in which
it may, or fails and changes nothing. -/
inductive Runs (files : Files) : Catalog → List Step → Catalog → Prop
  | nil (catalog : Catalog) : Runs files catalog [] catalog
  | put {catalog last : Catalog} {step : Step} {order : List (String × String)}
    {steps : List Step} : step.Puts files order → Runs files (catalog.overlay order) steps last →
    Runs files catalog (step :: steps) last
  | failed {catalog last : Catalog} {step : Step} {steps : List Step} :
    step.Fails files → Runs files catalog steps last → Runs files catalog (step :: steps) last

/-- The last of the steps that mention the code gives it this text. -/
def Latest (files : Files) (steps : List Step) (code text : String) : Prop :=
  ∃ before step after, steps = before ++ step :: after ∧ step.Gives files code text ∧
    ∀ later ∈ after, ¬ later.Mentions files code

/-- The text shown for a code after a run of steps: that of the last step that mentions it, else
the built-in one, else the code itself. -/
inductive Shown (files : Files) (steps : List Step) (code : String) : String → Prop
  | latest (text : String) : Latest files steps code text → Shown files steps code text
  | builtin (text : String) : (∀ step ∈ steps, ¬ step.Mentions files code) →
    (code, text) ∈ Catalog.builtin.entries → Shown files steps code text
  | itself : (∀ step ∈ steps, ¬ step.Mentions files code) → code ∉ Catalog.builtin.codes →
    Shown files steps code code

section

variable {files : Files} {catalog last : Catalog} {steps : List Step} {code text : String}

theorem runs_foldl_after (files : Files) (catalog : Catalog) (steps : List Step) :
    Runs files catalog steps (steps.foldl (after files) catalog) := by
  induction steps generalizing catalog with
  | nil => exact .nil catalog
  | cons step steps ih =>
    rw [List.foldl_cons]
    have hrest := ih (catalog.after files step)
    obtain ⟨order, hputs, hstep⟩ | ⟨hfails, error, hstep⟩ := step_cases files catalog step
    · have hafter : catalog.after files step = catalog.overlay order := by
        unfold after
        rw [hstep]
      rw [hafter] at hrest ⊢
      exact .put hputs hrest
    · have hafter : catalog.after files step = catalog := by
        unfold after
        rw [hstep]
      rw [hafter] at hrest ⊢
      exact .failed hfails hrest

theorem Runs.append {others : List Step} (h : Runs files catalog (steps ++ others) last) :
    ∃ middle, Runs files catalog steps middle ∧ Runs files middle others last := by
  induction steps generalizing catalog with
  | nil => exact ⟨catalog, .nil catalog, h⟩
  | cons step steps ih =>
    cases h with
    | put hputs hrest =>
      obtain ⟨middle, hsteps, hothers⟩ := ih hrest
      exact ⟨middle, .put hputs hsteps, hothers⟩
    | failed hfails hrest =>
      obtain ⟨middle, hsteps, hothers⟩ := ih hrest
      exact ⟨middle, .failed hfails hsteps, hothers⟩

theorem Runs.nodup_codes (h : Runs files catalog steps last) (hcatalog : catalog.codes.Nodup) :
    last.codes.Nodup := by
  induction h with
  | nil catalog => exact hcatalog
  | put hputs hrest ih => exact ih (nodup_codes_overlay hcatalog _)
  | failed hfails hrest ih => exact ih hcatalog

theorem Runs.mem_codes_iff (h : Runs files catalog steps last) :
    code ∈ last.codes ↔ code ∈ catalog.codes ∨ ∃ step ∈ steps, step.Mentions files code := by
  induction h with
  | nil catalog => simp
  | put hputs hrest ih =>
    rw [ih, mem_codes_overlay, List.exists_mem_cons_iff, hputs.mentions_iff, or_assoc]
  | failed hfails hrest ih =>
    rw [ih, List.exists_mem_cons_iff, or_iff_right hfails.not_mentions]

theorem Runs.text?_of_not_mentioned (h : Runs files catalog steps last)
    (hcode : ∀ step ∈ steps, ¬ step.Mentions files code) : last.text? code = catalog.text? code := by
  induction h with
  | nil catalog => rfl
  | put hputs hrest ih =>
    rw [List.forall_mem_cons, hputs.mentions_iff] at hcode
    rw [ih hcode.2, text?_overlay_of_notMem hcode.1]
  | failed hfails hrest ih => exact ih (List.forall_mem_cons.mp hcode).2

/-- What comes before the last step that mentions a code does not matter, nor what comes after. -/
theorem Runs.text?_of_latest (h : Runs files catalog steps last)
    (hlatest : Latest files steps code text) : last.text? code = some text := by
  obtain ⟨before, step, after, rfl, hgives, hafter⟩ := hlatest
  obtain ⟨middle, -, hrest⟩ := h.append
  cases hrest with
  | put hputs hrest =>
    rw [hrest.text?_of_not_mentioned hafter]
    exact text?_overlay_of_lastText (hputs.gives_iff.mp hgives) middle
  | failed hfails hrest =>
    exact absurd (Step.mentions_iff.mpr ⟨text, hgives⟩) hfails.not_mentions

theorem exists_latest (h : ∃ step ∈ steps, step.Mentions files code) :
    ∃ text, Latest files steps code text := by
  induction steps with
  | nil =>
    obtain ⟨step, hstep, -⟩ := h
    cases hstep
  | cons step steps ih =>
    by_cases hlater : ∃ later ∈ steps, later.Mentions files code
    · obtain ⟨text, before, later, after, rfl, hgives, hafter⟩ := ih hlater
      exact ⟨text, step :: before, later, after, rfl, hgives, hafter⟩
    · rw [List.exists_mem_cons_iff] at h
      obtain ⟨text, hgives⟩ := Step.mentions_iff.mp (h.resolve_right hlater)
      push Not at hlater
      exact ⟨text, [], step, steps, rfl, hgives, hlater⟩

/-! ## What is shown -/

theorem overlay_builtin : (Catalog.mk []).overlay builtin.entries = builtin := by decide

theorem nodup_codes_builtin : builtin.codes.Nodup := by decide

theorem text?_builtin_of_mem (h : (code, text) ∈ builtin.entries) :
    builtin.text? code = some text := by
  rw [← overlay_builtin]
  exact text?_overlay_of_lastText ((lastText_iff_mem nodup_codes_builtin).mpr h) ⟨[]⟩

theorem text?_builtin_of_notMem (h : code ∉ builtin.codes) : builtin.text? code = none := by
  rw [← overlay_builtin]
  exact text?_overlay_of_notMem h ⟨[]⟩

theorem Runs.resolve_of_shown (h : Runs files builtin steps last)
    (hshown : Shown files steps code text) : last.resolve code = text := by
  unfold resolve
  cases hshown with
  | latest _ hlatest => rw [h.text?_of_latest hlatest, Option.getD_some]
  | builtin _ hcode hmem =>
    rw [h.text?_of_not_mentioned hcode, text?_builtin_of_mem hmem, Option.getD_some]
  | itself hcode hnew =>
    rw [h.text?_of_not_mentioned hcode, text?_builtin_of_notMem hnew, Option.getD_none]

theorem exists_shown (files : Files) (steps : List Step) (code : String) :
    ∃ text, Shown files steps code text := by
  by_cases hmentioned : ∃ step ∈ steps, step.Mentions files code
  · obtain ⟨text, hlatest⟩ := exists_latest hmentioned
    exact ⟨text, .latest text hlatest⟩
  · push Not at hmentioned
    by_cases hbuiltin : code ∈ builtin.codes
    · obtain ⟨⟨_, text⟩, hmem, rfl⟩ := List.mem_map.mp hbuiltin
      exact ⟨text, .builtin text hmentioned hmem⟩
    · exact ⟨code, .itself hmentioned hbuiltin⟩

theorem Runs.resolve_eq_iff (h : Runs files builtin steps last) :
    last.resolve code = text ↔ Shown files steps code text := by
  constructor
  · rintro rfl
    obtain ⟨text, hshown⟩ := exists_shown files steps code
    rwa [h.resolve_of_shown hshown]
  · exact h.resolve_of_shown

theorem Runs.size_eq_ncard (h : Runs files builtin steps last) :
    last.size =
      {code | code ∈ builtin.codes ∨ ∃ step ∈ steps, step.Mentions files code}.ncard :=
  Catalog.size_eq_ncard (h.nodup_codes nodup_codes_builtin) fun _ => h.mem_codes_iff

theorem size_le_after (files : Files) (catalog : Catalog) (step : Step)
    (h : catalog.codes.Nodup) : catalog.size ≤ (catalog.after files step).size := by
  have hrun : Runs files catalog [step] (catalog.after files step) :=
    runs_foldl_after files catalog [step]
  have hsubset : catalog.codes ⊆ (catalog.after files step).codes :=
    fun code hcode => hrun.mem_codes_iff.mpr (.inl hcode)
  rw [size_eq_length_codes, size_eq_length_codes]
  exact (h.subperm hsubset).length_le

end

/-- What a catalog says after a run of steps from the built-in texts, whatever the orders in which
the texts of bundles are put in. -/
structure LastWriterWins (files : Files) (steps : List Step) : Prop where
  /-- The catalog after the steps is one that a run of them comes to. -/
  ran : Runs files builtin steps (steps.foldl (after files) builtin)
  /-- Each code has the text of the last step that mentions it, and so on. -/
  shown : ∀ catalog, Runs files builtin steps catalog → ∀ code text,
    catalog.resolve code = text ↔ Shown files steps code text
  /-- Two runs of the same steps come to the same texts and the same size. -/
  orderless : ∀ catalog other, Runs files builtin steps catalog → Runs files builtin steps other →
    (∀ code, catalog.resolve code = other.resolve code) ∧ catalog.size = other.size
  /-- The size is the number of codes that are built in or mentioned by a step. -/
  counted : ∀ catalog, Runs files builtin steps catalog → catalog.size =
    {code | code ∈ builtin.codes ∨ ∃ step ∈ steps, step.Mentions files code}.ncard
  /-- It is never less than that of the built-in texts, and no further step makes it less. -/
  growing : ∀ catalog, Runs files builtin steps catalog → 7 ≤ catalog.size ∧
    ∀ step, catalog.size ≤ (catalog.after files step).size
  /-- A step is refused just if it puts nothing, and then the catalog stays as it is. -/
  refused : ∀ catalog, Runs files builtin steps catalog → ∀ step,
    ((∃ error, catalog.step files step = .error error) ↔ step.Fails files) ∧
      (step.Fails files → catalog.after files step = catalog)

/-- The last step that mentions a code decides its text, over any run of steps. -/
theorem lastWriterWins (files : Files) (steps : List Step) : LastWriterWins files steps where
  ran := runs_foldl_after files builtin steps
  shown _ h _ _ := h.resolve_eq_iff
  orderless catalog other h hother := by
    refine ⟨fun code => ?_, ?_⟩
    · exact h.resolve_eq_iff.mpr (hother.resolve_eq_iff.mp rfl)
    · rw [h.size_eq_ncard, hother.size_eq_ncard]
  counted _ h := h.size_eq_ncard
  growing catalog h := by
    have hnodup := h.nodup_codes nodup_codes_builtin
    have hsubset : builtin.codes ⊆ catalog.codes :=
      fun code hcode => h.mem_codes_iff.mpr (.inl hcode)
    refine ⟨?_, fun step => size_le_after files catalog step hnodup⟩
    rw [size_eq_length_codes]
    exact (nodup_codes_builtin.subperm hsubset).length_le
  refused catalog _ step := by
    obtain ⟨order, hputs, hstep⟩ | ⟨hfails, error, hstep⟩ := step_cases files catalog step
    · have hnot : ¬ step.Fails files := Step.not_fails_of_puts hputs
      refine ⟨⟨?_, fun hfails => absurd hfails hnot⟩, fun hfails => absurd hfails hnot⟩
      rintro ⟨error, herror⟩
      rw [hstep] at herror
      cases herror
    · refine ⟨⟨fun _ => hfails, fun _ => ⟨error, hstep⟩⟩, fun _ => ?_⟩
      unfold after
      rw [hstep]

end IdentityProvider.Catalog
