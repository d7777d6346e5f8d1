import IdentityProvider.Dispatch
import IdentityProvider.Log.Line
import IdentityProvider.Proofs.Text.Runs
import IdentityProvider.Proofs.Traversal
import Mathlib

/-
  How much of a run of dispatches a log keeps.

  The directive that decides on a target is the last of the most precise ones that apply
  (`Filter.settled_deciding?`), so all events of one target are measured against one threshold
  (`Filter.admits_iff`).  Both events of a dispatch have the same target, and the failure has the
  smaller rank of the two: a log keeps neither, the failure alone or both, and does the same for
  every dispatch (`admitted_run`).
-/

namespace IdentityProvider.Log

/-! ## The directive that decides -/

namespace Filter

/-- The directive decides on an event: it applies, none that applies is more precise, and none
behind it is as precise. -/
def Decides (directives : List Directive) (event : Event) (directive : Directive) : Prop :=
  ∃ before after, directives = before ++ directive :: after ∧
    directive.applies event = true ∧
    (∀ d ∈ before, d.applies event = true → ¬ directive.precision < d.precision) ∧
    ∀ d ∈ after, d.applies event = true → d.precision < directive.precision

/-- The threshold for an event: that of the directive that decides, and nothing where no directive
applies. -/
inductive Reaches (directives : List Directive) (event : Event) : Threshold → Prop
  | decided (target field : Option (List Char)) (threshold : Threshold) :
    Decides directives event (.events target field threshold) →
    Reaches directives event threshold
  | undecided : (∀ d ∈ directives, d.applies event = false) → Reaches directives event .off

/-- What the search for the deciding directive comes to. -/
def Settled (directives : List Directive) (event : Event) : Option Directive → Prop
  | some directive => Decides directives event directive
  | none => ∀ d ∈ directives, d.applies event = false

section

variable {directives : List Directive} {directive found : Directive} {event : Event}

/-- A directive at the end does not decide if it does not apply or is less precise. -/
theorem Decides.concat (h : Decides directives event found)
    (hless : directive.applies event = true → directive.precision < found.precision) :
    Decides (directives ++ [directive]) event found := by
  obtain ⟨before, after, rfl, happlies, hbefore, hafter⟩ := h
  refine ⟨before, after ++ [directive], ?_, happlies, hbefore, ?_⟩
  · rw [List.append_assoc, List.cons_append]
  · intro d hd
    rcases List.mem_append.mp hd with hd | hd
    · exact hafter d hd
    · rw [List.mem_singleton.mp hd]
      exact hless

/-- No directive that applies is more precise than the one that decides. -/
theorem Decides.not_precision_lt (h : Decides directives event found) :
    ∀ d ∈ directives, d.applies event = true → ¬ found.precision < d.precision := by
  obtain ⟨before, after, rfl, -, hbefore, hafter⟩ := h
  intro d hd hdapplies
  rcases List.mem_append.mp hd with hd | hd
  · exact hbefore d hd hdapplies
  · rcases List.mem_cons.mp hd with rfl | hd
    · exact List.lt_irrefl d.precision
    · exact List.lt_asymm (hafter d hd hdapplies)

theorem decides_concat (happlies : directive.applies event = true)
    (h : ∀ d ∈ directives, d.applies event = true → ¬ directive.precision < d.precision) :
    Decides (directives ++ [directive]) event directive :=
  ⟨directives, [], rfl, happlies, h, List.forall_mem_nil _⟩

theorem Settled.concat {result : Option Directive} (h : Settled directives event result)
    (happlies : directive.applies event = true) :
    Settled (directives ++ [directive]) event (prefer result directive) := by
  cases result with
  | none =>
    refine decides_concat happlies fun d hd hdapplies => ?_
    rw [h d hd] at hdapplies
    cases hdapplies
  | some found =>
    rw [prefer]
    split
    · next hlt => exact Decides.concat h fun _ => hlt
    · next hnot =>
      -- neither what was found nor anything before it is more precise than the new directive
      refine decides_concat happlies fun d hd hdapplies hless => ?_
      have hmore := List.lt_of_le_of_lt (List.not_lt.mp hnot) hless
      exact Decides.not_precision_lt h d hd hdapplies hmore

/-- The search comes to the last of the most precise directives that apply. -/
theorem settled_deciding? (filter : Filter) (event : Event) :
    Settled filter.directives event (filter.deciding? event) := by
  unfold deciding?
  generalize filter.directives = directives
  -- the search goes from the front to the back, so the list grows at its end
  induction directives using List.reverseRecOn with
  | nil => exact List.forall_mem_nil _
  | append_singleton directives directive ih =>
    rw [List.filter_append, List.foldl_append]
    cases happlies : directive.applies event with
    | true =>
      rw [List.filter_cons_of_pos happlies]
      exact ih.concat happlies
    | false =>
      have hnot : ¬ directive.applies event = true := Bool.eq_false_iff.mp happlies
      rw [List.filter_cons_of_neg hnot, List.filter_nil, List.foldl_nil]
      cases hfound : (directives.filter (·.applies event)).foldl prefer none with
      | none =>
        rw [hfound] at ih
        exact List.forall_mem_append.mpr ⟨ih, List.forall_mem_singleton.mpr happlies⟩
      | some found =>
        rw [hfound] at ih
        exact Decides.concat ih fun h => absurd h hnot

end

/-- The threshold that a filter sets for an event. -/
def reach (filter : Filter) (event : Event) : Threshold :=
  match filter.deciding? event with
  | some (.events _ _ threshold) => threshold
  | some .spans => .off
  | none => .off

theorem reaches_reach (filter : Filter) (event : Event) :
    Reaches filter.directives event (filter.reach event) := by
  have hsettled := settled_deciding? filter event
  unfold reach
  cases hfound : filter.deciding? event with
  | none =>
    rw [hfound] at hsettled
    exact .undecided hsettled
  | some directive =>
    rw [hfound] at hsettled
    cases directive with
    | events target field threshold => exact .decided target field threshold hsettled
    | spans =>
      obtain ⟨_, _, -, happlies, -⟩ := hsettled
      cases happlies

/-- Events are admitted up to their threshold. -/
theorem admits_iff {filter : Filter} {event : Event} :
    filter.admits event = true ↔ event.level.rank ≤ filter.reach event := by
  have hrank : ¬ event.level.rank ≤ 0 := by
    cases event.level <;> decide
  unfold admits reach
  cases filter.deciding? event with
  | none => exact iff_of_false Bool.false_ne_true hrank
  | some directive =>
    cases directive with
    | events target field threshold => exact decide_eq_true_iff
    | spans => exact iff_of_false Bool.false_ne_true hrank

/-- No directive of the filter asks for a field: each is for all events, for a target or for
spans. -/
def Unfielded (filter : Filter) : Prop := ∀ d ∈ filter.directives, d.field? = none

/-- Without fields to ask for, all events of one target have one threshold. -/
theorem Unfielded.reach_congr {filter : Filter} (h : filter.Unfielded) {event other : Event}
    (htarget : event.target = other.target) : filter.reach event = filter.reach other := by
  have happlies : ∀ d ∈ filter.directives, d.applies event = d.applies other := by
    intro d hd
    cases d with
    | events target field threshold =>
      obtain rfl : field = none := h _ hd
      rw [Directive.applies, Directive.applies, htarget, Option.all_none, Option.all_none]
    | spans => rfl
  unfold reach deciding?
  rw [List.filter_congr happlies]

end Filter

/-! ## Runs of dispatches -/

/-- A failure that reaches a dispatcher at a path. -/
structure Dispatched where
  dispatcher : Dispatcher
  failure : Failure
  path : String

namespace Dispatched

/-- The target of the events of a dispatch. -/
def target : String := "idp_dispatch::dispatcher"

/-- The event that tells of the failure. -/
def failed (d : Dispatched) : Event := .failureEncountered d.path d.failure.text

/-- The event that tells of the surface. -/
def surfaced (d : Dispatched) : Event :=
  .failureDispatched d.path (d.dispatcher.classifier.classify d.path)

/-- The events of dispatches, one dispatch after the other. -/
def events (run : List Dispatched) : List Event :=
  run.flatMap fun d => (d.dispatcher.dispatch d.failure d.path).2

end Dispatched

/-- How much of every dispatch a log keeps. -/
inductive Extent
  | nothing
  | failures
  | everything
  deriving DecidableEq, Repr

namespace Extent

/-- The events of a run that are kept. -/
def kept : Extent → List Dispatched → List Event
  | .nothing, _ => []
  | .failures, run => run.map Dispatched.failed
  | .everything, run => run.flatMap fun d => [d.failed, d.surfaced]

/-- What is kept where the events of the dispatcher are admitted up to a threshold. -/
def ofThreshold (threshold : Threshold) : Extent :=
  if threshold < Level.error.rank then .nothing
  else if threshold < Level.debug.rank then .failures
  else .everything

theorem kept_cons (extent : Extent) (d : Dispatched) (run : List Dispatched) :
    extent.kept (d :: run) = extent.kept [d] ++ extent.kept run := by
  cases extent with
  | nothing => rfl
  | failures => rfl
  | everything => rfl

/-- An event that tells of a surface stands right behind the failure at its path. -/
theorem kept_preceded (extent : Extent) {run : List Dispatched} {before after : List Event}
    {path : String} {surface : Surface}
    (h : extent.kept run = before ++ .failureDispatched path surface :: after) :
    ∃ earlier error, before = earlier ++ [.failureEncountered path error] := by
  cases extent with
  | nothing => exact absurd h.symm (List.append_ne_nil_of_right_ne_nil _ (List.cons_ne_nil _ _))
  | failures =>
    have hmem : Event.failureDispatched path surface ∈ run.map Dispatched.failed := by
      rw [show run.map Dispatched.failed = _ from h]
      exact List.mem_append_right before List.mem_cons_self
    obtain ⟨d, -, hd⟩ := List.mem_map.mp hmem
    cases hd
  | everything =>
    induction run generalizing before with
    | nil => exact absurd h.symm (List.append_ne_nil_of_right_ne_nil _ (List.cons_ne_nil _ _))
    | cons d run ih =>
      -- the event is the second one of this dispatch, or it belongs to a later one
      match before with
      | [] => cases h
      | [first] =>
        cases h
        exact ⟨[], d.failure.text, rfl⟩
      | first :: second :: before =>
        obtain ⟨earlier, error, rfl⟩ := ih (List.cons.inj (List.cons.inj h).2).2
        exact ⟨first :: second :: earlier, error, rfl⟩

end Extent

/-- What is admitted of one dispatch whose events have one threshold. -/
theorem admitted_dispatch (sink : Sink) (d : Dispatched)
    (h : sink.filter.reach d.surfaced = sink.filter.reach d.failed) :
    sink.admitted (d.dispatcher.dispatch d.failure d.path).2 =
      (Extent.ofThreshold (sink.filter.reach d.failed)).kept [d] := by
  have hfailed : sink.filter.admits d.failed = true ↔
      Level.error.rank ≤ sink.filter.reach d.failed := Filter.admits_iff
  have hsurfaced : sink.filter.admits d.surfaced = true ↔
      Level.debug.rank ≤ sink.filter.reach d.surfaced := Filter.admits_iff
  have hranks : Level.error.rank ≤ Level.debug.rank := by decide
  have hevents : sink.admitted (d.dispatcher.dispatch d.failure d.path).2 =
      [d.failed, d.surfaced].filter sink.filter.admits := rfl
  rw [h] at hsurfaced
  rw [hevents, Extent.ofThreshold]
  generalize sink.filter.reach d.failed = threshold at hfailed hsurfaced
  by_cases herror : threshold < Level.error.rank
  · have hnoFailure : ¬ sink.filter.admits d.failed = true :=
      mt hfailed.mp (Nat.not_le_of_lt herror)
    have hnoSurface : ¬ sink.filter.admits d.surfaced = true :=
      mt hsurfaced.mp (Nat.not_le_of_lt (Nat.lt_of_lt_of_le herror hranks))
    rw [if_pos herror, List.filter_cons_of_neg hnoFailure, List.filter_cons_of_neg hnoSurface]
    rfl
  · have hfailure : sink.filter.admits d.failed = true := hfailed.mpr (Nat.le_of_not_lt herror)
    rw [if_neg herror, List.filter_cons_of_pos hfailure]
    by_cases hdebug : threshold < Level.debug.rank
    · have hnoSurface : ¬ sink.filter.admits d.surfaced = true :=
        mt hsurfaced.mp (Nat.not_le_of_lt hdebug)
      rw [if_pos hdebug, List.filter_cons_of_neg hnoSurface]
      rfl
    · have hsurface : sink.filter.admits d.surfaced = true :=
        hsurfaced.mpr (Nat.le_of_not_lt hdebug)
      rw [if_neg hdebug, List.filter_cons_of_pos hsurface]
      rfl

/-- Where all events of the dispatcher have one threshold, a log keeps of every dispatch in a run
what it keeps of one. -/
theorem admitted_run (sink : Sink) {threshold : Threshold}
    (h : ∀ event : Event, event.target = Dispatched.target → sink.filter.reach event = threshold)
    (run : List Dispatched) :
    sink.admitted (Dispatched.events run) = (Extent.ofThreshold threshold).kept run := by
  induction run with
  | nil =>
    cases Extent.ofThreshold threshold with
    | nothing => rfl
    | failures => rfl
    | everything => rfl
  | cons d run ih =>
    have hcons : Dispatched.events (d :: run) =
        (d.dispatcher.dispatch d.failure d.path).2 ++ Dispatched.events run := List.flatMap_cons
    have hfailed := h d.failed rfl
    have hdispatch := admitted_dispatch sink d ((h d.surfaced rfl).trans hfailed.symm)
    rw [hfailed] at hdispatch
    rw [hcons, Sink.admitted, List.filter_append, ← Sink.admitted, ← Sink.admitted, hdispatch, ih,
      ← Extent.kept_cons]

/-! ## Filters as texts -/

/-- A text without brackets asks for no field. -/
theorem Directive.field?_ofText? {text : List Char} {directive : Directive}
    (h : Directive.ofText? text = some directive) (hbracket : '[' ∉ text) :
    directive.field? = none := by
  unfold Directive.ofText? at h
  split at h
  · cases h
  · exact absurd List.mem_cons_self hbracket
  · next c rest _ =>
    split at h
    · split at h
      · dsimp only at h
        split at h
        · cases h
          rfl
        · cases h
          rfl
      · obtain ⟨threshold, -, rfl⟩ := Option.map_eq_some_iff.mp h
        rfl
      · next d tail hne heq =>
        -- a word ends at a sign of equality or at a bracket
        have hmem : d ∈ c :: rest := (List.dropWhile_sublist _).mem (heq ▸ List.mem_cons_self)
        have hstop := List.head?_dropWhile_not (fun c => c ≠ '=' && c ≠ '[') (c :: rest)
        rw [heq] at hstop
        have hd : d = '=' ∨ d = '[' := by simpa [Decidable.or_iff_not_imp_left] using hstop
        rcases hd with rfl | rfl
        · exact absurd rfl hne
        · exact absurd hmem hbracket
    · cases h

theorem Filter.mem_of_mem_trim {c : Char} {text : List Char} (h : c ∈ Filter.trim text) :
    c ∈ text := by
  unfold Filter.trim at h
  rw [List.mem_reverse] at h
  have hback := (List.dropWhile_sublist _).mem h
  rw [List.mem_reverse] at hback
  exact (List.dropWhile_sublist _).mem hback

theorem Filter.unfielded_fallback : Filter.fallback.Unfielded := by
  intro d hd
  rw [List.mem_singleton.mp hd]
  rfl

/-- A filter that is written with levels, targets and signs of equality alone asks for no field. -/
theorem Filter.unfielded_ofText {text : String} (hbracket : '[' ∉ text.toList) :
    (Filter.ofText text).1.Unfielded := by
  unfold Filter.ofText
  cases hfilter : Filter.ofText? text with
  | none => exact Filter.unfielded_fallback
  | some filter =>
    obtain ⟨directives, hdirectives, rfl⟩ := Option.map_eq_some_iff.mp hfilter
    intro d hd
    obtain ⟨piece, hpiece, hread⟩ := Traversal.exists_of_mem_mapM_some hdirectives hd
    refine Directive.field?_ofText? hread fun hmem => hbracket ?_
    exact Text.mem_of_mem_splitOn (List.mem_of_mem_filter hpiece) (Filter.mem_of_mem_trim hmem)

theorem Filter.reach_fallback {event : Event} : Filter.fallback.reach event = Level.info.rank := rfl

/-! ## The log of a run -/

/-- The log with these settings keeps this much of every run of dispatches. -/
structure Keeps (settings : Config.Logging) (extent : Extent) : Prop where
  /-- The lines are those of the events that are kept, in their order. -/
  lines : ∀ run, (Sink.ofSettings settings).lines (Dispatched.events run) =
    (extent.kept run).map (Sink.ofSettings settings).line
  /-- Where a surface is told, the failure at the same path stands right before it. -/
  preceded : ∀ run before path surface after,
    (Sink.ofSettings settings).admitted (Dispatched.events run) =
      before ++ .failureDispatched path surface :: after →
    ∃ earlier error, before = earlier ++ [.failureEncountered path error]

theorem keeps_of_reach {settings : Config.Logging} {threshold : Threshold}
    (h : ∀ event : Event, event.target = Dispatched.target →
      (Filter.ofText settings.filter).1.reach event = threshold) :
    Keeps settings (.ofThreshold threshold) where
  lines run := by
    rw [Sink.lines, admitted_run (Sink.ofSettings settings) h]
  preceded run before path surface after hadmitted := by
    rw [admitted_run (Sink.ofSettings settings) h] at hadmitted
    exact Extent.kept_preceded _ hadmitted

/-- A log keeps nothing of any dispatch, the failure of every dispatch or all of it, in the order
in which they come and in either format.  Which of the three it is depends on the directive that
decides on the events of the dispatcher; with a filter that cannot be read it is the failures. -/
theorem dispatches_kept_whole (text : String) :
    ((Filter.ofText text).1.Unfielded → ∀ event : Event, event.target = Dispatched.target →
      Filter.Reaches (Filter.ofText text).1.directives event ((Filter.ofText text).1.reach event) ∧
      ∀ format, Keeps ⟨text, format⟩ (.ofThreshold ((Filter.ofText text).1.reach event))) ∧
    ('[' ∉ text.toList → (Filter.ofText text).1.Unfielded) ∧
    (Filter.ofText? text = none → ∀ format, Keeps ⟨text, format⟩ .failures) := by
  refine ⟨fun hfields event htarget => ⟨Filter.reaches_reach _ _, fun format => ?_⟩,
    Filter.unfielded_ofText, fun hunread format => ?_⟩
  · exact keeps_of_reach fun other hother => hfields.reach_congr (hother.trans htarget.symm)
  · have hfilter : (Filter.ofText text).1 = .fallback := by rw [Filter.ofText, hunread]
    have hkeeps : Keeps ⟨text, format⟩ (.ofThreshold Level.info.rank) :=
      keeps_of_reach fun event _ => hfilter ▸ Filter.reach_fallback
    exact hkeeps

-- the table of letters that a target can begin with is long
set_option maxRecDepth 2000 in
/-- With a misspelt level a log keeps the failures in either format; where a directive for the
dispatcher stands in front of a general one it is followed. -/
theorem dispatches_kept_whole_misspelt :
    Filter.ofText? "idp=notalevel" = none ∧
    Keeps ⟨"idp=notalevel", .text⟩ .failures ∧ Keeps ⟨"idp=notalevel", .json⟩ .failures ∧
    (Filter.ofText "idp_dispatch=debug,off").1.Unfielded ∧
    Keeps ⟨"idp_dispatch=debug,off", .json⟩ .everything := by
  have hunread : Filter.ofText? "idp=notalevel" = none := by cbv
  have hbracket : '[' ∉ "idp_dispatch=debug,off".toList := by decide
  have hreach : (Filter.ofText "idp_dispatch=debug,off").1.reach (.failureEncountered "" "") =
      Level.debug.rank := by cbv
  obtain ⟨hkeeps, hunfielded, -⟩ := dispatches_kept_whole "idp_dispatch=debug,off"
  have hprecise := (hkeeps (hunfielded hbracket) (.failureEncountered "" "") rfl).2 .json
  rw [hreach] at hprecise
  have hmisspelt := (dispatches_kept_whole "idp=notalevel").2.2 hunread
  exact ⟨hunread, hmisspelt .text, hmisspelt .json, hunfielded hbracket, hprecise⟩

/-- A directive that asks for a field of one of the two events tears a dispatch apart. -/
example : (Sink.ofSettings ⟨"[\x7bsurface\x7d]=debug", .text⟩).admitted
    [.failureEncountered "/oauth/token" "invalid client",
      .failureDispatched "/oauth/token" .oauth] =
    [.failureDispatched "/oauth/token" .oauth] := by
  cbv

end IdentityProvider.Log
