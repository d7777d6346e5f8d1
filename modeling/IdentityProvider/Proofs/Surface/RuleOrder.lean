import IdentityProvider.Surface
import Mathlib.Data.List.MinMax

/-
  What the order of the rules means.

  A rule decides the paths that it covers and no rule before it covers.  Two starts of one path
  are comparable (`comparable_of_starts`), and all that is said here rests on it: a rule decides
  some path unless a rule before it covers its own start (`decidesSome_iff`), the others can be
  left out (`rule?_deciding`), neighbours that are not comparable can change places (`rule?_swap`),
  and the first rule that covers a path is the one with the longest start wherever no rule hides a
  later one (`rule?_eq_longest?`).
-/

namespace IdentityProvider

/-- One of the two texts begins the other. -/
def Comparable (a b : String) : Prop := a.toList <+: b.toList ∨ b.toList <+: a.toList

instance (a b : String) : Decidable (Comparable a b) :=
  inferInstanceAs (Decidable (a.toList <+: b.toList ∨ b.toList <+: a.toList))

theorem comparable_of_starts {a b path : String} (ha : a.toList <+: path.toList)
    (hb : b.toList <+: path.toList) : Comparable a b :=
  List.prefix_or_prefix_of_prefix ha hb

theorem SurfaceRule.covers_start (rule : SurfaceRule) : rule.covers rule.start = true :=
  SurfaceRule.covers_iff.mpr (List.prefix_refl _)

theorem SurfaceRule.covers_eq_false_iff {rule : SurfaceRule} {path : String} :
    rule.covers path = false ↔ ¬ rule.start.toList <+: path.toList := by
  rw [← Bool.not_eq_true, SurfaceRule.covers_iff]

namespace Classifier

/-! ## The rule that decides -/

/-- The rule at this place decides the path: it covers the path, and no rule before it does. -/
structure Decides (rules : List SurfaceRule) (place : Nat) (path : String) : Prop where
  covers : ∃ rule, rules[place]? = some rule ∧ rule.covers path = true
  first : ∀ earlier ∈ rules.take place, earlier.covers path = false

theorem rule?_eq_some_iff {classifier : Classifier} {path : String} {rule : SurfaceRule} :
    classifier.rule? path = some rule ↔
      ∃ place, classifier.rules[place]? = some rule ∧ Decides classifier.rules place path := by
  unfold rule?
  rw [List.find?_eq_some_iff_getElem]
  constructor
  · rintro ⟨hcovers, place, hplace, hrule, hfirst⟩
    have hget : classifier.rules[place]? = some rule :=
      List.getElem?_eq_some_iff.mpr ⟨hplace, hrule⟩
    refine ⟨place, hget, ⟨rule, hget, hcovers⟩, ?_⟩
    intro earlier hearlier
    obtain ⟨j, hj, rfl⟩ := List.mem_take_iff_getElem.mp hearlier
    simpa using hfirst j (by omega)
  · rintro ⟨place, hget, ⟨other, hother, hcovers⟩, hfirst⟩
    rw [hget, Option.some.injEq] at hother
    subst hother
    obtain ⟨hplace, hrule⟩ := List.getElem?_eq_some_iff.mp hget
    refine ⟨hcovers, place, hplace, hrule, ?_⟩
    intro j hj
    have hmem : classifier.rules[j] ∈ classifier.rules.take place :=
      List.mem_take_iff_getElem.mpr ⟨j, by omega, rfl⟩
    simpa using hfirst _ hmem

theorem rule?_eq_none_iff {classifier : Classifier} {path : String} :
    classifier.rule? path = none ↔ ∀ place, ¬ Decides classifier.rules place path := by
  constructor
  · intro hnone place hdecides
    obtain ⟨rule, hget, _⟩ := hdecides.covers
    have hsome := rule?_eq_some_iff.mpr ⟨place, hget, hdecides⟩
    rw [hnone] at hsome
    cases hsome
  · intro hdecides
    cases hrule : classifier.rule? path with
    | none => rfl
    | some rule =>
      obtain ⟨place, _, hplace⟩ := rule?_eq_some_iff.mp hrule
      exact absurd hplace (hdecides place)

theorem classify_of_rule? {classifier : Classifier} {path : String} {rule : SurfaceRule}
    (h : classifier.rule? path = some rule) : classifier.classify path = rule.surface := by
  unfold classify
  rw [h]

theorem classify_of_rule?_eq_none {classifier : Classifier} {path : String}
    (h : classifier.rule? path = none) : classifier.classify path = classifier.fallback := by
  unfold classify
  rw [h]

/-- Classifiers with the same answer where a rule covers the path and the same fallback agree. -/
theorem classify_congr {classifier other : Classifier} {path : String}
    (hrule : classifier.rule? path = other.rule? path)
    (hfallback : classifier.fallback = other.fallback) :
    classifier.classify path = other.classify path := by
  unfold classify
  rw [hrule, hfallback]

/-! ## Rules that decide nothing -/

/-- The rule at this place decides some path. -/
def DecidesSome (rules : List SurfaceRule) (place : Nat) : Prop :=
  ∃ path, Decides rules place path

/-- The rule at this place is not hidden: no rule before it covers its start. -/
def Visible (rules : List SurfaceRule) (place : Nat) (rule : SurfaceRule) : Prop :=
  ∀ earlier ∈ rules.take place, ¬ earlier.start.toList <+: rule.start.toList

theorem Visible.decides_start {rules : List SurfaceRule} {place : Nat} {rule : SurfaceRule}
    (hget : rules[place]? = some rule) (h : Visible rules place rule) :
    Decides rules place rule.start where
  covers := ⟨rule, hget, rule.covers_start⟩
  first earlier hearlier := SurfaceRule.covers_eq_false_iff.mpr (h earlier hearlier)

theorem Decides.visible {rules : List SurfaceRule} {place : Nat} {path : String}
    {rule : SurfaceRule} (hget : rules[place]? = some rule) (h : Decides rules place path) :
    Visible rules place rule := by
  intro earlier hearlier hbegins
  obtain ⟨other, hother, hcovers⟩ := h.covers
  rw [hget, Option.some.injEq] at hother
  subst hother
  have hnot := SurfaceRule.covers_eq_false_iff.mp (h.first earlier hearlier)
  exact hnot (hbegins.trans (SurfaceRule.covers_iff.mp hcovers))

theorem decidesSome_iff {rules : List SurfaceRule} {place : Nat} {rule : SurfaceRule}
    (hget : rules[place]? = some rule) : DecidesSome rules place ↔ Visible rules place rule :=
  ⟨fun ⟨_, h⟩ => h.visible hget, fun h => ⟨rule.start, h.decides_start hget⟩⟩

instance (rules : List SurfaceRule) (place : Nat) : Decidable (DecidesSome rules place) :=
  match hget : rules[place]? with
  | some rule =>
    @decidable_of_iff _ (Visible rules place rule) (decidesSome_iff hget).symm
      (inferInstanceAs (Decidable (∀ earlier ∈ rules.take place,
        ¬ earlier.start.toList <+: rule.start.toList)))
  | none => isFalse fun ⟨_, h⟩ => by
    obtain ⟨rule, hrule, _⟩ := h.covers
    rw [hget] at hrule
    cases hrule

/-- The rules without those that decide no path. -/
def deciding (rules : List SurfaceRule) : List SurfaceRule :=
  (rules.zipIdx.filter fun (entry : SurfaceRule × Nat) =>
    decide (DecidesSome rules entry.2)).map Prod.fst

example : deciding [⟨"/oauth/", .oauth⟩, ⟨"/oauth/token", .challenge⟩, ⟨"/oidc", .challenge⟩] =
    [⟨"/oauth/", .oauth⟩, ⟨"/oidc", .challenge⟩] := by decide

theorem find?_filter_of_first {α : Type} {keep found : α → Bool} {entries : List α}
    (h : ∀ entry, entries.find? found = some entry → keep entry = true) :
    (entries.filter keep).find? found = entries.find? found := by
  rw [List.find?_filter]
  cases hfind : entries.find? found with
  | none =>
    rw [List.find?_eq_none] at hfind ⊢
    intro entry hentry
    simp [hfind entry hentry]
  | some entry =>
    obtain ⟨hfound, before, after, rfl, hbefore⟩ := List.find?_eq_some_iff_append.mp hfind
    refine List.find?_eq_some_iff_append.mpr ⟨?_, before, after, rfl, ?_⟩
    · simp [h entry hfind, hfound]
    · intro earlier hearlier
      have hnot : found earlier = false := by simpa using hbefore earlier hearlier
      simp [hnot]

theorem rule?_deciding (rules : List SurfaceRule) (fallback : Surface) (path : String) :
    (Classifier.mk (deciding rules) fallback).rule? path =
      (Classifier.mk rules fallback).rule? path := by
  have hfirst : ∀ entry, rules.zipIdx.find? ((·.covers path) ∘ Prod.fst) = some entry →
      decide (DecidesSome rules entry.2) = true := by
    rintro ⟨rule, place⟩ hfind
    obtain ⟨hcovers, j, hj, hentry, hbefore⟩ := List.find?_eq_some_iff_getElem.mp hfind
    rw [List.getElem_zipIdx, Nat.zero_add, Prod.mk.injEq] at hentry
    obtain ⟨rfl, rfl⟩ := hentry
    rw [List.length_zipIdx] at hj
    refine decide_eq_true ⟨path, ⟨_, List.getElem?_eq_getElem hj, hcovers⟩, ?_⟩
    intro earlier hearlier
    obtain ⟨k, hk, rfl⟩ := List.mem_take_iff_getElem.mp hearlier
    simpa using hbefore k (by omega)
  unfold rule? deciding
  rw [List.find?_map, find?_filter_of_first hfirst, ← List.find?_map, List.zipIdx_map_fst]

/-! ## Neighbours -/

theorem rule?_swap {before after : List SurfaceRule} {a b : SurfaceRule}
    (h : ¬ Comparable a.start b.start) (fallback : Surface) (path : String) :
    (Classifier.mk (before ++ b :: a :: after) fallback).rule? path =
      (Classifier.mk (before ++ a :: b :: after) fallback).rule? path := by
  unfold rule?
  rw [List.find?_append, List.find?_append]
  congr 1
  cases ha : a.covers path with
  | false => simp only [List.find?_cons, ha]
  | true =>
    -- both rules cannot cover the path
    have hb : b.covers path = false := by
      refine SurfaceRule.covers_eq_false_iff.mpr fun hbegins => h ?_
      exact comparable_of_starts (SurfaceRule.covers_iff.mp ha) hbegins
    simp only [List.find?_cons, ha, hb]

/-! ## The longest start -/

/-- Of the rules that cover the path, the first one with the longest start. -/
def longest? (classifier : Classifier) (path : String) : Option SurfaceRule :=
  (classifier.rules.filter (·.covers path)).argmax fun rule => rule.start.toList.length

/-- The surface of a path if the rule with the longest start decides. -/
def classifyByLongest (classifier : Classifier) (path : String) : Surface :=
  match classifier.longest? path with
  | some rule => rule.surface
  | none => classifier.fallback

/-- No rule hides a later one. -/
def Unhidden (rules : List SurfaceRule) : Prop :=
  rules.Pairwise fun earlier later => ¬ earlier.start.toList <+: later.start.toList

theorem rule?_eq_longest? {classifier : Classifier} (h : Unhidden classifier.rules)
    (path : String) : classifier.rule? path = classifier.longest? path := by
  unfold rule? longest?
  cases hfind : classifier.rules.find? (·.covers path) with
  | none =>
    have hnone : classifier.rules.filter (·.covers path) = [] :=
      List.filter_eq_nil_iff.mpr (List.find?_eq_none.mp hfind)
    rw [hnone, List.argmax_nil]
  | some rule =>
    obtain ⟨hcovers, before, after, hrules, hbefore⟩ := List.find?_eq_some_iff_append.mp hfind
    have hfilter : classifier.rules.filter (·.covers path) =
        rule :: after.filter (·.covers path) := by
      have hnil : before.filter (·.covers path) = [] :=
        List.filter_eq_nil_iff.mpr fun earlier hearlier => by simpa using hbefore earlier hearlier
      rw [hrules, List.filter_append, hnil, List.nil_append, List.filter_cons, if_pos hcovers]
    -- a later rule that covers the path has a start that begins this rule's start
    have hshorter : ∀ later ∈ after.filter (·.covers path),
        later.start.toList.length ≤ rule.start.toList.length := by
      intro later hlater
      obtain ⟨hmem, hlatercovers⟩ := List.mem_filter.mp hlater
      unfold Unhidden at h
      rw [hrules, List.pairwise_append, List.pairwise_cons] at h
      have hcomparable : Comparable rule.start later.start := comparable_of_starts
        (SurfaceRule.covers_iff.mp hcovers) (SurfaceRule.covers_iff.mp hlatercovers)
      exact (hcomparable.resolve_left (h.2.1.1 later hmem)).length_le
    rw [hfilter, eq_comm, ← Option.mem_def, List.mem_argmax_iff]
    refine ⟨List.mem_cons_self, ?_, ?_⟩
    · intro other hother
      rcases List.mem_cons.mp hother with rfl | hother
      · exact Nat.le_refl _
      · exact hshorter other hother
    · intro other _ _
      rw [List.idxOf_cons_self]
      exact Nat.zero_le _

theorem classify_eq_classifyByLongest {classifier : Classifier} (h : Unhidden classifier.rules)
    (path : String) : classifier.classify path = classifier.classifyByLongest path := by
  have hrule := rule?_eq_longest? h path
  unfold classifyByLongest
  cases hlongest : classifier.longest? path with
  | none => exact classify_of_rule?_eq_none (hrule.trans hlongest)
  | some rule => exact classify_of_rule? (hrule.trans hlongest)

/-! ## All together -/

/-- What the order of the rules means, with a fallback for the paths that none of them decides. -/
structure OrderLaws (rules : List SurfaceRule) (fallback : Surface) : Prop where
  /-- The rule that decides a path gives its surface. -/
  decided : ∀ place rule path, rules[place]? = some rule → Decides rules place path →
    (Classifier.mk rules fallback).classify path = rule.surface
  /-- A path that no rule decides has the surface for all others. -/
  undecided : ∀ path, (∀ place, ¬ Decides rules place path) →
    (Classifier.mk rules fallback).classify path = fallback
  /-- A rule decides some path just if no start before it begins its own start. -/
  decides_some_iff : ∀ place rule, rules[place]? = some rule →
    ((∃ path, Decides rules place path) ↔
      ∀ earlier ∈ rules.take place, ¬ earlier.start.toList <+: rule.start.toList)
  /-- A rule that decides some path decides the one that is its start. -/
  decides_start : ∀ place rule path, rules[place]? = some rule → Decides rules place path →
    Decides rules place rule.start
  /-- The rules that decide no path can be left out. -/
  omitted : ∀ path, (Classifier.mk (deciding rules) fallback).classify path =
    (Classifier.mk rules fallback).classify path
  /-- Neighbours neither of which begins the other can change places. -/
  swapped : ∀ before a b after path, rules = before ++ a :: b :: after →
    ¬ a.start.toList <+: b.start.toList → ¬ b.start.toList <+: a.start.toList →
    (Classifier.mk (before ++ b :: a :: after) fallback).classify path =
      (Classifier.mk rules fallback).classify path
  /-- Where no start begins a later one, the longest start decides. -/
  longest : (rules.Pairwise fun earlier later =>
      ¬ earlier.start.toList <+: later.start.toList) →
    ∀ path, (Classifier.mk rules fallback).classify path =
      (Classifier.mk rules fallback).classifyByLongest path

/-- The order of any rules means what it should. -/
theorem orderLaws_of_rules (rules : List SurfaceRule) (fallback : Surface) :
    OrderLaws rules fallback where
  decided place rule path hget hdecides :=
    classify_of_rule? (rule?_eq_some_iff.mpr ⟨place, hget, hdecides⟩)
  undecided path hdecides := classify_of_rule?_eq_none (rule?_eq_none_iff.mpr hdecides)
  decides_some_iff place rule hget := decidesSome_iff hget
  decides_start place rule path hget hdecides := (hdecides.visible hget).decides_start hget
  omitted path := classify_congr (rule?_deciding rules fallback path) rfl
  swapped before a b after path hrules ha hb := by
    subst hrules
    exact classify_congr (rule?_swap (not_or.mpr ⟨ha, hb⟩) fallback path) rfl
  longest hunhidden path := @classify_eq_classifyByLongest ⟨rules, fallback⟩ hunhidden path

end Classifier

end IdentityProvider
