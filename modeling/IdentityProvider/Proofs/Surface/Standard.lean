import IdentityProvider.Proofs.Surface.RuleOrder
import Mathlib.Data.List.Nodup

/-
  The standard rules, and what their order is good for.

  Where no rule hides a later one, the rule in charge of a path is the one whose start is begun by
  the starts of all rules that cover the path (`rule?_eq_some_iff_begun`); that says nothing of an
  order, so all such orders of the same rules classify alike (`classify_eq_of_perm`).  Of the
  standard starts one begins another only once: `/oauth/` begins the start of the client management
  below it.  An order of the standard rules therefore hides no rule just if it has these two in
  their order (`unhidden_of_perm`), and the others fail at the start of the hidden rule
  (`classify_clientMgmt_of_perm`).
-/

namespace IdentityProvider

namespace Classifier

/-! ## Orders that hide no rule -/

/-- Where no rule hides a later one, the rule in charge covers the path and its start is begun by
the starts of all the others that do. -/
theorem rule?_eq_some_iff_begun {classifier : Classifier} (h : Unhidden classifier.rules)
    {path : String} {rule : SurfaceRule} :
    classifier.rule? path = some rule ↔
      rule ∈ classifier.rules ∧ rule.covers path = true ∧
        ∀ other ∈ classifier.rules, other.covers path = true →
          other.start.toList <+: rule.start.toList := by
  unfold Unhidden at h
  unfold rule?
  constructor
  · intro hfind
    obtain ⟨hcovers, before, after, hrules, hbefore⟩ := List.find?_eq_some_iff_append.mp hfind
    rw [hrules, List.pairwise_append, List.pairwise_cons] at h
    refine ⟨List.mem_of_find?_eq_some hfind, hcovers, fun other hmem hother => ?_⟩
    rw [hrules, List.mem_append, List.mem_cons] at hmem
    rcases hmem with hearlier | rfl | hlater
    · have hnot := hbefore other hearlier
      rw [hother] at hnot
      cases hnot
    · exact List.prefix_refl _
    · have hcomparable : Comparable rule.start other.start := comparable_of_starts
        (SurfaceRule.covers_iff.mp hcovers) (SurfaceRule.covers_iff.mp hother)
      exact hcomparable.resolve_left (h.2.1.1 other hlater)
  · rintro ⟨hmem, hcovers, hbegun⟩
    cases hfind : classifier.rules.find? (·.covers path) with
    | none => exact absurd hcovers (List.find?_eq_none.mp hfind rule hmem)
    | some first =>
      obtain ⟨hfirst, before, after, hrules, hbefore⟩ := List.find?_eq_some_iff_append.mp hfind
      have hbegins := hbegun first (List.mem_of_find?_eq_some hfind) hfirst
      rw [hrules, List.pairwise_append, List.pairwise_cons] at h
      rw [hrules, List.mem_append, List.mem_cons] at hmem
      rcases hmem with hearlier | rfl | hlater
      · have hnot := hbefore rule hearlier
        rw [hcovers] at hnot
        cases hnot
      · rfl
      · exact absurd hbegins (h.2.1.1 rule hlater)

/-- Two orders of the same rules that hide no rule classify alike. -/
theorem classify_eq_of_perm {rules others : List SurfaceRule} (hperm : rules.Perm others)
    (hrules : Unhidden rules) (hothers : Unhidden others) (fallback : Surface) (path : String) :
    (Classifier.mk rules fallback).classify path =
      (Classifier.mk others fallback).classify path := by
  refine classify_congr (Option.ext fun rule => ?_) rfl
  have hbegun := @rule?_eq_some_iff_begun ⟨rules, fallback⟩ hrules path rule
  have hbegun' := @rule?_eq_some_iff_begun ⟨others, fallback⟩ hothers path rule
  rw [hbegun, hbegun']
  simp only [hperm.mem_iff]

/-! ## The standard rules -/

/-- The rule for client management below `/oauth/`. -/
def clientMgmtBelowOAuth : SurfaceRule := ⟨"/oauth/client-mgmt/", .internal⟩

/-- The rule for everything below `/oauth/`. -/
def belowOAuth : SurfaceRule := ⟨"/oauth/", .oauth⟩

theorem unhidden_standardRules : Unhidden standardRules := by
  unfold Unhidden
  decide

/-- Of the standard starts only `/oauth/` begins another one. -/
theorem eq_of_start_begins : ∀ a ∈ standardRules, ∀ b ∈ standardRules,
    a.start.toList <+: b.start.toList → a ≠ b → a = belowOAuth ∧ b = clientMgmtBelowOAuth := by
  decide

/-- An order of the standard rules hides no rule just if client management comes first. -/
theorem unhidden_of_perm {rules : List SurfaceRule} (hperm : rules.Perm standardRules)
    (hbefore : rules.idxOf clientMgmtBelowOAuth < rules.idxOf belowOAuth) : Unhidden rules := by
  have hnodup : rules.Nodup := hperm.nodup_iff.mpr (by decide)
  refine List.pairwise_iff_getElem.mpr fun i j hi hj hij hbegins => ?_
  have hne : rules[i] ≠ rules[j] := fun heq =>
    absurd (hnodup.getElem_inj_iff.mp heq) (Nat.ne_of_lt hij)
  obtain ⟨hoauth, hclient⟩ := eq_of_start_begins _ (hperm.mem_iff.mp (List.getElem_mem hi)) _
    (hperm.mem_iff.mp (List.getElem_mem hj)) hbegins hne
  rw [← hoauth, ← hclient, hnodup.idxOf_getElem, hnodup.idxOf_getElem] at hbefore
  omega

/-- The standard rules that cover the start for client management below `/oauth/`. -/
theorem eq_of_covers_clientMgmt : ∀ rule ∈ standardRules,
    rule.covers clientMgmtBelowOAuth.start = true →
      rule = clientMgmtBelowOAuth ∨ rule = belowOAuth := by
  decide

/-- With the rule for `/oauth/` first, client management below it is not internal any more. -/
theorem classify_clientMgmt_of_perm {rules : List SurfaceRule} (hperm : rules.Perm standardRules)
    (hafter : rules.idxOf belowOAuth ≤ rules.idxOf clientMgmtBelowOAuth) (fallback : Surface) :
    (Classifier.mk rules fallback).classify clientMgmtBelowOAuth.start = .oauth := by
  have hnodup : rules.Nodup := hperm.nodup_iff.mpr (by decide)
  have hmem : belowOAuth ∈ rules := hperm.mem_iff.mpr (by decide)
  cases hrule : (Classifier.mk rules fallback).rule? clientMgmtBelowOAuth.start with
  | none => exact absurd (by decide) (List.find?_eq_none.mp hrule belowOAuth hmem)
  | some rule =>
    obtain ⟨place, hget, hdecides⟩ := rule?_eq_some_iff.mp hrule
    have hcovers : rule.covers clientMgmtBelowOAuth.start = true := by
      simpa using List.find?_some hrule
    rcases eq_of_covers_clientMgmt rule (hperm.mem_iff.mp (List.mem_of_getElem? hget)) hcovers
      with rfl | rfl
    · -- the rule for `/oauth/` stands before this place and covers the path
      obtain ⟨hplace, hclient⟩ := List.getElem?_eq_some_iff.mp hget
      have hindex : rules.idxOf clientMgmtBelowOAuth = place := by
        rw [← hclient]
        exact hnodup.idxOf_getElem place hplace
      have hne : rules.idxOf belowOAuth ≠ rules.idxOf clientMgmtBelowOAuth := fun heq =>
        absurd ((List.idxOf_inj hmem).mp heq) (by decide)
      have hearlier : belowOAuth ∈ rules.take place :=
        List.mem_take_iff_getElem.mpr ⟨rules.idxOf belowOAuth,
          lt_min (by omega) (List.idxOf_lt_length_of_mem hmem), List.getElem_idxOf _⟩
      exact absurd (by decide) (hdecides.visible hget belowOAuth hearlier)
    · exact classify_of_rule? hrule

/-! ## All together -/

/-- What the standard rules do. -/
structure StandardLaws : Prop where
  /-- The surface of every path. -/
  surface : ∀ path : String, standard.classify path =
    if "/authorization".toList <+: path.toList ∨ "/client-mgmt/".toList <+: path.toList ∨
        "/oauth/client-mgmt/".toList <+: path.toList then .internal
    else if "/oidc/userinfo".toList <+: path.toList then .challenge
    else if "/oauth/".toList <+: path.toList then .oauth
    else .internal
  /-- The rule with the longest start decides. -/
  longest : ∀ path, standard.classify path = standard.classifyByLongest path
  /-- The same rules in another order classify all paths as they do just if client management
  below `/oauth/` comes before `/oauth/`. -/
  reordered : ∀ rules : List SurfaceRule, rules.Perm standardRules →
    ((∀ path, (Classifier.mk rules .internal).classify path = standard.classify path) ↔
      rules.idxOf ⟨"/oauth/client-mgmt/", .internal⟩ < rules.idxOf ⟨"/oauth/", .oauth⟩)

theorem classify_cons (rule : SurfaceRule) (rules : List SurfaceRule) (fallback : Surface)
    (path : String) : (Classifier.mk (rule :: rules) fallback).classify path =
      if rule.start.toList <+: path.toList then rule.surface
      else (Classifier.mk rules fallback).classify path := by
  unfold classify rule?
  by_cases hstart : rule.start.toList <+: path.toList
  · have hcovers : rule.covers path = true := SurfaceRule.covers_iff.mpr hstart
    simp only [List.find?_cons, hcovers, if_pos hstart]
  · have hcovers : rule.covers path = false := SurfaceRule.covers_eq_false_iff.mpr hstart
    simp only [List.find?_cons, hcovers, if_neg hstart]

theorem classify_standard (path : String) : standard.classify path =
    if "/authorization".toList <+: path.toList ∨ "/client-mgmt/".toList <+: path.toList ∨
        "/oauth/client-mgmt/".toList <+: path.toList then .internal
    else if "/oidc/userinfo".toList <+: path.toList then .challenge
    else if "/oauth/".toList <+: path.toList then .oauth
    else .internal := by
  have hnone : (Classifier.mk [] .internal).classify path = .internal := rfl
  simp only [standard, standardRules, classify_cons, hnone]
  split_ifs <;> simp_all

/-- The standard rules do what they should, in every order that keeps client management below
`/oauth/` in front. -/
theorem standardRules_classify : StandardLaws where
  surface := classify_standard
  longest := classify_eq_classifyByLongest unhidden_standardRules
  reordered rules hperm := by
    constructor
    · intro halike
      by_contra hafter
      have hpath := halike clientMgmtBelowOAuth.start
      rw [classify_clientMgmt_of_perm hperm (Nat.le_of_not_lt hafter)] at hpath
      exact absurd hpath (by decide)
    · intro hbefore path
      exact classify_eq_of_perm hperm (unhidden_of_perm hperm hbefore) unhidden_standardRules
        .internal path

end Classifier

end IdentityProvider
