import IdentityProvider.Config.Loading
import IdentityProvider.Proofs.Surface.RuleOrder

/-
  What it takes to load settings, and what loaded settings are like.

  `FirstFault` says which fault complete settings are refused for, and in which words, and
  `Consistent` which settings have none.  Loading goes through three stages (`LoadsInStages`): the
  first one that fails gives the error, and what comes through all of them is consistent.  Every
  rule of consistent settings begins with a slash, so a path that does not is left to the default
  surface (`Consistent.classify_eq_fallback`).
-/

namespace IdentityProvider.Config

/-- The text begins with a slash. -/
def Rooted (text : String) : Prop := ['/'] <+: text.toList

theorem isAbsolute_iff {text : String} : isAbsolute text = true ↔ Rooted text := by
  unfold isAbsolute Rooted
  cases text.toList with
  | nil => simp
  | cons c rest => simp [List.cons_prefix_cons, eq_comm]

theorem isAbsolute_eq_false_iff {text : String} : isAbsolute text = false ↔ ¬ Rooted text := by
  rw [← isAbsolute_iff, Bool.not_eq_true]

/-! ## The first fault -/

/-- Settings that can be used: there are rules, and whatever is a path begins with a slash. -/
structure Consistent (config : Config) : Prop where
  rules_ne_nil : config.dispatch.rules ≠ []
  rules_rooted : ∀ rule ∈ config.dispatch.rules, Rooted rule.start
  health_rooted : config.server.health.enabled = true → Rooted config.server.health.path

/-- The fault that settings are refused for, in words: rules before the health route, and of the
rules the first. -/
inductive FirstFault (config : Config) : Fault → String → Prop
  | noRules :
    config.dispatch.rules = [] →
    FirstFault config .noRules
      "dispatch.rules must not be empty; omit the key to use the standard rules"
  | relativeRule (before : List SurfaceRule) (rule : SurfaceRule) (after : List SurfaceRule) :
    config.dispatch.rules = before ++ rule :: after →
    (∀ earlier ∈ before, Rooted earlier.start) → ¬ Rooted rule.start →
    FirstFault config (.relativeRule before.length rule.start)
      ("dispatch.rules[" ++ toString before.length ++ "].prefix must start with '/': `" ++
        rule.start ++ "`")
  | relativeHealth :
    config.dispatch.rules ≠ [] → (∀ rule ∈ config.dispatch.rules, Rooted rule.start) →
    config.server.health.enabled = true → ¬ Rooted config.server.health.path →
    FirstFault config (.relativeHealth config.server.health.path)
      ("server.health.path must start with '/': `" ++ config.server.health.path ++ "`")

theorem relativeRule?_eq_none_iff {rules : List SurfaceRule} {index : Nat} :
    relativeRule? index rules = none ↔ ∀ rule ∈ rules, Rooted rule.start := by
  induction rules generalizing index with
  | nil => simp [relativeRule?]
  | cons rule rules ih =>
    rw [relativeRule?, List.forall_mem_cons]
    by_cases hrule : Rooted rule.start
    · rw [if_pos (isAbsolute_iff.mpr hrule), ih]
      exact (and_iff_right hrule).symm
    · rw [if_neg (mt isAbsolute_iff.mp hrule)]
      simp [hrule]

theorem relativeRule?_eq_some_iff {rules : List SurfaceRule} {index : Nat} {fault : Fault} :
    relativeRule? index rules = some fault ↔ ∃ before rule after,
      rules = before ++ rule :: after ∧ (∀ earlier ∈ before, Rooted earlier.start) ∧
        ¬ Rooted rule.start ∧ fault = .relativeRule (index + before.length) rule.start := by
  induction rules generalizing index with
  | nil => simp [relativeRule?]
  | cons first rules ih =>
    rw [relativeRule?]
    by_cases hfirst : Rooted first.start
    · rw [if_pos (isAbsolute_iff.mpr hfirst), ih]
      constructor
      · rintro ⟨before, rule, after, rfl, hbefore, hrule, rfl⟩
        refine ⟨first :: before, rule, after, rfl, ?_, hrule, ?_⟩
        · exact List.forall_mem_cons.mpr ⟨hfirst, hbefore⟩
        · rw [List.length_cons, Nat.add_right_comm, Nat.add_assoc]
      · rintro ⟨before, rule, after, hrules, hbefore, hrule, rfl⟩
        cases before with
        | nil =>
          rw [List.nil_append, List.cons.injEq] at hrules
          exact absurd (hrules.1 ▸ hfirst) hrule
        | cons other before =>
          rw [List.cons_append, List.cons.injEq] at hrules
          refine ⟨before, rule, after, hrules.2, ?_, hrule, ?_⟩
          · exact (List.forall_mem_cons.mp hbefore).2
          · rw [List.length_cons, Nat.add_right_comm, Nat.add_assoc]
    · rw [if_neg (mt isAbsolute_iff.mp hfirst), Option.some.injEq]
      constructor
      · rintro rfl
        exact ⟨[], first, rules, rfl, List.forall_mem_nil _, hfirst, rfl⟩
      · rintro ⟨before, rule, after, hrules, hbefore, hrule, rfl⟩
        cases before with
        | nil =>
          rw [List.nil_append, List.cons.injEq] at hrules
          rw [hrules.1, List.length_nil, Nat.add_zero]
        | cons other before =>
          rw [List.cons_append, List.cons.injEq] at hrules
          have hother := (List.forall_mem_cons.mp hbefore).1
          exact absurd (hrules.1.symm ▸ hother) hfirst

theorem rulesFault?_eq_none_iff {rules : List SurfaceRule} :
    rulesFault? rules = none ↔ rules ≠ [] ∧ ∀ rule ∈ rules, Rooted rule.start := by
  cases rules with
  | nil => simp [rulesFault?]
  | cons rule rules =>
    rw [rulesFault?, relativeRule?_eq_none_iff]
    exact (and_iff_right (List.cons_ne_nil rule rules)).symm

theorem rulesFault?_eq_some_iff {rules : List SurfaceRule} {fault : Fault} :
    rulesFault? rules = some fault ↔ (rules = [] ∧ fault = .noRules) ∨ ∃ before rule after,
      rules = before ++ rule :: after ∧ (∀ earlier ∈ before, Rooted earlier.start) ∧
        ¬ Rooted rule.start ∧ fault = .relativeRule before.length rule.start := by
  cases rules with
  | nil => simp [rulesFault?, eq_comm]
  | cons rule rules =>
    rw [rulesFault?, relativeRule?_eq_some_iff]
    simp only [Nat.zero_add, List.cons_ne_nil, false_and, false_or]

theorem healthFault?_eq_some_iff {health : Health} {fault : Fault} :
    healthFault? health = some fault ↔
      health.enabled = true ∧ ¬ Rooted health.path ∧ fault = .relativeHealth health.path := by
  unfold healthFault?
  rw [Option.ite_none_right_eq_some, Bool.and_eq_true, Bool.not_eq_true', isAbsolute_eq_false_iff,
    Option.some.injEq, and_assoc, eq_comm (a := fault)]

theorem healthFault?_eq_none_iff {health : Health} :
    healthFault? health = none ↔ (health.enabled = true → Rooted health.path) := by
  unfold healthFault?
  rw [ite_eq_right_iff, Bool.and_eq_true, Bool.not_eq_true', isAbsolute_eq_false_iff]
  simp [not_and, not_not]

theorem fault?_eq_none_iff {config : Config} : config.fault? = none ↔ config.Consistent := by
  unfold fault?
  rw [Option.or_eq_none_iff, rulesFault?_eq_none_iff, healthFault?_eq_none_iff]
  constructor
  · rintro ⟨⟨hrules, hrooted⟩, hhealth⟩
    exact ⟨hrules, hrooted, hhealth⟩
  · intro h
    exact ⟨⟨h.rules_ne_nil, h.rules_rooted⟩, h.health_rooted⟩

/-- Settings are refused for their first fault. -/
theorem firstFault_iff {config : Config} {fault : Fault} {words : String} :
    FirstFault config fault words ↔ config.fault? = some fault ∧ fault.text = words := by
  unfold fault?
  rw [Option.or_eq_some_iff, rulesFault?_eq_some_iff, rulesFault?_eq_none_iff,
    healthFault?_eq_some_iff]
  constructor
  · intro h
    cases h with
    | noRules hrules => exact ⟨.inl (.inl ⟨hrules, rfl⟩), rfl⟩
    | relativeRule before rule after hrules hbefore hrule =>
      exact ⟨.inl (.inr ⟨before, rule, after, hrules, hbefore, hrule, rfl⟩), rfl⟩
    | relativeHealth hrules hrooted henabled hpath =>
      exact ⟨.inr ⟨⟨hrules, hrooted⟩, henabled, hpath, rfl⟩, rfl⟩
  · rintro ⟨(⟨hrules, rfl⟩ | ⟨before, rule, after, hrules, hbefore, hrule, rfl⟩) |
      ⟨⟨hrules, hrooted⟩, henabled, hpath, rfl⟩, rfl⟩
    · exact .noRules hrules
    · exact .relativeRule before rule after hrules hbefore hrule
    · exact .relativeHealth hrules hrooted henabled hpath

example : ({ standard with dispatch.rules := [⟨"/a", .oauth⟩, ⟨"b/", .oauth⟩, ⟨"", .oauth⟩] } :
    Config).fault? = some (.relativeRule 1 "b/") := by decide

theorem not_consistent_iff {config : Config} :
    ¬ config.Consistent ↔ config.dispatch.rules = [] ∨
      (∃ rule ∈ config.dispatch.rules, ¬ Rooted rule.start) ∨
      (config.server.health.enabled = true ∧ ¬ Rooted config.server.health.path) := by
  constructor
  · intro h
    by_contra hnone
    push Not at hnone
    exact h ⟨hnone.1, hnone.2.1, hnone.2.2⟩
  · rintro (hrules | ⟨rule, hrule, hstart⟩ | ⟨henabled, hpath⟩) hconsistent
    · exact hconsistent.rules_ne_nil hrules
    · exact hstart (hconsistent.rules_rooted rule hrule)
    · exact hpath (hconsistent.health_rooted henabled)

/-- No rule of consistent settings covers a path that does not begin with a slash. -/
theorem Consistent.classify_eq_fallback {config : Config} (h : config.Consistent) {path : String}
    (hpath : ¬ Rooted path) : config.dispatch.classify path = config.dispatch.fallback := by
  refine Classifier.classify_of_rule?_eq_none (List.find?_eq_none.mpr fun rule hrule hcovers => ?_)
  exact hpath ((h.rules_rooted rule hrule).trans (SurfaceRule.covers_iff.mp hcovers))

/-! ## The stages -/

/-- What comes of loading a text: one of the stages fails, or the settings come through. -/
inductive Loads (env : Environment) (text : String) : Except ConfigError Config → Prop
  | unexpanded (error : ExpansionError) :
    env.expand text = .error error → Loads env text (.error (.unexpanded error))
  | malformed (expanded : String) :
    env.expand text = .ok expanded → parse? expanded = none →
    Loads env text (.error (.malformed expanded))
  | invalid (expanded : String) (config : Config) (fault : Fault) :
    env.expand text = .ok expanded → parse? expanded = some config →
    config.fault? = some fault → Loads env text (.error (.invalid fault))
  | loaded (expanded : String) (config : Config) :
    env.expand text = .ok expanded → parse? expanded = some config → config.Consistent →
    Loads env text (.ok config)

theorem ofText_eq_iff {env : Environment} {text : String} {outcome : Except ConfigError Config} :
    ofText env text = outcome ↔ Loads env text outcome := by
  unfold ofText
  constructor
  · rintro rfl
    cases hexpand : env.expand text with
    | error error => exact .unexpanded error hexpand
    | ok expanded =>
      dsimp only
      cases hparse : parse? expanded with
      | none => exact .malformed expanded hexpand hparse
      | some config =>
        dsimp only
        cases hfault : config.fault? with
        | some fault => exact .invalid expanded config fault hexpand hparse hfault
        | none => exact .loaded expanded config hexpand hparse (fault?_eq_none_iff.mp hfault)
  · intro h
    cases h with
    | unexpanded error hexpand => rw [hexpand]
    | malformed expanded hexpand hparse => simp only [hexpand, hparse]
    | invalid expanded config fault hexpand hparse hfault => simp only [hexpand, hparse, hfault]
    | loaded expanded config hexpand hparse hconsistent =>
      simp only [hexpand, hparse, fault?_eq_none_iff.mpr hconsistent]

theorem Consistent.of_ofText {env : Environment} {text : String} {config : Config}
    (h : ofText env text = .ok config) : config.Consistent := by
  cases ofText_eq_iff.mp h with
  | loaded expanded config hexpand hparse hconsistent => exact hconsistent

section

variable {env : Environment} {text expanded : String} {config : Config}

theorem ofText_eq_malformed_iff (hexpand : env.expand text = .ok expanded) :
    ofText env text = .error (.malformed expanded) ↔ parse? expanded = none := by
  rw [ofText_eq_iff]
  constructor
  · intro h
    cases h with
    | malformed _ _ hparse => exact hparse
  · intro hparse
    exact .malformed expanded hexpand hparse

theorem ofText_eq_invalid_iff (hexpand : env.expand text = .ok expanded)
    (hparse : parse? expanded = some config) {fault : Fault} :
    ofText env text = .error (.invalid fault) ↔ config.fault? = some fault := by
  rw [ofText_eq_iff]
  constructor
  · intro h
    cases h with
    | invalid other parsed fault hother hparsed hfault =>
      rw [hexpand, Except.ok.injEq] at hother
      rw [← hother, hparse, Option.some.injEq] at hparsed
      exact hparsed ▸ hfault
  · intro hfault
    exact .invalid expanded config fault hexpand hparse hfault

end

/-- A text is loaded in stages, and the first stage that fails gives the error. -/
structure LoadsInStages (env : Environment) (text : String) : Prop where
  /-- First the placeholders are expanded; the error of the expansion is passed on. -/
  unexpanded : ∀ error,
    ofText env text = .error (.unexpanded error) ↔ env.expand text = .error error
  /-- It is told as the cause of the refusal. -/
  caused : ∀ error, env.expand text = .error error →
    ∃ refusal, ofText env text = .error refusal ∧
      refusal.text = "config variable expansion failed" ∧
      ∀ remark, refusal.cause? remark = some error.text
  /-- The expanded text must write settings; what its reader remarks on it is the cause of the
  refusal. -/
  malformed : ∀ expanded, env.expand text = .ok expanded →
    (ofText env text = .error (.malformed expanded) ↔ parse? expanded = none) ∧
      ConfigError.text (.malformed expanded) = "failed to parse config" ∧
      ∀ remark, ConfigError.cause? remark (.malformed expanded) = some (remark expanded)
  /-- The settings must not have a fault of one of the three kinds. -/
  invalid : ∀ expanded config, env.expand text = .ok expanded → parse? expanded = some config →
    ((∃ fault, ofText env text = .error (.invalid fault)) ↔ config.dispatch.rules = [] ∨
      (∃ rule ∈ config.dispatch.rules, ¬ Rooted rule.start) ∨
      (config.server.health.enabled = true ∧ ¬ Rooted config.server.health.path))
  /-- Of all faults the first one is told. -/
  told : ∀ expanded config fault words, env.expand text = .ok expanded →
    parse? expanded = some config →
    (ofText env text = .error (.invalid fault) ∧ ConfigError.text (.invalid fault) = words ↔
      FirstFault config fault words)
  /-- Settings that come through are what the expanded text writes, as they are. -/
  loaded : ∀ config, ofText env text = .ok config ↔
    ∃ expanded, env.expand text = .ok expanded ∧ parse? expanded = some config ∧
      config.Consistent
  /-- There is no other way to fail. -/
  decided : ∀ error, ofText env text = .error error →
    (∃ expansion, error = .unexpanded expansion) ∨ (∃ expanded, error = .malformed expanded) ∨
      ∃ fault, error = .invalid fault
  /-- Settings that come through are consistent. -/
  consistent : ∀ config, ofText env text = .ok config → config.Consistent
  /-- A path that does not begin with a slash, the empty one among them, is left by them to the
  default surface. -/
  fallback : ∀ config path, ofText env text = .ok config → ¬ Rooted path →
    config.dispatch.classify path = config.dispatch.fallback

/-- Every text is loaded in stages. -/
theorem loadsInStages (env : Environment) (text : String) : LoadsInStages env text where
  unexpanded error := by
    rw [ofText_eq_iff]
    constructor
    · intro h
      cases h with
      | unexpanded _ hexpand => exact hexpand
    · intro hexpand
      exact .unexpanded error hexpand
  caused error hexpand :=
    ⟨_, ofText_eq_iff.mpr (.unexpanded error hexpand), rfl, fun _ => rfl⟩
  malformed expanded hexpand := ⟨ofText_eq_malformed_iff hexpand, rfl, fun _ => rfl⟩
  invalid expanded config hexpand hparse := by
    simp only [ofText_eq_invalid_iff hexpand hparse]
    rw [← not_consistent_iff, ← fault?_eq_none_iff, ← Option.isSome_iff_exists,
      Option.isSome_iff_ne_none]
  told expanded config fault words hexpand hparse := by
    rw [ofText_eq_invalid_iff hexpand hparse, firstFault_iff]
    rfl
  loaded config := by
    rw [ofText_eq_iff]
    constructor
    · intro h
      cases h with
      | loaded expanded _ hexpand hparse hconsistent =>
        exact ⟨expanded, hexpand, hparse, hconsistent⟩
    · rintro ⟨expanded, hexpand, hparse, hconsistent⟩
      exact .loaded expanded config hexpand hparse hconsistent
  decided error h := by
    cases ofText_eq_iff.mp h with
    | unexpanded expansion _ => exact .inl ⟨expansion, rfl⟩
    | malformed expanded _ _ => exact .inr (.inl ⟨expanded, rfl⟩)
    | invalid _ _ fault _ _ _ => exact .inr (.inr ⟨fault, rfl⟩)
  consistent config h := .of_ofText h
  fallback config path h hpath := (Consistent.of_ofText h).classify_eq_fallback hpath

end IdentityProvider.Config
