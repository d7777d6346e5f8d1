import IdentityProvider.Proofs.Config.Loading
import IdentityProvider.Proofs.Config.Tables
import Mathlib

/-
  What is left out stands as it does by default.

  `Standard` lists the sections and settings that may be left out of a table, each with what can be
  written in its place.  A section to which one of them is added is made as before
  (`keeps_pair_written`), so is everything around it (`Keeps.inSecond`, `Keeps.inSection`), and so
  are documents to which any of them are added, one after another (`omitted_is_standard`).
-/

namespace IdentityProvider.Config

open Toml

/-- The ways to write a surface rule. -/
inductive WritesRule (start name : String) : Toml → Prop
  | startFirst (surface : Toml) : surface.choice? = some name →
    WritesRule start name (.table [("prefix", .string start), ("surface", surface)])
  | surfaceFirst (surface : Toml) : surface.choice? = some name →
    WritesRule start name (.table [("surface", surface), ("prefix", .string start)])

/-- The standard rules: the starts of paths, with the names of their surfaces. -/
def standardRuleTexts : List (String × String) :=
  [("/authorization", "internal"), ("/client-mgmt/", "internal"),
    ("/oauth/client-mgmt/", "internal"), ("/oidc/userinfo", "challenge"), ("/oauth/", "oauth")]

/-- What may be left out of a table: the sections, which are then empty, and the settings that have
a default. -/
inductive Standard : Table → String → Toml → Prop
  | server : Standard .whole "server" (.table [])
  | health : Standard .server "health" (.table [])
  | messages : Standard .whole "messages" (.table [])
  | texts : Standard .messages "entries" (.table [])
  | dispatch : Standard .whole "dispatch" (.table [])
  | logging : Standard .whole "logging" (.table [])
  | listenAddress (words : String) : Address.read? words = some ⟨.v4 [0, 0, 0, 0], 8088⟩ →
    Standard .server "listen_address" (.string words)
  | enabled : Standard .health "enabled" (.boolean true)
  | healthPath : Standard .health "path" (.string "/health")
  | rules (values : List Toml) :
    List.Forall₂ (fun rule value => WritesRule rule.1 rule.2 value) standardRuleTexts values →
    Standard .dispatch "rules" (.array values)
  | fallback (value : Toml) : value.choice? = some "internal" → Standard .dispatch "default" value
  | filter : Standard .logging "filter" (.string "info")
  | format (value : Toml) : value.choice? = some "text" → Standard .logging "format" value

/-- A key that a table is without is added to it. -/
def WrittenOut (key : String) (value : Toml) (before after : Entries) : Prop :=
  Added key value before after ∧ before.lookup key = none

/-- A section or a setting that one document leaves out stands in the other as it does by
default. -/
inductive WritesOut : Entries → Entries → Prop
  | intro (table : Table) (key : String) (value : Toml) (before after : Entries) :
    Standard table key value →
    DiffersAt (WrittenOut key value) table.way (.table before) (.table after) →
    WritesOut before after

/-! ## Sections -/

/-- The change at the end of the way makes no difference. -/
def Keeps (change : Entries → Entries → Prop) (way : List Toml.Step) (decode : Toml → Option α) :
    Prop :=
  ∀ before after, DiffersAt change way before after → decode after = decode before

section

variable {change : Entries → Entries → Prop} {way : List Toml.Step} {key : String} {value : Toml}
  {first second : String} {standard₁ : Option α} {decode₁ : Toml → Option α}
  {standard₂ : Option β} {decode₂ : Toml → Option β} {make : α × β → γ}

/-- A section with a key written out is the section without it, if the key has the value that stands
in for it. -/
theorem keeps_pair_written (hne : first ≠ second)
    (h : key = first ∧ decode₁ value = standard₁ ∨ key = second ∧ decode₂ value = standard₂) :
    Keeps (WrittenOut key value) [] fun section_ =>
      (pair? first second standard₁ decode₁ standard₂ decode₂ section_).map make := by
  intro _ _ hdiffers
  cases hdiffers with
  | here before after hchange =>
    obtain ⟨hadded, hnew⟩ := hchange
    have hsame := hadded.sameBut
    have hlookup := hadded.lookup hnew
    refine congrArg (Option.map make) ?_
    obtain ⟨rfl, hvalue⟩ | ⟨rfl, hvalue⟩ := h
    · refine pair?_congr hsame (by simp) ?_ ?_
      · rw [hlookup, hnew, Option.elim_some, Option.elim_none, hvalue]
      · rw [hsame.others second hne.symm]
    · refine pair?_congr hsame (by simp) ?_ ?_
      · rw [hsame.others first hne]
      · rw [hlookup, hnew, Option.elim_some, Option.elim_none, hvalue]

theorem Keeps.inSecond (hne : first ≠ second) (h : Keeps change way decode₂) :
    Keeps change (.key second :: way) fun section_ =>
      (pair? first second standard₁ decode₁ standard₂ decode₂ section_).map make := by
  intro _ _ hdiffers
  cases hdiffers with
  | key _ _ front value other back hfront hinner =>
    have hsame := sameBut_replaced second front value other back
    refine congrArg (Option.map make) (pair?_congr hsame (by simp) ?_ ?_)
    · rw [hsame.others first hne]
    · rw [lookup_append_cons_self hfront, lookup_append_cons_self hfront, Option.elim_some,
        Option.elim_some, h value other hinner]

end

/-! ## Documents -/

/-- The same is made of what two documents have behind the key of a section. -/
inductive SameSection : String → Option Toml → Option Toml → Prop
  | server (value other : Option Toml) :
    other.elim (some standard.server) server? = value.elim (some standard.server) server? →
    SameSection "server" value other
  | messages (value other : Option Toml) :
    other.elim (some standard.messages) messages? =
      value.elim (some standard.messages) messages? →
    SameSection "messages" value other
  | dispatch (value other : Option Toml) :
    other.elim (some standard.dispatch) dispatch? =
      value.elim (some standard.dispatch) dispatch? →
    SameSection "dispatch" value other
  | logging (value other : Option Toml) :
    other.elim (some standard.logging) logging? = value.elim (some standard.logging) logging? →
    SameSection "logging" value other

section

variable {change : Entries → Entries → Prop} {way : List Toml.Step} {key : String} {value : Toml}
  {before after : Entries}

theorem ofEntries?_eq_of_sameSection (h : SameBut key before after)
    (hsection : SameSection key (before.lookup key) (after.lookup key)) :
    ofEntries? after = ofEntries? before := by
  generalize hvalue : before.lookup key = value at hsection
  generalize hother : after.lookup key = other at hsection
  cases hsection with
  | server _ _ heq =>
    rw [← hvalue, ← hother] at heq
    exact ofEntries?_congr h (by decide) heq (by rw [h.others "messages" (by decide)])
      (by rw [h.others "dispatch" (by decide)]) (by rw [h.others "logging" (by decide)])
  | messages _ _ heq =>
    rw [← hvalue, ← hother] at heq
    exact ofEntries?_congr h (by decide) (by rw [h.others "server" (by decide)]) heq
      (by rw [h.others "dispatch" (by decide)]) (by rw [h.others "logging" (by decide)])
  | dispatch _ _ heq =>
    rw [← hvalue, ← hother] at heq
    exact ofEntries?_congr h (by decide) (by rw [h.others "server" (by decide)])
      (by rw [h.others "messages" (by decide)]) heq (by rw [h.others "logging" (by decide)])
  | logging _ _ heq =>
    rw [← hvalue, ← hother] at heq
    exact ofEntries?_congr h (by decide) (by rw [h.others "server" (by decide)])
      (by rw [h.others "messages" (by decide)]) (by rw [h.others "dispatch" (by decide)]) heq

/-- A document with a section written out is the document without it. -/
theorem keeps_section_written (h : SameSection key none (some value)) :
    Keeps (WrittenOut key value) [] ofDocument? := by
  intro _ _ hdiffers
  cases hdiffers with
  | here before after hchange =>
    obtain ⟨hadded, hnew⟩ := hchange
    refine ofEntries?_eq_of_sameSection hadded.sameBut ?_
    rw [hadded.lookup hnew, hnew]
    exact h

theorem Keeps.inSection
    (h : ∀ value other, DiffersAt change way value other →
      SameSection key (some value) (some other)) :
    Keeps change (.key key :: way) ofDocument? := by
  intro _ _ hdiffers
  cases hdiffers with
  | key _ _ front value other back hfront hinner =>
    refine ofEntries?_eq_of_sameSection (sameBut_replaced key front value other back) ?_
    rw [lookup_append_cons_self hfront, lookup_append_cons_self hfront]
    exact h value other hinner

/-! ## Defaults -/

/-- A rule that is written in one of the ways is the rule. -/
theorem WritesRule.rule? {start name : String} {surface : Surface} {value : Toml}
    (h : WritesRule start name value) (hname : Surface.ofName? name = some surface) :
    rule? value = some ⟨start, surface⟩ := by
  rw [rule?_eq]
  refine Option.map_eq_some_iff.mpr ⟨(start, surface), pair?_eq_some_iff.mpr ?_, rfl⟩
  cases h with
  | startFirst written hwritten =>
    refine ⟨_, by rw [fields?_table]; rfl, rfl, ?_⟩
    show written.choice?.bind Surface.ofName? = some surface
    rw [hwritten]
    exact hname
  | surfaceFirst written hwritten =>
    refine ⟨_, by rw [fields?_table]; rfl, rfl, ?_⟩
    show written.choice?.bind Surface.ofName? = some surface
    rw [hwritten]
    exact hname

theorem rules?_standard {values : List Toml}
    (h : List.Forall₂ (fun rule value => WritesRule rule.1 rule.2 value) standardRuleTexts
      values) : rules? (.array values) = some Classifier.standard.rules := by
  unfold standardRuleTexts at h
  simp only [List.forall₂_cons_left_iff, List.forall₂_nil_left_iff] at h
  obtain ⟨_, _, h₁, ⟨_, _, h₂, ⟨_, _, h₃, ⟨_, _, h₄, ⟨_, _, h₅, rfl, rfl⟩, rfl⟩, rfl⟩, rfl⟩,
    rfl⟩ := h
  have hinternal : Surface.ofName? "internal" = some .internal := rfl
  have hchallenge : Surface.ofName? "challenge" = some .challenge := rfl
  have hoauth : Surface.ofName? "oauth" = some .oauth := rfl
  rw [rules?_array]
  simp only [List.mapM_cons, List.mapM_nil, h₁.rule? hinternal, h₂.rule? hinternal,
    h₃.rule? hinternal, h₄.rule? hchallenge, h₅.rule? hoauth]
  rfl

example : rules? (.array
    [.table [("prefix", .string "/authorization"), ("surface", .string "internal")],
     .table [("prefix", .string "/client-mgmt/"), ("surface", .string "internal")],
     .table [("surface", .string "internal"), ("prefix", .string "/oauth/client-mgmt/")],
     .table [("prefix", .string "/oidc/userinfo"), ("surface", .string "challenge")],
     .table [("prefix", .string "/oauth/"), ("surface", .string "oauth")]]) =
    some Classifier.standard.rules := by cbv

theorem surface?_internal (h : value.choice? = some "internal") :
    surface? value = some Classifier.standard.fallback := by
  rw [surface?, h]
  rfl

theorem format?_text (h : value.choice? = some "text") :
    format? value = some Logging.standard.format := by
  rw [format?, h]
  rfl

/-- What may be left out of a table makes no difference where it is written out. -/
theorem keeps_standard {table : Table} (h : Standard table key value) :
    Keeps (WrittenOut key value) table.way ofDocument? := by
  cases h with
  | server => exact keeps_section_written (.server _ _ rfl)
  | messages => exact keeps_section_written (.messages _ _ rfl)
  | dispatch => exact keeps_section_written (.dispatch _ _ rfl)
  | logging => exact keeps_section_written (.logging _ _ rfl)
  | health =>
    have hserver : Keeps (WrittenOut "health" (.table [])) [] server? := by
      rw [server?_eq]
      exact keeps_pair_written (by decide) (.inr ⟨rfl, rfl⟩)
    exact .inSection fun before after h => .server _ _ (hserver before after h)
  | listenAddress words hwords =>
    have hserver : Keeps (WrittenOut "listen_address" (.string words)) [] server? := by
      rw [server?_eq]
      exact keeps_pair_written (by decide) (.inl ⟨rfl, hwords⟩)
    exact .inSection fun before after h => .server _ _ (hserver before after h)
  | enabled =>
    have hhealth : Keeps (WrittenOut "enabled" (.boolean true)) [] health? := by
      rw [health?_eq]
      exact keeps_pair_written (by decide) (.inl ⟨rfl, rfl⟩)
    have hserver : Keeps (WrittenOut "enabled" (.boolean true)) [.key "health"] server? := by
      rw [server?_eq]
      exact hhealth.inSecond (by decide)
    exact .inSection fun before after h => .server _ _ (hserver before after h)
  | healthPath =>
    have hhealth : Keeps (WrittenOut "path" (.string "/health")) [] health? := by
      rw [health?_eq]
      exact keeps_pair_written (by decide) (.inr ⟨rfl, rfl⟩)
    have hserver : Keeps (WrittenOut "path" (.string "/health")) [.key "health"] server? := by
      rw [server?_eq]
      exact hhealth.inSecond (by decide)
    exact .inSection fun before after h => .server _ _ (hserver before after h)
  | texts =>
    have hmessages : Keeps (WrittenOut "entries" (.table [])) [] messages? := by
      rw [messages?_eq]
      exact keeps_pair_written (by decide) (.inr ⟨rfl, rfl⟩)
    exact .inSection fun before after h => .messages _ _ (hmessages before after h)
  | rules values hvalues =>
    have hdispatch : Keeps (WrittenOut "rules" (.array values)) [] dispatch? := by
      rw [dispatch?_eq]
      exact keeps_pair_written (by decide) (.inl ⟨rfl, rules?_standard hvalues⟩)
    exact .inSection fun before after h => .dispatch _ _ (hdispatch before after h)
  | fallback value hvalue =>
    have hdispatch : Keeps (WrittenOut "default" value) [] dispatch? := by
      rw [dispatch?_eq]
      exact keeps_pair_written (by decide) (.inr ⟨rfl, surface?_internal hvalue⟩)
    exact .inSection fun before after h => .dispatch _ _ (hdispatch before after h)
  | filter =>
    have hlogging : Keeps (WrittenOut "filter" (.string "info")) [] logging? := by
      rw [logging?_eq]
      exact keeps_pair_written (by decide) (.inl ⟨rfl, rfl⟩)
    exact .inSection fun before after h => .logging _ _ (hlogging before after h)
  | format value hvalue =>
    have hlogging : Keeps (WrittenOut "format" value) [] logging? := by
      rw [logging?_eq]
      exact keeps_pair_written (by decide) (.inr ⟨rfl, format?_text hvalue⟩)
    exact .inSection fun before after h => .logging _ _ (hlogging before after h)

theorem ofEntries?_eq_of_writesOut (h : WritesOut before after) :
    ofEntries? after = ofEntries? before := by
  obtain ⟨table, key, value, before, after, hstandard, hdiffers⟩ := h
  exact keeps_standard hstandard (.table before) (.table after) hdiffers

theorem ofEntries?_eq_of_written (h : Relation.ReflTransGen WritesOut before after) :
    ofEntries? after = ofEntries? before := by
  induction h with
  | refl => rfl
  | tail _ hstep ih => exact (ofEntries?_eq_of_writesOut hstep).trans ih

end

/-- Two texts are loaded alike if the document of one is that of the other with sections and settings
written out that it leaves to their defaults, in whatever number and order: to the same settings or
the same fault, unless neither writes settings. -/
theorem omitted_is_standard {before after : Entries}
    (h : Relation.ReflTransGen WritesOut before after) :
    ofEntries? after = ofEntries? before ∧
      ∀ (env other : Environment) (text longer expanded expandedLonger : String),
        env.expand text = .ok expanded → Toml.read? expanded = some before →
        other.expand longer = .ok expandedLonger → Toml.read? expandedLonger = some after →
        ofText other longer = ofText env text ∨
          (ofText other longer = .error (.malformed expandedLonger) ∧
            ofText env text = .error (.malformed expanded)) := by
  have hsame := ofEntries?_eq_of_written h
  refine ⟨hsame, fun env other text longer expanded expandedLonger hexpand hread hexpandLonger
    hreadLonger => ?_⟩
  have hparse : parse? expandedLonger = parse? expanded := by
    rw [parse?_of_read? hreadLonger, hsame, parse?_of_read? hread]
  cases hsettings : parse? expanded with
  | none =>
    exact .inr ⟨(ofText_eq_malformed_iff hexpandLonger).mpr (hparse.trans hsettings),
      (ofText_eq_malformed_iff hexpand).mpr hsettings⟩
  | some config =>
    left
    unfold ofText
    rw [hexpand, hexpandLonger]
    dsimp only
    rw [hparse, hsettings]

/-- Settings for the log alone. -/
def terseText : String := "[logging]\nfilter = \"debug\""

/-- The same settings, with three that were left out. -/
def wordyText : String :=
  "server.listen_address = \"0.0.0.0:8088\"\nserver.health.enabled = true\n" ++
    "[logging]\nformat = \"text\"\nfilter = \"debug\""

/-- The document of the settings for the log alone. -/
def terse : Entries := [("logging", .table [("filter", .string "debug")])]

/-- The settings of the log, with one that was left out. -/
def wordyLogging : Toml := .table [("format", .string "text"), ("filter", .string "debug")]

/-- The settings of the server, with two that were left out. -/
def wordyServer : Toml :=
  .table [("listen_address", .string "0.0.0.0:8088"),
    ("health", .table [("enabled", .boolean true)])]

/-- The document of the longer settings. -/
def wordy : Entries := [("server", wordyServer), ("logging", wordyLogging)]

theorem read_terse : Toml.read? terseText = some terse := by cbv

theorem read_wordy : Toml.read? wordyText = some wordy := by cbv

theorem expand_terse : Environment.expand ⟨[]⟩ terseText = .ok terseText := by cbv

set_option maxRecDepth 2000 in
theorem expand_wordy : Environment.expand ⟨[]⟩ wordyText = .ok wordyText := by cbv

theorem written_wordy : Relation.ReflTransGen WritesOut terse wordy := by
  -- the format, the server, its health route, whether this is on, the address of the server
  have hformat : WritesOut terse [("logging", wordyLogging)] :=
    .intro _ _ _ _ _ (.format _ rfl)
      (.key "logging" [] [] _ _ [] rfl (.here _ _ ⟨.intro [] _, rfl⟩))
  have hserver : WritesOut [("logging", wordyLogging)]
      [("server", .table []), ("logging", wordyLogging)] :=
    .intro _ _ _ _ _ .server (.here _ _ ⟨.intro [] _, rfl⟩)
  have hhealth : WritesOut [("server", .table []), ("logging", wordyLogging)]
      [("server", .table [("health", .table [])]), ("logging", wordyLogging)] :=
    .intro _ _ _ _ _ .health
      (.key "server" [] [] _ _ [_] rfl (.here _ _ ⟨.intro [] [], rfl⟩))
  have henabled : WritesOut
      [("server", .table [("health", .table [])]), ("logging", wordyLogging)]
      [("server", .table [("health", .table [("enabled", .boolean true)])]),
        ("logging", wordyLogging)] :=
    .intro _ _ _ _ _ .enabled (.key "server" _ [] _ _ [_] rfl
      (.key "health" [] [] _ _ [] rfl (.here _ _ ⟨.intro [] [], rfl⟩)))
  have haddress : WritesOut
      [("server", .table [("health", .table [("enabled", .boolean true)])]),
        ("logging", wordyLogging)] wordy :=
    .intro _ _ _ _ _ (.listenAddress "0.0.0.0:8088" (by cbv))
      (.key "server" [] [] _ _ [_] rfl (.here _ _ ⟨.intro [] [_], rfl⟩))
  exact .head hformat (.head hserver (.head hhealth (.head henabled (.head haddress .refl))))

theorem omitted_is_standard_wordy :
    Relation.ReflTransGen WritesOut terse wordy ∧ ofEntries? wordy = ofEntries? terse ∧
      ofText ⟨[]⟩ wordyText = ofText ⟨[]⟩ terseText ∧
      ofText ⟨[]⟩ wordyText = .ok { standard with logging.filter := "debug" } := by
  obtain ⟨hentries, htexts⟩ := omitted_is_standard written_wordy
  have hterse : ofText ⟨[]⟩ terseText = .ok { standard with logging.filter := "debug" } := by
    unfold ofText
    rw [expand_terse]
    dsimp only
    rw [parse?_of_read? read_terse]
    rfl
  have hsame : ofText ⟨[]⟩ wordyText = ofText ⟨[]⟩ terseText := by
    rcases htexts _ _ _ _ _ _ expand_terse read_terse expand_wordy read_wordy with
      hsame | ⟨-, hmalformed⟩
    · exact hsame
    · rw [hterse] at hmalformed
      cases hmalformed
  exact ⟨written_wordy, hentries, hsame, hsame.trans hterse⟩

end IdentityProvider.Config
