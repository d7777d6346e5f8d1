import IdentityProvider.Proofs.Config.Loading
import IdentityProvider.Proofs.Config.Settings
import IdentityProvider.Proofs.Placeholder.Dependence
import IdentityProvider.Proofs.Toml.Place
import Mathlib

/-
  How the value of a variable reaches a setting.

  Values are put into the text of the settings before it is read, so a value can end the string
  that it was meant for.  A plain one cannot: if a string of the text consists of the only
  placeholder for the variable (`HoldsString`), every plain value becomes the text of one setting,
  the same one for all, and reaches no other (`reachesOneSetting`).
-/

namespace IdentityProvider

open Text

namespace Placeholder

/-! ## The parts of a text -/

/-- The parts of a line of a text: a comment has no placeholders. -/
def lineParts (line : List Char) : List Part :=
  if isCommentLine line then line.map .plain else parts line

/-- The parts of lines, with a line end between two of them. -/
def joinedParts : List (List Char) → List Part
  | [] => []
  | [line] => lineParts line
  | line :: next :: lines => lineParts line ++ .plain '\n' :: joinedParts (next :: lines)

/-- The parts of a text. -/
def pieces (text : String) : List Part := joinedParts (lines text)

section

variable {env : Environment}

theorem expandLine_eq_lineParts (line : List Char) :
    expandLine env line = ((lineParts line).mapM (Part.resolve env)).map List.flatten := by
  unfold expandLine lineParts
  split
  · rw [mapM_resolve_plain, Except.map, flatten_map_singleton]
  · cases (parts line).mapM (Part.resolve env) with
    | error e => rfl
    | ok texts => rfl

theorem expandLine_of_lineParts {line : List Char} {texts : List (List Char)}
    (h : (lineParts line).mapM (Part.resolve env) = .ok texts) :
    expandLine env line = .ok texts.flatten := by
  rw [expandLine_eq_lineParts, h]
  rfl

theorem mapM_expandLine_of_joinedParts {lines texts : List (List Char)}
    (h : (joinedParts lines).mapM (Part.resolve env) = .ok texts) :
    ∃ outs, lines.mapM (expandLine env) = .ok outs ∧ joinWith '\n' outs = texts.flatten := by
  match lines with
  | [] =>
    cases h
    exact ⟨[], rfl, rfl⟩
  | [line] =>
    refine ⟨[texts.flatten], Traversal.mapM_cons_eq_ok_iff.mpr ⟨_, [], ?_, rfl, rfl⟩, rfl⟩
    exact expandLine_of_lineParts h
  | line :: next :: lines =>
    obtain ⟨first, more, hfirst, hmore, rfl⟩ := Traversal.mapM_append_eq_ok_iff.mp h
    obtain ⟨lineEnd, later, hlineEnd, hlater, rfl⟩ := Traversal.mapM_cons_eq_ok_iff.mp hmore
    cases hlineEnd
    obtain ⟨outs, houts, hjoin⟩ := mapM_expandLine_of_joinedParts hlater
    obtain ⟨out, rest, hout, hrest, rfl⟩ := Traversal.mapM_cons_eq_ok_iff.mp houts
    refine ⟨_, Traversal.mapM_cons_eq_ok_iff.mpr ⟨_, _, expandLine_of_lineParts hfirst, houts, rfl⟩,
      ?_⟩
    rw [joinWith, hjoin]
    simp

/-- A text is expanded to the texts of its parts. -/
theorem expand_of_pieces {text : String} {texts : List (List Char)}
    (h : (pieces text).mapM (Part.resolve env) = .ok texts) :
    env.expand text = .ok (String.ofList texts.flatten) := by
  obtain ⟨outs, houts, hjoin⟩ := mapM_expandLine_of_joinedParts h
  exact expand_eq_ok_iff.mpr ⟨outs, houts, congrArg String.ofList hjoin⟩

end

/-- A placeholder does not see another variable. -/
theorem resolve_set {env : Environment} {p : Placeholder} {name : String}
    (h : p.variableName? ≠ some name) (bytes : List UInt8) :
    p.resolve (env.set name bytes) = p.resolve env := by
  unfold resolve
  split
  · rfl
  · next other hother =>
    have hne : other ≠ name := fun heq => h (heq ▸ hother)
    rw [Environment.text?, Environment.value?_set, if_neg hne]
    rfl

theorem mapM_resolve_set {env : Environment} {name : String} {parts : List Part}
    (h : ∀ p, .slot p ∈ parts → p.variableName? ≠ some name) (bytes : List UInt8) :
    parts.mapM (Part.resolve (env.set name bytes)) = parts.mapM (Part.resolve env) := by
  refine Traversal.mapM_congr fun part hpart => ?_
  cases part with
  | plain c => rfl
  | slot p => exact resolve_set (h p hpart) bytes

end Placeholder

namespace Config

open Placeholder Toml

/-- In the environment the variable has a plain value, and the text, which has one placeholder for
it outside its comments, is read with this value as a string of its own. -/
inductive HoldsString (env : Environment) (name : String) : String → Prop
  | intro (text : String) (front back : List Part) (p : Placeholder) (value : String)
    (lead rest : List (List Char)) :
    pieces text = front ++ .plain '"' :: .slot p :: .plain '"' :: back →
    p.variableName? = some name → (∀ q, .slot q ∈ front ++ back → q.variableName? ≠ some name) →
    env.text? name = some value → IsPlain value →
    front.mapM (Part.resolve env) = .ok lead → back.mapM (Part.resolve env) = .ok rest →
    rest.flatten.head? ≠ some '"' →
    Asks (quotedBefore value rest.flatten) .document
      (lead.flatten ++ quotedBefore value rest.flatten) →
    HoldsString env name text

/-- The document that the text writes in the environment. -/
def Writes (env : Environment) (text : String) (entries : Entries) : Prop :=
  ∃ expanded, env.expand text = .ok expanded ∧ Toml.read? expanded = some entries

/-- What the plain values of a variable do to the settings `c` that a text writes. -/
inductive ReachesOneSetting (env : Environment) (name text : String) (c : Config) : Prop
  /-- The document has the value for one setting.  The text is loaded if the setting can be the
  value, as it always can if any text can be the setting; the setting is then the value, and the
  others are the same for every value. -/
  | setting (s : Setting) :
    (∀ bytes v, Utf8.text? bytes = some v → IsPlain v →
      (∃ entries, Writes (env.set name bytes) text entries ∧
        s.source? entries = some (.string v)) ∧
      (∀ c', ofText (env.set name bytes) text = .ok c' ↔ s.put? v c = some c' ∧ c'.Consistent) ∧
      (s.takesAny = true → ∃ c', ofText (env.set name bytes) text = .ok c')) →
    ReachesOneSetting env name text c
  /-- What the document has for the settings does not depend on the value, and neither do they. -/
  | nothing (base : Entries) :
    Writes env text base →
    (∀ bytes v, Utf8.text? bytes = some v → IsPlain v →
      (∃ entries, Writes (env.set name bytes) text entries ∧
        ∀ s, Setting.source? entries s = Setting.source? base s) ∧
      ofText (env.set name bytes) text = .ok c) →
    ReachesOneSetting env name text c

/-- With any plain string in the place of one the text writes a document, in which one string
varies. -/
theorem read?_varies {lead rest : List Char} {w : String} (hw : IsPlain w)
    (hrest : rest.head? ≠ some '"')
    (hasks : Asks (quotedBefore w rest) .document (lead ++ quotedBefore w rest)) {base : Entries}
    (h : Toml.read? (String.ofList (lead ++ quotedBefore w rest)) = some base) :
    ∃ entries, Within (Under Varies) entries ∧ entries w = base ∧
      ∀ v, IsPlain v →
        Toml.read? (String.ofList (lead ++ quotedBefore v rest)) = some (entries v) := by
  unfold Toml.read? at h ⊢
  simp only [String.toList_ofList] at h ⊢
  obtain ⟨statements, hstatements, hbase⟩ := Option.bind_eq_some_iff.mp h
  obtain ⟨list, hlist, hread⟩ := statements?_varies hw hrest hasks hstatements
  rw [hread w hw, Option.bind_some] at h
  obtain hnone | ⟨entries, hvaries, hsome⟩ := ofStatements?_varies hlist
  · dsimp only at hnone
    rw [hnone w] at h
    cases h
  · dsimp only at hsome
    rw [hsome w, Option.some.injEq] at h
    exact ⟨entries, hvaries, h, fun v hv => by rw [hread v hv, Option.bind_some, hsome v]⟩

/-- With another plain value the text is expanded to the same but for the value. -/
theorem exists_expand_eq {env : Environment} {name text : String}
    (h : HoldsString env name text) : ∃ value lead rest, IsPlain value ∧ rest.head? ≠ some '"' ∧
      Asks (quotedBefore value rest) .document (lead ++ quotedBefore value rest) ∧
      env.expand text = .ok (String.ofList (lead ++ quotedBefore value rest)) ∧
      ∀ bytes v, Utf8.text? bytes = some v →
        (env.set name bytes).expand text = .ok (String.ofList (lead ++ quotedBefore v rest)) := by
  obtain ⟨front, back, p, value, lead, rest, hpieces, hname, honly, hvalue, hplain, hlead, hrest,
    hhead, hasks⟩ := h
  -- where the parts around the placeholder are expanded as before
  have hexpand : ∀ (other : Environment) (v : String), other.text? name = some v →
      front.mapM (Part.resolve other) = .ok lead → back.mapM (Part.resolve other) = .ok rest →
        other.expand text = .ok (String.ofList (lead.flatten ++ quotedBefore v rest.flatten)) := by
    intro other v hv hlead hrest
    have hslot : p.resolve other = .ok v.toList := by
      rw [resolve, hname]
      dsimp only
      rw [hv]
    have hparts : (pieces text).mapM (Part.resolve other) =
        .ok (lead ++ ['"'] :: v.toList :: ['"'] :: rest) := by
      rw [hpieces]
      refine Traversal.mapM_append_eq_ok_iff.mpr ⟨lead, _, hlead, ?_, rfl⟩
      refine Traversal.mapM_cons_eq_ok_iff.mpr ⟨_, _, rfl, ?_, rfl⟩
      refine Traversal.mapM_cons_eq_ok_iff.mpr ⟨_, _, hslot, ?_, rfl⟩
      exact Traversal.mapM_cons_eq_ok_iff.mpr ⟨_, _, rfl, hrest, rfl⟩
    rw [expand_of_pieces hparts]
    simp [quotedBefore]
  refine ⟨value, lead.flatten, rest.flatten, hplain, hhead, hasks,
    hexpand env value hvalue hlead hrest, fun bytes v hv => hexpand _ v ?_ ?_ ?_⟩
  · rw [Environment.text?, Environment.value?_set, if_pos rfl]
    exact hv
  · rwa [mapM_resolve_set fun q hq => honly q (List.mem_append_left back hq)]
  · rwa [mapM_resolve_set fun q hq => honly q (List.mem_append_right front hq)]

theorem exists_put?_of_takesAny {s : Setting} (hfree : s.takesAny = true) {w : String}
    {c c₀ : Config} (h : s.put? w c = some c₀) (hc : c.Consistent) (v : String) :
    ∃ c', s.put? v c = some c' ∧ c'.Consistent := by
  cases s with
  | bundlePath => exact ⟨_, rfl, hc.rules_ne_nil, hc.rules_rooted, hc.health_rooted⟩
  | filter => exact ⟨_, rfl, hc.rules_ne_nil, hc.rules_rooted, hc.health_rooted⟩
  | message index =>
    obtain ⟨entry, hentry, _⟩ := Option.map_eq_some_iff.mp h
    refine ⟨{ c with messages.entries := c.messages.entries.set index (entry.1, v) }, ?_,
      hc.rules_ne_nil, hc.rules_rooted, hc.health_rooted⟩
    rw [Setting.put?, hentry]
    rfl
  | _ => cases hfree

theorem ofText_eq_ok_iff {env : Environment} {text : String} {entries : Entries}
    (h : Writes env text entries) (c : Config) :
    ofText env text = .ok c ↔ ofEntries? entries = some c ∧ c.Consistent := by
  obtain ⟨expanded, hexpand, hread⟩ := h
  have hparse : parse? expanded = ofEntries? entries := by rw [parse?, hread, Option.bind_some]
  rw [(loadsInStages env text).loaded c, hexpand]
  simp [hparse]

/-- If a string of the text consists of the only placeholder for a variable, its plain values reach
one setting at most, and this as they are. -/
theorem plainValue_reachesOneSetting {env : Environment} {name text : String} {c : Config}
    (hholds : HoldsString env name text) (hload : ofText env text = .ok c) :
    ReachesOneSetting env name text c := by
  obtain ⟨w, lead, rest, hw, hrest, hasks, hexpand, hother⟩ := exists_expand_eq hholds
  have hconsistent := Consistent.of_ofText hload
  obtain ⟨expanded, hexpanded, hparse, _⟩ := ((loadsInStages env text).loaded c).mp hload
  rw [hexpand, Except.ok.injEq] at hexpanded
  subst hexpanded
  obtain ⟨base, hbase, hmade⟩ := Option.bind_eq_some_iff.mp hparse
  obtain ⟨entries, hvaries, rfl, hread⟩ := read?_varies hw hrest hasks hbase
  have hwrites : ∀ bytes v, Utf8.text? bytes = some v → IsPlain v →
      Writes (env.set name bytes) text (entries v) := fun bytes v hv hplain =>
    ⟨_, hother bytes v hv, hread v hplain⟩
  obtain ⟨hfixed, hsource⟩ | ⟨s, hsource, hput⟩ := ofEntries?_varies hvaries hmade
  · refine .nothing (entries w) ⟨_, hexpand, hbase⟩ fun bytes v hv hplain => ?_
    have hdocument := hwrites bytes v hv hplain
    refine ⟨⟨entries v, hdocument, fun s => hsource s v⟩, ?_⟩
    exact (ofText_eq_ok_iff hdocument c).mpr ⟨hfixed v, hconsistent⟩
  · refine .setting s fun bytes v hv hplain => ?_
    have hdocument := hwrites bytes v hv hplain
    have hiff : ∀ c', ofText (env.set name bytes) text = .ok c' ↔
        s.put? v c = some c' ∧ c'.Consistent := fun c' => by
      rw [ofText_eq_ok_iff hdocument, hput]
    refine ⟨⟨entries v, hdocument, hsource v⟩, hiff, fun hfree => ?_⟩
    rw [hput w] at hmade
    obtain ⟨c', hc'⟩ := exists_put?_of_takesAny hfree hmade hconsistent v
    exact ⟨c', (hiff c').mpr hc'⟩

/-- The log filter of this text is the value of a variable. -/
def filterText : String := "[logging]\nfilter = \"\x7b\x7b env.X \x7d\x7d\""

/-- The variable has a plain value. -/
def filterEnvironment : Environment := ⟨[("X", [0x69, 0x6E, 0x66, 0x6F])]⟩

theorem holdsString_filterText : HoldsString filterEnvironment "X" filterText := by
  refine .intro filterText ("[logging]\nfilter = ".toList.map .plain) []
    ⟨"env.X".toList, none⟩ "info" ("[logging]\nfilter = ".toList.map fun c => [c]) []
    ?_ ?_ ?_ ?_ ?_ ?_ ?_ ?_ ?_
  · cbv
  · cbv
  · simp
  · cbv
  · simp [IsPlain, isControl]
  · exact mapM_resolve_plain _ _
  · rfl
  · simp
  · refine .document _ "[logging]\nfilter = \"info\"".toList (by cbv) ?_
    refine .laterStatement 40 _ "\nfilter = \"info\"".toList "filter = \"info\"".toList
      (.header ["logging"] false) (by cbv) (by cbv) ?_
    refine .assignment 40 _ " \"info\"".toList ["filter"] (by decide) (by cbv) ?_
    have hplace : " \"info\"".toList.dropWhile isSpace = quotedBefore "info" [] := by cbv
    rw [hplace]
    exact .here nestingLimit

theorem consistent_standard : standard.Consistent := fault?_eq_none_iff.mp (by decide)

theorem ofText_filterText : ofText filterEnvironment filterText = .ok standard := by
  have hexpand : filterEnvironment.expand filterText = .ok "[logging]\nfilter = \"info\"" := by cbv
  have hparse : parse? "[logging]\nfilter = \"info\"" = some standard := by cbv
  exact ((loadsInStages _ _).loaded _).mpr ⟨_, hexpand, hparse, consistent_standard⟩

/-- The value of the variable is the log filter. -/
theorem plainValue_reachesOneSetting_filter :
    HoldsString filterEnvironment "X" filterText ∧
      ofText filterEnvironment filterText = .ok standard ∧
        ReachesOneSetting filterEnvironment "X" filterText standard :=
  ⟨holdsString_filterText, ofText_filterText,
    plainValue_reachesOneSetting holdsString_filterText ofText_filterText⟩

/-- A value that closes the string and goes on with a line of its own. -/
def formatBytes : List UInt8 :=
  [0x69, 0x6E, 0x66, 0x6F, 0x22, 0x0A, 0x66, 0x6F, 0x72, 0x6D, 0x61, 0x74, 0x20, 0x3D, 0x20, 0x22,
   0x6A, 0x73, 0x6F, 0x6E]

/-- A value with a quotation mark does not reach the filter as itself, and it reaches another
setting. -/
theorem quotedValue_reachesFormat :
    HoldsString filterEnvironment "X" filterText ∧
      ofText filterEnvironment filterText = .ok standard ∧
        ∃ v c', Utf8.text? formatBytes = some v ∧
          ofText (filterEnvironment.set "X" formatBytes) filterText = .ok c' ∧
            c'.logging.filter ≠ v ∧ c'.logging.format ≠ standard.logging.format := by
  have hvalue : Utf8.text? formatBytes = some "info\"\nformat = \"json" := by cbv
  have hexpand : (filterEnvironment.set "X" formatBytes).expand filterText =
      .ok "[logging]\nfilter = \"info\"\nformat = \"json\"" := by cbv
  have hparse : parse? "[logging]\nfilter = \"info\"\nformat = \"json\"" =
      some { standard with logging.format := .json } := by cbv
  have hload : ofText (filterEnvironment.set "X" formatBytes) filterText =
      .ok { standard with logging.format := .json } :=
    ((loadsInStages _ _).loaded _).mpr ⟨_, hexpand, hparse, consistent_standard.rules_ne_nil,
      consistent_standard.rules_rooted, consistent_standard.health_rooted⟩
  refine ⟨holdsString_filterText, ofText_filterText, _, _, hvalue, hload, ?_, ?_⟩
  · simp [standard, Logging.standard]
  · simp [standard, Logging.standard]

end Config

end IdentityProvider
