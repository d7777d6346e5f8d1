import IdentityProvider.Config.Loading
import IdentityProvider.Proofs.Config.Settings

/-
  The tables of settings in a document, and documents that differ in one of them.

  A way leads to a table through the keys and places that stand before it, and `DiffersAt` compares
  two values that are the same but for the table at the end of a way.  A section is made of what it
  has behind its keys (`pair?_congr`, `ofEntries?_congr`): another value behind a key does not
  matter as long as the same is made of it.
-/

namespace IdentityProvider

namespace Toml

/-- A step into a value. -/
inductive Step
  /-- To what stands behind a key. -/
  | key (key : String)
  /-- To the item at a place. -/
  | item (index : Nat)
  deriving DecidableEq, Repr

/-- The table at the end of a way, if there is one. -/
def tableAt? : List Step → Toml → Option Entries
  | [], .table entries => some entries
  | .key key :: way, .table entries => (entries.lookup key).bind (tableAt? way)
  | .item index :: way, .array items => items[index]?.bind (tableAt? way)
  | _, _ => none

/-- Two values that are the same but for the table at the end of a way.  Of two entries with one
key the first is meant; the tables of a document have no such entries. -/
inductive DiffersAt (change : Entries → Entries → Prop) : List Step → Toml → Toml → Prop
  | here (before after : Entries) :
    change before after → DiffersAt change [] (.table before) (.table after)
  | key (key : String) (way : List Step) (front : Entries) (value other : Toml) (back : Entries) :
    front.lookup key = none → DiffersAt change way value other →
    DiffersAt change (.key key :: way) (.table (front ++ (key, value) :: back))
      (.table (front ++ (key, other) :: back))
  | item (way : List Step) (front : List Toml) (value other : Toml) (back : List Toml) :
    DiffersAt change way value other →
    DiffersAt change (.item front.length :: way) (.array (front ++ value :: back))
      (.array (front ++ other :: back))

/-- One more entry, anywhere in a table. -/
inductive Added (key : String) (value : Toml) : Entries → Entries → Prop
  | intro (front back : Entries) :
    Added key value (front ++ back) (front ++ (key, value) :: back)

/-- The entries are the same but behind one key, which one of the two may even be without. -/
structure SameBut (key : String) (before after : Entries) : Prop where
  keys : ∀ keys : List String, key ∈ keys →
    (after.all fun e => keys.contains e.1) = before.all fun e => keys.contains e.1
  others : ∀ other, other ≠ key → after.lookup other = before.lookup other

section

variable {key : String} {value other : Toml} {front back before after : Entries}

theorem lookup_append_cons_self (h : front.lookup key = none) (value : Toml) (back : Entries) :
    (front ++ (key, value) :: back).lookup key = some value := by
  rw [List.lookup_append, h, Option.none_or, List.lookup_cons_self]

theorem lookup_append_cons_of_ne {own : String} (h : own ≠ key) (front : Entries) (value : Toml)
    (back : Entries) : (front ++ (key, value) :: back).lookup own = (front ++ back).lookup own := by
  rw [List.lookup_append, List.lookup_append, List.lookup_cons, beq_eq_false_iff_ne.mpr h]

theorem Added.sameBut (h : Added key value before after) : SameBut key before after := by
  obtain ⟨front, back⟩ := h
  refine ⟨fun keys hkey => ?_, fun own hown => lookup_append_cons_of_ne hown front value back⟩
  rw [List.all_append, List.all_append, List.all_cons, List.contains_iff_mem.mpr hkey,
    Bool.true_and]

theorem Added.lookup (h : Added key value before after) (hnew : before.lookup key = none) :
    after.lookup key = some value := by
  obtain ⟨front, back⟩ := h
  rw [List.lookup_append, Option.or_eq_none_iff] at hnew
  exact lookup_append_cons_self hnew.1 value back

theorem sameBut_replaced (key : String) (front : Entries) (value other : Toml) (back : Entries) :
    SameBut key (front ++ (key, value) :: back) (front ++ (key, other) :: back) := by
  refine ⟨fun keys _ => ?_, fun own hown => ?_⟩
  · rw [List.all_append, List.all_append, List.all_cons, List.all_cons]
  · rw [lookup_append_cons_of_ne hown, lookup_append_cons_of_ne hown]

theorem SameBut.fields? (h : SameBut key before after) {keys : List String} (hkey : key ∈ keys) :
    (Toml.table after).fields? keys =
      ((Toml.table before).fields? keys).map fun _ => after := by
  rw [fields?_table, fields?_table, h.keys keys hkey]
  split
  · rfl
  · rfl

end

/-! ## Sections of two fields -/

section

variable {first second : String} {standard₁ : Option α} {decode₁ : Toml → Option α}
  {standard₂ : Option β} {decode₂ : Toml → Option β} {before after : Entries}

theorem pair?_eq_some_iff {value : Toml} {a : α} {b : β} :
    pair? first second standard₁ decode₁ standard₂ decode₂ value = some (a, b) ↔
      ∃ fields, value.fields? [first, second] = some fields ∧
        (fields.lookup first).elim standard₁ decode₁ = some a ∧
        (fields.lookup second).elim standard₂ decode₂ = some b := by
  unfold pair?
  simp only [Option.bind_eq_some_iff, Option.map_eq_some_iff, Prod.mk.injEq]
  constructor
  · rintro ⟨fields, hfields, a', ha, b', hb, rfl, rfl⟩
    exact ⟨fields, hfields, ha, hb⟩
  · rintro ⟨fields, hfields, ha, hb⟩
    exact ⟨fields, hfields, a, ha, b, hb, rfl, rfl⟩

/-- A section is the same if the same is made of what it has behind its keys. -/
theorem pair?_congr {key : String} (h : SameBut key before after) (hkey : key ∈ [first, second])
    (hfirst : (after.lookup first).elim standard₁ decode₁ =
      (before.lookup first).elim standard₁ decode₁)
    (hsecond : (after.lookup second).elim standard₂ decode₂ =
      (before.lookup second).elim standard₂ decode₂) :
    pair? first second standard₁ decode₁ standard₂ decode₂ (.table after) =
      pair? first second standard₁ decode₁ standard₂ decode₂ (.table before) := by
  unfold pair?
  rw [h.fields? hkey]
  cases hfields : (Toml.table before).fields? [first, second] with
  | none => rfl
  | some fields =>
    obtain rfl := eq_of_fields?_table hfields
    simp only [Option.map_some, Option.bind_some, hfirst, hsecond]

end

end Toml

namespace Config

open Toml

/-- A table in which nothing but settings may stand. -/
inductive Table
  /-- The document as a whole. -/
  | whole
  | server
  | health
  | messages
  | dispatch
  /-- The surface rule at this place. -/
  | rule (index : Nat)
  | logging
  deriving DecidableEq, Repr

/-- Where the table stands in a document. -/
def Table.way : Table → List Toml.Step
  | .whole => []
  | .server => [.key "server"]
  | .health => [.key "server", .key "health"]
  | .messages => [.key "messages"]
  | .dispatch => [.key "dispatch"]
  | .rule index => [.key "dispatch", .key "rules", .item index]
  | .logging => [.key "logging"]

/-- The settings and sections that may stand in the table. -/
def Table.keys : Table → List String
  | .whole => ["server", "messages", "dispatch", "logging"]
  | .server => ["listen_address", "health"]
  | .health => ["enabled", "path"]
  | .messages => ["path", "entries"]
  | .dispatch => ["rules", "default"]
  | .rule _ => ["prefix", "surface"]
  | .logging => ["filter", "format"]

/-- The settings that a document makes, if it is a table. -/
def ofDocument? (document : Toml) : Option Config :=
  match document with
  | .table entries => ofEntries? entries
  | _ => none

/-- Where the texts for error codes stand in a document. -/
def textsWay : List Toml.Step := [.key "messages", .key "entries"]

theorem parse?_of_read? {expanded : String} {document : Entries}
    (h : Toml.read? expanded = some document) : parse? expanded = ofEntries? document := by
  rw [parse?, h, Option.bind_some]

section

variable {before after entries : Entries} {config : Config}

theorem ofEntries?_eq_some_iff : ofEntries? entries = some config ↔
    (entries.all fun e => sectionKeys.contains e.1) = true ∧
      (entries.lookup "server").elim (some standard.server) server? = some config.server ∧
      (entries.lookup "messages").elim (some standard.messages) messages? =
        some config.messages ∧
      (entries.lookup "dispatch").elim (some standard.dispatch) dispatch? =
        some config.dispatch ∧
      (entries.lookup "logging").elim (some standard.logging) logging? = some config.logging := by
  rw [ofEntries?_eq, fields?_table]
  simp only [Option.bind_eq_some_iff, Option.ite_none_right_eq_some]
  constructor
  · rintro ⟨fields, ⟨hkeys, hfields⟩, server, hserver, messages, hmessages, dispatch, hdispatch,
      logging, hlogging, hconfig⟩
    cases hfields
    cases hconfig
    exact ⟨hkeys, hserver, hmessages, hdispatch, hlogging⟩
  · rintro ⟨hkeys, hserver, hmessages, hdispatch, hlogging⟩
    exact ⟨entries, ⟨hkeys, rfl⟩, _, hserver, _, hmessages, _, hdispatch, _, hlogging, rfl⟩

/-- The settings are the same if the same is made of each section. -/
theorem ofEntries?_congr {key : String} (h : SameBut key before after) (hkey : key ∈ sectionKeys)
    (hserver : (after.lookup "server").elim (some standard.server) server? =
      (before.lookup "server").elim (some standard.server) server?)
    (hmessages : (after.lookup "messages").elim (some standard.messages) messages? =
      (before.lookup "messages").elim (some standard.messages) messages?)
    (hdispatch : (after.lookup "dispatch").elim (some standard.dispatch) dispatch? =
      (before.lookup "dispatch").elim (some standard.dispatch) dispatch?)
    (hlogging : (after.lookup "logging").elim (some standard.logging) logging? =
      (before.lookup "logging").elim (some standard.logging) logging?) :
    ofEntries? after = ofEntries? before := by
  refine Option.ext fun config => ?_
  rw [ofEntries?_eq_some_iff, ofEntries?_eq_some_iff, h.keys sectionKeys hkey, hserver, hmessages,
    hdispatch, hlogging]

end

end Config

end IdentityProvider
