import IdentityProvider.Toml.Document
import Mathlib.Data.List.Nodup

/-
  The keys of a document.

  A statement puts a node behind a key of the document that is new, or changes the node behind one
  that is there (`Grows`).  Either way no key comes to stand twice, so the entries that a document
  writes have distinct keys (`read?_distinct`).
-/

namespace IdentityProvider.Toml

/-- No key stands twice. -/
def DistinctKeys (entries : List (String × α)) : Prop := (entries.map Prod.fst).Nodup

/-- The entries after a statement: another node behind a key, or a new key at the end. -/
inductive Grows (entries : List (String × Node)) : List (String × Node) → Prop
  | replaced (key : String) (node : Node) : Grows entries (replaceNode key node entries)
  | appended (key : String) (node : Node) :
    entries.lookup key = none → Grows entries (entries ++ [(key, node)])

theorem map_fst_replaceNode (key : String) (node : Node) (entries : List (String × Node)) :
    (replaceNode key node entries).map Prod.fst = entries.map Prod.fst := by
  induction entries with
  | nil => rfl
  | cons entry entries ih =>
    obtain ⟨k, n⟩ := entry
    rw [replaceNode]
    split
    · rfl
    · rw [List.map_cons, List.map_cons, ih]

theorem map_fst_entriesValue (entries : List (String × Node)) :
    (entriesValue entries).map Prod.fst = entries.map Prod.fst := by
  induction entries with
  | nil => rfl
  | cons entry entries ih =>
    obtain ⟨key, node⟩ := entry
    rw [entriesValue, List.map_cons, List.map_cons, ih]

theorem notMem_keys_of_lookup {entries : List (String × α)} {key : String}
    (h : entries.lookup key = none) : key ∉ entries.map Prod.fst := by
  intro hkey
  obtain ⟨entry, hentry, rfl⟩ := List.mem_map.mp hkey
  simpa using List.lookup_eq_none_iff.mp h entry hentry

theorem Grows.distinct {entries next : List (String × Node)} (h : Grows entries next)
    (hdistinct : DistinctKeys entries) : DistinctKeys next := by
  unfold DistinctKeys at *
  cases h with
  | replaced key node =>
    rw [map_fst_replaceNode]
    exact hdistinct
  | appended key node hnew =>
    rw [List.map_append, List.map_singleton, ← List.concat_eq_append]
    exact List.Nodup.concat (notMem_keys_of_lookup hnew) hdistinct

/-! ## Statements -/

theorem grows_of_append {filled : Option α} {node : α → Node} {key : String}
    {entries next : List (String × Node)} (hlookup : entries.lookup key = none)
    (h : (filled.map fun a => entries ++ [(key, node a)]) = some next) : Grows entries next := by
  obtain ⟨a, -, rfl⟩ := Option.map_eq_some_iff.mp h
  exact .appended key (node a) hlookup

theorem grows_of_replace {filled : Option α} {node : α → Node} {key : String}
    {entries next : List (String × Node)}
    (h : (filled.map fun a => replaceNode key (node a) entries) = some next) :
    Grows entries next := by
  obtain ⟨a, -, rfl⟩ := Option.map_eq_some_iff.mp h
  exact .replaced key (node a)

theorem grows_of_assign {path : List String} {value : Toml} {entries next : List (String × Node)}
    (h : assign path value entries = some next) : Grows entries next := by
  match path with
  | [] => cases h
  | [key] =>
    rw [assign] at h
    cases hlookup : entries.lookup key with
    | none =>
      rw [hlookup] at h
      cases h
      exact .appended key _ hlookup
    | some node =>
      rw [hlookup] at h
      cases h
  | key :: inner :: path =>
    rw [assign] at h
    cases hlookup : entries.lookup key with
    | none =>
      rw [hlookup] at h
      exact grows_of_append hlookup h
    | some node =>
      rw [hlookup] at h
      cases node with
      | leaf other => cases h
      | table origin old =>
        exact grows_of_replace (Option.ite_none_left_eq_some.mp h).2
      | series earlier last =>
        exact grows_of_replace (Option.ite_none_left_eq_some.mp h).2

theorem grows_of_fillSection {isItem : Bool}
    {fill : List (String × Node) → Option (List (String × Node))} {path : List String}
    {entries next : List (String × Node)} (h : fillSection isItem fill path entries = some next) :
    Grows entries next := by
  match path with
  | [] => cases h
  | [key] =>
    rw [fillSection] at h
    cases hlookup : entries.lookup key with
    | none =>
      rw [hlookup] at h
      exact grows_of_append hlookup h
    | some node =>
      rw [hlookup] at h
      cases node with
      | leaf other => cases h
      | table origin old =>
        exact grows_of_replace (Option.ite_none_right_eq_some.mp h).2
      | series earlier last =>
        exact grows_of_replace (Option.ite_none_right_eq_some.mp h).2
  | key :: inner :: path =>
    rw [fillSection] at h
    cases hlookup : entries.lookup key with
    | none =>
      rw [hlookup] at h
      exact grows_of_append hlookup h
    | some node =>
      rw [hlookup] at h
      cases node with
      | leaf other => cases h
      | table origin old =>
        exact grows_of_replace h
      | series earlier last =>
        exact grows_of_replace h

/-! ## Documents -/

theorem distinct_of_assignMembers? {members : List (List String × Literal)}
    {entries next : List (String × Node)} (h : assignMembers? members entries = some next)
    (hdistinct : DistinctKeys entries) : DistinctKeys next := by
  induction members generalizing entries with
  | nil =>
    cases h
    exact hdistinct
  | cons member members ih =>
    obtain ⟨path, literal⟩ := member
    rw [assignMembers?] at h
    obtain ⟨value, -, h⟩ := Option.bind_eq_some_iff.mp h
    obtain ⟨middle, hmiddle, h⟩ := Option.bind_eq_some_iff.mp h
    exact ih h ((grows_of_assign hmiddle).distinct hdistinct)

theorem distinct_of_foldlM_fillSection {sections : List Section}
    {root next : List (String × Node)}
    (h : sections.foldlM (fun root s =>
      fillSection s.isItem (assignMembers? s.assignments) s.path root) root = some next)
    (hdistinct : DistinctKeys root) : DistinctKeys next := by
  induction sections generalizing root with
  | nil =>
    cases h
    exact hdistinct
  | cons s sections ih =>
    rw [List.foldlM_cons] at h
    obtain ⟨middle, hmiddle, h⟩ := Option.bind_eq_some_iff.mp h
    exact ih h ((grows_of_fillSection hmiddle).distinct hdistinct)

/-- The entries that a document writes have distinct keys. -/
theorem read?_distinct {text : String} {entries : Entries} (h : read? text = some entries) :
    DistinctKeys entries := by
  obtain ⟨statements, -, h⟩ := Option.bind_eq_some_iff.mp h
  obtain ⟨start, hstart, h⟩ := Option.bind_eq_some_iff.mp h
  obtain ⟨root, hroot, h⟩ := Option.bind_eq_some_iff.mp h
  cases h
  have hempty : DistinctKeys ([] : List (String × Node)) := List.nodup_nil
  have hdistinct := distinct_of_foldlM_fillSection hroot (distinct_of_assignMembers? hstart hempty)
  unfold DistinctKeys at *
  rw [map_fst_entriesValue]
  exact hdistinct

end IdentityProvider.Toml
