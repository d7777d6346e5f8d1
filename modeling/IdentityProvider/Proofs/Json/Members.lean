import IdentityProvider.Proofs.Json.Judging
import IdentityProvider.Proofs.Traversal

/-
  The members of an object by their names.

  An object keeps its members in their order and may repeat a name.  `named name members` is what
  stands under a name; changes that leave alone what stands under the names of a body are
  `Rearranged`.  A reader that fills one place of a record sees nothing else of an object
  (`takeMembers_one`): the first value fills the place and a further one is refused (`fill`).
-/

namespace IdentityProvider.Json

/-- The values of the members with this name, in order. -/
def named (name : String) : List (List Char × Json) → List Json
  | [] => []
  | (key, value) :: members =>
    if key = name.toList then value :: named name members else named name members

theorem named_append (name : String) (members others : List (List Char × Json)) :
    named name (members ++ others) = named name members ++ named name others := by
  induction members with
  | nil => rfl
  | cons member members ih =>
    rw [List.cons_append, named, named]
    split
    · rw [ih, List.cons_append]
    · exact ih

theorem mem_named {name : String} {value : Json} {members : List (List Char × Json)}
    (h : (name.toList, value) ∈ members) : value ∈ named name members := by
  obtain ⟨before, after, rfl⟩ := List.append_of_mem h
  rw [named_append, named, if_pos rfl]
  exact List.mem_append_right _ List.mem_cons_self

theorem named_perm_of_perm {members members' : List (List Char × Json)} (h : members.Perm members')
    (name : String) : (named name members).Perm (named name members') := by
  induction h with
  | nil => exact .refl _
  | cons member _ ih =>
    rw [named, named]
    split
    · exact ih.cons _
    · exact ih
  | swap first second members =>
    rw [named, named, named, named]
    split <;> split
    · exact .swap _ _ _
    · exact .refl _
    · exact .refl _
    · exact .refl _
  | trans _ _ ih ih' => exact ih.trans ih'

/-- Changes of the members of an object that leave alone what stands under these names. -/
inductive Rearranged (names : List String) :
    List (List Char × Json) → List (List Char × Json) → Prop
  | permuted {members members' : List (List Char × Json)} :
    members.Perm members' → Rearranged names members members'
  /-- A member is put in anywhere, be it new or there already. -/
  | added {key : List Char} (before : List (List Char × Json)) (value : Json)
    (after : List (List Char × Json)) : (∀ name ∈ names, key ≠ name.toList) →
      Rearranged names (before ++ after) (before ++ (key, value) :: after)
  | removed {key : List Char} (before : List (List Char × Json)) (value : Json)
    (after : List (List Char × Json)) : (∀ name ∈ names, key ≠ name.toList) →
      Rearranged names (before ++ (key, value) :: after) (before ++ after)
  | trans {first second third : List (List Char × Json)} :
    Rearranged names first second → Rearranged names second third → Rearranged names first third

theorem named_other {name : String} {key : List Char} (h : key ≠ name.toList)
    (before : List (List Char × Json)) (value : Json) (after : List (List Char × Json)) :
    named name (before ++ (key, value) :: after) = named name (before ++ after) := by
  rw [named_append, named_append, named, if_neg h]

theorem Rearranged.named_perm {names : List String} {members members' : List (List Char × Json)}
    (h : Rearranged names members members') {name : String} (hname : name ∈ names) :
    (named name members).Perm (named name members') := by
  induction h with
  | permuted h => exact named_perm_of_perm h name
  | added before value after h => rw [named_other (h name hname)]
  | removed before value after h => rw [named_other (h name hname)]
  | trans _ _ ih ih' => exact ih.trans ih'

/-- A member that is there once is still there once. -/
theorem Rearranged.named_eq_singleton_iff {names : List String}
    {members members' : List (List Char × Json)} (h : Rearranged names members members')
    {name : String} (hname : name ∈ names) {value : Json} :
    named name members = [value] ↔ named name members' = [value] := by
  have hperm := h.named_perm hname
  constructor
  · intro heq
    rw [heq] at hperm
    exact (List.singleton_perm.mp hperm).symm
  · intro heq
    rw [heq] at hperm
    exact List.perm_singleton.mp hperm

/-! ## Places of a record -/

section

variable (value? : Json → Option α)

/-- What values make of a place: the first fills it, a further one is refused. -/
def fill : Option α → List Json → Option (Option α)
  | held, [] => some held
  | none, value :: values => (value? value).bind fun x => fill (some x) values
  | some _, _ :: _ => none

end

section

variable {value? : Json → Option α}

/-- An empty place is filled by exactly one value. -/
theorem fill_eq_some_some_iff {values : List Json} {x : α} :
    fill value? none values = some (some x) ↔
      ∃ value, values = [value] ∧ value? value = some x := by
  cases values with
  | nil => simp [fill]
  | cons value values =>
    cases values with
    | nil => simp [fill, Option.bind_eq_some_iff]
    | cons second values => simp [fill]

/-- A member fills its place if that is empty, and the others follow. -/
theorem fill_cons_iff {held : Option α} {value : Json} {values : List Json} {filled : Option α}
    {P : Prop} {others : α → Option σ} {record : σ}
    (h : ∀ x, others x = some record ↔ fill value? (some x) values = some filled ∧ P) :
    (if held.isSome then none else (value? value).bind others) = some record ↔
      fill value? held (value :: values) = some filled ∧ P := by
  cases held with
  | some x => simp [fill]
  | none =>
    cases hvalue : value? value with
    | none => simp [fill, hvalue]
    | some x => simpa [fill, hvalue] using h x

end

section

variable {places : List (Place σ)} {key : List Char}

theorem takeMembers_cons_other (h : places.find? (·.field.name = key) = none) (record : σ)
    (value : Json) (members : List (List Char × Json)) :
    takeMembers places record ((key, value) :: members) = takeMembers places record members := by
  rw [takeMembers, h]

theorem takeMembers_cons_of {name : String} {get : σ → Option α} {set : σ → α → σ}
    {decode : Decoder α} {value? : Json → Option α} {hjudges : Judges decode value?}
    (h : places.find? (·.field.name = key) = some (.of name get set hjudges)) (record : σ)
    (value : Json) (members : List (List Char × Json)) :
    takeMembers places record ((key, value) :: members) =
      if (get record).isSome then none
      else (value? value).bind fun x => takeMembers places (set record x) members := by
  rw [takeMembers, h]
  show (if (get record).isSome then none else ((value? value).map (set record)).bind _) = _
  rw [Option.bind_map]
  rfl

end

theorem takeItems_cons_of {name : String} {get : σ → Option α} {set : σ → α → σ}
    {decode : Decoder α} {value? : Json → Option α} (hjudges : Judges decode value?)
    (places : List (Place σ)) (record : σ) (item : Json) (items : List Json) :
    takeItems (.of name get set hjudges :: places) record (item :: items) =
      (value? item).bind fun x => takeItems places (set record x) items := by
  show ((value? item).map (set record)).bind _ = _
  rw [Option.bind_map]
  rfl

/-- A record with one place is filled by what stands under the name. -/
theorem takeMembers_one {decode : Decoder α} {value? : Json → Option α}
    (h : Judges decode value?) (name : String) {held filled : Option α}
    {members : List (List Char × Json)} :
    takeMembers [.of name id (fun _ x => some x) h] held members = some filled ↔
      fill value? held (named name members) = some filled := by
  induction members generalizing held with
  | nil => cases held <;> exact Iff.rfl
  | cons member members ih =>
    obtain ⟨key, value⟩ := member
    rw [named]
    by_cases hkey : key = name.toList
    · rw [if_pos hkey, takeMembers_cons_of (List.find?_cons_of_pos (decide_eq_true hkey.symm)),
        ← and_true (fill _ _ _ = _)]
      exact fill_cons_iff fun x => by rw [and_true]; exact ih
    · have hother : [Place.of name id (fun _ x => some x) h].find? (·.field.name = key) =
          none := by
        rw [List.find?_cons_of_neg (by simpa using fun heq => hkey heq.symm), List.find?_nil]
      rw [if_neg hkey, takeMembers_cons_other hother]
      exact ih

/-- An array comes to a list, item by item. -/
theorem items?_eq_some_iff {α : Type} {value? : Json → Option α} {value : Json} {xs : List α} :
    items? value? value = some xs ↔
      ∃ items, value = .array items ∧
        List.Forall₂ (fun item x => value? item = some x) items xs := by
  cases value with
  | array items =>
    rw [items?, Traversal.mapM_eq_some_iff]
    constructor
    · exact fun h => ⟨items, rfl, h⟩
    · rintro ⟨_, heq, h⟩
      rwa [Json.array.inj heq]
  | _ => exact ⟨nofun, fun ⟨_, heq, _⟩ => nomatch heq⟩

end IdentityProvider.Json
