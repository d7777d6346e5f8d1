import IdentityProvider.Proofs.Json.Members
import IdentityProvider.Proofs.Json.Writing
import IdentityProvider.Proofs.Traversal
import IdentityProvider.Wire.Reading

/-
  Which values are read as the bodies of failures.

  A `Law` says of a kind of body which values it is written as, which values count as the same and
  which have a member too few or too many.  The law of two texts (`TextPair.law`) serves OAuth
  errors and entries; the law of envelopes builds on that of entries.  Laws speak of values as they
  are written, with members in any order and names that may come more than once, and not of the
  records that a reader fills on its way.

  A reader that judges values as a law does reads every text by the law of the value that the text
  writes (`Law.decides_of_judges`).
-/

namespace IdentityProvider

open Json

/-! ## Laws -/

/-- What is to be read as bodies of one kind. -/
structure Law (β : Type) where
  /-- The value is written as this body. -/
  Written : Json → β → Prop
  /-- The values differ in nothing that matters. -/
  Alike : Json → Json → Prop
  /-- A member that the body has is missing, or is there more than once. -/
  Miscounted : Json → Prop

/-- The text has the tokens of the value, whatever blanks and escapes it is written with. -/
def Json.WrittenIn (value : Json) (text : String) : Prop :=
  Json.tokensOf (text.toList.map some) = value.tokens

/-- Every text is read by the law of the value that it writes. -/
structure Law.Decides (law : Law β) (read : String → Except Fault β) : Prop where
  /-- It is read as a body just if its value is written as this body. -/
  accepts : ∀ {value : Json} {text : String}, value.WrittenIn text →
    ∀ body, read text = .ok body ↔ law.Written value body
  /-- What does not matter changes neither that a body is read nor which. -/
  alike : ∀ {value value' : Json} {text text' : String}, value.WrittenIn text →
    value'.WrittenIn text' → law.Alike value value' → (read text).toOption = (read text').toOption
  /-- A member that is missing or repeated is refused. -/
  refuses : ∀ {value : Json} {text : String}, value.WrittenIn text → law.Miscounted value →
    ∃ fault, read text = .error fault

/-- A member of an object is missing, or is there more than once. -/
inductive Json.Miscounted (names : List String) : Json → Prop
  | object {members : List (List Char × Json)} {name : String} : name ∈ names →
    (named name members).length ≠ 1 → Miscounted names (.object members)

/-! ## Two texts -/

namespace TextPair

section

variable (first second : String) (make : String → String → β)

/-- Two texts are written as an object with exactly one member for each, or as an array of the
two. -/
inductive Written : Json → β → Prop
  | object {members : List (List Char × Json)} {x y : String} : named first members = [.ofText x] →
    named second members = [.ofText y] → Written (.object members) (make x y)
  | array (x y : String) : Written (.array [.ofText x, .ofText y]) (make x y)

/-- Objects are alike if they differ in the order of members and in members with other names. -/
inductive Alike : Json → Json → Prop
  | same (value : Json) : Alike value value
  | object {members members' : List (List Char × Json)} :
    Rearranged [first, second] members members' → Alike (.object members) (.object members')

/-- The law of values made of two texts with these names. -/
def law : Law β where
  Written := Written first second make
  Alike := Alike first second
  Miscounted := Json.Miscounted [first, second]

end

/-- The place of the first text under this name. -/
def firstPlace (name : String) : Place TextPair :=
  .of name TextPair.first (fun pair text => { pair with first := some text }) judges_text

/-- The place of the second text under this name. -/
def secondPlace (name : String) : Place TextPair :=
  .of name TextPair.second (fun pair text => { pair with second := some text }) judges_text

/-- The places of the two texts. -/
def places (first second : String) : List (Place TextPair) :=
  [firstPlace first, secondPlace second]

variable {first second : String} {make : String → String → β}

theorem find?_first : (places first second).find? (·.field.name = first.toList) =
    some (firstPlace first) := List.find?_cons_of_pos (decide_eq_true rfl)

theorem find?_not_first {key : List Char} (h : key ≠ first.toList) :
    (places first second).find? (·.field.name = key) =
      [secondPlace second].find? (·.field.name = key) :=
  List.find?_cons_of_neg fun heq => h (of_decide_eq_true heq).symm

theorem find?_second (hne : first ≠ second) :
    (places first second).find? (·.field.name = second.toList) = some (secondPlace second) :=
  (find?_not_first fun heq => hne (String.toList_inj.mp heq.symm)).trans
    (List.find?_cons_of_pos (decide_eq_true rfl))

theorem find?_other {key : List Char} (hfirst : key ≠ first.toList)
    (hsecond : key ≠ second.toList) :
    (places first second).find? (·.field.name = key) = none :=
  (find?_not_first hfirst).trans
    (List.find?_cons_of_neg fun heq => hsecond (of_decide_eq_true heq).symm)

/-- Each of the two places is filled by what stands under its name. -/
theorem takeMembers_places (hne : first ≠ second) {pair pair' : TextPair}
    {members : List (List Char × Json)} :
    takeMembers (places first second) pair members = some pair' ↔
      fill text? pair.first (named first members) = some pair'.first ∧
        fill text? pair.second (named second members) = some pair'.second := by
  -- a member fills its own place and leaves alone what stands under the other name
  induction members generalizing pair with
  | nil =>
    obtain ⟨x, y⟩ := pair
    obtain ⟨x', y'⟩ := pair'
    show some _ = some _ ↔ _
    cases x <;> cases y <;> simp [named, fill]
  | cons member members ih =>
    obtain ⟨key, value⟩ := member
    rw [named, named]
    by_cases hfirst : key = first.toList
    · subst hfirst
      rw [if_pos rfl, if_neg fun heq => hne (String.toList_inj.mp heq),
        takeMembers_cons_of find?_first]
      exact fill_cons_iff fun x => ih
    · rw [if_neg hfirst]
      by_cases hsecond : key = second.toList
      · subst hsecond
        rw [if_pos rfl, takeMembers_cons_of (find?_second hne), and_comm]
        exact fill_cons_iff fun x => ih.trans and_comm
      · rw [if_neg hsecond, takeMembers_cons_other (find?_other hfirst hsecond)]
        exact ih

/-- A record is finished once both texts are there. -/
theorem finish_eq_some_iff {pair : TextPair} {body : β} :
    (shape first second make).finish pair = some body ↔
      ∃ x y, pair = ⟨some x, some y⟩ ∧ body = make x y := by
  obtain ⟨x?, y?⟩ := pair
  show (x?.bind fun x => y?.bind fun y => some (make x y)) = some body ↔ _
  cases x? <;> cases y? <;> simp [eq_comm]

/-- Both places are filled by an array of exactly two texts. -/
theorem takeItems_places_eq_some_iff {items : List Json} {x y : String} :
    takeItems (places first second) empty items = some ⟨some x, some y⟩ ↔
      items = [.ofText x, .ofText y] := by
  match items with
  | [] => exact ⟨nofun, nofun⟩
  | [item] =>
    rw [places, firstPlace, takeItems_cons_of]
    exact ⟨fun h => (Option.bind_eq_some_iff.mp h).elim nofun, nofun⟩
  | [item, item'] =>
    rw [places, firstPlace, secondPlace, takeItems_cons_of, List.cons.injEq, List.cons.injEq,
      ← text?_eq_some_iff, ← text?_eq_some_iff]
    cases text? item with
    | none => simp
    | some x =>
      rw [Option.bind_some, takeItems_cons_of]
      cases text? item' <;> simp [takeItems]
  | item :: item' :: item'' :: items =>
    rw [places, firstPlace, secondPlace, takeItems_cons_of]
    constructor
    · intro h
      obtain ⟨x, -, h⟩ := Option.bind_eq_some_iff.mp h
      rw [takeItems_cons_of] at h
      obtain ⟨y, -, h⟩ := Option.bind_eq_some_iff.mp h
      cases h
    · intro h
      cases h

/-- The values that come to a body are those that are written as it. -/
theorem value?_eq_some_iff (hne : first ≠ second) {value : Json} {body : β} :
    (shape first second make).value? (places first second) value = some body ↔
      Written first second make value body := by
  constructor
  · intro h
    cases value with
    | null => cases h
    | boolean value => cases h
    | number lexeme => cases h
    | string text => cases h
    | object members =>
      obtain ⟨pair, hpair, hfinish⟩ := Option.bind_eq_some_iff.mp h
      obtain ⟨x, y, rfl, rfl⟩ := finish_eq_some_iff.mp hfinish
      obtain ⟨hfirst, hsecond⟩ := (takeMembers_places hne).mp hpair
      obtain ⟨value, hfirst, hx⟩ := fill_eq_some_some_iff.mp hfirst
      obtain ⟨value', hsecond, hy⟩ := fill_eq_some_some_iff.mp hsecond
      rw [text?_eq_some_iff] at hx hy
      subst hx hy
      exact .object hfirst hsecond
    | array items =>
      obtain ⟨pair, hpair, hfinish⟩ := Option.bind_eq_some_iff.mp h
      obtain ⟨x, y, rfl, rfl⟩ := finish_eq_some_iff.mp hfinish
      rw [takeItems_places_eq_some_iff.mp hpair]
      exact .array x y
  · intro h
    cases h with
    | object hfirst hsecond =>
      refine Option.bind_eq_some_iff.mpr ⟨⟨some _, some _⟩, (takeMembers_places hne).mpr ⟨?_, ?_⟩,
        finish_eq_some_iff.mpr ⟨_, _, rfl, rfl⟩⟩
      · exact fill_eq_some_some_iff.mpr ⟨_, hfirst, text?_eq_some_iff.mpr rfl⟩
      · exact fill_eq_some_some_iff.mpr ⟨_, hsecond, text?_eq_some_iff.mpr rfl⟩
    | array x y =>
      have hpair : takeItems (places first second) empty [.ofText x, .ofText y] =
          some ⟨some x, some y⟩ := takeItems_places_eq_some_iff.mpr rfl
      exact Option.bind_eq_some_iff.mpr ⟨_, hpair, finish_eq_some_iff.mpr ⟨x, y, rfl, rfl⟩⟩

theorem judges_shape (first second : String) (make : String → String → β) :
    Judges (shape first second make).decoder
      ((shape first second make).value? (places first second)) :=
  Json.judges_decoder rfl

theorem Alike.written_iff {value value' : Json} (h : Alike first second value value')
    {body : β} : Written first second make value body ↔ Written first second make value' body := by
  cases h with
  | same => exact Iff.rfl
  | @object members members' h =>
    have hfirst {value : Json} : named first members = [value] ↔ named first members' = [value] :=
      h.named_eq_singleton_iff List.mem_cons_self
    have hsecond {value : Json} :
        named second members = [value] ↔ named second members' = [value] :=
      h.named_eq_singleton_iff (List.mem_cons_of_mem _ List.mem_cons_self)
    constructor
    · rintro ⟨hx, hy⟩
      exact .object (hfirst.mp hx) (hsecond.mp hy)
    · rintro ⟨hx, hy⟩
      exact .object (hfirst.mpr hx) (hsecond.mpr hy)

theorem not_written_of_miscounted {value : Json} (h : Json.Miscounted [first, second] value)
    (body : β) : ¬ Written first second make value body := by
  rintro hwritten
  cases h with
  | @object members name hname hcount =>
    refine hcount ?_
    cases hwritten with
    | object hx hy =>
      rcases List.mem_pair.mp hname with rfl | rfl
      · rw [hx]
        rfl
      · rw [hy]
        rfl

end TextPair

/-- The law of OAuth errors. -/
def OAuthError.law : Law OAuthError :=
  TextPair.law Wire.errorName Wire.descriptionName OAuthError.mk

/-- The law of entries. -/
def ErrorEntry.law : Law ErrorEntry :=
  TextPair.law Wire.codeName Wire.messageName ErrorEntry.mk

/-! ## Envelopes -/

namespace Envelope

/-- An envelope is written as an object with exactly one member for the entries, or as an array of
them alone; each entry is written by its own law. -/
inductive Written : Json → Envelope → Prop
  | object {members : List (List Char × Json)} {items : List Json} {entries : List ErrorEntry} :
    named Wire.errorsName members = [.array items] →
      List.Forall₂ ErrorEntry.law.Written items entries → Written (.object members) ⟨entries⟩
  | array {items : List Json} {entries : List ErrorEntry} :
    List.Forall₂ ErrorEntry.law.Written items entries → Written (.array [.array items]) ⟨entries⟩

/-- Envelopes are alike if they differ in the order of members and in members with other names,
also inside their entries. -/
inductive Alike : Json → Json → Prop
  | same (value : Json) : Alike value value
  | object {members members' : List (List Char × Json)} :
    Rearranged [Wire.errorsName] members members' → Alike (.object members) (.object members')
  | entries (before : List (List Char × Json)) {items items' : List Json}
    (after : List (List Char × Json)) : List.Forall₂ ErrorEntry.law.Alike items items' →
      Alike (.object (before ++ (Wire.errorsName.toList, .array items) :: after))
        (.object (before ++ (Wire.errorsName.toList, .array items') :: after))
  | array {items items' : List Json} : List.Forall₂ ErrorEntry.law.Alike items items' →
    Alike (.array [.array items]) (.array [.array items'])
  | trans {first second third : Json} : Alike first second → Alike second third → Alike first third

/-- A member is missing or repeated, in the envelope itself or in one of its entries. -/
inductive Miscounted : Json → Prop
  | itself {value : Json} : Json.Miscounted [Wire.errorsName] value → Miscounted value
  | entry {members : List (List Char × Json)} {items : List Json} {item : Json} :
    (Wire.errorsName.toList, .array items) ∈ members → item ∈ items →
      ErrorEntry.law.Miscounted item → Miscounted (.object members)
  | arrayEntry {items : List Json} {item : Json} : item ∈ items →
    ErrorEntry.law.Miscounted item → Miscounted (.array [.array items])

/-- The law of envelopes. -/
def law : Law Envelope where
  Written := Written
  Alike := Alike
  Miscounted := Miscounted

/-- What an entry is. -/
def entry? : Json → Option ErrorEntry :=
  ErrorEntry.shape.value? (TextPair.places Wire.codeName Wire.messageName)

theorem entry?_eq_some_iff {value : Json} {entry : ErrorEntry} :
    entry? value = some entry ↔ ErrorEntry.law.Written value entry :=
  TextPair.value?_eq_some_iff (by decide)

theorem judges_entries : Judges (Decoder.list ErrorEntry.shape.decoder) (items? entry?) :=
  judges_list (TextPair.judges_shape _ _ _)

theorem entries?_eq_some_iff {value : Json} {entries : List ErrorEntry} :
    items? entry? value = some entries ↔
      ∃ items, value = .array items ∧ List.Forall₂ ErrorEntry.law.Written items entries := by
  simp only [items?_eq_some_iff, entry?_eq_some_iff]

/-- The one place of an envelope. -/
def places : List (Place (Option (List ErrorEntry))) :=
  [.of Wire.errorsName id (fun _ entries => some entries) judges_entries]

theorem takeItems_places_eq_some_iff {items : List Json} {entries : List ErrorEntry} :
    takeItems places none items = some (some entries) ↔
      ∃ value, items = [value] ∧ items? entry? value = some entries := by
  match items with
  | [] => exact ⟨nofun, nofun⟩
  | [item] =>
    rw [places, takeItems_cons_of]
    cases hitem : items? entry? item <;> simp [takeItems, hitem]
  | item :: item' :: items =>
    rw [places, takeItems_cons_of]
    constructor
    · intro h
      obtain ⟨entries, -, h⟩ := Option.bind_eq_some_iff.mp h
      cases h
    · rintro ⟨value, h, -⟩
      cases h

theorem value?_eq_some_iff {value : Json} {envelope : Envelope} :
    shape.value? places value = some envelope ↔ Written value envelope := by
  constructor
  · intro h
    cases value with
    | null => cases h
    | boolean value => cases h
    | number lexeme => cases h
    | string text => cases h
    | object members =>
      obtain ⟨held, hheld, hfinish⟩ := Option.bind_eq_some_iff.mp h
      obtain ⟨entries, rfl, rfl⟩ := Option.map_eq_some_iff.mp hfinish
      obtain ⟨value, hnamed, hvalue⟩ := fill_eq_some_some_iff.mp ((takeMembers_one _ _).mp hheld)
      obtain ⟨items, rfl, hitems⟩ := entries?_eq_some_iff.mp hvalue
      exact .object hnamed hitems
    | array items =>
      obtain ⟨held, hheld, hfinish⟩ := Option.bind_eq_some_iff.mp h
      obtain ⟨entries, rfl, rfl⟩ := Option.map_eq_some_iff.mp hfinish
      obtain ⟨value, rfl, hvalue⟩ := takeItems_places_eq_some_iff.mp hheld
      obtain ⟨items, rfl, hitems⟩ := entries?_eq_some_iff.mp hvalue
      exact .array hitems
  · intro h
    cases h with
    | object hnamed hitems =>
      have hheld := (takeMembers_one judges_entries Wire.errorsName).mpr
        (fill_eq_some_some_iff.mpr ⟨_, hnamed, entries?_eq_some_iff.mpr ⟨_, rfl, hitems⟩⟩)
      exact Option.bind_eq_some_iff.mpr ⟨_, hheld, rfl⟩
    | array hitems =>
      have hheld := takeItems_places_eq_some_iff.mpr
        ⟨_, rfl, entries?_eq_some_iff.mpr ⟨_, rfl, hitems⟩⟩
      exact Option.bind_eq_some_iff.mpr ⟨_, hheld, rfl⟩

/-- Entries that are alike one by one are written alike. -/
theorem forall₂_written_iff {items items' : List Json}
    (h : List.Forall₂ ErrorEntry.law.Alike items items') {entries : List ErrorEntry} :
    List.Forall₂ ErrorEntry.law.Written items entries ↔
      List.Forall₂ ErrorEntry.law.Written items' entries := by
  induction h generalizing entries with
  | nil => exact Iff.rfl
  | cons hitem _ ih =>
    cases entries with
    | nil => exact ⟨nofun, nofun⟩
    | cons entry entries =>
      rw [List.forall₂_cons, List.forall₂_cons, ih]
      exact and_congr_left' (TextPair.Alike.written_iff hitem)

theorem written_object_iff {members : List (List Char × Json)} {envelope : Envelope} :
    Written (.object members) envelope ↔ ∃ items, named Wire.errorsName members = [.array items] ∧
      List.Forall₂ ErrorEntry.law.Written items envelope.errors := by
  constructor
  · rintro (⟨hnamed, hitems⟩ | _)
    exact ⟨_, hnamed, hitems⟩
  · rintro ⟨items, hnamed, hitems⟩
    exact .object hnamed hitems

theorem written_array_iff {items : List Json} {envelope : Envelope} :
    Written (.array [.array items]) envelope ↔
      List.Forall₂ ErrorEntry.law.Written items envelope.errors :=
  ⟨fun h => by cases h with | array hitems => exact hitems, fun h => .array h⟩

/-- Where a member for the entries is seen to stand, it is the one that counts, or there is none
that does. -/
theorem named_around_iff {before after : List (List Char × Json)} {items content : List Json} :
    named Wire.errorsName (before ++ (Wire.errorsName.toList, .array items) :: after) =
        [.array content] ↔
      named Wire.errorsName before = [] ∧ named Wire.errorsName after = [] ∧ items = content := by
  rw [named_append, named, if_pos rfl]
  cases named Wire.errorsName before <;> simp [and_comm]

theorem Alike.written_iff {value value' : Json} (h : Alike value value') {envelope : Envelope} :
    Written value envelope ↔ Written value' envelope := by
  induction h with
  | same => exact Iff.rfl
  | object h =>
    simp only [written_object_iff, h.named_eq_singleton_iff List.mem_cons_self]
  | entries before after h =>
    -- a second member for the entries rules out both values, so the changed one is the only one
    simp only [written_object_iff, named_around_iff]
    constructor
    · rintro ⟨content, ⟨hbefore, hafter, rfl⟩, hitems⟩
      exact ⟨_, ⟨hbefore, hafter, rfl⟩, (forall₂_written_iff h).mp hitems⟩
    · rintro ⟨content, ⟨hbefore, hafter, rfl⟩, hitems⟩
      exact ⟨_, ⟨hbefore, hafter, rfl⟩, (forall₂_written_iff h).mpr hitems⟩
  | array h => rw [written_array_iff, written_array_iff, forall₂_written_iff h]
  | trans _ _ ih ih' => exact ih.trans ih'

theorem not_forall₂_written {items : List Json} {item : Json} (hitem : item ∈ items)
    (h : ErrorEntry.law.Miscounted item) (entries : List ErrorEntry) :
    ¬ List.Forall₂ ErrorEntry.law.Written items entries := by
  intro hitems
  induction hitems with
  | nil => cases hitem
  | cons hwritten _ ih =>
    rcases List.mem_cons.mp hitem with rfl | hitem
    · exact TextPair.not_written_of_miscounted h _ hwritten
    · exact ih hitem

theorem not_written_of_miscounted {value : Json} (h : Miscounted value) (envelope : Envelope) :
    ¬ Written value envelope := by
  intro hwritten
  cases h with
  | itself h =>
    cases h with
    | @object members name hname hcount =>
      obtain ⟨items, hnamed, -⟩ := written_object_iff.mp hwritten
      obtain rfl := List.mem_singleton.mp hname
      exact hcount (by rw [hnamed]; rfl)
  | entry hmember hitem h =>
    obtain ⟨items, hnamed, hitems⟩ := written_object_iff.mp hwritten
    have hmem := mem_named hmember
    rw [hnamed, List.mem_singleton, Json.array.injEq] at hmem
    subst hmem
    exact not_forall₂_written hitem h _ hitems
  | arrayEntry hitem h => exact not_forall₂_written hitem h _ (written_array_iff.mp hwritten)

theorem judges_shape : Judges shape.decoder (shape.value? places) := Json.judges_decoder rfl

end Envelope

/-! ## Texts -/

/-- What is judged by its value is read by the law that says what such values are. -/
theorem Law.decides_of_judges {law : Law β} {decode : Decoder β} {value? : Json → Option β}
    (hjudges : Judges decode value?)
    (hwritten : ∀ {value body}, value? value = some body ↔ law.Written value body)
    (halike : ∀ {value value'}, law.Alike value value' →
      ∀ {body}, law.Written value body ↔ law.Written value' body)
    (hmiscounted : ∀ {value}, law.Miscounted value → ∀ body, ¬ law.Written value body) :
    law.Decides fun text => Json.read decode (text.toList.map some) := by
  have hread {value : Json} {text : String} (h : value.WrittenIn text) :
      (Json.read decode (text.toList.map some)).toOption = value? value := by
    rw [Json.read, h, hjudges.decodeAll]
  refine ⟨fun h body => ?_, fun h h' hsame => ?_, fun h hcount => ?_⟩
  · rw [← toOption_eq_some_iff, hread h, hwritten]
  · rw [hread h, hread h']
    exact Option.ext fun body => by rw [hwritten, hwritten, halike hsame]
  · rw [← toOption_eq_none_iff, hread h]
    exact Option.eq_none_iff_forall_ne_some.mpr fun body hvalue =>
      hmiscounted hcount body (hwritten.mp hvalue)

theorem TextPair.law_decides {first second : String} (hne : first ≠ second)
    (make : String → String → β) :
    (TextPair.law first second make).Decides fun text =>
      Json.read (TextPair.shape first second make).decoder (text.toList.map some) :=
  Law.decides_of_judges (judges_shape first second make) (value?_eq_some_iff hne)
    Alike.written_iff not_written_of_miscounted

theorem Envelope.law_decides : Envelope.law.Decides Envelope.read :=
  Law.decides_of_judges judges_shape value?_eq_some_iff Alike.written_iff not_written_of_miscounted

/-- Every text is read as a body by the law of the value that it writes: as an OAuth error, as an
entry of an envelope, and as an envelope.  Every value whose numbers are numbers of the format is
written in some text. -/
theorem bodies_by_law :
    OAuthError.law.Decides OAuthError.read ∧
    (ErrorEntry.law.Decides fun text =>
      Json.read ErrorEntry.shape.decoder (text.toList.map some)) ∧
    Envelope.law.Decides Envelope.read ∧
    ∀ value : Json, value.WellFormed → value.WrittenIn value.render :=
  ⟨TextPair.law_decides (by decide) _, TextPair.law_decides (by decide) _, Envelope.law_decides,
    fun _ h => h.tokensOf_render⟩

/-- Members of other names stand between those of an error; in an entry one is repeated. -/
theorem bodies_by_law_scattered :
    OAuthError.read ("\x7b\"of\": [1, \x7b\"error\": null\x7d], " ++
      "\"error_description\": \"b\", \"error\": \"\\u0061\", \"of\": -0.5e+3\x7d") =
        .ok ⟨"a", "b"⟩ ∧
    ∃ fault, Envelope.read
      "[[[\"a\", \"b\"], \x7b\"errorCode\":\"a\",\"errorMessage\":\"b\",\"errorCode\":\"a\"\x7d]]" =
        .error fault := by
  let inner : Json := .array [.number ['1'], .object [("error".toList, .null)]]
  let scattered : Json := .object [("of".toList, inner), ("error_description".toList, .ofText "b"),
    ("error".toList, .ofText "a"), ("of".toList, .number "-0.5e+3".toList)]
  let repeated := [("errorCode".toList, Json.ofText "a"), ("errorMessage".toList, .ofText "b"),
    ("errorCode".toList, .ofText "a")]
  let listed : Json := .array [.array [.array [.ofText "a", .ofText "b"], .object repeated]]
  have hscattered : scattered.WrittenIn ("\x7b\"of\": [1, \x7b\"error\": null\x7d], " ++
      "\"error_description\": \"b\", \"error\": \"\\u0061\", \"of\": -0.5e+3\x7d") := by
    show _ = _
    decide +kernel
  have hlisted : listed.WrittenIn
      "[[[\"a\", \"b\"], \x7b\"errorCode\":\"a\",\"errorMessage\":\"b\",\"errorCode\":\"a\"\x7d]]" := by
    show _ = _
    decide +kernel
  have hrepeated : (named Wire.codeName repeated).length ≠ 1 := by decide
  have hentry : Json.object repeated ∈ [Json.array [.ofText "a", .ofText "b"], .object repeated] :=
    List.mem_cons_of_mem _ List.mem_cons_self
  exact ⟨(bodies_by_law.1.accepts hscattered _).mpr (.object rfl rfl),
    bodies_by_law.2.2.1.refuses hlisted (.arrayEntry hentry (.object List.mem_cons_self hrepeated))⟩

end IdentityProvider
