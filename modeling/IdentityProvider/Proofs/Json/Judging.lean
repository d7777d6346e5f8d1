import IdentityProvider.Json.Decoder

/-
  What decoders make of whole values.

  `Judges decode value?` says that a decoder, met with the tokens of any value, answers what
  `value?` says of it and takes exactly these tokens, or fails where that says nothing.  It is
  carried from the parts to the whole: to arrays of one kind (`judges_list`) and to structured
  values (`judges_decoder`), of which every place is a member with what it takes from a value.  A
  member for which there is no place is passed over whatever its value is (`skip_tokens`).
-/

namespace IdentityProvider.Json

/-- What holds of a value if it holds of its items and of the values of its members holds of every
value. -/
theorem induction {P : Json → Prop} (null : P .null) (boolean : ∀ value, P (.boolean value))
    (number : ∀ lexeme, P (.number lexeme)) (string : ∀ text, P (.string text))
    (array : ∀ items, (∀ item ∈ items, P item) → P (.array items))
    (object : ∀ members, (∀ member ∈ members, P member.2) → P (.object members)) :
    ∀ value, P value
  | .null => null
  | .boolean value => boolean value
  | .number lexeme => number lexeme
  | .string text => string text
  | .array items => array items fun item _ => induction null boolean number string array object item
  | .object members => object members fun member _ =>
    induction null boolean number string array object member.2
termination_by value => sizeOf value
decreasing_by
  · have := List.sizeOf_lt_of_mem ‹item ∈ items›
    simp only [Json.array.sizeOf_spec]
    omega
  · have := List.sizeOf_lt_of_mem ‹member ∈ members›
    have : sizeOf member = 1 + sizeOf member.1 + sizeOf member.2 := rfl
    simp only [Json.object.sizeOf_spec]
    omega

/-! ## Values that are passed over -/

namespace Skip

/-- The tokens behind a value, if these arrays and objects are open around it. -/
def after? : List Frame → List Token → Option (List Token)
  | [], tokens => some tokens
  | frame :: frames, tokens => rest? (frame :: frames) .separator tokens

/-- A value that is passed over leaves what stands behind it. -/
def Passes (value : Json) : Prop :=
  ∀ frames expected rest, expected = .value ∨ expected = .firstItem →
    rest? frames expected (value.tokens ++ rest) = after? frames rest

theorem rest?_itemsTokens {items : List Json} (h : ∀ item ∈ items, Passes item)
    (frames : List Frame) (rest : List Token) :
    rest? (.array :: frames) .separator (itemsTokens items ++ rest) = after? frames rest := by
  induction items with
  | nil => cases frames <;> rfl
  | cons item items ih =>
    rw [List.forall_mem_cons] at h
    rw [itemsTokens, List.cons_append, List.append_assoc]
    show rest? (.array :: frames) .value (item.tokens ++ (itemsTokens items ++ rest)) = _
    rw [h.1 _ _ _ (.inl rfl)]
    exact ih h.2

theorem rest?_membersTokens {members : List (List Char × Json)}
    (h : ∀ member ∈ members, Passes member.2) (frames : List Frame) (rest : List Token) :
    rest? (.object :: frames) .separator (membersTokens members ++ rest) =
      after? frames rest := by
  induction members with
  | nil => cases frames <;> rfl
  | cons member members ih =>
    rw [List.forall_mem_cons] at h
    rw [membersTokens, List.cons_append, List.cons_append, List.cons_append, List.append_assoc]
    show rest? (.object :: frames) .value (member.2.tokens ++ (membersTokens members ++ rest)) = _
    rw [h.1 _ _ _ (.inl rfl)]
    exact ih h.2

theorem passes (value : Json) : Passes value := by
  -- a value with parts is opened by its first one; what follows it is read with this part open
  induction value using Json.induction with
  | null =>
    intro frames expected rest h
    rcases h with rfl | rfl <;> cases frames <;> rfl
  | boolean value =>
    intro frames expected rest h
    rcases h with rfl | rfl <;> cases frames <;> rfl
  | number lexeme =>
    intro frames expected rest h
    rcases h with rfl | rfl <;> cases frames <;> rfl
  | string text =>
    intro frames expected rest h
    rcases h with rfl | rfl <;> cases frames <;> rfl
  | array items ih =>
    intro frames expected rest h
    cases items with
    | nil => rcases h with rfl | rfl <;> cases frames <;> rfl
    | cons item items =>
      rw [List.forall_mem_cons] at ih
      have hopen : rest? frames expected ((Json.array (item :: items)).tokens ++ rest) =
          rest? (.array :: frames) .firstItem (item.tokens ++ (itemsTokens items ++ rest)) := by
        rw [tokens, List.cons_append, List.append_assoc]
        rcases h with rfl | rfl <;> rfl
      rw [hopen, ih.1 _ _ _ (.inr rfl)]
      exact rest?_itemsTokens ih.2 frames rest
  | object members ih =>
    intro frames expected rest h
    cases members with
    | nil => rcases h with rfl | rfl <;> cases frames <;> rfl
    | cons member members =>
      rw [List.forall_mem_cons] at ih
      have hopen : rest? frames expected ((Json.object (member :: members)).tokens ++ rest) =
          rest? (.object :: frames) .value
            (member.2.tokens ++ (membersTokens members ++ rest)) := by
        rw [tokens, List.cons_append, List.cons_append, List.cons_append, List.append_assoc]
        rcases h with rfl | rfl <;> rfl
      rw [hopen, ih.1 _ _ _ (.inl rfl)]
      exact rest?_membersTokens ih.2 frames rest

end Skip

theorem skip_tokens (value : Json) (rest : List Token) :
    skip (value.tokens ++ rest) = .ok rest := by
  have hpasses : Skip.rest? [] .value (value.tokens ++ rest) = some rest :=
    Skip.passes value [] .value rest (.inl rfl)
  unfold skip
  rw [hpasses]

/-! ## Where parts start -/

/-- No value starts with the end of an array. -/
theorem exists_tokens_eq_cons (value : Json) :
    ∃ token tokens, value.tokens = token :: tokens ∧ token ≠ .closeBracket := by
  cases value with
  | null => exact ⟨_, _, rfl, by decide⟩
  | boolean value => exact ⟨_, _, rfl, by simp⟩
  | number lexeme => exact ⟨_, _, rfl, by simp⟩
  | string text => exact ⟨_, _, rfl, by simp⟩
  | array items =>
    cases items with
    | nil => exact ⟨_, _, rfl, by decide⟩
    | cons item items => exact ⟨_, _, rfl, by decide⟩
  | object members =>
    cases members with
    | nil => exact ⟨_, _, rfl, by decide⟩
    | cons member members => exact ⟨_, _, rfl, by decide⟩

theorem next_first (value : Json) (rest : List Token) :
    next .closeBracket true (value.tokens ++ rest) = .ok (.more (value.tokens ++ rest)) := by
  obtain ⟨token, tokens, heq, hne⟩ := exists_tokens_eq_cons value
  rw [heq, List.cons_append, next, if_neg hne, if_pos rfl]

theorem next_later (value : Json) (rest : List Token) :
    next .closeBracket false (.comma :: (value.tokens ++ rest)) =
      .ok (.more (value.tokens ++ rest)) := by
  obtain ⟨token, tokens, heq, hne⟩ := exists_tokens_eq_cons value
  have hhead : (token :: (tokens ++ rest)).head? ≠ some .closeBracket := by simpa using hne
  rw [heq, List.cons_append, next, if_neg (by decide), if_neg (by decide), if_pos ⟨rfl, hhead⟩]

theorem length_lt_itemsTokens (items : List Json) : items.length < (itemsTokens items).length := by
  induction items with
  | nil => decide
  | cons item items ih =>
    rw [itemsTokens, List.length_cons, List.length_cons, List.length_append]
    omega

theorem length_lt_membersTokens (members : List (List Char × Json)) :
    members.length < (membersTokens members).length := by
  induction members with
  | nil => decide
  | cons member members ih =>
    rw [membersTokens, List.length_cons, List.length_cons, List.length_cons, List.length_cons,
      List.length_append]
    omega

/-! ## Decoders -/

/-- Met with the tokens of a value, the decoder answers what `value?` says of it and takes exactly
these tokens; it fails where that says nothing. -/
def Judges (decode : Decoder α) (value? : Json → Option α) : Prop :=
  ∀ value rest, (decode (value.tokens ++ rest)).toOption = (value? value).map (·, rest)

theorem toOption_eq_some_iff {result : Except Fault α} {x : α} :
    result.toOption = some x ↔ result = .ok x := by
  cases result with
  | ok y => exact ⟨fun h => congrArg Except.ok (Option.some.inj h), fun h => by rw [h]; rfl⟩
  | error fault => exact ⟨nofun, nofun⟩

theorem toOption_eq_none_iff {result : Except Fault α} :
    result.toOption = none ↔ ∃ fault, result = .error fault := by
  cases result with
  | ok y => exact ⟨nofun, nofun⟩
  | error fault => exact ⟨fun _ => ⟨fault, rfl⟩, fun _ => rfl⟩

section

variable {decode : Decoder α} {value? : Json → Option α} (h : Judges decode value?)
include h

theorem Judges.eq_ok {value : Json} {x : α} (hvalue : value? value = some x)
    (rest : List Token) : decode (value.tokens ++ rest) = .ok (x, rest) :=
  toOption_eq_some_iff.mp (by rw [h value rest, hvalue, Option.map_some])

theorem Judges.eq_error {value : Json} (hvalue : value? value = none) (rest : List Token) :
    ∃ fault, decode (value.tokens ++ rest) = .error fault :=
  toOption_eq_none_iff.mp (by rw [h value rest, hvalue, Option.map_none])

/-- A text with these tokens and nothing else reads as the value does. -/
theorem Judges.decodeAll (value : Json) :
    (decodeAll decode value.tokens).toOption = value? value := by
  unfold Json.decodeAll
  cases hvalue : value? value with
  | some x =>
    have hok := h.eq_ok hvalue []
    rw [List.append_nil] at hok
    rw [hok]
    rfl
  | none =>
    obtain ⟨fault, herror⟩ := h.eq_error hvalue []
    rw [List.append_nil] at herror
    rw [herror]
    rfl

end

/-! ## Texts and arrays -/

/-- The text that a value is. -/
def text? : Json → Option String
  | .string text => some (String.ofList text)
  | _ => none

theorem text?_eq_some_iff {value : Json} {x : String} : text? value = some x ↔ value = .ofText x := by
  cases value with
  | string text =>
    rw [text?, ofText, Option.some.injEq, Json.string.injEq]
    constructor
    · rintro rfl
      rw [String.toList_ofList]
    · rintro rfl
      rw [String.ofList_toList]
  | _ => exact ⟨nofun, nofun⟩

/-- The items of an array, if each of them is of one kind. -/
def items? (value? : Json → Option α) : Json → Option (List α)
  | .array items => items.mapM value?
  | _ => none

theorem judges_text : Judges Decoder.text text? := by
  intro value rest
  cases value with
  | string text => rfl
  | null => rfl
  | boolean value => rfl
  | number lexeme => rfl
  | array items => cases items <;> rfl
  | object members => cases members <;> rfl

section

variable {decode : Decoder α} {value? : Json → Option α} (h : Judges decode value?)
include h

/-- One more item: it is kept, and the others follow. -/
theorem itemsFrom_cons_judged {front behind rest : List Token} {isFirst : Bool} {item : Json}
    {items : List Json} {clock : List Token}
    (hfront : next .closeBracket isFirst front = .ok (.more (item.tokens ++ behind)))
    (hbehind : ∀ seen, (itemsFrom decode clock false seen behind).toOption =
      (items.mapM value?).map fun xs => (seen.reverse ++ xs, rest)) (tick : Token)
    (seen : List α) :
    (itemsFrom decode (tick :: clock) isFirst seen front).toOption =
      ((item :: items).mapM value?).map fun xs => (seen.reverse ++ xs, rest) := by
  rw [itemsFrom, hfront, List.mapM_cons]
  dsimp only
  cases hitem : value? item with
  | none =>
    obtain ⟨fault, herror⟩ := h.eq_error hitem behind
    rw [herror]
    rfl
  | some x =>
    rw [h.eq_ok hitem]
    dsimp only
    rw [hbehind]
    cases items.mapM value? with
    | none => rfl
    | some xs =>
      show some ((x :: seen).reverse ++ xs, rest) = some (seen.reverse ++ x :: xs, rest)
      rw [List.reverse_cons, List.append_assoc]
      rfl

theorem itemsFrom_judged {items : List Json} {clock : List Token}
    (hclock : items.length < clock.length) (seen : List α) (rest : List Token) :
    (itemsFrom decode clock false seen (itemsTokens items ++ rest)).toOption =
      (items.mapM value?).map fun xs => (seen.reverse ++ xs, rest) := by
  -- the clock loses one with each item, so it does not run out before the array ends
  induction items generalizing clock seen with
  | nil =>
    cases clock with
    | nil => exact absurd hclock (Nat.lt_irrefl 0)
    | cons tick clock =>
      show some (seen.reverse, rest) = some (seen.reverse ++ [], rest)
      rw [List.append_nil]
  | cons item items ih =>
    cases clock with
    | nil => exact absurd hclock (Nat.not_lt_zero _)
    | cons tick clock =>
      refine itemsFrom_cons_judged h ?_ (ih (Nat.lt_of_succ_lt_succ hclock)) tick seen
      rw [itemsTokens, List.cons_append, List.append_assoc, next_later]

theorem judges_list : Judges (Decoder.list decode) (items? value?) := by
  intro value rest
  cases value with
  | string text => rfl
  | null => rfl
  | boolean value => rfl
  | number lexeme => rfl
  | object members => cases members <;> rfl
  | array items =>
    cases items with
    | nil => rfl
    | cons item items =>
      have hlength := length_lt_itemsTokens items
      show _ = ((item :: items).mapM value?).map (·, rest)
      rw [tokens, List.cons_append, List.append_assoc, Decoder.list]
      refine itemsFrom_cons_judged h (next_first item _) (fun seen => ?_) _ []
      refine itemsFrom_judged h ?_ seen rest
      simp only [List.length_append]
      omega

end

/-! ## Structured values -/

/-- A field with what it takes from a value into a record. -/
structure Place (σ : Type) where
  field : Field σ
  take : σ → Json → Option σ
  judges : ∀ record, Judges (field.read record) (take record)
  required : field.isOptional = false

/-- The place of a member that is read by one decoder. -/
def Place.of (name : String) (get : σ → Option α) (set : σ → α → σ) {decode : Decoder α}
    {value? : Json → Option α} (h : Judges decode value?) : Place σ where
  field := .ofPlace name get set decode
  take record value := (value? value).map (set record)
  judges record value rest := by
    show ((decode (value.tokens ++ rest)).map _).toOption =
      ((value? value).map (set record)).map (·, rest)
    cases hvalue : value? value with
    | some x =>
      rw [h.eq_ok hvalue]
      rfl
    | none =>
      obtain ⟨fault, herror⟩ := h.eq_error hvalue rest
      rw [herror]
      rfl
  required := rfl

section

variable (places : List (Place σ))

/-- What the members of an object make of a record. -/
def takeMembers : σ → List (List Char × Json) → Option σ
  | record, [] => some record
  | record, (name, value) :: members =>
    match places.find? (·.field.name = name) with
    | none => takeMembers record members
    | some place =>
      if place.field.isSet record then none
      else (place.take record value).bind (takeMembers · members)

end

/-- What the items of an array make of a record. -/
def takeItems : List (Place σ) → σ → List Json → Option σ
  | [], record, [] => some record
  | place :: places, record, item :: items =>
    (place.take record item).bind (takeItems places · items)
  | _, _, _ => none

/-- What a structured value with these places is. -/
def Shape.value? (shape : Shape σ β) (places : List (Place σ)) : Json → Option β
  | .object members => (takeMembers places shape.empty members).bind shape.finish
  | .array items => (takeItems places shape.empty items).bind shape.finish
  | _ => none

section

variable {places : List (Place σ)}

theorem find?_places (name : List Char) : (places.map Place.field).find? (·.name = name) =
    (places.find? (·.field.name = name)).map Place.field := by
  rw [List.find?_map]
  rfl

/-- One more member: it is passed over or taken into the record, and the others follow. -/
theorem membersFrom_cons_judged {front behind rest : List Token} {isFirst : Bool}
    {name : List Char} {value : Json} {members : List (List Char × Json)} {clock : List Token}
    (hfront : next .closeBrace isFirst front =
      .ok (.more (.string (some name) :: .colon :: (value.tokens ++ behind))))
    (hbehind : ∀ record,
      (Shape.membersFrom (places.map Place.field) clock false record behind).toOption =
        (takeMembers places record members).map (·, rest)) (tick : Token) (record : σ) :
    (Shape.membersFrom (places.map Place.field) (tick :: clock) isFirst record front).toOption =
      (takeMembers places record ((name, value) :: members)).map (·, rest) := by
  rw [Shape.membersFrom, hfront, takeMembers]
  dsimp only
  rw [find?_places]
  cases places.find? (·.field.name = name) with
  | none =>
    dsimp only [Option.map_none]
    rw [skip_tokens]
    exact hbehind record
  | some place =>
    dsimp only [Option.map_some]
    cases place.field.isSet record with
    | true => rfl
    | false =>
      rw [if_neg Bool.false_ne_true, if_neg Bool.false_ne_true]
      cases hvalue : place.take record value with
      | none =>
        obtain ⟨fault, herror⟩ := (place.judges record).eq_error hvalue behind
        rw [herror]
        rfl
      | some next =>
        rw [(place.judges record).eq_ok hvalue]
        exact hbehind next

theorem membersFrom_judged {members : List (List Char × Json)} {clock : List Token}
    (hclock : members.length < clock.length) (record : σ) (rest : List Token) :
    (Shape.membersFrom (places.map Place.field) clock false record
      (membersTokens members ++ rest)).toOption =
      (takeMembers places record members).map (·, rest) := by
  induction members generalizing clock record with
  | nil =>
    cases clock with
    | nil => exact absurd hclock (Nat.lt_irrefl 0)
    | cons tick clock => rfl
  | cons member members ih =>
    cases clock with
    | nil => exact absurd hclock (Nat.not_lt_zero _)
    | cons tick clock =>
      refine membersFrom_cons_judged ?_ (ih (Nat.lt_of_succ_lt_succ hclock)) tick record
      rw [membersTokens, List.cons_append, List.cons_append, List.cons_append, List.append_assoc]
      rfl

/-- One more item: it is taken into the record at its place, and the others follow. -/
theorem placesFrom_cons_judged {place : Place σ} {front behind rest : List Token} {isFirst : Bool}
    {item : Json} {items : List Json}
    (hfront : next .closeBracket isFirst front = .ok (.more (item.tokens ++ behind)))
    (hbehind : ∀ record,
      (Shape.placesFrom (places.map Place.field) false record behind).toOption =
        (takeItems places record items).map (·, rest)) (record : σ) :
    (Shape.placesFrom ((place :: places).map Place.field) isFirst record front).toOption =
      (takeItems (place :: places) record (item :: items)).map (·, rest) := by
  rw [List.map_cons, Shape.placesFrom, hfront, takeItems]
  dsimp only
  cases hitem : place.take record item with
  | none =>
    obtain ⟨fault, herror⟩ := (place.judges record).eq_error hitem behind
    rw [herror]
    rfl
  | some next =>
    rw [(place.judges record).eq_ok hitem]
    exact hbehind next

/-- Where an array ends early a member is missing. -/
theorem placesFrom_early (place : Place σ) (isFirst : Bool) (record : σ) (rest : List Token) :
    Shape.placesFrom ((place :: places).map Place.field) isFirst record (.closeBracket :: rest) =
      .error .unfit := by
  show (if place.field.isOptional then _ else _) = _
  rw [place.required]
  rfl

theorem placesFrom_judged {items : List Json} (record : σ) (rest : List Token) :
    (Shape.placesFrom (places.map Place.field) false record
      (itemsTokens items ++ rest)).toOption =
      (takeItems places record items).map (·, rest) := by
  induction places generalizing items record with
  | nil =>
    cases items with
    | nil => rfl
    | cons item items => rfl
  | cons place places ih =>
    cases items with
    | nil => exact congrArg Except.toOption (placesFrom_early place false record rest)
    | cons item items =>
      refine placesFrom_cons_judged ?_ (fun record => ih record) record
      rw [itemsTokens, List.cons_append, List.append_assoc, next_later]

/-! The front of an object and of an array: no comma stands before the first part. -/

theorem membersFrom_first_judged (members : List (List Char × Json)) (record : σ)
    {front rest : List Token} (hfront : (Json.object members).tokens ++ rest = .openBrace :: front) :
    (Shape.membersFrom (places.map Place.field) (.openBrace :: front) true record front).toOption =
      (takeMembers places record members).map (·, rest) := by
  cases members with
  | nil =>
    obtain rfl : .closeBrace :: rest = front := (List.cons.inj hfront).2
    rfl
  | cons member members =>
    have hlength := length_lt_membersTokens members
    rw [tokens, List.cons_append, List.cons_append, List.cons_append, List.append_assoc] at hfront
    obtain rfl := (List.cons.inj hfront).2
    refine membersFrom_cons_judged rfl (fun record => membersFrom_judged ?_ record rest) _ record
    simp only [List.length_cons, List.length_append]
    omega

theorem placesFrom_first_judged (items : List Json) (record : σ) {front rest : List Token}
    (hfront : (Json.array items).tokens ++ rest = .openBracket :: front) :
    (Shape.placesFrom (places.map Place.field) true record front).toOption =
      (takeItems places record items).map (·, rest) := by
  cases items with
  | nil =>
    obtain rfl : .closeBracket :: rest = front := (List.cons.inj hfront).2
    cases places with
    | nil => rfl
    | cons place places => exact congrArg Except.toOption (placesFrom_early place true record rest)
  | cons item items =>
    rw [tokens, List.cons_append, List.append_assoc] at hfront
    obtain rfl := (List.cons.inj hfront).2
    cases places with
    | nil =>
      obtain ⟨token, tokens, heq, hne⟩ := exists_tokens_eq_cons item
      rw [heq]
      cases token with
      | closeBracket => exact absurd rfl hne
      | _ => rfl
    | cons place places =>
      exact placesFrom_cons_judged (next_first item _)
        (fun record => placesFrom_judged record rest) record

/-- A record is finished after it has been read. -/
theorem toOption_finish {read : Except Fault (σ × List Token)} {record? : Option σ}
    {rest : List Token} (h : read.toOption = record?.map (·, rest)) (finish : σ → Option β) :
    Except.toOption (match read with
      | .error fault => .error fault
      | .ok (record, rest) => match finish record with
        | some value => .ok (value, rest)
        | none => .error .unfit) = (record?.bind finish).map (·, rest) := by
  cases record? with
  | none =>
    obtain ⟨fault, rfl⟩ := toOption_eq_none_iff.mp h
    rfl
  | some record =>
    obtain rfl := toOption_eq_some_iff.mp h
    dsimp only [Option.bind_some]
    cases finish record <;> rfl

/-- A structured value is judged by what its members or items make of the record. -/
theorem judges_decoder {shape : Shape σ β} (hfields : shape.fields = places.map Place.field) :
    Judges shape.decoder (shape.value? places) := by
  intro value rest
  cases value with
  | null => rfl
  | boolean value => rfl
  | number lexeme => rfl
  | string text => rfl
  | array items =>
    refine toOption_finish ?_ shape.finish
    rw [hfields]
    cases items with
    | nil => exact placesFrom_first_judged [] _ rfl
    | cons item items => exact placesFrom_first_judged (item :: items) _ rfl
  | object members =>
    refine toOption_finish ?_ shape.finish
    rw [hfields]
    cases members with
    | nil => exact membersFrom_first_judged [] _ rfl
    | cons member members => exact membersFrom_first_judged (member :: members) _ rfl

end

end IdentityProvider.Json
