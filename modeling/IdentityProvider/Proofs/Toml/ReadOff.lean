import IdentityProvider.Proofs.Toml.Front

/-
  What the readers of values and statements take off the front of a text.

  Each step of a reader is stated once, both ways (`readMember?_eq_some_iff`,
  `statement?_eq_some_iff`); arrays and inline tables are both read as lists (`ReadsList`), which
  differ in what an item is and in how they end.  From the steps it follows that what
  was read with some fuel is read off the same front with all fuel that its length calls for, and
  before everything that begins like the rest (`readOff_all`, `statement?_front`).
-/

namespace IdentityProvider.Toml

/-! ## The steps of the readers -/

/-- The value without quotes or the string at the start of a text. -/
def readPlain? (text : List Char) : Option (Literal × List Char) :=
  if text.head? = some '"' ∨ text.head? = some '\'' then readString? text
  else (bareValue? text).map fun (value, rest) => (.plain value, rest)

theorem readPlain?_front {text rest : List Char} {literal : Literal}
    (h : readPlain? text = some (literal, rest)) : ∃ front, text = front ++ rest ∧ front ≠ [] ∧
      ∀ other, other.take 2 = rest.take 2 →
        readPlain? (front ++ other) = some (literal, other) := by
  unfold readPlain? at h ⊢
  split at h
  · next hquote =>
    obtain ⟨⟨value, tail⟩, hvalue, heq⟩ := Option.map_eq_some_iff.mp h
    cases heq
    obtain ⟨front, rfl, hne, hfront⟩ := quoted?_front hvalue
    refine ⟨front, rfl, hne, fun other hother => ?_⟩
    have hhead := head?_eq_of_take hother
    rw [head?_append_congr hhead, if_pos hquote, readString?, hfront other hhead]
    rfl
  · next hquote =>
    obtain ⟨⟨value, tail⟩, hvalue, heq⟩ := Option.map_eq_some_iff.mp h
    cases heq
    obtain ⟨front, rfl, hne, hfront⟩ := bareValue?_front hvalue
    refine ⟨front, rfl, hne, fun other hother => ?_⟩
    rw [head?_append_congr (head?_eq_of_take hother), if_neg hquote, hfront other hother]
    rfl

theorem readValue?_array (fuel room : Nat) (cs : List Char) :
    readValue? (fuel + 1) (room + 1) ('[' :: cs) =
      (readItems? fuel room cs).map fun (items, rest) => (.array items, rest) := by
  rw [readValue?]
  cases readItems? fuel room cs <;> rfl

theorem readValue?_table (fuel room : Nat) (cs : List Char) :
    readValue? (fuel + 1) (room + 1) ('\x7b' :: cs) =
      (readMembers? fuel room cs).map fun (members, rest) => (.table members, rest) := by
  rw [readValue?]
  cases readMembers? fuel room cs <;> rfl

theorem readValue?_plain (fuel room : Nat) {text : List Char} (harray : text.head? ≠ some '[')
    (htable : text.head? ≠ some '\x7b') : readValue? (fuel + 1) room text = readPlain? text := by
  unfold readValue? readPlain?
  split
  · exact absurd rfl harray
  · exact absurd rfl htable
  · rfl
  · rfl
  · next hbasic hliteral =>
    rw [if_neg]
    rintro (hhead | hhead)
    · obtain ⟨cs, rfl⟩ := List.head?_eq_some_iff.mp hhead
      exact hbasic cs rfl
    · obtain ⟨cs, rfl⟩ := List.head?_eq_some_iff.mp hhead
      exact hliteral cs rfl

/-- The member of an inline table at the start of a text, and what follows it. -/
def readMember? (fuel room : Nat) (text : List Char) :
    Option ((List String × Literal) × List Char) := do
  match ← keyPath? fuel text with
  | (path, behind) => match ← gap? false behind with
    | '=' :: sign =>
      let (value, rest) ← readValue? fuel room (← gap? false sign)
      return ((path, value), rest)
    | _ => none

theorem readMember?_eq_some_iff {fuel room : Nat} {text rest : List Char}
    {member : List String × Literal} : readMember? fuel room text = some (member, rest) ↔
      ∃ path behind sign written value, keyPath? fuel text = some (path, behind) ∧
        gap? false behind = some ('=' :: sign) ∧ gap? false sign = some written ∧
          readValue? fuel room written = some (value, rest) ∧ member = (path, value) := by
  constructor
  · intro h
    obtain ⟨⟨path, behind⟩, hpath, h⟩ := Option.bind_eq_some_iff.mp h
    obtain ⟨sign, hsign, h⟩ := Option.bind_eq_some_iff.mp h
    dsimp only at h
    split at h
    · next sign =>
      obtain ⟨written, hwritten, h⟩ := Option.bind_eq_some_iff.mp h
      obtain ⟨⟨value, rest⟩, hvalue, heq⟩ := Option.bind_eq_some_iff.mp h
      cases heq
      exact ⟨path, behind, sign, written, value, hpath, hsign, hwritten, hvalue, rfl⟩
    · cases h
  · rintro ⟨path, behind, sign, written, value, hpath, hsign, hwritten, hvalue, rfl⟩
    simp only [readMember?, hpath, hsign, hwritten, hvalue, bind, Option.bind, pure]

/-- What follows an item in a list: a comma and more items, or the end. -/
inductive Continues (close : Char) (many : List Char → Option (List α × List Char)) (x : α) :
    List Char → List α → List Char → Prop
  | more (text : List Char) (later : List α) (rest : List Char) :
    many text = some (later, rest) → Continues close many x (',' :: text) (x :: later) rest
  | last (rest : List Char) : Continues close many x (close :: rest) [x] rest

/-- The reader `many` reads lists of what `one` reads, with gaps around them and commas between
them, up to the character `close`. -/
structure ReadsList (close : Char) (one : Nat → List Char → Option (α × List Char))
    (many : Nat → List Char → Option (List α × List Char)) : Prop where
  zero : ∀ text, many 0 text = none
  succ : ∀ {fuel text xs rest}, many (fuel + 1) text = some (xs, rest) ↔
    ∃ start, gap? false text = some start ∧ ((start = close :: rest ∧ xs = []) ∨
      (start.head? ≠ some close ∧ ∃ x behind stop, one fuel start = some (x, behind) ∧
        gap? false behind = some stop ∧ Continues close (many fuel) x stop xs rest))

theorem readsList_items (room : Nat) : ReadsList ']' (readValue? · room) (readItems? · room) where
  zero _ := rfl
  succ := by
    intro fuel text items rest
    rw [readItems?]
    constructor
    · intro h
      obtain ⟨start, hstart, h⟩ := Option.bind_eq_some_iff.mp h
      refine ⟨start, hstart, ?_⟩
      dsimp only at h
      split at h
      · cases h
        exact .inl ⟨rfl, rfl⟩
      · next hopen =>
        obtain ⟨⟨item, behind⟩, hitem, h⟩ := Option.bind_eq_some_iff.mp h
        obtain ⟨stop, hstop, h⟩ := Option.bind_eq_some_iff.mp h
        refine .inr ⟨fun hhead => ?_, item, behind, stop, hitem, hstop, ?_⟩
        · obtain ⟨more, hmore⟩ := List.head?_eq_some_iff.mp hhead
          exact hopen more hmore
        · dsimp only at h
          split at h
          · obtain ⟨⟨later, tail⟩, hlater, heq⟩ := Option.bind_eq_some_iff.mp h
            cases heq
            exact .more _ later _ hlater
          · cases h
            exact .last rest
          · cases h
    · rintro ⟨start, hstart, ⟨rfl, rfl⟩ | ⟨hopen, item, behind, stop, hitem, hstop, hmore⟩⟩
      · simp only [hstart, bind, Option.bind, pure]
      · simp only [hstart, bind, Option.bind, pure]
        split
        · exact absurd rfl hopen
        · simp only [hitem, hstop]
          cases hmore with
          | more text later rest hlater => simp only [hlater]
          | last rest => rfl

theorem readsList_members (room : Nat) :
    ReadsList '\x7d' (readMember? · room) (readMembers? · room) where
  zero _ := rfl
  succ := by
    intro fuel text members rest
    rw [readMembers?]
    constructor
    · intro h
      obtain ⟨start, hstart, h⟩ := Option.bind_eq_some_iff.mp h
      refine ⟨start, hstart, ?_⟩
      dsimp only at h
      split at h
      · cases h
        exact .inl ⟨rfl, rfl⟩
      · next hopen =>
        obtain ⟨⟨path, behind⟩, hpath, h⟩ := Option.bind_eq_some_iff.mp h
        obtain ⟨sign, hsign, h⟩ := Option.bind_eq_some_iff.mp h
        dsimp only at h
        split at h
        · next sign =>
          obtain ⟨written, hwritten, h⟩ := Option.bind_eq_some_iff.mp h
          obtain ⟨⟨value, after⟩, hvalue, h⟩ := Option.bind_eq_some_iff.mp h
          obtain ⟨stop, hstop, h⟩ := Option.bind_eq_some_iff.mp h
          refine .inr ⟨fun hhead => ?_, (path, value), after, stop, ?_, hstop, ?_⟩
          · obtain ⟨more, hmore⟩ := List.head?_eq_some_iff.mp hhead
            exact hopen more hmore
          · exact readMember?_eq_some_iff.mpr ⟨path, behind, sign, written, value, hpath, hsign,
              hwritten, hvalue, rfl⟩
          · dsimp only at h
            split at h
            · obtain ⟨⟨later, tail⟩, hlater, heq⟩ := Option.bind_eq_some_iff.mp h
              cases heq
              exact .more _ later _ hlater
            · cases h
              exact .last rest
            · cases h
        · cases h
    · rintro ⟨start, hstart, ⟨rfl, rfl⟩ | ⟨hopen, member, after, stop, hmember, hstop, hmore⟩⟩
      · simp only [hstart, bind, Option.bind, pure]
      · obtain ⟨path, behind, sign, written, value, hpath, hsign, hwritten, hvalue, rfl⟩ :=
          readMember?_eq_some_iff.mp hmember
        simp only [hstart, bind, Option.bind, pure]
        split
        · exact absurd rfl hopen
        · simp only [hpath, hsign, hwritten, hvalue, hstop]
          cases hmore with
          | more text later rest hlater => simp only [hlater]
          | last rest => rfl

/-- What is read off the front of a text is read off it again, with fuel for its length, before
everything that begins like the rest. -/
def ReadOff (read : Nat → List Char → Option (α × List Char)) (need : Nat → Nat)
    (text : List Char) (x : α) (rest : List Char) : Prop :=
  ∃ front, text = front ++ rest ∧ front ≠ [] ∧ ∀ fuel other, need front.length ≤ fuel →
    other.take 2 = rest.take 2 → read fuel (front ++ other) = some (x, other)

/-- The fuel for a value of this length. -/
def valueNeed (length : Nat) : Nat := 2 * length

/-- The fuel for what stands between brackets or braces. -/
def innerNeed (length : Nat) : Nat := 2 * length + 1

theorem valueNeed_le {m n : Nat} (h : m ≤ n) : valueNeed m ≤ valueNeed n :=
  Nat.mul_le_mul_left 2 h

theorem innerNeed_le {m n : Nat} (h : m ≤ n) : innerNeed m ≤ innerNeed n :=
  Nat.succ_le_succ (valueNeed_le h)

section

variable {read : Nat → List Char → Option (α × List Char)} {need : Nat → Nat} {fuel : Nat}
  {text rest : List Char} {x : α}

theorem ReadOff.length_lt (h : ReadOff read need text x rest) : rest.length < text.length := by
  obtain ⟨front, rfl, hne, _⟩ := h
  have := List.length_pos_iff.mpr hne
  rw [List.length_append]
  omega

/-- With fuel for the whole text the same is read. -/
theorem ReadOff.read_eq (h : ReadOff read need text x rest)
    (hneed : ∀ {m n}, m ≤ n → need m ≤ need n) (hfuel : need text.length ≤ fuel) :
    read fuel text = some (x, rest) := by
  obtain ⟨front, rfl, _, hfront⟩ := h
  have hlength : front.length ≤ (front ++ rest).length := by
    rw [List.length_append]
    exact Nat.le_add_right _ _
  exact hfront fuel rest (Nat.le_trans (hneed hlength) hfuel) rfl

/-- What is read does not depend on the fuel. -/
theorem ReadOff.unique (h : ReadOff read need text x rest)
    (hneed : ∀ {m n}, m ≤ n → need m ≤ need n) {y : α} {other : List Char}
    (h' : ReadOff read need text y other) : x = y ∧ rest = other := by
  have heq := h.read_eq hneed (Nat.le_refl (need text.length))
  rw [h'.read_eq hneed (Nat.le_refl _), Option.some.injEq] at heq
  exact (Prod.mk.inj heq.symm)

end

section

variable {fuel room : Nat} {text rest : List Char} {literal : Literal}

/-- A list between brackets or braces. -/
theorem readOff_enclosed {c : Char} {cs : List Char}
    {many : Nat → List Char → Option (List α × List Char)} {make : List α → Literal}
    (hread : ∀ fuel cs, readValue? (fuel + 1) (room + 1) (c :: cs) =
      (many fuel cs).map fun (xs, rest) => (make xs, rest))
    (hmany : ∀ {text xs rest}, many fuel text = some (xs, rest) →
      ReadOff many innerNeed text xs rest)
    (h : readValue? (fuel + 1) (room + 1) (c :: cs) = some (literal, rest)) :
    ReadOff (readValue? · (room + 1)) valueNeed (c :: cs) literal rest := by
  rw [hread] at h
  obtain ⟨⟨xs, tail⟩, hxs, heq⟩ := Option.map_eq_some_iff.mp h
  cases heq
  obtain ⟨front, rfl, _, hfront⟩ := hmany hxs
  refine ⟨c :: front, rfl, List.cons_ne_nil _ _, fun fuel' other hfuel hother => ?_⟩
  simp only [valueNeed, List.length_cons] at hfuel
  obtain ⟨fuel', rfl⟩ := Nat.exists_eq_succ_of_ne_zero (show fuel' ≠ 0 by omega)
  have hinner : innerNeed front.length ≤ fuel' := by
    unfold innerNeed
    omega
  dsimp only
  rw [List.cons_append, hread, hfront fuel' other hinner hother]
  rfl

theorem readOff_value
    (hitems : ∀ {room text items rest}, readItems? fuel room text = some (items, rest) →
      ReadOff (readItems? · room) innerNeed text items rest)
    (hmembers : ∀ {room text members rest}, readMembers? fuel room text = some (members, rest) →
      ReadOff (readMembers? · room) innerNeed text members rest)
    (h : readValue? (fuel + 1) room text = some (literal, rest)) :
    ReadOff (readValue? · room) valueNeed text literal rest := by
  by_cases harray : text.head? = some '['
  · obtain ⟨cs, rfl⟩ := List.head?_eq_some_iff.mp harray
    cases room with
    | zero => cases h
    | succ room => exact readOff_enclosed (fun _ _ => readValue?_array _ _ _) hitems h
  by_cases htable : text.head? = some '\x7b'
  · obtain ⟨cs, rfl⟩ := List.head?_eq_some_iff.mp htable
    cases room with
    | zero => cases h
    | succ room => exact readOff_enclosed (fun _ _ => readValue?_table _ _ _) hmembers h
  rw [readValue?_plain fuel room harray htable] at h
  obtain ⟨front, rfl, hne, hfront⟩ := readPlain?_front h
  refine ⟨front, rfl, hne, fun fuel' other hfuel hother => ?_⟩
  have hlength := List.length_pos_iff.mpr hne
  unfold valueNeed at hfuel
  obtain ⟨fuel', rfl⟩ := Nat.exists_eq_succ_of_ne_zero (show fuel' ≠ 0 by omega)
  have hhead := head?_append_congr (head?_eq_of_take hother) front
  show readValue? (fuel' + 1) room (front ++ other) = _
  rw [readValue?_plain fuel' room (hhead ▸ harray) (hhead ▸ htable)]
  exact hfront other hother

end

section

variable {fuel room : Nat} {text rest : List Char}

theorem readOff_member {member : List String × Literal}
    (hvalue : ∀ {room text literal rest}, readValue? fuel room text = some (literal, rest) →
      ReadOff (readValue? · room) valueNeed text literal rest)
    (h : readMember? fuel room text = some (member, rest)) :
    ReadOff (readMember? · room) valueNeed text member rest := by
  obtain ⟨path, behind, sign, written, value, hpath, hsign, hwritten, hread, rfl⟩ :=
    readMember?_eq_some_iff.mp h
  obtain ⟨key, rfl, hne, hkey⟩ := keyPath?_front hpath
  obtain ⟨gap, rfl, hgap⟩ := gap?_front hsign
  obtain ⟨gap', rfl, hgap'⟩ := gap?_front hwritten
  obtain ⟨front, rfl, _, hfront⟩ := hvalue hread
  refine ⟨key ++ (gap ++ '=' :: (gap' ++ front)), by simp, by simp [hne],
    fun fuel' other hfuel hother => ?_⟩
  simp only [valueNeed, List.length_append, List.length_cons] at hfuel
  simp only [List.append_assoc, List.cons_append]
  have hsignHead := head?_append_cons gap '=' (gap' ++ (front ++ rest)) (gap' ++ (front ++ other))
  have hvalueHead := head?_append_congr (head?_eq_of_take hother) front
  have hvalueFuel : valueNeed front.length ≤ fuel' := by
    unfold valueNeed
    omega
  exact readMember?_eq_some_iff.mpr ⟨path, _, _, _, value, hkey fuel' _ (by omega) hsignHead,
    hgap _ rfl, hgap' _ hvalueHead, hfront fuel' other hvalueFuel hother, rfl⟩

end

section

variable {close : Char} {one : Nat → List Char → Option (α × List Char)}
  {many : Nat → List Char → Option (List α × List Char)} {fuel : Nat} {text stop rest : List Char}
  {x : α} {xs : List α}

/-- What follows an item is read off again behind its first character. -/
theorem Continues.front
    (hmany : ∀ {text xs rest}, many fuel text = some (xs, rest) →
      ReadOff many innerNeed text xs rest)
    (h : Continues close (many fuel) x stop xs rest) : ∃ c front, stop = c :: (front ++ rest) ∧
      ∀ fuel' other, innerNeed front.length ≤ fuel' → other.take 2 = rest.take 2 →
        Continues close (many fuel') x (c :: (front ++ other)) xs other := by
  cases h with
  | more text later rest hlater =>
    obtain ⟨front, rfl, _, hfront⟩ := hmany hlater
    exact ⟨',', front, rfl, fun fuel' other hfuel hother =>
      .more _ later other (hfront fuel' other hfuel hother)⟩
  | last rest => exact ⟨close, [], rfl, fun fuel' other _ _ => .last other⟩

/-- What follows an item can follow any other one. -/
theorem Continues.exists_later
    (hmany : ∀ {text xs rest}, many fuel text = some (xs, rest) →
      ReadOff many innerNeed text xs rest)
    (h : Continues close (many fuel) x stop xs rest) : ∃ later, xs = x :: later ∧
      ∀ y fuel', valueNeed stop.length ≤ fuel' →
        Continues close (many fuel') y stop (y :: later) rest := by
  cases h with
  | more text later rest hlater =>
    refine ⟨later, rfl, fun y fuel' hfuel => .more text later rest ?_⟩
    refine (hmany hlater).read_eq innerNeed_le ?_
    simp only [valueNeed, List.length_cons] at hfuel
    unfold innerNeed
    omega
  | last rest => exact ⟨[], rfl, fun y fuel' _ => .last rest⟩

theorem ReadsList.readOff (hlist : ReadsList close one many)
    (hone : ∀ {text x rest}, one fuel text = some (x, rest) → ReadOff one valueNeed text x rest)
    (hmany : ∀ {text xs rest}, many fuel text = some (xs, rest) →
      ReadOff many innerNeed text xs rest)
    (h : many (fuel + 1) text = some (xs, rest)) : ReadOff many innerNeed text xs rest := by
  obtain ⟨start, hstart, ⟨rfl, rfl⟩ | ⟨hopen, x, behind, stop, hx, hstop, hmore⟩⟩ :=
    hlist.succ.mp h
  · obtain ⟨gap, rfl, hgap⟩ := gap?_front hstart
    refine ⟨gap ++ [close], by simp, by simp, fun fuel' other hfuel _ => ?_⟩
    unfold innerNeed at hfuel
    obtain ⟨fuel', rfl⟩ := Nat.exists_eq_succ_of_ne_zero (show fuel' ≠ 0 by omega)
    rw [List.append_assoc]
    exact hlist.succ.mpr ⟨close :: other, hgap _ rfl, .inl ⟨rfl, rfl⟩⟩
  · obtain ⟨gap, rfl, hgap⟩ := gap?_front hstart
    obtain ⟨front, rfl, _, hfront⟩ := hone hx
    obtain ⟨gap', rfl, hgap'⟩ := gap?_front hstop
    obtain ⟨c, tail, rfl, htail⟩ := hmore.front hmany
    refine ⟨gap ++ (front ++ (gap' ++ c :: tail)), by simp, by simp,
      fun fuel' other hfuel hother => ?_⟩
    simp only [innerNeed, List.length_append, List.length_cons] at hfuel
    obtain ⟨fuel', rfl⟩ := Nat.exists_eq_succ_of_ne_zero (show fuel' ≠ 0 by omega)
    simp only [List.append_assoc, List.cons_append]
    have hnext := head?_append_congr (head?_eq_of_take hother) tail
    have hhead := head?_append_congr (head?_append_cons gap' c (tail ++ rest) (tail ++ other)) front
    have hxFuel : valueNeed front.length ≤ fuel' := by
      unfold valueNeed
      omega
    have htailFuel : innerNeed tail.length ≤ fuel' := by
      unfold innerNeed
      omega
    exact hlist.succ.mpr ⟨_, hgap _ hhead, .inr ⟨hhead ▸ hopen, x, _, _,
      hfront fuel' _ hxFuel (take_two_append_cons hnext gap' c), hgap' _ rfl,
      htail fuel' other htailFuel hother⟩⟩

end

/-- What the readers read with any fuel. -/
theorem readOff_all (fuel : Nat) :
    (∀ {room text literal rest}, readValue? fuel room text = some (literal, rest) →
      ReadOff (readValue? · room) valueNeed text literal rest) ∧
    (∀ {room text items rest}, readItems? fuel room text = some (items, rest) →
      ReadOff (readItems? · room) innerNeed text items rest) ∧
    (∀ {room text members rest}, readMembers? fuel room text = some (members, rest) →
      ReadOff (readMembers? · room) innerNeed text members rest) := by
  induction fuel with
  | zero =>
    refine ⟨?_, ?_, ?_⟩
    · intro room text literal rest h
      cases h
    · intro room text items rest h
      cases h
    · intro room text members rest h
      cases h
  | succ fuel ih =>
    obtain ⟨hvalue, hitems, hmembers⟩ := ih
    exact ⟨readOff_value hitems hmembers,
      fun h => (readsList_items _).readOff hvalue hitems h,
      fun h => (readsList_members _).readOff (readOff_member hvalue) hmembers h⟩

theorem readOff_readValue? {fuel room : Nat} {text rest : List Char} {literal : Literal}
    (h : readValue? fuel room text = some (literal, rest)) :
    ReadOff (readValue? · room) valueNeed text literal rest :=
  (readOff_all fuel).1 h

theorem readOff_readItems? {fuel room : Nat} {text rest : List Char} {items : List Literal}
    (h : readItems? fuel room text = some (items, rest)) :
    ReadOff (readItems? · room) innerNeed text items rest :=
  (readOff_all fuel).2.1 h

theorem readOff_readMember? {fuel room : Nat} {text rest : List Char}
    {member : List String × Literal} (h : readMember? fuel room text = some (member, rest)) :
    ReadOff (readMember? · room) valueNeed text member rest :=
  readOff_member (readOff_all fuel).1 h

theorem readOff_readMembers? {fuel room : Nat} {text rest : List Char}
    {members : List (List String × Literal)}
    (h : readMembers? fuel room text = some (members, rest)) :
    ReadOff (readMembers? · room) innerNeed text members rest :=
  (readOff_all fuel).2.2 h

theorem keyPath?_unique {fuel fuel' : Nat} {text : List Char} {a b : List String × List Char}
    (ha : keyPath? fuel text = some a) (hb : keyPath? fuel' text = some b) : a = b := by
  obtain ⟨front, rfl, _, hfront⟩ := keyPath?_front ha
  obtain ⟨front', heq, _, hfront'⟩ := keyPath?_front hb
  have ha' := hfront (max front.length front'.length) a.2 (Nat.le_max_left _ _) rfl
  have hb' := hfront' (max front.length front'.length) b.2 (Nat.le_max_right _ _) rfl
  rw [← heq] at hb'
  exact Option.some.inj (ha'.symm.trans hb')

/-! ## Statements -/

theorem lineEnd?_eq_some_iff {text rest : List Char} : lineEnd? text = some rest ↔
    (text.dropWhile isSpace = [] ∧ rest = []) ∨
      ∃ start c, text.dropWhile isSpace = start ∧ start.head? = some c ∧
        (c = '\n' ∨ c = '\r' ∨ c = '#') ∧ gap? false start = some rest := by
  unfold lineEnd?
  cases htext : text.dropWhile isSpace with
  | nil => simp [eq_comm]
  | cons c cs =>
    dsimp only
    rw [Option.ite_none_right_eq_some]
    constructor
    · rintro ⟨hend, hgap⟩
      exact .inr ⟨_, c, rfl, rfl, hend, hgap⟩
    · rintro (⟨h, _⟩ | ⟨_, d, rfl, hd, hend, hgap⟩)
      · cases h
      · cases hd
        exact ⟨hend, hgap⟩

theorem lineEnd?_front {text rest : List Char} (h : lineEnd? text = some rest) :
    ∃ front, text = front ++ rest ∧
      ∀ other, other.head? = rest.head? → lineEnd? (front ++ other) = some other := by
  obtain ⟨hspaces, rfl⟩ | ⟨start, c, hstart, hc, hend, hgap⟩ := lineEnd?_eq_some_iff.mp h
  · obtain ⟨spaces, rfl, hfront⟩ := spaces_front hspaces
    refine ⟨spaces, rfl, fun other hother => ?_⟩
    rw [List.head?_eq_none_iff.mp hother]
    exact lineEnd?_eq_some_iff.mpr (.inl ⟨hfront [] rfl, rfl⟩)
  · obtain ⟨spaces, rfl, hfront⟩ := spaces_front hstart
    obtain ⟨gap, rfl, hgapFront⟩ := gap?_front hgap
    refine ⟨spaces ++ gap, by simp, fun other hother => ?_⟩
    have hhead := head?_append_congr hother gap
    rw [List.append_assoc]
    exact lineEnd?_eq_some_iff.mpr (.inr ⟨gap ++ other, c, hfront _ hhead, hhead.trans hc, hend,
      hgapFront other hother⟩)

theorem statement?_eq_some_iff {fuel : Nat} {text rest : List Char} {statement : Statement} :
    statement? fuel text = some (statement, rest) ↔
      (∃ cs path, text = '[' :: '[' :: cs ∧
        keyPath? fuel (cs.dropWhile isSpace) = some (path, ']' :: ']' :: rest) ∧
          statement = .header path true) ∨
      (∃ cs path, text = '[' :: cs ∧ cs.head? ≠ some '[' ∧
        keyPath? fuel (cs.dropWhile isSpace) = some (path, ']' :: rest) ∧
          statement = .header path false) ∨
      (text.head? ≠ some '[' ∧ ∃ path behind value,
        keyPath? fuel text = some (path, '=' :: behind) ∧
          readValue? fuel nestingLimit (behind.dropWhile isSpace) = some (value, rest) ∧
            statement = .assign path value) := by
  constructor
  · intro h
    unfold statement? at h
    split at h
    · next cs =>
      obtain ⟨⟨path, behind⟩, hpath, h⟩ := Option.bind_eq_some_iff.mp h
      split at h
      · next heq =>
        cases heq
        cases h
        exact .inl ⟨cs, path, rfl, hpath, rfl⟩
      · cases h
    · next cs hcs =>
      obtain ⟨⟨path, behind⟩, hpath, h⟩ := Option.bind_eq_some_iff.mp h
      split at h
      · next heq =>
        cases heq
        cases h
        refine .inr (.inl ⟨cs, path, rfl, fun hhead => ?_, hpath, rfl⟩)
        obtain ⟨more, rfl⟩ := List.head?_eq_some_iff.mp hhead
        exact hcs more rfl
      · cases h
    · next hcs =>
      obtain ⟨⟨path, behind⟩, hpath, h⟩ := Option.bind_eq_some_iff.mp h
      dsimp only at h
      split at h
      · next heq =>
        cases heq
        obtain ⟨⟨value, tail⟩, hvalue, heq⟩ := Option.bind_eq_some_iff.mp h
        cases heq
        refine .inr (.inr ⟨fun hhead => ?_, path, _, value, hpath, hvalue, rfl⟩)
        obtain ⟨more, rfl⟩ := List.head?_eq_some_iff.mp hhead
        exact hcs more rfl
      · cases h
  · rintro (⟨cs, path, rfl, hpath, rfl⟩ | ⟨cs, path, rfl, hcs, hpath, rfl⟩ |
      ⟨hcs, path, behind, value, hpath, hvalue, rfl⟩)
    · show (keyPath? fuel (cs.dropWhile isSpace)).bind _ = _
      rw [hpath]
      rfl
    · unfold statement?
      split
      · next heq =>
        cases heq
        exact absurd rfl hcs
      · next heq =>
        cases heq
        rw [hpath]
        rfl
      · next heq => exact absurd rfl (heq cs)
    · unfold statement?
      split
      · exact absurd rfl hcs
      · exact absurd rfl hcs
      · rw [hpath]
        show (readValue? fuel nestingLimit (behind.dropWhile isSpace)).bind _ = _
        rw [hvalue]
        rfl

theorem statement?_front {fuel : Nat} {text rest : List Char} {statement : Statement}
    (h : statement? fuel text = some (statement, rest)) :
    ReadOff statement? valueNeed text statement rest := by
  obtain ⟨cs, path, rfl, hpath, rfl⟩ | ⟨cs, path, rfl, hcs, hpath, rfl⟩ |
    ⟨hcs, path, behind, value, hpath, hvalue, rfl⟩ := statement?_eq_some_iff.mp h
  · obtain ⟨key, hkey, _, hfront⟩ := keyPath?_front hpath
    obtain ⟨spaces, rfl, hspaces⟩ := spaces_front hkey
    refine ⟨'[' :: '[' :: (spaces ++ (key ++ [']', ']'])), by simp, by simp,
      fun fuel' other hfuel hother => ?_⟩
    simp only [valueNeed, List.length_cons, List.length_append] at hfuel
    simp only [List.cons_append, List.append_assoc, List.nil_append]
    refine statement?_eq_some_iff.mpr (.inl ⟨_, path, rfl, ?_, rfl⟩)
    rw [hspaces _ (head?_append_cons key ']' _ _)]
    exact hfront fuel' _ (by omega) rfl
  · obtain ⟨key, hkey, _, hfront⟩ := keyPath?_front hpath
    obtain ⟨spaces, rfl, hspaces⟩ := spaces_front hkey
    refine ⟨'[' :: (spaces ++ (key ++ [']'])), by simp, by simp,
      fun fuel' other hfuel hother => ?_⟩
    simp only [valueNeed, List.length_cons, List.length_append] at hfuel
    simp only [List.cons_append, List.append_assoc, List.nil_append]
    have hhead := head?_append_cons key ']' rest other
    refine statement?_eq_some_iff.mpr (.inr (.inl ⟨_, path, rfl, ?_, ?_, rfl⟩))
    · rwa [head?_append_congr hhead spaces]
    · rw [hspaces _ hhead]
      exact hfront fuel' _ (by omega) rfl
  · obtain ⟨key, rfl, hne, hkey⟩ := keyPath?_front hpath
    obtain ⟨front, hfrontEq, _, hfront⟩ := readOff_readValue? hvalue
    obtain ⟨spaces, rfl, hspaces⟩ := spaces_front hfrontEq
    refine ⟨key ++ '=' :: (spaces ++ front), by simp, by simp, fun fuel' other hfuel hother => ?_⟩
    simp only [valueNeed, List.length_cons, List.length_append] at hfuel
    simp only [List.cons_append, List.append_assoc]
    have hvalueFuel : valueNeed front.length ≤ fuel' := by
      unfold valueNeed
      omega
    have hhead := head?_append_congr (head?_eq_of_take hother) front
    refine statement?_eq_some_iff.mpr (.inr (.inr ⟨?_, path, _, value,
      hkey fuel' _ (by omega) rfl, ?_, rfl⟩))
    · rwa [head?_append_cons key '=' (spaces ++ (front ++ rest)) (spaces ++ (front ++ other))]
    · rw [hspaces _ hhead]
      exact hfront fuel' other hvalueFuel hother

theorem statementsFrom?_nil (limit fuel : Nat) : statementsFrom? limit fuel [] = some [] := by
  cases fuel with
  | zero => rfl
  | succ fuel => rfl

theorem statementsFrom?_succ_eq_some_iff {limit fuel : Nat} {text : List Char}
    {statements : List Statement} (htext : text ≠ []) :
    statementsFrom? limit (fuel + 1) text = some statements ↔ ∃ statement rest more later,
      statement? limit text = some (statement, rest) ∧ lineEnd? rest = some more ∧
        statementsFrom? limit fuel more = some later ∧ statements = statement :: later := by
  rw [statementsFrom?]
  · constructor
    · intro h
      obtain ⟨⟨statement, rest⟩, hstatement, h⟩ := Option.bind_eq_some_iff.mp h
      obtain ⟨more, hmore, h⟩ := Option.bind_eq_some_iff.mp h
      obtain ⟨later, hlater, heq⟩ := Option.bind_eq_some_iff.mp h
      cases heq
      exact ⟨statement, rest, more, later, hstatement, hmore, hlater, rfl⟩
    · rintro ⟨statement, rest, more, later, hstatement, hmore, hlater, rfl⟩
      rw [hstatement]
      show (lineEnd? rest).bind _ = _
      rw [hmore]
      show (statementsFrom? limit fuel more).bind _ = _
      rw [hlater]
      rfl
  · exact htext

/-- The statements of a text are read with all fuel that its length calls for. -/
theorem statementsFrom?_eq_of_length {limit limit' fuel fuel' : Nat} {text : List Char}
    {statements : List Statement} (h : statementsFrom? limit fuel text = some statements)
    (hlimit : valueNeed text.length ≤ limit') (hfuel : text.length ≤ fuel') :
    statementsFrom? limit' fuel' text = some statements := by
  induction fuel generalizing text statements fuel' with
  | zero =>
    cases text with
    | nil =>
      rw [statementsFrom?_nil] at h ⊢
      exact h
    | cons c cs => cases h
  | succ fuel ih =>
    by_cases htext : text = []
    · subst htext
      rw [statementsFrom?_nil] at h ⊢
      exact h
    · have hlength := List.length_pos_iff.mpr htext
      obtain ⟨fuel', rfl⟩ := Nat.exists_eq_succ_of_ne_zero (show fuel' ≠ 0 by omega)
      obtain ⟨statement, rest, more, later, hstatement, hmore, hlater, rfl⟩ :=
        (statementsFrom?_succ_eq_some_iff htext).mp h
      have hread := statement?_front hstatement
      have hrest := hread.length_lt
      obtain ⟨lineEnd, rfl, _⟩ := lineEnd?_front hmore
      rw [List.length_append] at hrest
      have hlimit' : valueNeed more.length ≤ limit' :=
        Nat.le_trans (valueNeed_le (by omega)) hlimit
      exact (statementsFrom?_succ_eq_some_iff htext).mpr ⟨statement, _, more, later,
        hread.read_eq valueNeed_le hlimit, hmore, ih hlater hlimit' (by omega), rfl⟩

end IdentityProvider.Toml
