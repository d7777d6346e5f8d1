import IdentityProvider.Proofs.Toml.ReadOff
import IdentityProvider.Proofs.Toml.Varying

/-
  Places at which a document is read as a string.

  `Asks` says that a reader, on its way through a text, comes to a place at which it reads a
  value.  If a plain string stands there, any other plain string can stand there as well: the
  readers read the same as before, but for the one string (`Asks.variesAt`).
-/

namespace IdentityProvider.Toml

/-! ## Plain strings -/

/-- A text that a basic string writes as it stands. -/
def IsPlain (text : String) : Prop :=
  ∀ c ∈ text.toList, c ≠ '"' ∧ c ≠ '\\' ∧ isControl c = false

instance (text : String) : Decidable (IsPlain text) :=
  inferInstanceAs (Decidable (∀ c ∈ text.toList, c ≠ '"' ∧ c ≠ '\\' ∧ isControl c = false))

/-- A text between quotes, and what follows it. -/
def quotedBefore (text : String) (rest : List Char) : List Char :=
  '"' :: (text.toList ++ '"' :: rest)

theorem basic?_plain {text : List Char} (h : ∀ c ∈ text, c ≠ '"' ∧ c ≠ '\\' ∧ isControl c = false)
    (rest : List Char) : basic? 0 (text ++ '"' :: rest) = some (text, rest) := by
  induction text with
  | nil => rfl
  | cons c text ih =>
    rw [List.forall_mem_cons] at h
    obtain ⟨⟨hquote, hslash, hcontrol⟩, htext⟩ := h
    rw [List.cons_append, basic?, if_neg hquote, if_neg hslash, hcontrol,
      if_neg Bool.false_ne_true, ih htext]
    rfl

/-- A plain text between quotes is read as itself, if no third quote follows those of an empty
one. -/
theorem readString?_quotedBefore {text : String} (h : IsPlain text) {rest : List Char}
    (hrest : rest.head? ≠ some '"') :
    readString? (quotedBefore text rest) = some (.plain (.string text), rest) := by
  have htriple : isTriple '"' (quotedBefore text rest) = false := by
    refine decide_eq_false fun htake => ?_
    unfold quotedBefore at htake
    cases hlist : text.toList with
    | nil =>
      rw [hlist, List.nil_append, List.take_succ_cons, List.take_succ_cons, List.take_one] at htake
      cases rest with
      | nil => cases htake
      | cons c rest =>
        obtain ⟨rfl, _⟩ := List.cons.inj (List.cons.inj (List.cons.inj htake).2).2
        exact hrest rfl
    | cons c cs =>
      rw [hlist] at htake
      have hc : c ≠ '"' := (h c (hlist ▸ List.mem_cons_self)).1
      exact hc (List.cons.inj (List.cons.inj htake).2).1
  have hread : quoted? (quotedBefore text rest) = some (text.toList, rest) := by
    unfold quotedBefore at htriple ⊢
    rw [quoted?_basic, htriple, if_neg Bool.false_ne_true]
    exact basic?_plain h rest
  rw [readString?, hread, Option.map_some]
  dsimp only
  rw [String.ofList_toList]

theorem readValue?_quotedBefore {text : String} (h : IsPlain text) {rest : List Char}
    (hrest : rest.head? ≠ some '"') (fuel room : Nat) :
    readValue? (fuel + 1) room (quotedBefore text rest) = some (.plain (.string text), rest) := by
  rw [readValue?_plain fuel room (by simp [quotedBefore]) (by simp [quotedBefore]), readPlain?,
    if_pos (.inl rfl), readString?_quotedBefore h hrest]

/-! ## Places -/

/-- What a reader is reading, and how deep values may be nested in it. -/
inductive Reading
  | value (room : Nat)
  | items (room : Nat)
  | member (room : Nat)
  | members (room : Nat)
  /-- The statements from one of them on. -/
  | statements
  | document

/-- A reader that starts at the text comes to read a value at the place. -/
inductive Asks (place : List Char) : Reading → List Char → Prop
  | here (room : Nat) : Asks place (.value room) place
  | array (room : Nat) (inside : List Char) :
    Asks place (.items room) inside → Asks place (.value (room + 1)) ('[' :: inside)
  | table (room : Nat) (inside : List Char) :
    Asks place (.members room) inside → Asks place (.value (room + 1)) ('\x7b' :: inside)
  | item (room : Nat) (text start : List Char) :
    gap? false text = some start → Asks place (.value room) start →
    Asks place (.items room) text
  | laterItem (room fuel : Nat) (text start behind more : List Char) (item : Literal) :
    gap? false text = some start → readValue? fuel room start = some (item, behind) →
    gap? false behind = some (',' :: more) → Asks place (.items room) more →
    Asks place (.items room) text
  | memberValue (room fuel : Nat) (text behind sign written : List Char) (path : List String) :
    keyPath? fuel text = some (path, behind) → gap? false behind = some ('=' :: sign) →
    gap? false sign = some written → Asks place (.value room) written →
    Asks place (.member room) text
  | member (room : Nat) (text start : List Char) :
    gap? false text = some start → Asks place (.member room) start →
    Asks place (.members room) text
  | laterMember (room fuel : Nat) (text start behind more : List Char)
    (member : List String × Literal) :
    gap? false text = some start → readMember? fuel room start = some (member, behind) →
    gap? false behind = some (',' :: more) → Asks place (.members room) more →
    Asks place (.members room) text
  | assignment (fuel : Nat) (text behind : List Char) (path : List String) :
    text.head? ≠ some '[' → keyPath? fuel text = some (path, '=' :: behind) →
    Asks place (.value nestingLimit) (behind.dropWhile isSpace) → Asks place .statements text
  | laterStatement (fuel : Nat) (text behind more : List Char) (statement : Statement) :
    statement? fuel text = some (statement, behind) → lineEnd? behind = some more →
    Asks place .statements more → Asks place .statements text
  | document (text start : List Char) :
    gap? false (withoutMark text) = some start → Asks place .statements start →
    Asks place .document text

/-! ## Values -/

section

variable {rest : List Char} {w : String}

/-- What a reader reads in a text with a plain string at a place is the same, but for this string,
with any other plain string there. -/
def VariesAt (rest : List Char) (w : String) (Varies : (String → α) → Prop)
    (read : Nat → List Char → Option (α × List Char)) (need : Nat → Nat) (text : List Char) :
    Prop :=
  ∀ fuel x behind, read fuel text = some (x, behind) → ∃ lead value, Varies value ∧ value w = x ∧
    text = lead ++ quotedBefore w rest ∧ ∀ v, IsPlain v → ∀ fuel',
      need (lead ++ quotedBefore v rest).length ≤ fuel' →
        read fuel' (lead ++ quotedBefore v rest) = some (value v, behind)

/-- Values at the same place begin alike. -/
theorem head?_append_quotedBefore (rest lead : List Char) (v w : String) :
    (lead ++ quotedBefore v rest).head? = (lead ++ quotedBefore w rest).head? :=
  head?_append_cons lead '"' _ _

theorem variesAt_here (hw : IsPlain w) (hrest : rest.head? ≠ some '"') (room : Nat) :
    VariesAt rest w Literal.Varies (readValue? · room) valueNeed (quotedBefore w rest) := by
  intro fuel literal behind h
  cases fuel with
  | zero => cases h
  | succ fuel =>
    have hread := readValue?_quotedBefore hw hrest fuel room
    obtain ⟨rfl, rfl⟩ := Prod.mk.inj (Option.some.inj (hread.symm.trans h))
    refine ⟨[], _, .string, rfl, rfl, fun v hv fuel' hfuel => ?_⟩
    simp only [List.nil_append, quotedBefore, valueNeed, List.length_cons] at hfuel
    obtain ⟨fuel', rfl⟩ := Nat.exists_eq_succ_of_ne_zero (show fuel' ≠ 0 by omega)
    exact readValue?_quotedBefore hv hrest fuel' room

theorem variesAt_enclosed {V : (String → α) → Prop} {room : Nat} {c : Char} {inside : List Char}
    {many : Nat → List Char → Option (List α × List Char)} {make : List α → Literal}
    (hread : ∀ fuel cs, readValue? (fuel + 1) (room + 1) (c :: cs) =
      (many fuel cs).map fun (xs, rest) => (make xs, rest))
    (hmake : ∀ xs, Within V xs → Literal.Varies fun v => make (xs v))
    (h : VariesAt rest w (Within V) many innerNeed inside) :
    VariesAt rest w Literal.Varies (readValue? · (room + 1)) valueNeed (c :: inside) := by
  intro fuel literal behind hliteral
  cases fuel with
  | zero => cases hliteral
  | succ fuel =>
    dsimp only at hliteral
    rw [hread] at hliteral
    obtain ⟨⟨xs, _⟩, hxs, heq⟩ := Option.map_eq_some_iff.mp hliteral
    cases heq
    obtain ⟨lead, list, hvaries, rfl, rfl, hall⟩ := h fuel xs behind hxs
    refine ⟨c :: lead, _, hmake list hvaries, rfl, rfl, fun v hv fuel' hfuel => ?_⟩
    simp only [List.cons_append, valueNeed, List.length_cons] at hfuel
    obtain ⟨fuel', rfl⟩ := Nat.exists_eq_succ_of_ne_zero (show fuel' ≠ 0 by omega)
    have hinner : innerNeed (lead ++ quotedBefore v rest).length ≤ fuel' := by
      unfold innerNeed
      omega
    dsimp only
    rw [List.cons_append, hread, hall v hv fuel' hinner]
    rfl

theorem variesAt_memberValue {room fuel₀ : Nat} {text behind₀ sign written : List Char}
    {path : List String} (hpath : keyPath? fuel₀ text = some (path, behind₀))
    (hsign : gap? false behind₀ = some ('=' :: sign)) (hwritten : gap? false sign = some written)
    (h : VariesAt rest w Literal.Varies (readValue? · room) valueNeed written) :
    VariesAt rest w (Under Literal.Varies) (readMember? · room) valueNeed text := by
  intro fuel member behind hmember
  obtain ⟨path', _, sign', written', literal, hpath', hsign', hwritten', hliteral, rfl⟩ :=
    readMember?_eq_some_iff.mp hmember
  obtain ⟨rfl, rfl⟩ := Prod.mk.inj (keyPath?_unique hpath hpath')
  rw [hsign, Option.some.injEq] at hsign'
  obtain ⟨_, rfl⟩ := List.cons.inj hsign'
  rw [hwritten, Option.some.injEq] at hwritten'
  subst hwritten'
  obtain ⟨lead, value, hvaries, rfl, rfl, hall⟩ := h fuel literal behind hliteral
  obtain ⟨key, rfl, _, hkey⟩ := keyPath?_front hpath
  obtain ⟨gap, rfl, hgap⟩ := gap?_front hsign
  obtain ⟨gap', rfl, hgap'⟩ := gap?_front hwritten
  refine ⟨key ++ (gap ++ '=' :: (gap' ++ lead)), _, .intro path value hvaries, rfl, by simp,
    fun v hv fuel' hfuel => ?_⟩
  simp only [List.append_assoc, List.cons_append, List.length_append, List.length_cons,
    valueNeed] at hfuel
  have hvalueFuel : valueNeed (lead ++ quotedBefore v rest).length ≤ fuel' := by
    rw [List.length_append, valueNeed]
    omega
  simp only [List.append_assoc, List.cons_append]
  exact readMember?_eq_some_iff.mpr ⟨path, _, _, _, value v,
    hkey fuel' _ (by omega) (head?_append_cons gap '=' _ _), hgap _ rfl,
    hgap' _ (head?_append_quotedBefore rest lead v w), hall v hv fuel' hvalueFuel, rfl⟩

section

variable {V : (String → α) → Prop} {close : Char}
  {one : Nat → List Char → Option (α × List Char)}
  {many : Nat → List Char → Option (List α × List Char)} {text start : List Char}

/-- The first item of a list varies. -/
theorem variesAt_first (hlist : ReadsList close one many)
    (hone : ∀ {fuel text x rest}, one fuel text = some (x, rest) →
      ReadOff one valueNeed text x rest)
    (hmany : ∀ {fuel text xs rest}, many fuel text = some (xs, rest) →
      ReadOff many innerNeed text xs rest)
    (hstart : gap? false text = some start) (hopen : start.head? ≠ some close)
    (h : VariesAt rest w V one valueNeed start) :
    VariesAt rest w (Within V) many innerNeed text := by
  intro fuel xs behind hread
  cases fuel with
  | zero =>
    rw [hlist.zero] at hread
    cases hread
  | succ fuel =>
    obtain ⟨_, hstart', hxs⟩ := hlist.succ.mp hread
    rw [hstart, Option.some.injEq] at hstart'
    subst hstart'
    obtain ⟨rfl, _⟩ | ⟨_, x, after, stop, hx, hstop, hmore⟩ := hxs
    · exact absurd rfl hopen
    obtain ⟨lead, value, hvaries, rfl, rfl, hall⟩ := h fuel x after hx
    obtain ⟨gap, rfl, hgap⟩ := gap?_front hstart
    -- the items behind the one that varies stay
    obtain ⟨later, rfl, hlater⟩ := hmore.exists_later hmany
    refine ⟨gap ++ lead, _, ⟨[], value, later, hvaries⟩, rfl, by rw [List.append_assoc],
      fun v hv fuel' hfuel => ?_⟩
    simp only [List.append_assoc, List.length_append, innerNeed] at hfuel
    obtain ⟨fuel', rfl⟩ := Nat.exists_eq_succ_of_ne_zero (show fuel' ≠ 0 by omega)
    have hvalueFuel : valueNeed (lead ++ quotedBefore v rest).length ≤ fuel' := by
      rw [List.length_append, valueNeed]
      omega
    have hvalue := hall v hv fuel' hvalueFuel
    have hstopFuel : valueNeed stop.length ≤ fuel' := by
      refine Nat.le_trans (valueNeed_le ?_) hvalueFuel
      have hlength := (hone hvalue).length_lt
      obtain ⟨gap', rfl, _⟩ := gap?_front hstop
      rw [List.length_append] at hlength
      omega
    have hhead := head?_append_quotedBefore rest lead v w
    rw [List.append_assoc]
    exact hlist.succ.mpr ⟨_, hgap _ hhead, .inr ⟨hhead ▸ hopen, value v, after, stop, hvalue,
      hstop, hlater (value v) fuel' hstopFuel⟩⟩

/-- An item of a list behind the first one varies. -/
theorem variesAt_later (hlist : ReadsList close one many) (hclose : close ≠ ',')
    (hone : ∀ {fuel text x rest}, one fuel text = some (x, rest) →
      ReadOff one valueNeed text x rest)
    {fuel₀ : Nat} {behind₀ more : List Char} {x : α} (hstart : gap? false text = some start)
    (hopen : start.head? ≠ some close) (hx : one fuel₀ start = some (x, behind₀))
    (hstop : gap? false behind₀ = some (',' :: more))
    (h : VariesAt rest w (Within V) many innerNeed more) :
    VariesAt rest w (Within V) many innerNeed text := by
  intro fuel xs behind hread
  cases fuel with
  | zero =>
    rw [hlist.zero] at hread
    cases hread
  | succ fuel =>
    obtain ⟨_, hstart', hxs⟩ := hlist.succ.mp hread
    rw [hstart, Option.some.injEq] at hstart'
    subst hstart'
    obtain ⟨rfl, _⟩ | ⟨_, x', after, stop, hx', hstop', hmore⟩ := hxs
    · exact absurd rfl hopen
    obtain ⟨rfl, rfl⟩ := (hone hx).unique valueNeed_le (hone hx')
    rw [hstop, Option.some.injEq] at hstop'
    subst hstop'
    cases hmore with
    | last rest => exact absurd rfl hclose
    | more text later rest hlater =>
      obtain ⟨lead, list, hvaries, rfl, rfl, hall⟩ := h fuel later behind hlater
      obtain ⟨gap, rfl, hgap⟩ := gap?_front hstart
      obtain ⟨front, rfl, _, hfront⟩ := hone hx
      obtain ⟨gap', rfl, hgap'⟩ := gap?_front hstop
      refine ⟨gap ++ (front ++ (gap' ++ ',' :: lead)), _, hvaries.cons x, rfl, by simp,
        fun v hv fuel' hfuel => ?_⟩
      simp only [List.append_assoc, List.cons_append, List.length_append, List.length_cons,
        innerNeed] at hfuel
      obtain ⟨fuel', rfl⟩ := Nat.exists_eq_succ_of_ne_zero (show fuel' ≠ 0 by omega)
      have hxFuel : valueNeed front.length ≤ fuel' := by
        unfold valueNeed
        omega
      have hlaterFuel : innerNeed (lead ++ quotedBefore v rest).length ≤ fuel' := by
        rw [List.length_append, innerNeed]
        omega
      have hnext := head?_append_quotedBefore rest lead v w
      have hhead := head?_append_congr (head?_append_cons gap' ',' (lead ++ quotedBefore w rest)
        (lead ++ quotedBefore v rest)) front
      simp only [List.append_assoc, List.cons_append]
      exact hlist.succ.mpr ⟨_, hgap _ hhead, .inr ⟨hhead ▸ hopen, x, _, _,
        hfront fuel' _ hxFuel (take_two_append_cons hnext gap' ','), hgap' _ rfl,
        .more _ _ _ (hall v hv fuel' hlaterFuel)⟩⟩

end

end

/-! ## Statements and documents -/

theorem head?_of_readValue? {fuel room : Nat} {text : List Char} {r : Literal × List Char}
    (h : readValue? fuel room text = some r) : text.head? ≠ some ']' := by
  intro hhead
  obtain ⟨cs, rfl⟩ := List.head?_eq_some_iff.mp hhead
  cases fuel with
  | zero => cases h
  | succ fuel =>
    rw [readValue?_plain fuel room (by simp) (by simp), readPlain?, if_neg (by simp),
      bareValue?_cons_of_not rfl] at h
    cases h

theorem head?_of_keyPath? {fuel : Nat} {text : List Char} {r : List String × List Char}
    (h : keyPath? fuel text = some r) : text.head? ≠ some '\x7d' := by
  intro hhead
  obtain ⟨cs, rfl⟩ := List.head?_eq_some_iff.mp hhead
  cases fuel with
  | zero => cases h
  | succ fuel =>
    obtain ⟨key, behind, hkey, _⟩ := keyPath?_succ_eq_some_iff.mp h
    rw [key?_bare (by simp) (by simp)] at hkey
    cases hkey

theorem head?_of_readMember? {fuel room : Nat} {text : List Char}
    {r : (List String × Literal) × List Char} (h : readMember? fuel room text = some r) :
    text.head? ≠ some '\x7d' := by
  obtain ⟨_, _, _, _, _, hpath, _⟩ := readMember?_eq_some_iff.mp h
  exact head?_of_keyPath? hpath

section

variable {rest : List Char} {w : String}

/-- A value that is asked for does not begin with a closing bracket. -/
theorem Asks.head?_value {room : Nat} {text : List Char}
    (h : Asks (quotedBefore w rest) (.value room) text) : text.head? ≠ some ']' := by
  cases h with
  | here => simp [quotedBefore]
  | array room inside _ => simp
  | table room inside _ => simp

/-- A member that is asked for does not begin with a closing brace. -/
theorem Asks.head?_member {place : List Char} {room : Nat} {text : List Char}
    (h : Asks place (.member room) text) : text.head? ≠ some '\x7d' := by
  cases h with
  | memberValue room fuel text behind sign written path hpath => exact head?_of_keyPath? hpath

/-- The statements of a text with a plain string at a place are the same, but for this string,
with any other plain string there. -/
def StatementsVaryAt (rest : List Char) (w : String) (text : List Char) : Prop :=
  ∀ limit fuel statements, statementsFrom? limit fuel text = some statements →
    ∃ lead list, Within Statement.Varies list ∧ list w = statements ∧
      text = lead ++ quotedBefore w rest ∧ lead ≠ [] ∧ ∀ v, IsPlain v → ∀ limit' fuel',
        valueNeed (lead ++ quotedBefore v rest).length ≤ limit' →
          (lead ++ quotedBefore v rest).length ≤ fuel' →
            statementsFrom? limit' fuel' (lead ++ quotedBefore v rest) = some (list v)

theorem append_quotedBefore_ne_nil (lead : List Char) (v : String) (rest : List Char) :
    lead ++ quotedBefore v rest ≠ [] :=
  List.append_ne_nil_of_right_ne_nil lead (List.cons_ne_nil _ _)

theorem statementsVaryAt_assignment {fuel₀ : Nat} {text behind₀ : List Char} {path : List String}
    (hopen : text.head? ≠ some '[') (hpath : keyPath? fuel₀ text = some (path, '=' :: behind₀))
    (h : VariesAt rest w Literal.Varies (readValue? · nestingLimit) valueNeed
      (behind₀.dropWhile isSpace)) : StatementsVaryAt rest w text := by
  intro limit fuel statements hread
  have htext : text ≠ [] := by
    rintro rfl
    obtain ⟨key, heq, hne, _⟩ := keyPath?_front hpath
    exact hne (List.append_eq_nil_iff.mp heq.symm).1
  cases fuel with
  | zero => cases text with
    | nil => exact absurd rfl htext
    | cons c cs => cases hread
  | succ fuel =>
    obtain ⟨_, after, more, later, hstatement, hmore, hlater, rfl⟩ :=
      (statementsFrom?_succ_eq_some_iff htext).mp hread
    obtain ⟨cs, _, rfl, _⟩ | ⟨cs, _, rfl, _⟩ | ⟨_, path', behind', literal, hpath', hliteral,
      rfl⟩ := statement?_eq_some_iff.mp hstatement
    · exact absurd rfl hopen
    · exact absurd rfl hopen
    obtain ⟨rfl, hbehind⟩ := Prod.mk.inj (keyPath?_unique hpath hpath')
    obtain ⟨_, rfl⟩ := List.cons.inj hbehind
    obtain ⟨lead, value, hvaries, rfl, hlead, hall⟩ := h limit literal after hliteral
    obtain ⟨key, rfl, _, hkey⟩ := keyPath?_front hpath
    obtain ⟨spaces, rfl, hspaces⟩ := spaces_front hlead
    refine ⟨key ++ '=' :: (spaces ++ lead), _,
      ⟨[], _, later, .assign path value hvaries⟩, rfl, by simp, by simp,
      fun v hv limit' fuel' hlimit hfuel => ?_⟩
    have hne := append_quotedBefore_ne_nil (key ++ '=' :: (spaces ++ lead)) v rest
    have hpositive := List.length_pos_iff.mpr hne
    obtain ⟨fuel', rfl⟩ := Nat.exists_eq_succ_of_ne_zero (show fuel' ≠ 0 by omega)
    have hassign : statement? limit' (key ++ '=' :: (spaces ++ lead) ++ quotedBefore v rest) =
        some (.assign path (value v), after) := by
      simp only [List.append_assoc, List.cons_append, List.length_append, List.length_cons,
        valueNeed] at hlimit ⊢
      have hvalueFuel : valueNeed (lead ++ quotedBefore v rest).length ≤ limit' := by
        rw [List.length_append, valueNeed]
        omega
      refine statement?_eq_some_iff.mpr (.inr (.inr ⟨?_, path, _, value v,
        hkey limit' _ (by omega) rfl, ?_, rfl⟩))
      · rwa [head?_append_cons key '=' (spaces ++ (lead ++ quotedBefore w rest))]
      · rw [hspaces _ (head?_append_quotedBefore rest lead v w)]
        exact hall v hv limit' hvalueFuel
    have hafter := (statement?_front hassign).length_lt
    obtain ⟨lineEnd, rfl, _⟩ := lineEnd?_front hmore
    rw [List.length_append] at hafter
    refine (statementsFrom?_succ_eq_some_iff hne).mpr ⟨_, _, more, later, hassign, hmore, ?_, rfl⟩
    refine statementsFrom?_eq_of_length hlater (Nat.le_trans (valueNeed_le ?_) hlimit) ?_
    · omega
    · omega

theorem statementsVaryAt_laterStatement {fuel₀ : Nat} {text behind₀ more : List Char}
    {statement : Statement} (hstatement : statement? fuel₀ text = some (statement, behind₀))
    (hmore : lineEnd? behind₀ = some more) (h : StatementsVaryAt rest w more) :
    StatementsVaryAt rest w text := by
  intro limit fuel statements hread
  have htext : text ≠ [] :=
    List.length_pos_iff.mp (Nat.zero_lt_of_lt (statement?_front hstatement).length_lt)
  cases fuel with
  | zero => cases text with
    | nil => exact absurd rfl htext
    | cons c cs => cases hread
  | succ fuel =>
    obtain ⟨_, _, _, later, hstatement', hmore', hlater, rfl⟩ :=
      (statementsFrom?_succ_eq_some_iff htext).mp hread
    obtain ⟨rfl, rfl⟩ :=
      (statement?_front hstatement).unique valueNeed_le (statement?_front hstatement')
    rw [hmore, Option.some.injEq] at hmore'
    subst hmore'
    obtain ⟨lead, list, hvaries, rfl, rfl, hne, hall⟩ := h limit fuel later hlater
    obtain ⟨front, rfl, hfrontNe, hfront⟩ := statement?_front hstatement
    obtain ⟨lineEnd, rfl, hlineEnd⟩ := lineEnd?_front hmore
    refine ⟨front ++ (lineEnd ++ lead), _, hvaries.cons statement, rfl, by simp, by simp [hne],
      fun v hv limit' fuel' hlimit hfuel => ?_⟩
    have hlength := List.length_pos_iff.mpr hfrontNe
    simp only [List.append_assoc, List.length_append, valueNeed] at hlimit hfuel ⊢
    obtain ⟨fuel', rfl⟩ := Nat.exists_eq_succ_of_ne_zero (show fuel' ≠ 0 by omega)
    have hlimitFront : valueNeed front.length ≤ limit' := by
      unfold valueNeed
      omega
    have hlimitMore : valueNeed (lead ++ quotedBefore v rest).length ≤ limit' := by
      rw [List.length_append, valueNeed]
      omega
    have hfuelMore : (lead ++ quotedBefore v rest).length ≤ fuel' := by
      rw [List.length_append]
      omega
    -- the place lies at least one character behind the statement
    have hbegins : (lineEnd ++ (lead ++ quotedBefore v rest)).take 2 =
        (lineEnd ++ (lead ++ quotedBefore w rest)).take 2 := by
      obtain ⟨c, lead, rfl⟩ := List.exists_cons_of_ne_nil hne
      exact take_two_append_cons (head?_append_quotedBefore rest lead v w) lineEnd c
    exact (statementsFrom?_succ_eq_some_iff (by simp [hfrontNe])).mpr ⟨statement, _, _, list v,
      hfront limit' _ hlimitFront hbegins, hlineEnd _ (head?_append_quotedBefore rest lead v w),
      hall v hv limit' fuel' hlimitMore hfuelMore, rfl⟩

theorem withoutMark_front (text : List Char) : ∃ mark, text = mark ++ withoutMark text ∧
    ∀ other, other.head? = (withoutMark text).head? → withoutMark (mark ++ other) = other := by
  unfold withoutMark
  split
  · exact ⟨['\uFEFF'], rfl, fun other _ => rfl⟩
  · next hmark =>
    refine ⟨[], rfl, fun other hother => ?_⟩
    rw [List.nil_append]
    split
    · next text' =>
      obtain ⟨more, rfl⟩ := List.head?_eq_some_iff.mp hother.symm
      exact absurd rfl (hmark more)
    · rfl

/-- What a document with a plain string at a place writes is the same, but for this string, with
any other plain string there. -/
def DocumentVariesAt (rest : List Char) (w : String) (text : List Char) : Prop :=
  ∀ statements, statements? text = some statements →
    ∃ lead list, Within Statement.Varies list ∧ list w = statements ∧
      text = lead ++ quotedBefore w rest ∧
        ∀ v, IsPlain v → statements? (lead ++ quotedBefore v rest) = some (list v)

theorem documentVariesAt {text start : List Char}
    (hstart : gap? false (withoutMark text) = some start) (h : StatementsVaryAt rest w start) :
    DocumentVariesAt rest w text := by
  intro statements hread
  unfold statements? at hread
  rw [hstart] at hread
  obtain ⟨lead, list, hvaries, rfl, rfl, hne, hall⟩ := h _ _ statements hread
  obtain ⟨gap, hgapEq, hgap⟩ := gap?_front hstart
  obtain ⟨mark, hmarkEq, hmark⟩ := withoutMark_front text
  refine ⟨mark ++ (gap ++ lead), list, hvaries, rfl, ?_, fun v hv => ?_⟩
  · rw [hmarkEq, hgapEq]
    simp only [List.append_assoc]
  · have hhead := head?_append_quotedBefore rest lead v w
    have hbody : withoutMark (mark ++ (gap ++ (lead ++ quotedBefore v rest))) =
        gap ++ (lead ++ quotedBefore v rest) := by
      refine hmark _ ?_
      rw [hgapEq, head?_append_congr hhead]
    simp only [List.append_assoc, statements?, hbody, hgap _ hhead]
    refine hall v hv _ _ ?_ ?_
    · simp only [valueNeed, List.length_append]
      omega
    · simp only [List.length_append]
      omega

/-- What a reader reads varies with the string at a place. -/
def Reading.VariesAt (rest : List Char) (w : String) : Reading → List Char → Prop
  | .value room => Toml.VariesAt rest w Literal.Varies (readValue? · room) valueNeed
  | .items room => Toml.VariesAt rest w (Within Literal.Varies) (readItems? · room) innerNeed
  | .member room => Toml.VariesAt rest w (Under Literal.Varies) (readMember? · room) valueNeed
  | .members room =>
    Toml.VariesAt rest w (Within (Under Literal.Varies)) (readMembers? · room) innerNeed
  | .statements => StatementsVaryAt rest w
  | .document => DocumentVariesAt rest w

/-- What a reader reads varies with the string at a place for which it asks. -/
theorem Asks.variesAt (hw : IsPlain w) (hrest : rest.head? ≠ some '"') {reading : Reading}
    {text : List Char} (h : Asks (quotedBefore w rest) reading text) :
    reading.VariesAt rest w text := by
  induction h with
  | here room => exact variesAt_here hw hrest room
  | array room inside _ ih =>
    refine variesAt_enclosed (fun _ _ => readValue?_array _ _ _) (fun _ hxs => ?_) ih
    obtain ⟨before, item, after, hitem⟩ := hxs
    exact .item before item after hitem
  | table room inside _ ih =>
    refine variesAt_enclosed (fun _ _ => readValue?_table _ _ _) (fun _ hxs => ?_) ih
    obtain ⟨before, _, after, path, value, hvalue⟩ := hxs
    exact .member before path value after hvalue
  | item room text start hstart hvalue ih =>
    exact variesAt_first (readsList_items room) readOff_readValue? readOff_readItems? hstart
      hvalue.head?_value ih
  | laterItem room fuel text start behind more item hstart hitem hstop _ ih =>
    exact variesAt_later (readsList_items room) (by decide) readOff_readValue? hstart
      (head?_of_readValue? hitem) hitem hstop ih
  | memberValue room fuel text behind sign written path hpath hsign hwritten _ ih =>
    exact variesAt_memberValue hpath hsign hwritten ih
  | member room text start hstart hmember ih =>
    exact variesAt_first (readsList_members room) readOff_readMember? readOff_readMembers? hstart
      hmember.head?_member ih
  | laterMember room fuel text start behind more member hstart hmember hstop _ ih =>
    exact variesAt_later (readsList_members room) (by decide) readOff_readMember? hstart
      (head?_of_readMember? hmember) hmember hstop ih
  | assignment fuel text behind path hopen hpath _ ih =>
    exact statementsVaryAt_assignment hopen hpath ih
  | laterStatement fuel text behind more statement hstatement hmore _ ih =>
    exact statementsVaryAt_laterStatement hstatement hmore ih
  | document text start hstart _ ih => exact documentVariesAt hstart ih

/-- Behind the same text any plain string can stand where one is asked for. -/
theorem statements?_varies {lead : List Char} (hw : IsPlain w) (hrest : rest.head? ≠ some '"')
    (h : Asks (quotedBefore w rest) .document (lead ++ quotedBefore w rest))
    {statements : List Statement}
    (hread : statements? (lead ++ quotedBefore w rest) = some statements) :
    ∃ list, Within Statement.Varies list ∧
      ∀ v, IsPlain v → statements? (lead ++ quotedBefore v rest) = some (list v) := by
  obtain ⟨lead', list, hvaries, _, hlead, hall⟩ := h.variesAt hw hrest statements hread
  rw [List.append_cancel_right hlead]
  exact ⟨list, hvaries, hall⟩

end

end IdentityProvider.Toml
