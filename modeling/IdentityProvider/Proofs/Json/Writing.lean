import IdentityProvider.Proofs.Json.Lexing

/-
  What is written of a value reads as its tokens.

  A number is the one token that does not say itself where it ends, so it does not leave the lexer
  between tokens.  `Lexer.Settles cs ts` asks for less than a reading: behind the characters `cs`
  the text may end, or a comma or a closing mark may come, and then the tokens are `ts`.  In what
  is written nothing else stands behind a value (`Settles.reads_append`), so this carries over to
  arrays and objects, and every value whose numbers are numbers of the format (`WellFormed`) has a
  text with exactly its tokens (`WellFormed.tokensOf_render`).
-/

namespace IdentityProvider.Json

/-! ## The numbers of the format -/

/-- One or more decimal digits. -/
def IsDigits (cs : List Char) : Prop := cs ≠ [] ∧ ∀ c ∈ cs, c.isDigit

/-- The part of a number in front of its point: a zero stands alone. -/
inductive IsWhole : List Char → Prop
  | zero : IsWhole ['0']
  | digits {c : Char} {cs : List Char} :
    c.isDigit → c ≠ '0' → (∀ d ∈ cs, d.isDigit) → IsWhole (c :: cs)

/-- The part of a number from its point on, if it has one. -/
inductive IsFraction : List Char → Prop
  | none : IsFraction []
  | point {cs : List Char} : IsDigits cs → IsFraction ('.' :: cs)

/-- The exponent of a number, if it has one. -/
inductive IsExponent : List Char → Prop
  | none : IsExponent []
  | mark {c : Char} {sign cs : List Char} :
    c = 'e' ∨ c = 'E' → sign = [] ∨ sign = ['+'] ∨ sign = ['-'] → IsDigits cs →
      IsExponent (c :: (sign ++ cs))

/-- A number as the format has it. -/
inductive IsNumber : List Char → Prop
  | mk {sign whole fraction exponent : List Char} :
    sign = [] ∨ sign = ['-'] → IsWhole whole → IsFraction fraction → IsExponent exponent →
      IsNumber (sign ++ (whole ++ (fraction ++ exponent)))

namespace Lexer

namespace NumberPart

/-- The parts of a number in which a further digit changes nothing. -/
def Stays (part : NumberPart) : Prop := ∀ c, c.isDigit → part.next? c = some part

theorem stays_whole : Stays .whole := fun _ h => if_pos h

theorem stays_fraction : Stays .fraction := fun _ h => if_pos h

theorem stays_exponent : Stays .exponent := fun _ h => if_pos h

theorem Stays.foldlM {part : NumberPart} (h : part.Stays) {cs : List Char}
    (hcs : ∀ c ∈ cs, c.isDigit) : cs.foldlM next? part = some part := by
  induction cs with
  | nil => rfl
  | cons c cs ih =>
    rw [List.forall_mem_cons] at hcs
    rw [List.foldlM_cons, h c hcs.1]
    exact ih hcs.2

/-- Digits lead from a part that waits for one into the part that they make up. -/
theorem foldlM_digits {part into : NumberPart} (hinto : into.Stays)
    (hpart : ∀ c, c.isDigit → part.next? c = some into) {cs : List Char} (h : IsDigits cs) :
    cs.foldlM next? part = some into := by
  obtain ⟨hne, hdigits⟩ := h
  cases cs with
  | nil => exact absurd rfl hne
  | cons c cs =>
    rw [List.forall_mem_cons] at hdigits
    rw [List.foldlM_cons, hpart c hdigits.1]
    exact hinto.foldlM hdigits.2

theorem next?_sign {c : Char} (hdigit : c.isDigit) (hzero : c ≠ '0') :
    next? .sign c = some .whole := by
  show (if c = '0' then _ else if c.isDigit then _ else _) = _
  rw [if_neg hzero, if_pos hdigit]

theorem next?_mark {c : Char} (h : c.isDigit) : next? .mark c = some .exponent := if_pos h

theorem next?_point {c : Char} (h : c.isDigit) : next? .point c = some .fraction := if_pos h

theorem next?_exponentSign {c : Char} (h : c.isDigit) : next? .exponentSign c = some .exponent :=
  if_pos h

/-- A whole part, met behind a sign, leaves the number where it may end or go on. -/
theorem foldlM_whole {cs : List Char} (h : IsWhole cs) :
    ∃ part, cs.foldlM next? sign = some part ∧ (part = .zero ∨ part = .whole) := by
  cases h with
  | zero => exact ⟨.zero, rfl, .inl rfl⟩
  | digits hdigit hzero hdigits =>
    refine ⟨.whole, ?_, .inr rfl⟩
    rw [List.foldlM_cons, next?_sign hdigit hzero]
    exact stays_whole.foldlM hdigits

theorem foldlM_fraction {cs : List Char} (h : IsFraction cs) {part : NumberPart}
    (hpart : part = .zero ∨ part = .whole) :
    ∃ part', cs.foldlM next? part = some part' ∧
      (part' = .zero ∨ part' = .whole ∨ part' = .fraction) := by
  cases h with
  | none => exact ⟨part, rfl, hpart.imp_right .inl⟩
  | point hdigits =>
    have hpoint : part.next? '.' = some .point := by rcases hpart with rfl | rfl <;> rfl
    refine ⟨.fraction, ?_, .inr (.inr rfl)⟩
    rw [List.foldlM_cons, hpoint]
    exact foldlM_digits stays_fraction (fun _ => next?_point) hdigits

theorem foldlM_exponent {cs : List Char} (h : IsExponent cs) {part : NumberPart}
    (hpart : part = .zero ∨ part = .whole ∨ part = .fraction) :
    ∃ part', cs.foldlM next? part = some part' ∧ part'.isEnd = true := by
  cases h with
  | none => exact ⟨part, rfl, by rcases hpart with rfl | rfl | rfl <;> rfl⟩
  | @mark c sign cs hmark hsign hdigits =>
    have hnext : part.next? c = some .mark := by
      rcases hmark with rfl | rfl <;> rcases hpart with rfl | rfl | rfl <;> rfl
    refine ⟨.exponent, ?_, rfl⟩
    rw [List.foldlM_cons, hnext]
    rcases hsign with rfl | rfl | rfl
    · exact foldlM_digits stays_exponent (fun _ => next?_mark) hdigits
    · exact foldlM_digits stays_exponent (fun _ => next?_exponentSign) hdigits
    · exact foldlM_digits stays_exponent (fun _ => next?_exponentSign) hdigits

end NumberPart

/-- A character that may stand behind a value in what is written. -/
def IsDelimiter (c : Char) : Prop := c = ',' ∨ c = ']' ∨ c = '\x7d'

/-- Behind these characters, met where a token may start, the text may end or a delimiter may
come, and then they have come to these tokens. -/
structure Settles (cs : List Char) (ts : List Token) : Prop where
  ends : ∀ before,
    ((cs.map some).foldl Progress.step ⟨.between, before⟩).finish = before.reverse ++ ts
  delimited : ∀ before c, IsDelimiter c →
    ((cs.map some).foldl Progress.step ⟨.between, before⟩).step (some c) =
      Progress.step ⟨.between, ts.reverse ++ before⟩ (some c)

theorem Reads.settles {cs : List Char} {ts : List Token} (h : Reads cs ts) : Settles cs ts where
  ends before := by
    rw [h before]
    show (ts.reverse ++ before).reverse = _
    rw [List.reverse_append, List.reverse_reverse]
  delimited before c _ := by rw [h before]

theorem Settles.reads_append {cs ds : List Char} {ts us : List Token} (h : Settles cs ts)
    {c : Char} (hc : IsDelimiter c) (h' : Reads (c :: ds) us) :
    Reads (cs ++ c :: ds) (ts ++ us) := by
  intro before
  have hrest := h' (ts.reverse ++ before)
  rw [List.map_cons, List.foldl_cons] at hrest
  rw [List.map_append, List.foldl_append, List.map_cons, List.foldl_cons, h.delimited before c hc,
    hrest, List.reverse_append, List.append_assoc]

/-! ## Numbers -/

/-- A number goes on as long as its parts follow one another. -/
theorem foldl_number_part {cs : List Char} {part part' : NumberPart}
    (h : cs.foldlM NumberPart.next? part = some part') (seen : List Char) (before : List Token) :
    (cs.map some).foldl Progress.step ⟨.number part seen, before⟩ =
      ⟨.number part' (cs.reverse ++ seen), before⟩ := by
  induction cs generalizing part seen with
  | nil =>
    obtain rfl : part = part' := Option.some.inj h
    rfl
  | cons c cs ih =>
    rw [List.foldlM_cons] at h
    obtain ⟨next, hnext, hrest⟩ := Option.bind_eq_some_iff.mp h
    have hstep : Progress.step ⟨.number part seen, before⟩ (some c) =
        ⟨.number next (c :: seen), before⟩ := by
      simp only [Progress.step, hnext]
    rw [List.map_cons, List.foldl_cons, hstep, ih hrest, List.reverse_cons, List.append_assoc]
    rfl

theorem betweenStep_digit {c : Char} (h : c.isDigit) :
    betweenStep c = (.number (if c = '0' then .zero else .whole) [c], none) := by
  have hne (d : Char) (hd : d.isDigit = false) : c ≠ d := by
    rintro rfl
    exact absurd h (by rw [hd]; decide)
  unfold betweenStep
  rw [if_neg (by simp [hne ' ' rfl, hne '\t' rfl, hne '\n' rfl, hne '\r' rfl]),
    if_neg (hne _ rfl), if_neg (hne _ rfl), if_neg (hne _ rfl), if_neg (hne _ rfl),
    if_neg (hne _ rfl), if_neg (hne _ rfl), if_neg (hne _ rfl), if_neg (hne _ rfl),
    if_neg (hne _ rfl), if_neg (hne _ rfl), if_neg (hne _ rfl)]
  split
  · next hzero => rw [hzero]
  · rfl

/-- The whole part of a number starts it as it goes on behind a sign. -/
theorem foldl_whole {cs : List Char} (h : IsWhole cs) {part : NumberPart}
    (hpart : cs.foldlM NumberPart.next? .sign = some part) (before : List Token) :
    (cs.map some).foldl Progress.step ⟨.between, before⟩ =
      ⟨.number part cs.reverse, before⟩ := by
  cases h with
  | zero =>
    obtain rfl : NumberPart.zero = part := Option.some.inj hpart
    rfl
  | @digits c cs hdigit hzero hdigits =>
    rw [List.foldlM_cons, NumberPart.next?_sign hdigit hzero] at hpart
    have hstep : Progress.step ⟨.between, before⟩ (some c) = ⟨.number .whole [c], before⟩ := by
      show Progress.move before (betweenStep c) = _
      rw [betweenStep_digit hdigit, if_neg hzero]
      rfl
    rw [List.map_cons, List.foldl_cons, hstep, foldl_number_part hpart, List.reverse_cons]

/-- A number, met where a token may start, leaves the lexer where it may end. -/
theorem foldl_isNumber {cs : List Char} (h : IsNumber cs) (before : List Token) :
    ∃ part, NumberPart.isEnd part = true ∧
      (cs.map some).foldl Progress.step ⟨.between, before⟩ = ⟨.number part cs.reverse, before⟩ := by
  -- each part starts where the one in front of it may end
  obtain ⟨hsign, hwhole, hfraction, hexponent⟩ := h
  obtain ⟨inWhole, hwholeRun, hin⟩ := NumberPart.foldlM_whole hwhole
  obtain ⟨inFraction, hfractionRun, hin⟩ := NumberPart.foldlM_fraction hfraction hin
  obtain ⟨part, hexponentRun, hend⟩ := NumberPart.foldlM_exponent hexponent hin
  refine ⟨part, hend, ?_⟩
  simp only [List.map_append, List.foldl_append, List.reverse_append, List.append_assoc]
  rcases hsign with rfl | rfl
  · rw [List.map_nil, List.foldl_nil, foldl_whole hwhole hwholeRun,
      foldl_number_part hfractionRun, foldl_number_part hexponentRun, List.reverse_nil,
      List.append_nil]
  · have hminus : (['-'].map some).foldl Progress.step ⟨.between, before⟩ =
        ⟨.number .sign ['-'], before⟩ := rfl
    rw [hminus, foldl_number_part hwholeRun, foldl_number_part hfractionRun,
      foldl_number_part hexponentRun]
    rfl

/-- A delimiter does not belong to the number in front of it. -/
theorem step_delimiter {part : NumberPart} (hend : part.isEnd = true) {c : Char}
    (hc : IsDelimiter c) (seen : List Char) (before : List Token) :
    Progress.step ⟨.number part seen, before⟩ (some c) =
      Progress.step ⟨.between, numberToken seen :: before⟩ (some c) := by
  rcases hc with rfl | rfl | rfl <;> cases part <;> first | rfl | cases hend

theorem settles_number {cs : List Char} (h : IsNumber cs) :
    Settles cs [.number (Numeral.ofLexeme cs)] where
  ends before := by
    obtain ⟨part, hend, hrun⟩ := foldl_isNumber h before
    rw [hrun, Progress.finish]
    dsimp only
    rw [if_pos hend, numberToken, List.reverse_reverse, List.reverse_cons]
  delimited before c hc := by
    obtain ⟨part, hend, hrun⟩ := foldl_isNumber h before
    rw [hrun, step_delimiter hend hc, numberToken, List.reverse_reverse]
    rfl

end Lexer

/-! ## Values -/

open Lexer (Reads Settles IsDelimiter reads_char reads_quote)

/-- A value whose numbers are numbers of the format. -/
inductive WellFormed : Json → Prop
  | null : WellFormed .null
  | boolean (value : Bool) : WellFormed (.boolean value)
  | number {lexeme : List Char} : IsNumber lexeme → WellFormed (.number lexeme)
  | string (text : List Char) : WellFormed (.string text)
  | array {items : List Json} : (∀ item ∈ items, WellFormed item) → WellFormed (.array items)
  | object {members : List (List Char × Json)} :
    (∀ member ∈ members, WellFormed member.2) → WellFormed (.object members)

/-- A value without numbers and words: texts, and arrays and objects of such values. -/
inductive Textual : Json → Prop
  | string (text : List Char) : Textual (.string text)
  | array (items : List Json) : (∀ item ∈ items, Textual item) → Textual (.array items)
  | object (members : List (List Char × Json)) :
    (∀ member ∈ members, Textual member.2) → Textual (.object members)

theorem Textual.wellFormed {value : Json} (h : Textual value) : WellFormed value := by
  induction h with
  | string text => exact .string text
  | array _ _ ih => exact .array ih
  | object _ _ ih => exact .object ih

theorem writeItems_eq_cons (items : List Json) :
    ∃ c cs, writeItems items = c :: cs ∧ IsDelimiter c := by
  cases items with
  | nil => exact ⟨_, _, rfl, .inr (.inl rfl)⟩
  | cons item items => exact ⟨_, _, rfl, .inl rfl⟩

theorem writeMembers_eq_cons (members : List (List Char × Json)) :
    ∃ c cs, writeMembers members = c :: cs ∧ IsDelimiter c := by
  cases members with
  | nil => exact ⟨_, _, rfl, .inr (.inr rfl)⟩
  | cons member members => exact ⟨_, _, rfl, .inl rfl⟩

theorem reads_item {item : Json} (h : Settles item.write item.tokens) {items : List Json}
    {ts : List Token} (hitems : Reads (writeItems items) ts) :
    Reads (item.write ++ writeItems items) (item.tokens ++ ts) := by
  obtain ⟨c, cs, heq, hc⟩ := writeItems_eq_cons items
  rw [heq] at hitems ⊢
  exact h.reads_append hc hitems

theorem reads_writeItems {items : List Json}
    (h : ∀ item ∈ items, Settles item.write item.tokens) :
    Reads (writeItems items) (itemsTokens items) := by
  induction items with
  | nil => exact reads_char rfl
  | cons item items ih =>
    rw [List.forall_mem_cons] at h
    exact (reads_item h.1 (ih h.2)).cons rfl

theorem reads_member {name : List Char} {value : Json} (h : Settles value.write value.tokens)
    {members : List (List Char × Json)} {ts : List Token}
    (hmembers : Reads (writeMembers members) ts) :
    Reads (quote name ++ ':' :: (value.write ++ writeMembers members))
      (.string (some name) :: .colon :: (value.tokens ++ ts)) := by
  obtain ⟨c, cs, heq, hc⟩ := writeMembers_eq_cons members
  rw [heq] at hmembers ⊢
  exact (reads_quote name).append ((h.reads_append hc hmembers).cons rfl)

theorem reads_writeMembers {members : List (List Char × Json)}
    (h : ∀ member ∈ members, Settles member.2.write member.2.tokens) :
    Reads (writeMembers members) (membersTokens members) := by
  induction members with
  | nil => exact reads_char rfl
  | cons member members ih =>
    rw [List.forall_mem_cons] at h
    exact (reads_member h.1 (ih h.2)).cons rfl

theorem WellFormed.settles {value : Json} (h : WellFormed value) :
    Settles value.write value.tokens := by
  induction h with
  | null => exact Reads.settles fun _ => rfl
  | boolean value => cases value <;> exact Reads.settles fun _ => rfl
  | number hnumber => exact Lexer.settles_number hnumber
  | string text => exact (reads_quote text).settles
  | @array items _ ih =>
    cases items with
    | nil => exact ((reads_char rfl).append (reads_char rfl)).settles
    | cons item items =>
      rw [List.forall_mem_cons] at ih
      exact ((reads_item ih.1 (reads_writeItems ih.2)).cons rfl).settles
  | @object members _ ih =>
    cases members with
    | nil => exact ((reads_char rfl).append (reads_char rfl)).settles
    | cons member members =>
      rw [List.forall_mem_cons] at ih
      exact ((reads_member ih.1 (reads_writeMembers ih.2)).cons rfl).settles

/-- The text of a value has the tokens of that value. -/
theorem WellFormed.tokensOf_render {value : Json} (h : WellFormed value) :
    tokensOf (value.render.toList.map some) = value.tokens := by
  rw [render, String.toList_ofList]
  exact h.settles.ends []

end IdentityProvider.Json
