import IdentityProvider.CommandLine
import IdentityProvider.Proofs.Traversal

/-
  The command lines that are accepted.

  A word may name an option, with or without a value joined to it (`Joins`); so an option is
  spelled by one word or by two (`Spells`).  A line is accepted just if it is made of spelled
  options, each with a value that it takes and none given twice, and perhaps the escape at the end
  (`Accepts`, `readWords_eq_ok_iff`).
-/

namespace IdentityProvider.CommandLine

open Traversal

/-! ## Words -/

/-- The bytes of a word. -/
def Word.bytes : Word → List UInt8
  | .escape => [hyphen, hyphen]
  | .long name none => hyphen :: hyphen :: name
  | .long name (some value) => hyphen :: hyphen :: (name ++ equalsSign :: value)
  | .short letter rest => hyphen :: letter :: rest
  | .plain bytes => bytes

theorem Word.bytes_ofBytes (bytes : List UInt8) : (Word.ofBytes bytes).bytes = bytes := by
  unfold Word.ofBytes
  split
  · rfl
  · next bytes _ =>
    cases hrest : bytes.dropWhile (· ≠ equalsSign) with
    | nil =>
      have hname : bytes.takeWhile (· ≠ equalsSign) = bytes := by
        have happend := List.takeWhile_append_dropWhile (p := (· ≠ equalsSign)) (l := bytes)
        rwa [hrest, List.append_nil] at happend
      exact congrArg (hyphen :: hyphen :: ·) hname
    | cons sign value =>
      have happend := List.takeWhile_append_dropWhile (p := (· ≠ equalsSign)) (l := bytes)
      have hsign : sign = equalsSign := by
        have h := List.head?_dropWhile_not (· ≠ equalsSign) bytes
        rw [hrest] at h
        simpa using h
      rw [hrest, hsign] at happend
      exact congrArg (hyphen :: hyphen :: ·) happend
  · rfl
  · rfl

/-- The long name of an option, with its hyphens. -/
def Setting.flag (setting : Setting) : List UInt8 := hyphen :: hyphen :: setting.longName

/-- The word names the option, with this value joined to it or none. -/
inductive Joins : List UInt8 → Setting → Option (List UInt8) → Prop
  | long (setting : Setting) : Joins setting.flag setting none
  | longEquals (setting : Setting) (value : List UInt8) :
    Joins (setting.flag ++ equalsSign :: value) setting (some value)
  | letter : Joins [hyphen, 'c'.toUInt8] .config none
  | letterEquals (value : List UInt8) :
    Joins (hyphen :: 'c'.toUInt8 :: equalsSign :: value) .config (some value)
  | letterJoined (value : List UInt8) : value ≠ [] → value.head? ≠ some equalsSign →
    Joins (hyphen :: 'c'.toUInt8 :: value) .config (some value)

/-- The option that a word names, and the value that is joined to it. -/
def Word.option? : Word → Option (Setting × Option (List UInt8))
  | .long name value =>
    if name = Setting.config.longName then some (.config, value)
    else if name = Setting.listen.longName then some (.listen, value)
    else none
  | .short letter rest => if letter = 'c'.toUInt8 then some (.config, joinedValue rest) else none
  | .plain _ => none
  | .escape => none

theorem ofBytes_flag (setting : Setting) :
    Word.ofBytes setting.flag = .long setting.longName none := by
  cases setting <;> rfl

theorem ofBytes_flag_equals (setting : Setting) (value : List UInt8) :
    Word.ofBytes (setting.flag ++ equalsSign :: value) = .long setting.longName (some value) := by
  cases setting <;> rfl

theorem option?_long (setting : Setting) (value : Option (List UInt8)) :
    (Word.long setting.longName value).option? = some (setting, value) := by
  cases setting <;> rfl

theorem joinedValue_of_head {value : List UInt8} (hne : value ≠ [])
    (hhead : value.head? ≠ some equalsSign) : joinedValue value = some value := by
  unfold joinedValue
  split
  · exact absurd rfl hne
  · exact absurd rfl hhead
  · rfl

theorem option?_eq_some_iff {word : Word} {setting : Setting} {joined : Option (List UInt8)} :
    word.option? = some (setting, joined) ↔ word = .long setting.longName joined ∨
      ∃ rest, word = .short 'c'.toUInt8 rest ∧ setting = .config ∧
        joinedValue rest = joined := by
  constructor
  · intro h
    cases word with
    | escape | plain _ => cases h
    | long name value =>
      simp only [Word.option?] at h
      split at h
      · next hname =>
        cases h
        exact .inl (hname ▸ rfl)
      · split at h
        · next hname =>
          cases h
          exact .inl (hname ▸ rfl)
        · cases h
    | short letter rest =>
      simp only [Word.option?] at h
      split at h
      · next hletter =>
        cases h
        exact .inr ⟨rest, hletter ▸ rfl, rfl, rfl⟩
      · cases h
  · rintro (rfl | ⟨rest, rfl, rfl, rfl⟩)
    · exact option?_long setting joined
    · rfl

theorem joins_letter (rest : List UInt8) :
    Joins (hyphen :: 'c'.toUInt8 :: rest) .config (joinedValue rest) := by
  unfold joinedValue
  split
  · exact .letter
  · next value => exact .letterEquals value
  · next hne hhead =>
    refine .letterJoined rest hne fun h => ?_
    obtain ⟨value, rfl⟩ := List.head?_eq_some_iff.mp h
    exact hhead value rfl

/-- A word is taken for an option just if it spells one. -/
theorem joins_iff {bytes : List UInt8} {setting : Setting} {joined : Option (List UInt8)} :
    Joins bytes setting joined ↔ (Word.ofBytes bytes).option? = some (setting, joined) := by
  constructor
  · intro h
    cases h with
    | long => rw [ofBytes_flag, option?_long]
    | longEquals _ value => rw [ofBytes_flag_equals, option?_long]
    | letter => rfl
    | letterEquals value => rfl
    | letterJoined value hne hhead =>
      show some (Setting.config, joinedValue value) = some (.config, some value)
      rw [joinedValue_of_head hne hhead]
  · intro h
    rw [← Word.bytes_ofBytes bytes]
    rcases option?_eq_some_iff.mp h with hword | ⟨rest, hword, rfl, rfl⟩
    · rw [hword]
      cases joined with
      | none => exact .long setting
      | some value => exact .longEquals setting value
    · rw [hword]
      exact joins_letter rest

/-- The word does not begin with a hyphen, unless that is all of it. -/
def IsPlain (bytes : List UInt8) : Prop := ∀ next rest, bytes ≠ hyphen :: next :: rest

theorem ofBytes_eq_plain_iff {bytes other : List UInt8} :
    Word.ofBytes bytes = .plain other ↔ IsPlain bytes ∧ other = bytes := by
  constructor
  · intro h
    have hbytes := Word.bytes_ofBytes bytes
    rw [h] at hbytes
    refine ⟨?_, hbytes⟩
    rintro next rest rfl
    unfold Word.ofBytes at h
    split at h
    · cases h
    · cases h
    · cases h
    · next hnot => exact hnot next rest rfl
  · rintro ⟨hplain, rfl⟩
    unfold Word.ofBytes
    split
    · exact absurd rfl (hplain _ _)
    · exact absurd rfl (hplain _ _)
    · exact absurd rfl (hplain _ _)
    · rfl

theorem not_joins_of_isPlain {bytes : List UInt8} {setting : Setting} {joined : Option (List UInt8)}
    (h : IsPlain bytes) : ¬ Joins bytes setting joined := by
  rw [joins_iff, ofBytes_eq_plain_iff.mpr ⟨h, rfl⟩]
  exact nofun

/-- The words give the option with a value. -/
inductive Spells : Setting → List UInt8 → List (List UInt8) → Prop
  | apart {bytes : List UInt8} {setting : Setting} {value : List UInt8} :
    Joins bytes setting none → IsPlain value → Spells setting value [bytes, value]
  | joined {bytes : List UInt8} {setting : Setting} {value : List UInt8} :
    Joins bytes setting (some value) → Spells setting value [bytes]

/-! ## Reading words -/

section

variable {settled next final : Settled} {pending after : Pending} {setting : Setting}
  {bytes value : List UInt8} {joined : Option (List UInt8)} {line : List (List UInt8)}

theorem word_of_joins (h : Joins bytes setting joined) :
    settled.word pending (Word.ofBytes bytes) = settled.option pending setting joined := by
  rcases option?_eq_some_iff.mp (joins_iff.mp h) with hword | ⟨rest, hword, rfl, rfl⟩
  · rw [hword]
    cases setting <;> rfl
  · rw [hword]
    rfl

theorem help_ne_ok : settled.help pending ≠ .ok (next, after) := by
  unfold Settled.help
  split <;> exact nofun

/-- A word that is taken is the value that is waited for, or it spells an option. -/
theorem word_eq_ok (h : settled.word pending (Word.ofBytes bytes) = .ok (next, after))
    (hescape : Word.ofBytes bytes ≠ .escape) :
    (IsPlain bytes ∧ ∃ setting, pending = some (setting, none)) ∨
    ∃ setting joined, Joins bytes setting joined := by
  cases hword : Word.ofBytes bytes with
  | escape => exact absurd hword hescape
  | plain other =>
    obtain ⟨hplain, rfl⟩ := ofBytes_eq_plain_iff.mp hword
    rw [hword] at h
    simp only [Settled.word] at h
    split at h
    · next setting => exact .inl ⟨hplain, setting, rfl⟩
    · cases h
  | long name value =>
    refine .inr ?_
    simp only [joins_iff, hword]
    by_cases hconfig : name = Setting.config.longName
    · exact ⟨.config, value, hconfig ▸ option?_long .config value⟩
    by_cases hlisten : name = Setting.listen.longName
    · exact ⟨.listen, value, hlisten ▸ option?_long .listen value⟩
    rw [hword] at h
    simp only [Settled.word, if_neg hconfig, if_neg hlisten] at h
    split at h
    · split at h
      · cases h
      · exact absurd h help_ne_ok
    · cases h
  | short letter rest =>
    refine .inr ?_
    simp only [joins_iff, hword]
    by_cases hletter : letter = 'c'.toUInt8
    · exact ⟨.config, joinedValue rest, if_pos hletter⟩
    rw [hword] at h
    simp only [Settled.word, if_neg hletter] at h
    split at h
    · exact absurd h help_ne_ok
    · cases h

/-- The escape stands for itself. -/
theorem ofBytes_eq_escape_iff : Word.ofBytes bytes = .escape ↔ bytes = [hyphen, hyphen] := by
  constructor
  · intro h
    rw [← Word.bytes_ofBytes bytes, h]
    rfl
  · rintro rfl
    rfl

theorem readWords_cons (h : Word.ofBytes bytes ≠ .escape) :
    readWords settled pending (bytes :: line) =
      settled.word pending (Word.ofBytes bytes) >>= fun read => readWords read.1 read.2 line := by
  cases hword : Word.ofBytes bytes with
  | escape => exact absurd hword h
  | long name value | short letter rest | plain other =>
    simp only [readWords, hword]
    split
    · next herror => rw [herror]; rfl
    · next hok => rw [hok]; rfl

theorem readWords_of_joins (h : Joins bytes setting joined) :
    readWords settled pending (bytes :: line) =
      settled.option pending setting joined >>= fun read => readWords read.1 read.2 line := by
  have hescape : Word.ofBytes bytes ≠ .escape := by
    intro hword
    rw [joins_iff, hword] at h
    cases h
  rw [readWords_cons hescape, word_of_joins h]

theorem readWords_of_isPlain (h : IsPlain bytes) :
    readWords settled (some (setting, none)) (bytes :: line) =
      readWords settled (some (setting, some bytes)) line := by
  have hword := ofBytes_eq_plain_iff.mpr ⟨h, rfl⟩
  have hescape : Word.ofBytes bytes ≠ .escape := by
    rw [hword]
    exact nofun
  rw [readWords_cons hescape, hword]
  rfl

theorem readWords_escape : readWords settled pending ([hyphen, hyphen] :: line) = .ok final ↔
    line = [] ∧ settled.settle pending = .ok final := by
  have hword : Word.ofBytes [hyphen, hyphen] = .escape := rfl
  simp only [readWords, hword]
  split
  · next hempty => simp only [hempty, true_and]
  · next hempty => simp only [hempty, false_and, reduceCtorEq]

/-- What the first word of an accepted line is: the escape at the end, a value that is waited for,
or an option. -/
theorem readWords_cons_eq_ok (h : readWords settled pending (bytes :: line) = .ok final) :
    (bytes = [hyphen, hyphen] ∧ line = [] ∧ settled.settle pending = .ok final) ∨
    (∃ setting, IsPlain bytes ∧ pending = some (setting, none)) ∨
    ∃ setting joined next after, Joins bytes setting joined ∧
      settled.option pending setting joined = .ok (next, after) ∧
      readWords next after line = .ok final := by
  by_cases hescape : Word.ofBytes bytes = .escape
  · obtain rfl := ofBytes_eq_escape_iff.mp hescape
    exact .inl ⟨rfl, readWords_escape.mp h⟩
  · rw [readWords_cons hescape, bind_eq_ok_iff] at h
    obtain ⟨⟨next, after⟩, hword, hrest⟩ := h
    rcases word_eq_ok hword hescape with
      ⟨hplain, setting, hpending⟩ | ⟨setting, joined, hjoins⟩
    · exact .inr (.inl ⟨setting, hplain, hpending⟩)
    · rw [word_of_joins hjoins] at hword
      exact .inr (.inr ⟨setting, joined, next, after, hjoins, hword, hrest⟩)

theorem option_eq_ok_iff : settled.option pending setting joined = .ok (next, after) ↔
    ∃ middle, settled.settle pending = .ok middle ∧
      middle.option none setting joined = .ok (next, after) := by
  unfold Settled.option
  cases settled.settle pending with
  | error refusal => simp
  | ok middle => simp [Settled.settle]

/-- An option whose value has been read is settled before anything else. -/
theorem readWords_full : readWords settled (some (setting, some value)) line = .ok final ↔
    ∃ next, settled.give setting value = .ok next ∧ readWords next none line = .ok final := by
  cases line with
  | nil => simp [readWords, Settled.settle]
  | cons bytes line =>
    constructor
    · intro h
      rcases readWords_cons_eq_ok h with ⟨rfl, rfl, hsettle⟩ | ⟨_, -, hpending⟩ |
        ⟨other, joined, next, after, hjoins, hoption, hrest⟩
      · exact ⟨final, hsettle, rfl⟩
      · cases hpending
      · obtain ⟨middle, hgive, hoption⟩ := option_eq_ok_iff.mp hoption
        refine ⟨middle, hgive, ?_⟩
        rw [readWords_of_joins hjoins, hoption]
        exact hrest
    · rintro ⟨middle, hgive, h⟩
      rcases readWords_cons_eq_ok h with ⟨rfl, rfl, hsettle⟩ | ⟨_, -, hpending⟩ |
        ⟨other, joined, next, after, hjoins, hoption, hrest⟩
      · exact readWords_escape.mpr ⟨rfl, hgive.trans hsettle⟩
      · cases hpending
      · have hsettle : settled.settle (some (setting, some value)) = .ok middle := hgive
        rw [readWords_of_joins hjoins, option_eq_ok_iff.mpr ⟨middle, hsettle, hoption⟩]
        exact hrest

theorem readWords_spelled {words rest : List (List UInt8)} (h : Spells setting value words) :
    readWords settled none (words ++ rest) = .ok final ↔
      ∃ next, settled.give setting value = .ok next ∧ readWords next none rest = .ok final := by
  cases h with
  | apart hjoins hplain =>
    show readWords settled none (_ :: value :: rest) = .ok final ↔ _
    rw [readWords_of_joins hjoins]
    show readWords settled (some (setting, none)) (value :: rest) = .ok final ↔ _
    rw [readWords_of_isPlain hplain, readWords_full]
  | joined hjoins =>
    show readWords settled none (_ :: rest) = .ok final ↔ _
    rw [readWords_of_joins hjoins, bind_eq_ok_iff]
    show (∃ read, (settled.give setting value).map (·, none) = .ok read ∧ _) ↔ _
    simp only [map_eq_ok_iff]
    constructor
    · rintro ⟨_, ⟨next, hgive, rfl⟩, hrest⟩
      exact ⟨next, hgive, hrest⟩
    · rintro ⟨next, hgive, hrest⟩
      exact ⟨(next, none), ⟨next, hgive, rfl⟩, hrest⟩

/-- The first option of an accepted line is spelled in one of the ways there are. -/
theorem exists_spelled (h : readWords settled none (bytes :: line) = .ok final) :
    (bytes :: line = [[hyphen, hyphen]] ∧ settled = final) ∨
    ∃ setting value words rest, Spells setting value words ∧ bytes :: line = words ++ rest := by
  rcases readWords_cons_eq_ok h with ⟨rfl, rfl, hsettle⟩ | ⟨_, -, hpending⟩ |
    ⟨setting, joined, next, after, hjoins, hoption, hrest⟩
  · cases hsettle
    exact .inl ⟨rfl, rfl⟩
  · cases hpending
  · refine .inr ?_
    cases joined with
    | some value => exact ⟨setting, value, [bytes], line, .joined hjoins, rfl⟩
    | none =>
      cases hoption
      cases line with
      | nil => cases hrest
      | cons value rest =>
        rcases readWords_cons_eq_ok hrest with ⟨-, -, hsettle⟩ | ⟨_, hplain, -⟩ |
          ⟨other, joined, next, after, -, hoption, -⟩
        · cases hsettle
        · exact ⟨setting, value, [bytes, value], rest, .apart hjoins hplain, rfl⟩
        · cases hoption

end

/-! ## Accepted lines -/

/-- The line is accepted: from the values settled before it comes to these values. -/
inductive Accepts : Settled → List (List UInt8) → Settled → Prop
  | done (settled : Settled) : Accepts settled [] settled
  | escaped (settled : Settled) : Accepts settled [[hyphen, hyphen]] settled
  | option {settled next final : Settled} {setting : Setting} {value : List UInt8}
    {words rest : List (List UInt8)} : Spells setting value words →
    settled.give setting value = .ok next → Accepts next rest final →
    Accepts settled (words ++ rest) final

theorem Spells.length_pos {setting : Setting} {value : List UInt8} {words : List (List UInt8)}
    (h : Spells setting value words) : 0 < words.length := by
  cases h <;> exact Nat.succ_pos _

theorem Accepts.readWords_eq {settled final : Settled} {line : List (List UInt8)}
    (h : Accepts settled line final) : readWords settled none line = .ok final := by
  induction h with
  | done settled | escaped settled => rfl
  | option hspells hgive _ ih => exact (readWords_spelled hspells).mpr ⟨_, hgive, ih⟩

theorem accepts_of_readWords {settled final : Settled} {line : List (List UInt8)}
    (h : readWords settled none line = .ok final) : Accepts settled line final := by
  obtain ⟨n, hn⟩ : ∃ n, line.length ≤ n := ⟨_, Nat.le_refl _⟩
  induction n generalizing settled line with
  | zero =>
    obtain rfl := List.eq_nil_of_length_eq_zero (Nat.le_zero.mp hn)
    cases h
    exact .done _
  | succ n ih =>
    cases line with
    | nil =>
      cases h
      exact .done _
    | cons bytes line =>
      rcases exists_spelled h with ⟨hline, rfl⟩ | ⟨setting, value, words, rest, hspells, hline⟩
      · exact hline ▸ .escaped settled
      · rw [hline] at h hn ⊢
        obtain ⟨next, hgive, hrest⟩ := (readWords_spelled hspells).mp h
        rw [List.length_append] at hn
        have hpos := hspells.length_pos
        exact .option hspells hgive (ih hrest (by omega))

/-- A line is accepted just if it is laid out so. -/
theorem readWords_eq_ok_iff {settled final : Settled} {line : List (List UInt8)} :
    readWords settled none line = .ok final ↔ Accepts settled line final :=
  ⟨accepts_of_readWords, Accepts.readWords_eq⟩

end IdentityProvider.CommandLine
