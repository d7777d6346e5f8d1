import IdentityProvider.Text.Utf8

/-
  The order of texts and the order of their bytes.

  Texts are compared character by character, by code points.  UTF-8 keeps that order: where two
  characters differ, their encodings differ at some byte, and the first such byte decides in the
  same way (`differsBelow_utf8EncodeChar`).  So whoever sorts by bytes sorts by texts
  (`bytesLE_iff`).
-/

namespace IdentityProvider.Text

/-- The first bytes at which the two differ are there, and that of the first is less. -/
def DiffersBelow (a b : List UInt8) : Prop :=
  ∃ common x y s t, a = common ++ x :: s ∧ b = common ++ y :: t ∧ x < y

section

variable {a b s t : List UInt8} {m n : Nat}

theorem DiffersBelow.append_lt (h : DiffersBelow a b) (s t : List UInt8) : a ++ s < b ++ t := by
  obtain ⟨common, x, y, s', t', rfl, rfl, hlt⟩ := h
  rw [List.append_assoc, List.append_assoc]
  apply List.append_left_lt
  exact List.cons_lt_cons_iff.mpr (.inl hlt)

theorem differsBelow_of_lt (hn : n < 256) (h : m < n) :
    DiffersBelow (UInt8.ofNat m :: s) (UInt8.ofNat n :: t) := by
  refine ⟨[], _, _, s, t, rfl, rfl, ?_⟩
  rw [UInt8.lt_iff_toNat_lt, UInt8.toNat_ofNat_of_lt' hn,
    UInt8.toNat_ofNat_of_lt' (Nat.lt_trans h hn)]
  exact h

/-- Where the first bytes are equal, the others decide. -/
theorem differsBelow_of_le (hn : n < 256) (hle : m ≤ n) (h : m = n → DiffersBelow s t) :
    DiffersBelow (UInt8.ofNat m :: s) (UInt8.ofNat n :: t) := by
  rcases Nat.lt_or_eq_of_le hle with hlt | rfl
  · exact differsBelow_of_lt hn hlt
  · obtain ⟨common, x, y, s', t', rfl, rfl, hlt⟩ := h rfl
    exact ⟨UInt8.ofNat m :: common, x, y, s', t', rfl, rfl, hlt⟩

end

/-- The character with the smaller code point is encoded in as many bytes or in fewer, and the first
byte tells how many they are. -/
theorem differsBelow_utf8EncodeChar {c d : Char} (h : c < d) :
    DiffersBelow (String.utf8EncodeChar c) (String.utf8EncodeChar d) := by
  have hlt : c.val.toNat < d.val.toNat := h
  have hbound : d.val.toNat < 0x110000 := by
    rcases d.valid with hd | hd
    · exact Nat.lt_trans hd (by decide)
    · exact hd.2
  unfold String.utf8EncodeChar
  dsimp only
  generalize c.val.toNat = v at hlt
  generalize d.val.toNat = w at hlt hbound
  by_cases hone : v ≤ 127
  · rw [if_pos hone]
    repeat' split
    all_goals exact differsBelow_of_lt (by omega) (by omega)
  have hone' : ¬ w ≤ 127 := by omega
  rw [if_neg hone, if_neg hone']
  by_cases htwo : v ≤ 2047
  · rw [if_pos htwo]
    by_cases hsame : w ≤ 2047
    · rw [if_pos hsame]
      apply differsBelow_of_le (by omega) (by omega)
      intro hfirst
      exact differsBelow_of_lt (by omega) (by omega)
    · rw [if_neg hsame]
      split
      all_goals exact differsBelow_of_lt (by omega) (by omega)
  have htwo' : ¬ w ≤ 2047 := by omega
  rw [if_neg htwo, if_neg htwo']
  by_cases hthree : v ≤ 65535
  · rw [if_pos hthree]
    by_cases hsame : w ≤ 65535
    · rw [if_pos hsame]
      apply differsBelow_of_le (by omega) (by omega)
      intro hfirst
      apply differsBelow_of_le (by omega) (by omega)
      intro hsecond
      exact differsBelow_of_lt (by omega) (by omega)
    · rw [if_neg hsame]
      exact differsBelow_of_lt (by omega) (by omega)
  have hthree' : ¬ w ≤ 65535 := by omega
  rw [if_neg hthree, if_neg hthree']
  apply differsBelow_of_le (by omega) (by omega)
  intro hfirst
  apply differsBelow_of_le (by omega) (by omega)
  intro hsecond
  apply differsBelow_of_le (by omega) (by omega)
  intro hthird
  exact differsBelow_of_lt (by omega) (by omega)

theorem toList_loop_eq (bytes : ByteArray) (i : Nat) (seen : List UInt8) :
    ByteArray.toList.loop bytes i seen = seen.reverse ++ bytes.data.toList.drop i := by
  fun_induction ByteArray.toList.loop bytes i seen with
  | case1 i seen h ih =>
    have hi : i < bytes.data.toList.length := by simpa using h
    rw [ih, List.drop_eq_getElem_cons hi]
    simp [ByteArray.get!, h]
  | case2 i seen h =>
    have hi : bytes.data.toList.length ≤ i := by simpa using Nat.le_of_not_lt h
    rw [List.drop_eq_nil_of_le hi, List.append_nil]

theorem encode_eq_flatMap (text : String) :
    Utf8.encode text = text.toList.flatMap String.utf8EncodeChar := by
  have hbytes : text.toUTF8 = (text.toList.flatMap String.utf8EncodeChar).toByteArray := by
    rw [String.toUTF8_eq_toByteArray]
    conv => lhs; rw [← text.ofList_toList, String.toByteArray_ofList]
    rfl
  unfold Utf8.encode ByteArray.toList
  rw [toList_loop_eq, hbytes, List.toList_data_toByteArray]
  rfl

theorem flatMap_utf8EncodeChar_lt {cs ds : List Char} (h : cs < ds) :
    cs.flatMap String.utf8EncodeChar < ds.flatMap String.utf8EncodeChar := by
  induction cs generalizing ds with
  | nil =>
    cases ds with
    | nil => exact absurd h (List.not_lt_nil _)
    | cons d ds =>
      rw [List.flatMap_nil, List.flatMap_cons]
      cases hd : String.utf8EncodeChar d with
      | nil => exact absurd hd String.utf8EncodeChar_ne_nil
      | cons b bs => exact List.nil_lt_cons _ _
  | cons c cs ih =>
    cases ds with
    | nil => exact absurd h (List.not_lt_nil _)
    | cons d ds =>
      rw [List.flatMap_cons, List.flatMap_cons]
      rcases List.cons_lt_cons_iff.mp h with hlt | ⟨rfl, hlt⟩
      · exact (differsBelow_utf8EncodeChar hlt).append_lt _ _
      · exact List.append_left_lt (ih hlt)

theorem encode_lt {a b : String} (h : a < b) : Utf8.encode a < Utf8.encode b := by
  rw [encode_eq_flatMap, encode_eq_flatMap]
  exact flatMap_utf8EncodeChar_lt (String.lt_iff.mp h)

/-- The first text does not come behind the second, byte by byte. -/
def BytesLE (a b : String) : Prop := ¬ Utf8.encode b < Utf8.encode a

/-- Texts are ordered as their bytes are. -/
theorem bytesLE_iff {a b : String} : BytesLE a b ↔ a ≤ b := by
  unfold BytesLE
  constructor
  · intro h
    rw [← String.not_lt]
    intro hlt
    exact h (encode_lt hlt)
  · intro h hlt
    by_cases hless : a < b
    · exact List.lt_irrefl _ (List.lt_trans hlt (encode_lt hless))
    · have heq : a = b := String.le_antisymm h (String.not_lt.mp hless)
      rw [heq] at hlt
      exact List.lt_irrefl _ hlt

end IdentityProvider.Text
