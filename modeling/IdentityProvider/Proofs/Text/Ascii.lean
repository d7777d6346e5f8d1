import IdentityProvider.Proofs.Text.ByteOrder

/-
  Texts seen through their ASCII characters.

  In UTF-8 an ASCII character is one byte, with its code point for a value, and all the bytes of any
  other character lie beyond ASCII.  So a condition that every byte beyond ASCII meets is met by
  the bytes of a text if the ASCII characters in it meet it (`forall_mem_encode_iff`).
-/

namespace IdentityProvider.Text

theorem utf8EncodeChar_of_ascii {c : Char} (h : c.toNat < 0x80) :
    String.utf8EncodeChar c = [UInt8.ofNat c.toNat] := by
  unfold String.utf8EncodeChar
  exact if_pos (Nat.le_of_lt_succ h)

theorem le_of_mem_utf8EncodeChar {c : Char} (h : 0x80 ≤ c.toNat) :
    ∀ b ∈ String.utf8EncodeChar c, 0x80 ≤ b.toNat := by
  have hbyte : ∀ n, 0x80 ≤ n → n < 0x100 → 0x80 ≤ (UInt8.ofNat n).toNat := by
    intro n hn hlt
    rwa [UInt8.toNat_ofNat_of_lt' hlt]
  have hbound : c.val.toNat < 0x110000 := by
    rcases c.valid with hc | hc
    · exact Nat.lt_trans hc (by decide)
    · exact hc.2
  have hnot : ¬ c.val.toNat ≤ 127 := Nat.not_le.mpr h
  unfold String.utf8EncodeChar
  dsimp only
  rw [if_neg hnot]
  generalize c.val.toNat = v at hbound
  repeat' split
  all_goals
    simp only [List.forall_mem_cons, List.not_mem_nil, false_implies, implies_true, and_true]
    and_intros
    all_goals exact hbyte _ (by omega) (by omega)

/-- What holds of every byte beyond ASCII holds of the bytes of a text if it holds of its ASCII
characters. -/
theorem forall_mem_encode_iff {property : UInt8 → Prop}
    (hbeyond : ∀ b : UInt8, 0x80 ≤ b.toNat → property b) {text : String} :
    (∀ b ∈ Utf8.encode text, property b) ↔
      ∀ c ∈ text.toList, c.toNat < 0x80 → property (UInt8.ofNat c.toNat) := by
  rw [encode_eq_flatMap]
  constructor
  · intro h c hc hascii
    refine h _ (List.mem_flatMap.mpr ⟨c, hc, ?_⟩)
    rw [utf8EncodeChar_of_ascii hascii]
    exact List.mem_singleton_self _
  · intro h b hb
    obtain ⟨c, hc, hb⟩ := List.mem_flatMap.mp hb
    by_cases hascii : c.toNat < 0x80
    · rw [utf8EncodeChar_of_ascii hascii, List.mem_singleton] at hb
      exact hb ▸ h c hc hascii
    · exact hbeyond b (le_of_mem_utf8EncodeChar (Nat.le_of_not_lt hascii) b hb)

theorem encode_append (a b : String) : Utf8.encode (a ++ b) = Utf8.encode a ++ Utf8.encode b := by
  simp only [encode_eq_flatMap, String.toList_append, List.flatMap_append]

theorem toNat_ofNat_of_ascii {c : Char} (h : c.toNat < 0x80) :
    (UInt8.ofNat c.toNat).toNat = c.toNat :=
  UInt8.toNat_ofNat_of_lt' (Nat.lt_trans h (by decide))

theorem ofNat_eq_iff {c : Char} (h : c.toNat < 0x80) (d : Char) (hd : d.toNat < 0x80) :
    UInt8.ofNat c.toNat = UInt8.ofNat d.toNat ↔ c = d := by
  rw [← UInt8.toNat_inj, toNat_ofNat_of_ascii h, toNat_ofNat_of_ascii hd]
  exact Char.toNat_inj

end IdentityProvider.Text
