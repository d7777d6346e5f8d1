import IdentityProvider.Dispatch
import IdentityProvider.Proofs.Text.Ascii

/-
  How a token travels in the challenge header.

  On the wire the header value is a string of bytes: a name, a sign of equality and a quoted string.
  `QuotedText` is what may stand between the quotation marks, with the content that a reader gets
  out of it; one that stands in front of a quotation mark ends there and has one content
  (`QuotedText.unique`).  The token is put in as it is, so it is that content just if it holds
  neither a quotation mark nor a backslash (`carriesOnly_parameter_iff`).
-/

namespace IdentityProvider.Challenge

open Text

/-! ## Quoted strings -/

/-- A byte that a header value may hold: no control but the tab. -/
def IsHeaderByte (b : UInt8) : Prop := (0x20 ≤ b.toNat ∨ b = 0x09) ∧ b ≠ 0x7F

/-- The quotation mark as a byte. -/
def quotationMark : UInt8 := 0x22

/-- The backslash as a byte. -/
def backslash : UInt8 := 0x5C

/-- A byte that stands for itself within quotation marks. -/
def StandsForItself (b : UInt8) : Prop := IsHeaderByte b ∧ b ≠ quotationMark ∧ b ≠ backslash

/-- What stands within quotation marks, and its content: a backslash makes the byte behind it stand
for itself. -/
inductive QuotedText : List UInt8 → List UInt8 → Prop
  | nil : QuotedText [] []
  | plain {b : UInt8} {written content : List UInt8} :
    StandsForItself b → QuotedText written content → QuotedText (b :: written) (b :: content)
  | escaped {b : UInt8} {written content : List UInt8} :
    IsHeaderByte b → QuotedText written content →
    QuotedText (backslash :: b :: written) (b :: content)

section

variable {written other content content' rest rest' : List UInt8}

/-- A quoted text in front of a quotation mark ends there, and it has one content. -/
theorem QuotedText.unique (h : QuotedText written content) (hother : QuotedText other content')
    (heq : written ++ quotationMark :: rest = other ++ quotationMark :: rest') :
    content = content' ∧ rest = rest' := by
  induction h generalizing other content' with
  | nil =>
    cases hother with
    | nil => exact ⟨rfl, (List.cons.inj heq).2⟩
    | plain hb _ => exact absurd (List.cons.inj heq).1.symm hb.2.1
    | escaped _ _ => exact absurd (List.cons.inj heq).1 (by decide)
  | plain hb _ ih =>
    cases hother with
    | nil => exact absurd (List.cons.inj heq).1 hb.2.1
    | plain _ hother =>
      obtain ⟨rfl, htail⟩ := List.cons.inj heq
      obtain ⟨rfl, hrest⟩ := ih hother htail
      exact ⟨rfl, hrest⟩
    | escaped _ _ => exact absurd (List.cons.inj heq).1 hb.2.2
  | escaped _ _ ih =>
    cases hother with
    | nil => exact absurd (List.cons.inj heq).1 (by decide)
    | plain hb _ => exact absurd (List.cons.inj heq).1.symm hb.2.2
    | escaped _ hother =>
      obtain ⟨rfl, htail⟩ := List.cons.inj (List.cons.inj heq).2
      obtain ⟨rfl, hrest⟩ := ih hother htail
      exact ⟨rfl, hrest⟩

theorem QuotedText.length_le (h : QuotedText written content) :
    content.length ≤ written.length := by
  induction h with
  | nil => exact Nat.le_refl 0
  | plain _ _ ih | escaped _ _ ih => simp only [List.length_cons]; omega

/-- A quoted text is its own content just if nothing in it is escaped. -/
theorem quotedText_self_iff : QuotedText content content ↔ ∀ b ∈ content, StandsForItself b := by
  constructor
  · intro h
    suffices hplain : ∀ written, QuotedText written content →
        written.length = content.length → ∀ b ∈ content, StandsForItself b from
      hplain content h rfl
    clear h
    intro written h hlength
    induction h with
    | nil => exact fun b hb => absurd hb List.not_mem_nil
    | plain hb _ ih =>
      exact List.forall_mem_cons.mpr ⟨hb, ih (Nat.succ.inj hlength)⟩
    | escaped _ hrest _ =>
      have hle := hrest.length_le
      simp only [List.length_cons] at hlength
      omega
  · intro h
    induction content with
    | nil => exact .nil
    | cons b content ih =>
      rw [List.forall_mem_cons] at h
      exact .plain h.1 (ih h.2)

end

/-! ## Characters as bytes -/

theorem isHeaderByte_of_le {b : UInt8} (h : 0x80 ≤ b.toNat) : IsHeaderByte b := by
  refine ⟨.inl (by omega), ?_⟩
  rintro rfl
  exact absurd h (by decide)

theorem standsForItself_of_le {b : UInt8} (h : 0x80 ≤ b.toNat) : StandsForItself b := by
  refine ⟨isHeaderByte_of_le h, ?_, ?_⟩
  all_goals
    rintro rfl
    exact absurd h (by decide)

theorem isSendable_iff {c : Char} :
    isSendable c = true ↔ (c.toNat < 0x80 → IsHeaderByte (UInt8.ofNat c.toNat)) := by
  by_cases hascii : c.toNat < 0x80
  · have htab : UInt8.ofNat c.toNat = 0x09 ↔ c = '\t' := ofNat_eq_iff hascii '\t' (by decide)
    have hdelete : UInt8.ofNat c.toNat = 0x7F ↔ c = '\x7f' :=
      ofNat_eq_iff hascii '\x7f' (by decide)
    simp [isSendable, IsHeaderByte, hascii, toNat_ofNat_of_ascii hascii, htab, hdelete]
  · have hdelete : c ≠ '\x7f' := by
      rintro rfl
      exact hascii (by decide)
    have hle : 0x20 ≤ c.toNat := by omega
    simp [isSendable, hascii, hdelete, hle]

theorem standsForItself_iff {c : Char} :
    (c.toNat < 0x80 → StandsForItself (UInt8.ofNat c.toNat)) ↔
      isSendable c = true ∧ c ≠ '"' ∧ c ≠ '\\' := by
  rw [isSendable_iff]
  by_cases hascii : c.toNat < 0x80
  · have hquote : UInt8.ofNat c.toNat = quotationMark ↔ c = '"' :=
      ofNat_eq_iff hascii '"' (by decide)
    have hbackslash : UInt8.ofNat c.toNat = backslash ↔ c = '\\' :=
      ofNat_eq_iff hascii '\\' (by decide)
    simp only [hascii, forall_const, StandsForItself, ne_eq, hquote, hbackslash]
  · have hne : ∀ d : Char, d.toNat < 0x80 → c ≠ d := by
      rintro d hd rfl
      exact hascii hd
    simp [hascii, hne '"' (by decide), hne '\\' (by decide)]

/-! ## The header value -/

/-- The text can go into a header: all its bytes may. -/
def IsRepresentable (text : String) : Prop := ∀ b ∈ Utf8.encode text, IsHeaderByte b

theorem isRepresentable_iff {text : String} :
    IsRepresentable text ↔ text.toList.all isSendable = true := by
  unfold IsRepresentable
  simp only [forall_mem_encode_iff fun b => isHeaderByte_of_le, List.all_eq_true, isSendable_iff]

/-- The content that the header is to carry for a token: the token itself, or `unknown_error` where
no header can hold it. -/
inductive Content (token : String) : String → Prop
  | itself : IsRepresentable token → Content token token
  | unknown : ¬ IsRepresentable token → Content token "unknown_error"

theorem isRepresentable_unknownError : IsRepresentable ErrorCode.unknownError :=
  isRepresentable_iff.mpr (by decide)

theorem Content.isRepresentable {token content : String} (h : Content token content) :
    IsRepresentable content := by
  cases h with
  | itself htoken => exact htoken
  | unknown _ => exact isRepresentable_unknownError

theorem Content.headerValue_eq {token content : String} (h : Content token content) :
    headerValue token = parameter content := by
  unfold headerValue
  cases h with
  | itself htoken => rw [if_pos (isRepresentable_iff.mp htoken)]
  | unknown htoken =>
    rw [if_neg fun hall => htoken (isRepresentable_iff.mpr hall)]
    rfl

theorem exists_content (token : String) : ∃ content, Content token content := by
  by_cases h : IsRepresentable token
  · exact ⟨token, .itself h⟩
  · exact ⟨"unknown_error", .unknown h⟩

/-- What stands in front of the quoted string. -/
def opening : List UInt8 := Utf8.encode "error="

/-- The bytes are the parameter `error` with one quoted string, which has this content, and however
a quoted string is read behind the name, nothing is left behind it. -/
structure CarriesOnly (value content : List UInt8) : Prop where
  wellFormed : ∃ written, value = opening ++ quotationMark :: (written ++ [quotationMark]) ∧
    QuotedText written content
  nothingBehind : ∀ written rest other,
    value = opening ++ quotationMark :: (written ++ quotationMark :: rest) →
    QuotedText written other → other = content ∧ rest = []

theorem encode_parameter (token : String) :
    Utf8.encode (parameter token) =
      opening ++ quotationMark :: (Utf8.encode token ++ [quotationMark]) := by
  have hopening : Utf8.encode "error=\"" = opening ++ [quotationMark] := by
    unfold opening
    rw [encode_eq_flatMap, encode_eq_flatMap]
    decide
  have hclosing : Utf8.encode "\"" = [quotationMark] := by
    rw [encode_eq_flatMap]
    decide
  unfold parameter
  rw [encode_append, encode_append, hopening, hclosing]
  simp only [List.append_assoc, List.cons_append, List.nil_append]

theorem carriesOnly_of_quotedText {token : String} {content : List UInt8}
    (h : QuotedText (Utf8.encode token) content) :
    CarriesOnly (Utf8.encode (parameter token)) content where
  wellFormed := ⟨Utf8.encode token, encode_parameter token, h⟩
  nothingBehind written rest other hvalue hother := by
    rw [encode_parameter] at hvalue
    have heq := (List.cons.inj (List.append_cancel_left hvalue)).2
    obtain ⟨rfl, hrest⟩ := h.unique hother heq
    exact ⟨rfl, hrest.symm⟩

/-- Nothing is escaped, so a token is carried as itself just if nothing in it needs to be. -/
theorem carriesOnly_parameter_iff {token : String} (h : IsRepresentable token) :
    CarriesOnly (Utf8.encode (parameter token)) (Utf8.encode token) ↔
      '"' ∉ token.toList ∧ '\\' ∉ token.toList := by
  have hself : QuotedText (Utf8.encode token) (Utf8.encode token) ↔
      '"' ∉ token.toList ∧ '\\' ∉ token.toList := by
    have hsendable : ∀ c ∈ token.toList, isSendable c = true :=
      List.all_eq_true.mp (isRepresentable_iff.mp h)
    rw [quotedText_self_iff, forall_mem_encode_iff fun b => standsForItself_of_le]
    simp only [standsForItself_iff]
    constructor
    · intro hall
      exact ⟨fun hc => (hall _ hc).2.1 rfl, fun hc => (hall _ hc).2.2 rfl⟩
    · rintro ⟨hquote, hbackslash⟩ c hc
      refine ⟨hsendable c hc, ?_, ?_⟩
      · rintro rfl
        exact hquote hc
      · rintro rfl
        exact hbackslash hc
  rw [← hself]
  constructor
  · intro hcarries
    obtain ⟨written, hvalue, hwritten⟩ := hcarries.wellFormed
    rw [encode_parameter] at hvalue
    have heq := (List.cons.inj (List.append_cancel_left hvalue)).2
    obtain rfl := List.append_cancel_right heq
    exact hwritten
  · exact carriesOnly_of_quotedText

/-- The header value for the token is fit for a header and carries its content and nothing else. -/
def IsCarried (token : String) : Prop :=
  (∀ b ∈ Utf8.encode (headerValue token), IsHeaderByte b) ∧
    ∀ content, Content token content →
      CarriesOnly (Utf8.encode (headerValue token)) (Utf8.encode content)

theorem isHeaderByte_of_mem_headerValue (token : String) :
    ∀ b ∈ Utf8.encode (headerValue token), IsHeaderByte b := by
  obtain ⟨content, hcontent⟩ := exists_content token
  have hrepresentable := isRepresentable_iff.mp hcontent.isRepresentable
  rw [hcontent.headerValue_eq]
  refine isRepresentable_iff.mpr ?_
  unfold parameter
  rw [String.toList_append, String.toList_append, List.all_append, List.all_append, hrepresentable]
  decide

theorem isCarried_iff {token : String} : IsCarried token ↔
    ∀ content, Content token content → '"' ∉ content.toList ∧ '\\' ∉ content.toList := by
  constructor
  · rintro ⟨-, hcarries⟩ content hcontent
    have h := hcarries content hcontent
    rw [hcontent.headerValue_eq] at h
    exact (carriesOnly_parameter_iff hcontent.isRepresentable).mp h
  · intro h
    refine ⟨isHeaderByte_of_mem_headerValue token, fun content hcontent => ?_⟩
    rw [hcontent.headerValue_eq]
    exact (carriesOnly_parameter_iff hcontent.isRepresentable).mpr (h content hcontent)

theorem Content.eq_of_isRepresentable {token content : String} (h : Content token content)
    (htoken : IsRepresentable token) : content = token := by
  cases h with
  | itself _ => rfl
  | unknown hnot => exact absurd htoken hnot

theorem token_cases (failure : Failure) :
    token failure = "invalid_auth_token" ∨ token failure = "unknown_error" := by
  rw [token_eq_ite]
  split
  · exact .inl rfl
  · exact .inr rfl

theorem isRepresentable_token (failure : Failure) : IsRepresentable (token failure) := by
  rw [isRepresentable_iff]
  rcases token_cases failure with htoken | htoken
  all_goals
    rw [htoken]
    decide

theorem isCarried_token (failure : Failure) : IsCarried (token failure) := by
  refine isCarried_iff.mpr fun content hcontent => ?_
  rw [hcontent.eq_of_isRepresentable (isRepresentable_token failure)]
  rcases token_cases failure with htoken | htoken
  all_goals
    rw [htoken]
    decide

/-- How a header value is made of a token, and what that means for the challenges that are sent. -/
structure QuotedAsIs (token : String) : Prop where
  /-- All its bytes may stand in a header. -/
  headerBytes : ∀ b ∈ Utf8.encode (headerValue token), IsHeaderByte b
  /-- The content stands between the quotation marks as it is. -/
  asIs : ∃ content, Content token content ∧ Utf8.encode (headerValue token) =
    opening ++ quotationMark :: (Utf8.encode content ++ [quotationMark])
  /-- The content is all that the header carries just if it needs no escaping. -/
  carried_iff : IsCarried token ↔
    ∀ content, Content token content → '"' ∉ content.toList ∧ '\\' ∉ content.toList
  /-- Every challenge that answers a failure has the one header, and it carries its token. -/
  sent : ∀ (failure : Failure) (catalog : Catalog),
    (failure.rendering catalog .challenge).response.headers =
      [("www-authenticate", headerValue (Challenge.token failure))] ∧
    Content (Challenge.token failure) (Challenge.token failure) ∧
    IsCarried (Challenge.token failure)

/-- A token is put between quotation marks as it is, and the challenges that are sent carry
theirs. -/
theorem quoted_as_is (token : String) : QuotedAsIs token where
  headerBytes := isHeaderByte_of_mem_headerValue token
  asIs := by
    obtain ⟨content, hcontent⟩ := exists_content token
    exact ⟨content, hcontent, by rw [hcontent.headerValue_eq, encode_parameter]⟩
  carried_iff := isCarried_iff
  sent failure _ := ⟨rfl, .itself (isRepresentable_token failure), isCarried_token failure⟩

/-- A token with quotation marks of its own ends the quoted string early: here it brings in a second
parameter. -/
theorem not_carried_whole :
    headerValue "x\", error_description=\"y" = "error=\"x\", error_description=\"y\"" ∧
      ¬ IsCarried "x\", error_description=\"y" := by
  have hitself : Content "x\", error_description=\"y" "x\", error_description=\"y" :=
    .itself (isRepresentable_iff.mpr (by decide))
  refine ⟨hitself.headerValue_eq.trans (by decide), fun hcarried => ?_⟩
  exact (isCarried_iff.mp hcarried _ hitself).1 (by decide)

end IdentityProvider.Challenge
