import IdentityProvider.Dispatch

/-
  One failure, shown on two surfaces.

  The internal envelope and the OAuth error are made by two tables that know nothing of each
  other, and a client may read both.  `Encoding.Agree` says how the one follows from the other: a
  failure that is shown by its code has the same code and text on both, the first part of a
  validation failure is the one that OAuth tells, and denials with the same code look the same.
  The surfaces differ in what they take for unknown (`TakesForUnknown`) for two kinds of failures
  only, those of the protocol.
-/

namespace IdentityProvider

/-- The kinds of failures. -/
inductive Failure.Kind
  | invalidArgument
  | constraintViolation
  | missingParameter
  | mediaTypeNotAcceptable
  | typeMismatch
  | domain
  | unclassified
  deriving DecidableEq, Repr

/-- The kind of a failure. -/
def Failure.kind : Failure → Kind
  | .invalidArgument _ _ => .invalidArgument
  | .constraintViolation _ _ => .constraintViolation
  | .missingParameter _ _ => .missingParameter
  | .mediaTypeNotAcceptable _ => .mediaTypeNotAcceptable
  | .typeMismatch _ => .typeMismatch
  | .domain _ => .domain
  | .unclassified _ => .unclassified

/-- A failure of the protocol: the request is malformed before any rule could look at it. -/
def Failure.IsProtocol (failure : Failure) : Prop :=
  failure.kind = .missingParameter ∨ failure.kind = .mediaTypeNotAcceptable

/-- A failure that is shown by a code alone, with the text that the catalog has for it. -/
def Failure.IsCoded (failure : Failure) : Prop :=
  failure.kind = .domain ∨ failure.kind = .typeMismatch ∨ failure.kind = .unclassified

/-- A validation failure without a part. -/
inductive Failure.IsBare : Failure → Prop
  | invalidArgument (message : String) : IsBare (.invalidArgument [] message)
  | constraintViolation (message : String) : IsBare (.constraintViolation [] message)

namespace Encoding

/-- The encoding takes the failure for unknown: it shows no failure of this kind otherwise than
an unclassified one. -/
def TakesForUnknown (encode : Failure → α) (failure : Failure) : Prop :=
  ∀ other : Failure, other.kind = failure.kind →
    ∀ cause, encode other = encode (.unclassified cause)

section

variable {catalog : Catalog} {failure : Failure}

/-! ## One surface read from the other -/

theorem envelope_of_isCoded (h : failure.IsCoded) :
    envelope catalog failure =
      ⟨[⟨(oauth catalog failure).2.error, (oauth catalog failure).2.description⟩]⟩ := by
  unfold Failure.IsCoded at h
  cases failure with
  | domain denial => exact envelope_domain catalog denial
  | typeMismatch message => rfl
  | unclassified cause => rfl
  | invalidArgument | constraintViolation | missingParameter | mediaTypeNotAcceptable =>
    simp [Failure.kind] at h

theorem envelope_of_isBare (h : failure.IsBare) :
    envelope catalog failure = ⟨[⟨"invalid_request", (oauth catalog failure).2.description⟩]⟩ := by
  cases h with
  | invalidArgument message => rfl
  | constraintViolation message => rfl

theorem envelope_of_isProtocol (h : failure.IsProtocol) :
    envelope catalog failure = ⟨[⟨"invalid_request", failure.text⟩]⟩ := by
  unfold Failure.IsProtocol at h
  cases failure with
  | missingParameter name message => rfl
  | mediaTypeNotAcceptable message => rfl
  | invalidArgument | constraintViolation | typeMismatch | domain | unclassified =>
    simp [Failure.kind] at h

theorem oauth_of_isProtocol (h : failure.IsProtocol) :
    oauth catalog failure = (500, ⟨"unknown_error", catalog.resolve "unknown_error"⟩) := by
  unfold Failure.IsProtocol at h
  cases failure with
  | missingParameter name message => rfl
  | mediaTypeNotAcceptable message => rfl
  | invalidArgument | constraintViolation | typeMismatch | domain | unclassified =>
    simp [Failure.kind] at h

/-- Nothing of a denial is shown but its code. -/
theorem envelope_domain_congr {a b : Denial} (h : a.code = b.code) :
    envelope catalog (.domain a) = envelope catalog (.domain b) := by
  rw [envelope_domain, envelope_domain, h]

theorem oauth_domain_congr {a b : Denial} (h : a.code = b.code) :
    oauth catalog (.domain a) = oauth catalog (.domain b) := by
  simp only [oauth, h]

/-! ## What the surfaces take for unknown -/

/-- Inside, a mistyped parameter is unknown, and beside unclassified failures nothing else. -/
theorem takesForUnknown_envelope_iff :
    TakesForUnknown (envelope catalog) failure ↔
      failure.kind = .typeMismatch ∨ failure.kind = .unclassified := by
  constructor
  -- every other kind has a failure with a code of its own
  · intro h
    have hcodes (other : Failure) (hkind : other.kind = failure.kind) :
        (envelope catalog other).errors.map (·.code) = ["unknown_error"] := by
      rw [h other hkind ⟨"", []⟩]
      rfl
    have hrequest : ["invalid_request"] ≠ ["unknown_error"] := by decide
    have hclient : ["invalid_client_id"] ≠ ["unknown_error"] := by decide
    cases hfailure : failure.kind with
    | invalidArgument => exact absurd (hcodes (.invalidArgument [] "") hfailure.symm) hrequest
    | constraintViolation =>
      exact absurd (hcodes (.constraintViolation [] "") hfailure.symm) hrequest
    | missingParameter => exact absurd (hcodes (.missingParameter "" "") hfailure.symm) hrequest
    | mediaTypeNotAcceptable =>
      exact absurd (hcodes (.mediaTypeNotAcceptable "") hfailure.symm) hrequest
    | typeMismatch => exact .inl rfl
    | domain => exact absurd (hcodes (.domain .invalidClient) hfailure.symm) hclient
    | unclassified => exact .inr rfl
  · intro h other hkind cause
    rw [← hkind] at h
    cases other with
    | typeMismatch message => rfl
    | unclassified cause => rfl
    | invalidArgument | constraintViolation | missingParameter | mediaTypeNotAcceptable
    | domain => simp [Failure.kind] at h

/-- The status tells what the OAuth surface takes for unknown. -/
theorem takesForUnknown_oauth_iff_status :
    TakesForUnknown (oauth catalog) failure ↔ (oauth catalog failure).1 = 500 := by
  constructor
  · intro h
    rw [h failure rfl ⟨"", []⟩]
    rfl
  · intro h other hkind cause
    cases failure with
    | invalidArgument | constraintViolation | domain =>
      exact absurd h (show (400 : Nat) ≠ 500 by decide)
    | missingParameter | mediaTypeNotAcceptable | typeMismatch | unclassified =>
      cases other with
      | missingParameter | mediaTypeNotAcceptable | typeMismatch | unclassified => rfl
      | invalidArgument | constraintViolation | domain => simp [Failure.kind] at hkind

/-- On the OAuth surface the failures of the protocol are unknown as well. -/
theorem takesForUnknown_oauth_iff :
    TakesForUnknown (oauth catalog) failure ↔
      failure.IsProtocol ∨ failure.kind = .typeMismatch ∨ failure.kind = .unclassified := by
  rw [takesForUnknown_oauth_iff_status, Failure.IsProtocol]
  cases failure <;>
    simp [oauth, Failure.kind, Status.badRequest, Status.internalServerError]

/-- The surfaces differ in what they take for unknown for the failures of the protocol only. -/
theorem takesForUnknown_differs_iff :
    ¬ (TakesForUnknown (envelope catalog) failure ↔ TakesForUnknown (oauth catalog) failure) ↔
      failure.IsProtocol := by
  rw [takesForUnknown_envelope_iff, takesForUnknown_oauth_iff, Failure.IsProtocol]
  cases failure <;> simp [Failure.kind]

/-- What OAuth calls an unknown error has that code inside as well, but for the failures of the
protocol. -/
theorem codes_eq_unknown_iff (h : (oauth catalog failure).2.error = "unknown_error") :
    (∀ entry ∈ (envelope catalog failure).errors, entry.code = "unknown_error") ↔
      ¬ failure.IsProtocol := by
  by_cases hprotocol : failure.IsProtocol
  · rw [envelope_of_isProtocol hprotocol, List.forall_mem_singleton]
    simp [hprotocol]
  · have hcoded : failure.IsCoded := by
      unfold Failure.IsCoded
      unfold Failure.IsProtocol at hprotocol
      cases failure with
      | invalidArgument | constraintViolation =>
        exact absurd h (show "invalid_input" ≠ "unknown_error" by decide)
      | missingParameter | mediaTypeNotAcceptable => simp [Failure.kind] at hprotocol
      | typeMismatch | domain | unclassified => simp [Failure.kind]
    rw [envelope_of_isCoded hcoded, List.forall_mem_singleton, h]
    simp [hprotocol]

end

/-- How the two encodings of a failure agree. -/
structure Agree (catalog : Catalog) : Prop where
  /-- A failure that is shown by its code has one entry inside: the error and its description. -/
  coded : ∀ failure : Failure, failure.IsCoded → envelope catalog failure =
    ⟨[⟨(oauth catalog failure).2.error, (oauth catalog failure).2.description⟩]⟩
  /-- OAuth describes a rejected body by the code of the first entry. -/
  firstField : ∀ e errors message, ∃ first rest,
    (envelope catalog (.invalidArgument (e :: errors) message)).errors = first :: rest ∧
      (oauth catalog (.invalidArgument (e :: errors) message)).2.description = first.code
  /-- The text of the first entry of rejected parameters names the property and goes on with the
  description. -/
  firstViolation : ∀ v violations message, ∃ first rest,
    (envelope catalog (.constraintViolation (v :: violations) message)).errors = first :: rest ∧
      first.message = v.property ++ ": " ++
        (oauth catalog (.constraintViolation (v :: violations) message)).2.description
  /-- A validation failure without a part has one entry, with the description for its text. -/
  bare : ∀ failure : Failure, failure.IsBare → envelope catalog failure =
    ⟨[⟨"invalid_request", (oauth catalog failure).2.description⟩]⟩
  /-- Denials with the same code look the same on both surfaces. -/
  sameCode : ∀ a b : Denial, a.code = b.code →
    envelope catalog (.domain a) = envelope catalog (.domain b) ∧
      oauth catalog (.domain a) = oauth catalog (.domain b)
  /-- A failure of the protocol is a wrong request inside, told in its own words, and unknown on
  the OAuth surface. -/
  protocol : ∀ failure : Failure, failure.IsProtocol →
    envelope catalog failure = ⟨[⟨"invalid_request", failure.text⟩]⟩ ∧
      oauth catalog failure = (500, ⟨"unknown_error", catalog.resolve "unknown_error"⟩)
  /-- For no other failures do the surfaces differ in whether they take it for unknown. -/
  differ : ∀ failure : Failure,
    ¬ (TakesForUnknown (envelope catalog) failure ↔ TakesForUnknown (oauth catalog) failure) ↔
      failure.IsProtocol
  /-- The OAuth surface answers with status 500 exactly what it takes for unknown. -/
  status : ∀ failure : Failure,
    (oauth catalog failure).1 = 500 ↔ TakesForUnknown (oauth catalog) failure
  /-- What it calls an unknown error has this code inside as well, but for the failures of the
  protocol. -/
  code : ∀ failure : Failure, (oauth catalog failure).2.error = "unknown_error" →
    ((∀ entry ∈ (envelope catalog failure).errors, entry.code = "unknown_error") ↔
      ¬ failure.IsProtocol)

/-- The internal envelope and the OAuth error of a failure agree, whatever texts the catalog
holds. -/
theorem encodings_agree (catalog : Catalog) : Agree catalog where
  coded _ h := envelope_of_isCoded h
  firstField e errors _ := ⟨e.entry, errors.map FieldError.entry, rfl, rfl⟩
  firstViolation v violations _ := ⟨v.entry, violations.map Violation.entry, rfl, rfl⟩
  bare _ h := envelope_of_isBare h
  sameCode _ _ h := ⟨envelope_domain_congr h, oauth_domain_congr h⟩
  protocol _ h := ⟨envelope_of_isProtocol h, oauth_of_isProtocol h⟩
  differ _ := takesForUnknown_differs_iff
  status _ := takesForUnknown_oauth_iff_status.symm
  code _ h := codes_eq_unknown_iff h

/-- A coded denial looks like the named one with its code. -/
example : oauth .builtin (.domain (.coded "invalid_transaction")) =
    oauth .builtin (.domain .invalidTransaction) := rfl

end Encoding

end IdentityProvider
