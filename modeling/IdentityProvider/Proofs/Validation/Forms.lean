import IdentityProvider.Forms.Client
import IdentityProvider.Forms.Grant
import IdentityProvider.Forms.Search
import IdentityProvider.Proofs.Validation.Listing

/-
  The forms whose checks are all on their own fields, with these checks as declarations.

  `report_eq`: the report on a form is the one that its declaration makes.
-/

namespace IdentityProvider

open Validation

/-- The checks on a client that is to be registered. -/
def ClientRegistration.declared : Declared ClientRegistration where
  fields :=
    [⟨"client_id", [fun r => Validation.length 1 none
        ⟨Validation.lengthCode, some "invalid_client_id"⟩ r.clientId]⟩,
     ⟨"redirect_uri", [fun r => Validation.url
        ⟨Validation.urlCode, some "invalid_redirect_uri"⟩ r.redirectUri]⟩,
     ⟨"name", [fun r => Validation.length 1 (some 32)
        ⟨Validation.lengthCode, some "invalid_client_name"⟩ r.name]⟩]
  distinct := by decide

/-- The checks on a question for clients. -/
def ClientQuery.declared : Declared ClientQuery where
  fields :=
    [⟨"redirect_uri", [fun q => Validation.url
        ⟨Validation.urlCode, some "invalid_redirect_uri"⟩ q.redirectUri]⟩]
  distinct := by decide

/-- The checks on a request for an authorization. -/
def AuthorizeRequest.declared : Declared AuthorizeRequest where
  fields :=
    [⟨"nonce", [fun r => Validation.length 1 none
        ⟨Validation.lengthCode, some "invalid_nonce"⟩ r.nonce]⟩,
     ⟨"max_age", [fun r => r.maxAge.bind (Validation.range 1 600
        ⟨Validation.rangeCode, some "invalid_max_age"⟩)]⟩]
  distinct := by decide

/-- The checks on a request for a token. -/
def TokenRequest.declared : Declared TokenRequest where
  fields :=
    [⟨"grant_type", [fun r => Validation.length 1 none
        ⟨Validation.lengthCode, some "invalid_grant_type"⟩ r.grantType]⟩,
     ⟨"code", [fun r => Validation.length 1 none
        ⟨Validation.lengthCode, some "invalid_code"⟩ r.code]⟩]
  distinct := by decide

/-- The checks on a search. -/
def Search.declared : Declared Search where
  fields :=
    [⟨"q", [fun s => Validation.length 1 (some 5) ⟨Validation.lengthCode, none⟩ s.q]⟩,
     ⟨"page", [fun s => s.page.bind (Validation.range (-3) 9 ⟨"bad_page", none⟩)]⟩]
  distinct := by decide

theorem ClientRegistration.report_eq (r : ClientRegistration) : r.report = declared.report r := by
  simp only [report, declared, Declared.report, List.flatMap_cons, List.flatMap_nil,
    List.append_nil, List.append_assoc, List.map_cons, List.map_nil]

theorem ClientQuery.report_eq (q : ClientQuery) : q.report = declared.report q :=
  (List.append_nil q.report).symm

theorem AuthorizeRequest.report_eq (r : AuthorizeRequest) : r.report = declared.report r := by
  simp only [report, declared, Declared.report, List.flatMap_cons, List.flatMap_nil,
    List.append_nil, List.map_cons, List.map_nil]

theorem TokenRequest.report_eq (r : TokenRequest) : r.report = declared.report r := by
  simp only [report, declared, Declared.report, List.flatMap_cons, List.flatMap_nil,
    List.append_nil, List.map_cons, List.map_nil]

theorem Search.report_eq (s : Search) : s.report = declared.report s := by
  simp only [report, declared, Declared.report, List.flatMap_cons, List.flatMap_nil,
    List.append_nil, List.map_cons, List.map_nil]

/-- A request for a token with nothing in it is refused for its code: the field comes first by
name, though not in the declaration. -/
theorem TokenRequest.firstFailed_empty :
    declared.FirstFailed ⟨"", "", none⟩ ⟨"length", some "invalid_code"⟩ := by
  refine ⟨_, List.mem_cons_of_mem _ List.mem_cons_self, [], _, [], rfl, ?_, rfl, ?_⟩
  · exact fun earlier hearlier => absurd hearlier List.not_mem_nil
  · intro other hother _
    have hnames : ∀ name ∈ declared.fields.map FieldRule.name, "code" ≤ name := by decide
    exact hnames other.name (List.mem_map_of_mem hother)

end IdentityProvider
