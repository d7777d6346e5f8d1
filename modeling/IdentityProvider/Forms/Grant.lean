import IdentityProvider.Json.Decoder
import IdentityProvider.Query.Shape
import IdentityProvider.Validation

/-
  The request for an authorization, and the request for a token that follows it.
-/

namespace IdentityProvider

open Json (Decoder)

/-- A request for an authorization. -/
structure AuthorizeRequest where
  nonce : String
  maxAge : Option Int
  deriving DecidableEq, Repr

namespace AuthorizeRequest

/-- What has been read of a request. -/
structure Draft where
  nonce : Option String
  maxAge : Option Int
  deriving DecidableEq, Repr

/-- The greatest age that can be asked for at all. -/
def ageLimit : Int := 4294967295

/-- How a request is read. -/
def shape : Query.Shape Draft AuthorizeRequest where
  empty := ⟨none, none⟩
  fields :=
    [.ofPlace "nonce" Draft.nonce (fun d v => { d with nonce := some v }) Query.Reader.text,
     .ofPlace "max_age" Draft.maxAge (fun d v => { d with maxAge := some v })
       (Query.Reader.integer 0 ageLimit)]
  isClosed := false
  finish d := do return ⟨← Query.required "nonce" d.nonce, d.maxAge⟩

/-- What is wrong with a request. -/
def report (r : AuthorizeRequest) : Validation.Report :=
  .field "nonce" [Validation.length 1 none
    ⟨Validation.lengthCode, some "invalid_nonce"⟩ r.nonce] ++
  .field "max_age" [r.maxAge.bind (Validation.range 1 600
    ⟨Validation.rangeCode, some "invalid_max_age"⟩)]

end AuthorizeRequest

/-- A request for a token. -/
structure TokenRequest where
  grantType : String
  code : String
  transactionId : Option String
  deriving DecidableEq, Repr

namespace TokenRequest

/-- What has been read of a request; a transaction can be given as none. -/
structure Draft where
  grantType : Option String
  code : Option String
  transactionId : Option (Option String)
  deriving DecidableEq, Repr

/-- How a request is read. -/
def shape : Json.Shape Draft TokenRequest where
  empty := ⟨none, none, none⟩
  fields :=
    [.ofPlace "grant_type" Draft.grantType (fun d v => { d with grantType := some v })
       Decoder.text,
     .ofPlace "code" Draft.code (fun d v => { d with code := some v }) Decoder.text,
     .ofPlace "transaction_id" Draft.transactionId (fun d v => { d with transactionId := some v })
       (Decoder.optional Decoder.text)]
  finish d := do return ⟨← d.grantType, ← d.code, d.transactionId.join⟩

/-- What is wrong with a request. -/
def report (r : TokenRequest) : Validation.Report :=
  .field "grant_type" [Validation.length 1 none
    ⟨Validation.lengthCode, some "invalid_grant_type"⟩ r.grantType] ++
  .field "code" [Validation.length 1 none
    ⟨Validation.lengthCode, some "invalid_code"⟩ r.code]

end TokenRequest

end IdentityProvider
