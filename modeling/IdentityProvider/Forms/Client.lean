import IdentityProvider.Json.Decoder
import IdentityProvider.Query.Shape
import IdentityProvider.Validation

/-
  The registration of a client, and the question for the clients of a redirect URI.
-/

namespace IdentityProvider

open Json (Decoder)

/-- A client that is to be registered. -/
structure ClientRegistration where
  clientId : String
  redirectUri : String
  name : String
  deriving DecidableEq, Repr

namespace ClientRegistration

/-- What has been read of a registration. -/
structure Draft where
  clientId : Option String
  redirectUri : Option String
  name : Option String
  deriving DecidableEq, Repr

/-- How a registration is read. -/
def shape : Json.Shape Draft ClientRegistration where
  empty := ⟨none, none, none⟩
  fields :=
    [.ofPlace "client_id" Draft.clientId (fun d v => { d with clientId := some v }) Decoder.text,
     .ofPlace "redirect_uri" Draft.redirectUri (fun d v => { d with redirectUri := some v })
       Decoder.text,
     .ofPlace "name" Draft.name (fun d v => { d with name := some v }) Decoder.text]
  finish d := do return ⟨← d.clientId, ← d.redirectUri, ← d.name⟩

/-- What is wrong with a registration. -/
def report (r : ClientRegistration) : Validation.Report :=
  .field "client_id" [Validation.length 1 none
    ⟨Validation.lengthCode, some "invalid_client_id"⟩ r.clientId] ++
  .field "redirect_uri" [Validation.url
    ⟨Validation.urlCode, some "invalid_redirect_uri"⟩ r.redirectUri] ++
  .field "name" [Validation.length 1 (some 32)
    ⟨Validation.lengthCode, some "invalid_client_name"⟩ r.name]

end ClientRegistration

/-- A question for the clients of a redirect URI. -/
structure ClientQuery where
  redirectUri : String
  deriving DecidableEq, Repr

namespace ClientQuery

/-- How a question is read. -/
def shape : Query.Shape (Option String) ClientQuery where
  empty := none
  fields := [.ofPlace "redirect_uri" id (fun _ v => some v) Query.Reader.text]
  isClosed := false
  finish d := do return ⟨← Query.required "redirect_uri" d⟩

/-- What is wrong with a question. -/
def report (q : ClientQuery) : Validation.Report :=
  .field "redirect_uri" [Validation.url
    ⟨Validation.urlCode, some "invalid_redirect_uri"⟩ q.redirectUri]

end ClientQuery

end IdentityProvider
