import IdentityProvider.Dispatch
import IdentityProvider.Proofs.Wire.Shapes

/-
  The bodies of failures read back as what they were written from.

  `Decodes decode value x` says that a decoder, met with the tokens of a value, answers `x` and
  takes no further token.  It holds for the bodies because the values that they are encoded to are
  written as them by their laws (`written_toJson`); with the lexer's side of the matter, whatever
  is sent on the internal and on the OAuth surface reads back (`read_render`), and its tokens are
  those of the value that was encoded.
-/

namespace IdentityProvider

open Json (Decoder Textual)

namespace Json

/-- The decoder takes exactly the tokens of the value, and answers `x`. -/
def Decodes (decode : Decoder α) (value : Json) (x : α) : Prop :=
  ∀ rest, decode (value.tokens ++ rest) = .ok (x, rest)

end Json

open Json (Decodes)

/-! ## Bodies as they are written -/

theorem ErrorEntry.written_toJson (entry : ErrorEntry) :
    ErrorEntry.law.Written entry.toJson entry := .object rfl rfl

theorem OAuthError.written_toJson (e : OAuthError) : OAuthError.law.Written e.toJson e :=
  .object rfl rfl

theorem Envelope.written_toJson (envelope : Envelope) :
    Envelope.law.Written envelope.toJson envelope :=
  .object rfl (List.forall₂_map_left_iff.mpr (List.forall₂_same.mpr fun entry _ =>
    entry.written_toJson))

theorem OAuthError.decodes_toJson (e : OAuthError) :
    Decodes OAuthError.shape.decoder e.toJson e :=
  (TextPair.judges_shape _ _ _).eq_ok
    ((TextPair.value?_eq_some_iff (by decide)).mpr e.written_toJson)

theorem Envelope.decodes_toJson (envelope : Envelope) :
    Decodes Envelope.shape.decoder envelope.toJson envelope :=
  Envelope.judges_shape.eq_ok (Envelope.value?_eq_some_iff.mpr envelope.written_toJson)

/-! ## Texts -/

theorem ErrorEntry.textual_toJson (entry : ErrorEntry) : Textual entry.toJson := by
  refine .object _ fun member hmember => ?_
  simp only [List.mem_cons, List.not_mem_nil, or_false] at hmember
  rcases hmember with rfl | rfl
  · exact .string _
  · exact .string _

theorem OAuthError.textual_toJson (e : OAuthError) : Textual e.toJson := by
  refine .object _ fun member hmember => ?_
  simp only [List.mem_cons, List.not_mem_nil, or_false] at hmember
  rcases hmember with rfl | rfl
  · exact .string _
  · exact .string _

theorem Envelope.textual_toJson (envelope : Envelope) : Textual envelope.toJson := by
  refine .object _ fun member hmember => ?_
  rw [List.mem_singleton] at hmember
  subst hmember
  refine .array _ fun item hitem => ?_
  obtain ⟨entry, _, rfl⟩ := List.mem_map.mp hitem
  exact entry.textual_toJson

namespace Json

theorem Textual.tokensOf_render {value : Json} (h : Textual value) :
    tokensOf (value.render.toList.map some) = value.tokens := h.wellFormed.tokensOf_render

/-- What a value made of texts was decoded to, its text reads as. -/
theorem read_render {decode : Decoder α} {value : Json} {x : α} (h : Decodes decode value x)
    (htextual : Textual value) : read decode (value.render.toList.map some) = .ok x := by
  have hdecode := h []
  rw [List.append_nil] at hdecode
  unfold read decodeAll
  rw [htextual.tokensOf_render, hdecode]

end Json

theorem Envelope.read_render (envelope : Envelope) :
    Envelope.read envelope.toJson.render = .ok envelope :=
  Json.read_render envelope.decodes_toJson envelope.textual_toJson

theorem OAuthError.read_render (e : OAuthError) : OAuthError.read e.toJson.render = .ok e :=
  Json.read_render e.decodes_toJson e.textual_toJson

/-! ## What is sent -/

theorem body_internal {dispatcher : Dispatcher} {path : String}
    (h : dispatcher.classifier.classify path = .internal) (failure : Failure) :
    (dispatcher.dispatch failure path).1.body =
      (Encoding.envelope dispatcher.catalog failure).toJson.render := by
  unfold Dispatcher.dispatch Dispatcher.rendering
  rw [h]
  rfl

theorem body_oauth {dispatcher : Dispatcher} {path : String}
    (h : dispatcher.classifier.classify path = .oauth) (failure : Failure) :
    (dispatcher.dispatch failure path).1.body =
      (Encoding.oauth dispatcher.catalog failure).2.toJson.render := by
  unfold Dispatcher.dispatch Dispatcher.rendering
  rw [h]
  rfl

/-- Every envelope and every OAuth error reads back from its text, and so does what is sent for a
failure; the tokens that are sent are those of the value that was encoded, whatever the words of
the failure are. -/
theorem bodies_read_back :
    (∀ envelope : Envelope, Envelope.read envelope.toJson.render = .ok envelope) ∧
    (∀ e : OAuthError, OAuthError.read e.toJson.render = .ok e) ∧
    ∀ (dispatcher : Dispatcher) (failure : Failure) (path : String),
      let body := (dispatcher.dispatch failure path).1.body
      (dispatcher.classifier.classify path = .internal →
        Envelope.read body = .ok (Encoding.envelope dispatcher.catalog failure) ∧
        Json.tokensOf (body.toList.map some) =
          (Encoding.envelope dispatcher.catalog failure).toJson.tokens) ∧
      (dispatcher.classifier.classify path = .oauth →
        OAuthError.read body = .ok (Encoding.oauth dispatcher.catalog failure).2 ∧
        Json.tokensOf (body.toList.map some) =
          (Encoding.oauth dispatcher.catalog failure).2.toJson.tokens) := by
  refine ⟨Envelope.read_render, OAuthError.read_render, ?_⟩
  intro dispatcher failure path
  refine ⟨fun hpath => ?_, fun hpath => ?_⟩
  · rw [body_internal hpath]
    exact ⟨Envelope.read_render _, (Envelope.textual_toJson _).tokensOf_render⟩
  · rw [body_oauth hpath]
    exact ⟨OAuthError.read_render _, (OAuthError.textual_toJson _).tokensOf_render⟩

/-- The same for a field whose name and message would close the entry and add another one. -/
theorem bodies_read_back_forged :
    let dispatcher : Dispatcher := ⟨Classifier.standard, Catalog.builtin⟩
    let failure : Failure := .ofFieldErrors [⟨"scope\x01", "\"\x7d,\x7b\"errorCode\":\"😀\\"⟩]
    Envelope.read (dispatcher.dispatch failure "/client-mgmt/oidc-client").1.body =
      .ok (Encoding.envelope dispatcher.catalog failure) ∧
    OAuthError.read (dispatcher.dispatch failure "/oauth/token").1.body =
      .ok (Encoding.oauth dispatcher.catalog failure).2 :=
  ⟨((bodies_read_back.2.2 _ _ _).1 (by decide)).1, ((bodies_read_back.2.2 _ _ _).2 (by decide)).1⟩

end IdentityProvider
