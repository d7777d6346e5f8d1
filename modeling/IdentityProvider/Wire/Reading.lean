import IdentityProvider.Json.Decoder
import IdentityProvider.Wire

/-
  Reading the bodies in which failures travel.

  Members that a body does not have are passed over; the others must be there exactly once.
-/

namespace IdentityProvider

open Json (Decoder Shape Fault)

/-- Two texts of which each may still be missing. -/
structure TextPair where
  first : Option String
  second : Option String
  deriving DecidableEq, Repr

namespace TextPair

/-- Neither text. -/
def empty : TextPair := ⟨none, none⟩

/-- Reads the first text under this name. -/
def firstField (name : String) : Json.Field TextPair :=
  .ofPlace name TextPair.first (fun pair text => { pair with first := some text }) Decoder.text

/-- Reads the second text under this name. -/
def secondField (name : String) : Json.Field TextPair :=
  .ofPlace name TextPair.second (fun pair text => { pair with second := some text }) Decoder.text

/-- A value made of two texts with these names. -/
def shape (first second : String) (make : String → String → β) : Shape TextPair β where
  empty := empty
  fields := [firstField first, secondField second]
  finish pair := do return make (← pair.first) (← pair.second)

end TextPair

/-- How an OAuth error is read. -/
def OAuthError.shape : Shape TextPair OAuthError :=
  TextPair.shape Wire.errorName Wire.descriptionName OAuthError.mk

/-- How an entry is read. -/
def ErrorEntry.shape : Shape TextPair ErrorEntry :=
  TextPair.shape Wire.codeName Wire.messageName ErrorEntry.mk

/-- How an envelope is read. -/
def Envelope.shape : Shape (Option (List ErrorEntry)) Envelope where
  empty := none
  fields := [.ofPlace Wire.errorsName id (fun _ entries => some entries)
    (Decoder.list ErrorEntry.shape.decoder)]
  finish entries := entries.map Envelope.mk

/-- The OAuth error that a text writes. -/
def OAuthError.read (text : String) : Except Fault OAuthError :=
  Json.read OAuthError.shape.decoder (text.toList.map some)

/-- The envelope that a text writes. -/
def Envelope.read (text : String) : Except Fault Envelope :=
  Json.read Envelope.shape.decoder (text.toList.map some)

end IdentityProvider
