import IdentityProvider.Json.Decoder
import IdentityProvider.Validation

/-
  A user's profile, with the contacts in it.
-/

namespace IdentityProvider

open Json (Decoder)

/-- A way to reach a user. -/
structure Contact where
  mail : String
  deriving DecidableEq, Repr

/-- How a contact is read. -/
def Contact.shape : Json.Shape (Option String) Contact where
  empty := none
  fields := [.ofPlace "mail" id (fun _ v => some v) Decoder.text]
  finish d := d.map Contact.mk

/-- What is wrong with a contact. -/
def Contact.report (c : Contact) : Validation.Report :=
  .field "mail" [Validation.length 1 none ⟨Validation.lengthCode, none⟩ c.mail]

/-- A profile. -/
structure Profile where
  displayName : String
  age : Option Int
  timeZone : String
  contact : Option Contact
  others : List Contact
  deriving DecidableEq, Repr

namespace Profile

/-- What has been read of a profile; age and contact can be given as none. -/
structure Draft where
  displayName : Option String
  age : Option (Option Int)
  timeZone : Option String
  contact : Option (Option Contact)
  others : Option (List Contact)
  deriving DecidableEq, Repr

/-- The least and the greatest number that an age can be: those of a signed word. -/
def ageRange : Int × Int := (-9223372036854775808, 9223372036854775807)

/-- How a profile is read; the other contacts may be left out. -/
def shape : Json.Shape Draft Profile where
  empty := ⟨none, none, none, none, none⟩
  fields :=
    [.ofPlace "displayName" Draft.displayName (fun d v => { d with displayName := some v })
       Decoder.text,
     .ofPlace "age" Draft.age (fun d v => { d with age := some v })
       (Decoder.optional (Decoder.integer ageRange.1 ageRange.2)),
     .ofPlace "timeZone" Draft.timeZone (fun d v => { d with timeZone := some v }) Decoder.text,
     .ofPlace "contact" Draft.contact (fun d v => { d with contact := some v })
       (Decoder.optional Contact.shape.decoder),
     { Json.Field.ofPlace "others" Draft.others (fun d v => { d with others := some v })
         (Decoder.list Contact.shape.decoder) with isOptional := true }]
  finish d := do
    return ⟨← d.displayName, d.age.join, ← d.timeZone, d.contact.join, d.others.getD []⟩

/-- What is wrong with a profile.  The two names are compared only where nothing else is wrong. -/
def report (p : Profile) : Validation.Report :=
  Validation.Report.whole
    (.field "display_name" [Validation.length 2 (some 8) ⟨Validation.lengthCode, none⟩
      p.displayName] ++
    .field "age" [p.age.bind (Validation.range (-5) 150
      ⟨"bad_age", some "age_out_of_range"⟩)] ++
    .field "time_zone" [Validation.length 3 none ⟨"zone_short", none⟩ p.timeZone,
      Validation.without ' ' ⟨"has_space", none⟩ p.timeZone] ++
    .nested "contact" ((p.contact.map Contact.report).getD []) ++
    .items "others" (p.others.map Contact.report))
    (if p.displayName = p.timeZone then some ⟨"same_names", none⟩ else none)

end Profile

end IdentityProvider
