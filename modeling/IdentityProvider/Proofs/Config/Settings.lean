import IdentityProvider.Config.Decoding
import IdentityProvider.Proofs.Toml.Varying

/-
  The settings that a string of a document can be.

  `Setting` lists them and `Setting.put?` gives one of them a text.  If one string of the entries of
  a document varies, the settings that they make vary with it in one setting and are the same in
  all others, or no setting is read from the string at all (`ofEntries?_varies`).
-/

namespace IdentityProvider

/-- A setting that is written as a string. -/
inductive Setting
  | listenAddress
  | healthPath
  | bundlePath
  /-- A text of the messages, by its place in the list. -/
  | message (index : Nat)
  | ruleStart (index : Nat)
  | ruleSurface (index : Nat)
  | fallback
  | filter
  | format
  deriving DecidableEq, Repr

/-- The settings with a text in the place of one of them, if this can be what the text says. -/
def Setting.put? (text : String) (config : Config) : Setting → Option Config
  | .listenAddress =>
    (Address.read? text).map fun address => { config with server.listenAddress := address }
  | .healthPath => some { config with server.health.path := text }
  | .bundlePath => some { config with messages.path := some text }
  | .message index => config.messages.entries[index]?.map fun entry =>
    { config with messages.entries := config.messages.entries.set index (entry.1, text) }
  | .ruleStart index => config.dispatch.rules[index]?.map fun rule =>
    { config with
      dispatch.rules := config.dispatch.rules.set index { rule with start := text } }
  | .ruleSurface index => config.dispatch.rules[index]?.bind fun rule =>
    (Surface.ofName? text).map fun surface =>
      { config with
        dispatch.rules := config.dispatch.rules.set index { rule with surface := surface } }
  | .fallback =>
    (Surface.ofName? text).map fun surface => { config with dispatch.fallback := surface }
  | .filter => some { config with logging.filter := text }
  | .format => (LogFormat.ofName? text).map fun format => { config with logging.format := format }

/-- The value that a section has for one of its keys. -/
def Toml.under? (keys : List String) (key : String) (value : Toml) : Option Toml :=
  (value.fields? keys).bind fun fields => fields.lookup key

/-- The item of an array at a place. -/
def Toml.item? (index : Nat) (value : Toml) : Option Toml :=
  value.items?.bind fun items => items[index]?

/-- The value that a document has for a setting. -/
def Setting.source? (entries : Toml.Entries) : Setting → Option Toml
  | .listenAddress =>
    (entries.lookup "server").bind (Toml.under? Config.serverKeys "listen_address")
  | .healthPath =>
    ((entries.lookup "server").bind (Toml.under? Config.serverKeys "health")).bind
      (Toml.under? Config.healthKeys "path")
  | .bundlePath => (entries.lookup "messages").bind (Toml.under? Config.messagesKeys "path")
  | .message index =>
    (((entries.lookup "messages").bind (Toml.under? Config.messagesKeys "entries")).bind
      Toml.entries?).bind fun texts => texts[index]?.map Prod.snd
  | .ruleStart index =>
    (((entries.lookup "dispatch").bind (Toml.under? Config.dispatchKeys "rules")).bind
      (Toml.item? index)).bind (Toml.under? Config.ruleKeys "prefix")
  | .ruleSurface index =>
    (((entries.lookup "dispatch").bind (Toml.under? Config.dispatchKeys "rules")).bind
      (Toml.item? index)).bind (Toml.under? Config.ruleKeys "surface")
  | .fallback => (entries.lookup "dispatch").bind (Toml.under? Config.dispatchKeys "default")
  | .filter => (entries.lookup "logging").bind (Toml.under? Config.loggingKeys "filter")
  | .format => (entries.lookup "logging").bind (Toml.under? Config.loggingKeys "format")

/-- Whether any text can be the setting. -/
def Setting.takesAny : Setting → Bool
  | .bundlePath | .message _ | .filter => true
  | _ => false

namespace Toml

/-! ## Strings -/

section

variable {x : String → Toml} {w : String}

/-- Of what varies the decoder takes strings only. -/
def TakesStrings (decode : Toml → Option α) : Prop :=
  ∀ x : String → Toml, Varies x → ∀ w a, decode (x w) = some a → x = .string

theorem takesStrings_text? : TakesStrings text? := by
  intro x hx w text h
  cases hx with
  | string => rfl
  | item before item after hitem => cases h
  | entry before key value after hvalue => cases h

theorem boolean?_varies (hx : Varies x) : (x w).boolean? = none := by
  cases hx with
  | string => rfl
  | item before item after hitem => rfl
  | entry before key value after hvalue => rfl

theorem Varies.ne_empty (hx : Varies x) : x w ≠ .table [] ∧ x w ≠ .array [] := by
  cases hx with
  | string => exact ⟨nofun, nofun⟩
  | item before item after hitem =>
    exact ⟨nofun, fun h => List.append_ne_nil_of_right_ne_nil _ (List.cons_ne_nil _ _)
      (Toml.array.inj h)⟩
  | entry before key value after hvalue =>
    exact ⟨fun h => List.append_ne_nil_of_right_ne_nil _ (List.cons_ne_nil _ _)
      (Toml.table.inj h), nofun⟩

theorem eq_of_append_cons_eq_singleton {before after : List α} {a b : α}
    (h : before ++ a :: after = [b]) : a = b := by
  obtain ⟨_, hcons⟩ | ⟨_, hcons⟩ := List.append_eq_singleton_iff.mp h
  · exact (List.cons.inj hcons).1
  · cases hcons

theorem takesStrings_choice? : TakesStrings choice? := by
  intro x hx w name h
  cases hx with
  | string => rfl
  | item before item after hitem => cases h
  | entry before key value after hvalue =>
    -- a name that is a key stands alone and with nothing in it
    exfalso
    unfold choice? at h
    split at h
    · next heq => cases heq
    · next heq =>
      have hentry := eq_of_append_cons_eq_singleton (Toml.table.inj heq)
      exact hvalue.ne_empty.1 (Prod.mk.inj hentry).2
    · next heq =>
      have hentry := eq_of_append_cons_eq_singleton (Toml.table.inj heq)
      exact hvalue.ne_empty.2 (Prod.mk.inj hentry).2
    · cases h

theorem TakesStrings.bind {decode : Toml → Option α} (h : TakesStrings decode)
    (next : α → Option β) : TakesStrings fun value => (decode value).bind next := by
  intro x hx w b hb
  obtain ⟨a, ha, _⟩ := Option.bind_eq_some_iff.mp hb
  exact h x hx w a ha

theorem TakesStrings.map {decode : Toml → Option α} (h : TakesStrings decode) (f : α → β) :
    TakesStrings fun value => (decode value).map f := by
  intro x hx w b hb
  obtain ⟨a, ha, _⟩ := Option.map_eq_some_iff.mp hb
  exact h x hx w a ha

/-! ## Lists and tables -/

theorem length_of_mapM {f : α → Option β} {xs : List α} {ys : List β} (h : xs.mapM f = some ys) :
    ys.length = xs.length := by
  induction xs generalizing ys with
  | nil =>
    cases h
    rfl
  | cons x xs ih =>
    rw [List.mapM_cons] at h
    obtain ⟨y, _, h⟩ := Option.bind_eq_some_iff.mp h
    obtain ⟨rest, hrest, heq⟩ := Option.bind_eq_some_iff.mp h
    cases heq
    rw [List.length_cons, List.length_cons, ih hrest]

/-- What is decoded of a list with one item in another's place. -/
theorem mapM_append_cons {f : α → Option β} {before after : List α} {a : α} {bs : List β}
    (h : (before ++ a :: after).mapM f = some bs) : ∃ front b back, f a = some b ∧
      bs = front ++ b :: back ∧ front.length = before.length ∧
        ∀ other, (before ++ other :: after).mapM f =
          (f other).map fun b => front ++ b :: back := by
  rw [List.mapM_append, List.mapM_cons] at h
  obtain ⟨front, hfront, h⟩ := Option.bind_eq_some_iff.mp h
  obtain ⟨_, h', heq⟩ := Option.bind_eq_some_iff.mp h
  obtain ⟨b, hb, h'⟩ := Option.bind_eq_some_iff.mp h'
  obtain ⟨back, hback, hcons⟩ := Option.bind_eq_some_iff.mp h'
  cases hcons
  cases heq
  refine ⟨front, b, back, hb, rfl, length_of_mapM hfront, fun other => ?_⟩
  rw [List.mapM_append, List.mapM_cons, hfront, hback]
  cases f other with
  | none => rfl
  | some b => rfl

/-- Behind each key of a list there is what does not depend on the value of one entry, but for the
key of this entry at most. -/
theorem lookup_append_cons (before : Entries) (key : String) (after : Entries) :
    ∃ found : String → Option Toml,
      (∀ value other, (before ++ (key, value) :: after).lookup other = found other) ∨
      ∀ value other, (before ++ (key, value) :: after).lookup other =
        if other = key then some value else found other := by
  refine ⟨fun other => (before ++ after).lookup other, ?_⟩
  have hother : ∀ value other, other ≠ key → (before ++ (key, value) :: after).lookup other =
      (before ++ after).lookup other := fun value other hne => by
    rw [List.lookup_append, List.lookup_append, List.lookup_cons, beq_eq_false_iff_ne.mpr hne]
  cases hbefore : before.lookup key with
  | some first =>
    refine .inl fun value other => ?_
    by_cases hkey : other = key
    · subst hkey
      show _ = (before ++ after).lookup other
      rw [List.lookup_append, List.lookup_append, hbefore, Option.some_or, Option.some_or]
    · exact hother value other hkey
  | none =>
    refine .inr fun value other => ?_
    by_cases hkey : other = key
    · subst hkey
      rw [if_pos rfl, List.lookup_append, hbefore, Option.none_or, List.lookup_cons_self]
    · rw [if_neg hkey, hother value other hkey]

theorem zip_append_right {keys : List α} {values : List β} (h : keys.length ≤ values.length)
    (more : List β) : keys.zip (values ++ more) = keys.zip values := by
  have hlength : keys.length ≤ (values ++ more).length := by
    rw [List.length_append]
    omega
  rw [List.zip_eq_zip_take_min, @List.zip_eq_zip_take_min _ _ keys values, Nat.min_eq_left h,
    Nat.min_eq_left hlength, List.take_append_of_le_length h]

theorem fields?_table (keys : List String) (entries : Entries) :
    (Toml.table entries).fields? keys =
      if entries.all fun e => keys.contains e.1 then some entries else none := by
  show (guard _ : Option Unit).bind (fun _ => some entries) = _
  unfold guard
  split
  · rfl
  · rfl

theorem eq_of_fields?_table {keys : List String} {entries fields : Entries}
    (h : (Toml.table entries).fields? keys = some fields) : fields = entries := by
  rw [fields?_table] at h
  exact (Option.some.inj (Option.ite_none_right_eq_some.mp h).2).symm

/-- The fields of a section that varies: there are none, or behind each key there is what does not
vary, but for one key at most. -/
theorem fields?_varies (hx : Varies x) (keys : List String) :
    (∀ v, (x v).fields? keys = none) ∨ ∃ fields : String → Entries,
      (∀ v, (x v).fields? keys = some (fields v)) ∧ ∃ found : String → Option Toml,
        (∀ v key, (fields v).lookup key = found key) ∨
        ∃ key ∈ keys, ∃ value, Varies value ∧
          ∀ v other, (fields v).lookup other =
            if other = key then some (value v) else found other := by
  cases hx with
  | string => exact .inl fun v => rfl
  | item before item after hitem =>
    refine .inr ⟨_, fun v => rfl, ?_⟩
    by_cases hlength : before.length < keys.length
    · -- the item is the value of the key at its place
      obtain ⟨front, key, back, rfl, hfront⟩ : ∃ front key back,
          keys = front ++ key :: back ∧ front.length = before.length := by
        refine ⟨keys.take before.length, keys[before.length], keys.drop (before.length + 1), ?_, ?_⟩
        · rw [List.getElem_cons_drop, List.take_append_drop]
        · rw [List.length_take, Nat.min_eq_left (Nat.le_of_lt hlength)]
      obtain ⟨found, hfound⟩ := lookup_append_cons (front.zip before) key (back.zip after)
      refine ⟨found, ?_⟩
      simp only [List.zip_append hfront, List.zip_cons_cons]
      exact hfound.imp (fun h v => h (item v)) fun h =>
        ⟨key, by simp, item, hitem, fun v => h (item v)⟩
    · -- the item is one too many
      refine ⟨fun key => (keys.zip before).lookup key, .inl fun v key => ?_⟩
      rw [zip_append_right (Nat.le_of_not_lt hlength)]
  | entry before key value after hvalue =>
    -- which keys there are does not vary
    have hall : ∀ v, ((before ++ (key, value v) :: after).all fun e => keys.contains e.1) =
        ((before ++ (key, value "") :: after).all fun e => keys.contains e.1) := fun v => by
      rw [List.all_append, List.all_append, List.all_cons, List.all_cons]
    by_cases hkeys : ((before ++ (key, value "") :: after).all fun e => keys.contains e.1) = true
    · refine .inr ⟨_, fun v => by rw [fields?_table, hall v, if_pos hkeys], ?_⟩
      have hkey : key ∈ keys := by simpa using List.all_eq_true.mp hkeys (key, value "") (by simp)
      obtain ⟨found, hfound⟩ := lookup_append_cons before key after
      exact ⟨found, hfound.imp (fun h v => h (value v)) fun h =>
        ⟨key, hkey, value, hvalue, fun v => h (value v)⟩⟩
    · exact .inl fun v => by rw [fields?_table, hall v, if_neg hkeys]

/-! ## Sections of two fields -/

/-- The values of two fields, each with what stands in where it is left out. -/
def pair? (first second : String) (standard₁ : Option α) (decode₁ : Toml → Option α)
    (standard₂ : Option β) (decode₂ : Toml → Option β) (value : Toml) : Option (α × β) :=
  (value.fields? [first, second]).bind fun fields =>
    ((fields.lookup first).elim standard₁ decode₁).bind fun a =>
      ((fields.lookup second).elim standard₂ decode₂).map fun b => (a, b)

theorem field?_eq (fields : Entries) (key : String) (decode : Toml → Option α) (standard : α) :
    fields.field? key decode standard = (fields.lookup key).elim (some standard) decode := by
  unfold Entries.field?
  cases fields.lookup key with
  | none => rfl
  | some value => rfl

theorem required?_eq (fields : Entries) (key : String) (decode : Toml → Option α) :
    fields.required? key decode = (fields.lookup key).elim none decode := by
  unfold Entries.required?
  cases fields.lookup key with
  | none => rfl
  | some value => rfl

theorem bind_fields_eq {first second : String} {standard₁ : Option α}
    {decode₁ : Toml → Option α} {standard₂ : Option β} {decode₂ : Toml → Option β}
    (make : α → β → γ) (value : Toml) :
    ((value.fields? [first, second]).bind fun fields =>
      ((fields.lookup first).elim standard₁ decode₁).bind fun a =>
        ((fields.lookup second).elim standard₂ decode₂).bind fun b => some (make a b)) =
      (pair? first second standard₁ decode₁ standard₂ decode₂ value).map fun fields =>
        make fields.1 fields.2 := by
  simp only [pair?, Option.map_eq_bind, Function.comp_def, Option.bind_assoc, Option.bind_some]

theorem under?_eq {keys : List String} {value : Toml} {fields : Entries}
    (h : value.fields? keys = some fields) (key : String) :
    value.under? keys key = fields.lookup key := by
  rw [under?, h, Option.bind_some]

/-- If a section varies, its two values are the same, or one of them is decoded of what varies. -/
theorem pair?_varies {first second : String} (hne : first ≠ second) {standard₁ : Option α}
    {decode₁ : Toml → Option α} {standard₂ : Option β} {decode₂ : Toml → Option β} {a : α} {b : β}
    (hx : Varies x)
    (h : pair? first second standard₁ decode₁ standard₂ decode₂ (x w) = some (a, b)) :
    ∃ found : String → Option Toml,
    ((∀ v key, (x v).under? [first, second] key = found key) ∧
      ∀ v, pair? first second standard₁ decode₁ standard₂ decode₂ (x v) = some (a, b)) ∨
    (∃ value, Varies value ∧ decode₁ (value w) = some a ∧
      (∀ v, (x v).under? [first, second] first = some (value v)) ∧
      (∀ v, (x v).under? [first, second] second = found second) ∧
      ∀ v, pair? first second standard₁ decode₁ standard₂ decode₂ (x v) =
        (decode₁ (value v)).map fun a => (a, b)) ∨
    ∃ value, Varies value ∧ decode₂ (value w) = some b ∧
      (∀ v, (x v).under? [first, second] first = found first) ∧
      (∀ v, (x v).under? [first, second] second = some (value v)) ∧
      ∀ v, pair? first second standard₁ decode₁ standard₂ decode₂ (x v) =
        (decode₂ (value v)).map fun b => (a, b) := by
  unfold pair? at h ⊢
  obtain hnone | ⟨fields, hfields, found, hfound | ⟨key, hkey, value, hvalue, hfound⟩⟩ :=
    fields?_varies hx [first, second]
  · rw [hnone w] at h
    cases h
  · refine ⟨found, .inl ⟨fun v key => by rw [under?_eq (hfields v), hfound], ?_⟩⟩
    simp only [hfields, hfound, Option.bind_some] at h ⊢
    exact fun _ => h
  · have hunder : ∀ v other, (x v).under? [first, second] other =
        if other = key then some (value v) else found other := fun v other => by
      rw [under?_eq (hfields v), hfound]
    refine ⟨found, ?_⟩
    simp only [hfields, hfound, Option.bind_some] at h ⊢
    obtain ⟨a', ha, h⟩ := Option.bind_eq_some_iff.mp h
    obtain ⟨b', hb, heq⟩ := Option.map_eq_some_iff.mp h
    cases heq
    obtain rfl | rfl : key = first ∨ key = second := by simpa using hkey
    · rw [if_pos rfl] at ha
      rw [if_neg hne.symm] at hb
      refine .inr (.inl ⟨value, hvalue, ha, fun v => ?_, fun v => ?_, fun v => ?_⟩)
      · rw [hunder, if_pos rfl]
      · rw [hunder, if_neg hne.symm]
      · rw [if_pos rfl, if_neg hne.symm, hb]
        exact Option.map_eq_bind.symm
    · rw [if_neg hne] at ha
      rw [if_pos rfl] at hb
      refine .inr (.inr ⟨value, hvalue, hb, fun v => ?_, fun v => ?_, fun v => ?_⟩)
      · rw [hunder, if_neg hne]
      · rw [hunder, if_pos rfl]
      · rw [if_pos rfl, if_neg hne, ha]
        rfl

end

end Toml

namespace Config

open Toml

/-! ## The sections -/

/-- Where the setting is a certain one, its value is the whole value. -/
def only (own s : Setting) : Toml → Option Toml := if s = own then some else fun _ => none

/-- The value of a setting in a section of two fields. -/
def inPair (first second : String) (look₁ look₂ : Setting → Toml → Option Toml) (s : Setting) :
    Toml → Option Toml := fun value =>
  ((value.under? [first, second] first).bind fun inner => look₁ s inner).or
    ((value.under? [first, second] second).bind fun inner => look₂ s inner)

/-- No setting has a value in both parts. -/
def Apart (look₁ look₂ : Setting → Toml → Option Toml) : Prop :=
  ∀ s, (look₁ s = fun _ => none) ∨ look₂ s = fun _ => none

theorem Apart.symm {look₁ look₂ : Setting → Toml → Option Toml} (h : Apart look₁ look₂) :
    Apart look₂ look₁ :=
  fun s => (h s).symm

theorem apart_only_left {own : Setting} {look : Setting → Toml → Option Toml}
    (h : look own = fun _ => none) : Apart (only own) look := by
  intro s
  by_cases hs : s = own
  · exact .inr (hs ▸ h)
  · exact .inl (if_neg hs)

/-- A part of the settings, in which `look` finds the values of settings, is decoded of what varies.
If the part is the same for every text, so is the value of every setting in it; else there is one
setting whose value is the text, and the settings are those with the text in its place. -/
def Settles (look : Setting → Toml → Option Toml) (part : Config → α)
    (put : Config → α → Config) (decode : Toml → Option α) : Prop :=
  ∀ {x : String → Toml}, Varies x → ∀ {w : String} {c : Config}, decode (x w) = some (part c) →
    ((∀ v, decode (x v) = some (part c)) ∧ ∀ s v, look s (x v) = look s (x w)) ∨
      ∃ s : Setting, (∀ v, look s (x v) = some (.string v)) ∧
        ∀ v, (decode (x v)).map (put c) = s.put? v c

/-- A part that is decoded of strings only is one setting. -/
theorem settles_of_string {part : Config → α} {put : Config → α → Config}
    {decode : Toml → Option α} (hstrings : TakesStrings decode) (s : Setting)
    (hput : ∀ v c, (decode (.string v)).map (put c) = s.put? v c) :
    Settles (only s) part put decode := by
  intro x hx w c h
  rw [hstrings x hx w _ h]
  exact .inr ⟨s, fun v => by rw [only, if_pos rfl], fun v => hput v c⟩

/-- What holds of both parts of a section holds of the section. -/
theorem Settles.pair {first second : String} (hne : first ≠ second)
    {look₁ look₂ : Setting → Toml → Option Toml} (hapart : Apart look₁ look₂) {part₁ : Config → α}
    {put₁ : Config → α → Config} {standard₁ : Option α} {decode₁ : Toml → Option α}
    {part₂ : Config → β} {put₂ : Config → β → Config} {standard₂ : Option β}
    {decode₂ : Toml → Option β} {part : Config → γ} {put : Config → γ → Config} {make : α → β → γ}
    (h₁ : Settles look₁ part₁ put₁ decode₁) (h₂ : Settles look₂ part₂ put₂ decode₂)
    (hpart : ∀ {a b c}, make a b = part c → a = part₁ c ∧ b = part₂ c)
    (hput₁ : ∀ c a, put c (make a (part₂ c)) = put₁ c a)
    (hput₂ : ∀ c b, put c (make (part₁ c) b) = put₂ c b) :
    Settles (inPair first second look₁ look₂) part put fun value =>
      (pair? first second standard₁ decode₁ standard₂ decode₂ value).map fun fields =>
        make fields.1 fields.2 := by
  intro x hx w c h
  obtain ⟨⟨a, b⟩, hpair, hmake⟩ := Option.map_eq_some_iff.mp h
  obtain ⟨rfl, rfl⟩ := hpart hmake
  have hsame : ∀ v, pair? first second standard₁ decode₁ standard₂ decode₂ (x v) =
      some (part₁ c, part₂ c) → (pair? first second standard₁ decode₁ standard₂ decode₂ (x v)).map
        (fun fields => make fields.1 fields.2) = some (part c) := fun v hv => by
    rw [hv, Option.map_some, hmake]
  obtain ⟨found, ⟨hfound, hall⟩ | ⟨value, hvalue, hdecode, hfirst, hsecond, hall⟩ |
    ⟨value, hvalue, hdecode, hfirst, hsecond, hall⟩⟩ := pair?_varies hne hx hpair
  · refine .inl ⟨fun v => hsame v (hall v), fun s v => ?_⟩
    simp only [inPair, hfound]
  · obtain ⟨hfixed, hlook⟩ | ⟨s, hlook, hs⟩ := h₁ hvalue hdecode
    · refine .inl ⟨fun v => hsame v (by rw [hall v, hfixed v]; rfl), fun s v => ?_⟩
      simp only [inPair, hfirst, hsecond, Option.bind_some, hlook s v]
    · refine .inr ⟨s, fun v => ?_, fun v => ?_⟩
      · rw [inPair, hfirst, Option.bind_some, hlook, Option.some_or]
      · dsimp only
        rw [← hs v, hall v, Option.map_map, Option.map_map]
        exact congrArg (Option.map · _) (funext fun a => hput₁ c a)
  · obtain ⟨hfixed, hlook⟩ | ⟨s, hlook, hs⟩ := h₂ hvalue hdecode
    · refine .inl ⟨fun v => hsame v (by rw [hall v, hfixed v]; rfl), fun s v => ?_⟩
      simp only [inPair, hfirst, hsecond, Option.bind_some, hlook s v]
    · refine .inr ⟨s, fun v => ?_, fun v => ?_⟩
      · have hnone : look₁ s = fun _ => none := (hapart s).resolve_right fun hnone => by
          have hstring := hlook v
          rw [hnone] at hstring
          cases hstring
        simp only [inPair, hfirst, hsecond, Option.bind_some, hlook, hnone, Option.bind_fun_none,
          Option.none_or]
      · dsimp only
        rw [← hs v, hall v, Option.map_map, Option.map_map]
        exact congrArg (Option.map · _) (funext fun b => hput₂ c b)

/-! ### The log -/

theorem settles_filter : Settles (only .filter) (·.logging.filter)
    (fun c filter => { c with logging.filter := filter }) text? :=
  settles_of_string takesStrings_text? .filter fun _ _ => rfl

theorem settles_format : Settles (only .format) (·.logging.format)
    (fun c format => { c with logging.format := format }) format? :=
  settles_of_string (takesStrings_choice?.bind LogFormat.ofName?) .format fun _ _ => rfl

theorem logging?_eq : logging? = fun value =>
    (pair? "filter" "format" (some Logging.standard.filter) text? (some Logging.standard.format)
      format? value).map fun fields => ⟨fields.1, fields.2⟩ := by
  funext value
  unfold logging? loggingKeys
  simp only [field?_eq]
  exact bind_fields_eq Logging.mk value

/-- The value of a setting in the section of the log. -/
def inLogging : Setting → Toml → Option Toml :=
  inPair "filter" "format" (only .filter) (only .format)

theorem settles_logging :
    Settles inLogging logging (fun c l => { c with logging := l }) logging? := by
  rw [logging?_eq]
  exact settles_filter.pair (by decide) (apart_only_left rfl) settles_format
    (fun h => by rw [← h]; exact ⟨rfl, rfl⟩) (fun _ _ => rfl) fun _ _ => rfl

/-! ### Messages -/

theorem settles_bundlePath : Settles (only .bundlePath) (·.messages.path)
    (fun c path => { c with messages.path := path }) (fun v => v.text?.map some) :=
  settles_of_string (takesStrings_text?.map some) .bundlePath fun _ _ => rfl

/-- The place behind the front of a list. -/
theorem getElem?_append_cons (front : List α) (a : α) (back : List α) :
    (front ++ a :: back)[front.length]? = some a := by
  rw [List.getElem?_append_right (Nat.le_refl _), Nat.sub_self, List.getElem?_cons_zero]

theorem set_append_cons (front : List α) (a b : α) (back : List α) :
    (front ++ a :: back).set front.length b = front ++ b :: back := by
  rw [List.set_append_right _ _ (Nat.le_refl _), Nat.sub_self, List.set_cons_zero]

theorem texts?_table (entries : Entries) : (Toml.table entries).texts? =
    entries.mapM fun entry => entry.2.text?.map (entry.1, ·) :=
  rfl

/-- The value of a setting in a table of texts. -/
def inTexts : Setting → Toml → Option Toml
  | .message index => fun value => value.entries?.bind fun texts => texts[index]?.map Prod.snd
  | _ => fun _ => none

theorem settles_entries : Settles inTexts (·.messages.entries)
    (fun c entries => { c with messages.entries := entries }) texts? := by
  intro x hx w c h
  cases hx with
  | string => cases h
  | item before item after hitem => cases h
  | entry before key value after hvalue =>
    dsimp only at h ⊢
    rw [texts?_table] at h
    obtain ⟨front, entry, back, hentry, hentries, hlength, hall⟩ := mapM_append_cons h
    obtain ⟨text, htext, rfl⟩ := Option.map_eq_some_iff.mp hentry
    rw [takesStrings_text? value hvalue w _ htext]
    refine .inr ⟨.message front.length, fun v => ?_, fun v => ?_⟩
    · simp only [inTexts, entries?, Option.bind_some, hlength, getElem?_append_cons,
        Option.map_some]
    · rw [texts?_table, hall, Setting.put?, hentries, getElem?_append_cons, Option.map_some,
        set_append_cons]
      rfl

theorem messages?_eq : messages? = fun value =>
    (pair? "path" "entries" (some Messages.standard.path) (fun v => v.text?.map some)
      (some Messages.standard.entries) texts? value).map fun fields => ⟨fields.1, fields.2⟩ := by
  funext value
  unfold messages? messagesKeys
  simp only [field?_eq]
  exact bind_fields_eq Messages.mk value

/-- The value of a setting in the section of the messages. -/
def inMessages : Setting → Toml → Option Toml :=
  inPair "path" "entries" (only .bundlePath) inTexts

theorem settles_messages :
    Settles inMessages messages (fun c m => { c with messages := m }) messages? := by
  rw [messages?_eq]
  exact settles_bundlePath.pair (by decide) (apart_only_left rfl) settles_entries
    (fun h => by rw [← h]; exact ⟨rfl, rfl⟩) (fun _ _ => rfl) fun _ _ => rfl

/-! ### Surfaces -/

theorem takesStrings_surface? : TakesStrings surface? :=
  takesStrings_choice?.bind Surface.ofName?

theorem rule?_eq (value : Toml) : rule? value =
    (pair? "prefix" "surface" none text? none surface? value).map fun fields =>
      ⟨fields.1, fields.2⟩ := by
  unfold rule? ruleKeys
  simp only [required?_eq]
  exact bind_fields_eq SurfaceRule.mk value

theorem rules?_array (items : List Toml) : rules? (.array items) = items.mapM rule? := rfl

/-- The value of a setting in a list of rules. -/
def inRules : Setting → Toml → Option Toml
  | .ruleStart index => fun value => (value.item? index).bind (under? ruleKeys "prefix")
  | .ruleSurface index => fun value => (value.item? index).bind (under? ruleKeys "surface")
  | _ => fun _ => none

theorem item?_append_cons (before : List Toml) (item : Toml) (after : List Toml) :
    (Toml.array (before ++ item :: after)).item? before.length = some item :=
  getElem?_append_cons before item after

/-- The items at the other places do not depend on the one at this place. -/
theorem item?_append_cons_of_ne {before : List Toml} {index : Nat} (h : index ≠ before.length)
    (item other : Toml) (after : List Toml) :
    (Toml.array (before ++ item :: after)).item? index =
      (Toml.array (before ++ other :: after)).item? index := by
  show (before ++ item :: after)[index]? = (before ++ other :: after)[index]?
  rw [← set_append_cons before other item after, List.getElem?_set_ne h.symm]

theorem settles_rules : Settles inRules (·.dispatch.rules)
    (fun c rules => { c with dispatch.rules := rules }) rules? := by
  intro x hx w c h
  cases hx with
  | string => cases h
  | entry before key value after hvalue => cases h
  | item before item after hitem =>
    dsimp only at h ⊢
    rw [rules?_array] at h
    obtain ⟨front, rule, back, hrule, hrules, hlength, hall⟩ := mapM_append_cons h
    have hread : ∀ v, rules? (.array (before ++ item v :: after)) =
        (rule? (item v)).map fun rule => front ++ rule :: back := fun v => hall (item v)
    rw [rule?_eq] at hrule
    obtain ⟨⟨start, surface⟩, hpair, rfl⟩ := Option.map_eq_some_iff.mp hrule
    obtain ⟨found, ⟨hfound, hsame⟩ | ⟨value, hvalue, htext, hfirst, _, hpairs⟩ |
      ⟨value, hvalue, hsurface, _, hsecond, hpairs⟩⟩ := pair?_varies (by decide) hitem hpair
    · have hunder : ∀ index key v,
          ((Toml.array (before ++ item v :: after)).item? index).bind (under? ruleKeys key) =
            ((Toml.array (before ++ item w :: after)).item? index).bind (under? ruleKeys key) := by
        intro index key v
        by_cases hindex : index = before.length
        · rw [hindex, item?_append_cons, item?_append_cons, Option.bind_some, Option.bind_some]
          exact (hfound v key).trans (hfound w key).symm
        · rw [item?_append_cons_of_ne hindex (item v) (item w)]
      refine .inl ⟨fun v => ?_, fun s v => ?_⟩
      · rw [hread, rule?_eq, hsame, hrules]
        rfl
      · cases s with
        | ruleStart index => exact hunder index "prefix" v
        | ruleSurface index => exact hunder index "surface" v
        | _ => rfl
    · refine .inr ⟨.ruleStart front.length, fun v => ?_, fun v => ?_⟩
      · simp only [inRules, hlength, item?_append_cons, Option.bind_some]
        rw [takesStrings_text? value hvalue w _ htext] at hfirst
        exact hfirst v
      · rw [hread, rule?_eq, hpairs, takesStrings_text? value hvalue w _ htext, Setting.put?,
          hrules, getElem?_append_cons, Option.map_some, set_append_cons]
        rfl
    · refine .inr ⟨.ruleSurface front.length, fun v => ?_, fun v => ?_⟩
      · simp only [inRules, hlength, item?_append_cons, Option.bind_some]
        rw [takesStrings_surface? value hvalue w _ hsurface] at hsecond
        exact hsecond v
      · rw [hread, rule?_eq, hpairs, takesStrings_surface? value hvalue w _ hsurface,
          Setting.put?, hrules, getElem?_append_cons, Option.bind_some, Option.map_map,
          Option.map_map, Option.map_map]
        refine congrArg (Option.map · _) (funext fun surface => ?_)
        rw [set_append_cons]
        rfl

theorem settles_fallback : Settles (only .fallback) (·.dispatch.fallback)
    (fun c fallback => { c with dispatch.fallback := fallback }) surface? :=
  settles_of_string takesStrings_surface? .fallback fun _ _ => rfl

theorem dispatch?_eq : dispatch? = fun value =>
    (pair? "rules" "default" (some Classifier.standard.rules) rules?
      (some Classifier.standard.fallback) surface? value).map fun fields =>
        ⟨fields.1, fields.2⟩ := by
  funext value
  unfold dispatch? dispatchKeys
  simp only [field?_eq]
  exact bind_fields_eq Classifier.mk value

/-- The value of a setting in the section of the surfaces. -/
def inDispatch : Setting → Toml → Option Toml :=
  inPair "rules" "default" inRules (only .fallback)

theorem settles_dispatch :
    Settles inDispatch dispatch (fun c d => { c with dispatch := d }) dispatch? := by
  rw [dispatch?_eq]
  exact settles_rules.pair (by decide) (apart_only_left rfl).symm settles_fallback
    (fun h => by rw [← h]; exact ⟨rfl, rfl⟩) (fun _ _ => rfl) fun _ _ => rfl

/-! ### The server -/

theorem settles_listenAddress : Settles (only .listenAddress) (·.server.listenAddress)
    (fun c address => { c with server.listenAddress := address }) address? :=
  settles_of_string (takesStrings_text?.bind Address.read?) .listenAddress fun _ _ => rfl

/-- No setting that is a string is read from a boolean. -/
theorem settles_enabled : Settles (fun _ _ => none) (·.server.health.enabled)
    (fun c enabled => { c with server.health.enabled := enabled }) boolean? := by
  intro x hx w c h
  rw [boolean?_varies hx] at h
  cases h

theorem settles_healthPath : Settles (only .healthPath) (·.server.health.path)
    (fun c path => { c with server.health.path := path }) text? :=
  settles_of_string takesStrings_text? .healthPath fun _ _ => rfl

theorem health?_eq : health? = fun value =>
    (pair? "enabled" "path" (some Health.standard.enabled) boolean? (some Health.standard.path)
      text? value).map fun fields => ⟨fields.1, fields.2⟩ := by
  funext value
  unfold health? healthKeys
  simp only [field?_eq]
  exact bind_fields_eq Health.mk value

/-- The value of a setting in the section of the health route. -/
def inHealth : Setting → Toml → Option Toml :=
  inPair "enabled" "path" (fun _ _ => none) (only .healthPath)

theorem settles_health : Settles inHealth (·.server.health)
    (fun c health => { c with server.health := health }) health? := by
  rw [health?_eq]
  exact settles_enabled.pair (by decide) (fun _ => .inl rfl) settles_healthPath
    (fun h => by rw [← h]; exact ⟨rfl, rfl⟩) (fun _ _ => rfl) fun _ _ => rfl

theorem server?_eq : server? = fun value =>
    (pair? "listen_address" "health" (some Server.standard.listenAddress) address?
      (some Server.standard.health) health? value).map fun fields => ⟨fields.1, fields.2⟩ := by
  funext value
  unfold server? serverKeys
  simp only [field?_eq]
  exact bind_fields_eq Server.mk value

/-- The value of a setting in the section of the server. -/
def inServer : Setting → Toml → Option Toml :=
  inPair "listen_address" "health" (only .listenAddress) inHealth

theorem settles_server :
    Settles inServer server (fun c s => { c with server := s }) server? := by
  rw [server?_eq]
  refine settles_listenAddress.pair (by decide) (apart_only_left ?_) settles_health
    (fun h => by rw [← h]; exact ⟨rfl, rfl⟩) (fun _ _ => rfl) fun _ _ => rfl
  funext value
  simp [inHealth, inPair, only]

/-! ### The whole -/

theorem source?_eq (entries : Entries) (s : Setting) : s.source? entries =
    (((entries.lookup "server").bind fun value => inServer s value).or
      ((entries.lookup "messages").bind fun value => inMessages s value)).or
    (((entries.lookup "dispatch").bind fun value => inDispatch s value).or
      ((entries.lookup "logging").bind fun value => inLogging s value)) := by
  cases s <;> simp [Setting.source?, inServer, inHealth, inMessages, inTexts, inDispatch, inRules,
    inLogging, inPair, only, Option.bind_assoc, serverKeys, healthKeys, messagesKeys, dispatchKeys,
    loggingKeys]

section

variable {entries : Entries} {s : Setting} {value found : Toml}

theorem source?_of_inServer (h : inServer s value = some found)
    (hsection : entries.lookup "server" = some value) : s.source? entries = some found := by
  cases s <;> simp [inServer, inHealth, inPair, only] at h <;>
    simp [Setting.source?, hsection, h, serverKeys, healthKeys]

theorem source?_of_inMessages (h : inMessages s value = some found)
    (hsection : entries.lookup "messages" = some value) : s.source? entries = some found := by
  cases s <;> simp [inMessages, inTexts, inPair, only] at h <;>
    simp [Setting.source?, hsection, h, messagesKeys, Option.bind_assoc]

theorem source?_of_inDispatch (h : inDispatch s value = some found)
    (hsection : entries.lookup "dispatch" = some value) : s.source? entries = some found := by
  cases s <;> simp [inDispatch, inRules, inPair, only] at h <;>
    simp [Setting.source?, hsection, h, dispatchKeys, Option.bind_assoc]

theorem source?_of_inLogging (h : inLogging s value = some found)
    (hsection : entries.lookup "logging" = some value) : s.source? entries = some found := by
  cases s <;> simp [inLogging, inPair, only] at h <;>
    simp [Setting.source?, hsection, h, loggingKeys]

end

theorem ofEntries?_eq (entries : Entries) : ofEntries? entries =
    ((Toml.table entries).fields? sectionKeys).bind fun fields =>
      ((fields.lookup "server").elim (some standard.server) server?).bind fun server =>
        ((fields.lookup "messages").elim (some standard.messages) messages?).bind fun messages =>
          ((fields.lookup "dispatch").elim (some standard.dispatch) dispatch?).bind fun dispatch =>
            ((fields.lookup "logging").elim (some standard.logging) logging?).bind fun logging =>
              some ⟨server, messages, dispatch, logging⟩ := by
  unfold ofEntries?
  simp only [field?_eq]
  rfl

/-- What a string of a document is to the settings that the document makes: nothing, or one
setting. -/
def SettlesOne (entries : String → Entries) (w : String) (c : Config) : Prop :=
  ((∀ v, ofEntries? (entries v) = some c) ∧ ∀ s v, Setting.source? (entries v) s =
    Setting.source? (entries w) s) ∨
  ∃ s : Setting, (∀ v, s.source? (entries v) = some (.string v)) ∧
    ∀ v, ofEntries? (entries v) = s.put? v c

/-- What holds of a section holds of settings in which nothing else varies. -/
theorem Settles.settlesOne {look : Setting → Toml → Option Toml} {part : Config → α}
    {put : Config → α → Config} {decode : Toml → Option α} (h : Settles look part put decode)
    {value : String → Toml} (hvalue : Varies value) {w : String} {c : Config}
    (hdecode : decode (value w) = some (part c)) (hput : put c (part c) = c)
    {entries : String → Entries}
    (hmade : ∀ v, ofEntries? (entries v) = (decode (value v)).map (put c))
    (hfound : ∀ s v found, look s (value v) = some found → s.source? (entries v) = some found)
    (hsame : ∀ s v, look s (value v) = look s (value w) →
      s.source? (entries v) = s.source? (entries w)) : SettlesOne entries w c := by
  obtain ⟨hfixed, hlook⟩ | ⟨s, hlook, hs⟩ := h hvalue hdecode
  · refine .inl ⟨fun v => ?_, fun s v => hsame s v (hlook s v)⟩
    rw [hmade, hfixed, Option.map_some, hput]
  · exact .inr ⟨s, fun v => hfound s v _ (hlook v), fun v => (hmade v).trans (hs v)⟩

/-- A string that varies in the entries of a document is nothing to the settings, or it is one of
them. -/
theorem ofEntries?_varies {entries : String → Entries} (hentries : Within (Under Varies) entries)
    {w : String} {c : Config} (h : ofEntries? (entries w) = some c) : SettlesOne entries w c := by
  have hmade := fun v => ofEntries?_eq (entries v)
  have hsource := fun v s => source?_eq (entries v) s
  rw [hmade] at h
  obtain hnone | ⟨fields, hfields, found, hfound | ⟨key, hkey, value, hvalue, hfound⟩⟩ :=
    fields?_varies (varies_table hentries) sectionKeys
  · rw [hnone w] at h
    cases h
  all_goals
    obtain rfl : fields = entries := funext fun v => eq_of_fields?_table (hfields v)
    simp only [hfields, hfound, Option.bind_some] at h hmade hsource
  · exact .inl ⟨fun v => (hmade v).trans h, fun s v => (hsource v s).trans (hsource w s).symm⟩
  · obtain ⟨server, hserver, h⟩ := Option.bind_eq_some_iff.mp h
    obtain ⟨messages, hmessages, h⟩ := Option.bind_eq_some_iff.mp h
    obtain ⟨dispatch, hdispatch, h⟩ := Option.bind_eq_some_iff.mp h
    obtain ⟨logging, hlogging, h⟩ := Option.bind_eq_some_iff.mp h
    obtain rfl := Option.some.inj h
    have hvalueFound : ∀ v, (fields v).lookup key = some (value v) := fun v => by
      rw [hfound, if_pos rfl]
    obtain rfl | rfl | rfl | rfl :
        key = "server" ∨ key = "messages" ∨ key = "dispatch" ∨ key = "logging" := by
      simpa [sectionKeys] using hkey
    all_goals
      simp only [String.reduceEq, reduceIte, Option.elim_some]
        at hserver hmessages hdispatch hlogging hmade hsource
    · refine settles_server.settlesOne hvalue hserver rfl (fun v => ?_)
        (fun s v _ h => source?_of_inServer h (hvalueFound v)) fun s v h => ?_
      · simp only [hmade, hmessages, hdispatch, hlogging, Option.bind_some, Option.map_eq_bind,
          Function.comp_def]
      · simp only [hsource, Option.bind_some, h]
    · refine settles_messages.settlesOne hvalue hmessages rfl (fun v => ?_)
        (fun s v _ h => source?_of_inMessages h (hvalueFound v)) fun s v h => ?_
      · simp only [hmade, hserver, hdispatch, hlogging, Option.bind_some, Option.map_eq_bind,
          Function.comp_def]
      · simp only [hsource, Option.bind_some, h]
    · refine settles_dispatch.settlesOne hvalue hdispatch rfl (fun v => ?_)
        (fun s v _ h => source?_of_inDispatch h (hvalueFound v)) fun s v h => ?_
      · simp only [hmade, hserver, hmessages, hlogging, Option.bind_some, Option.map_eq_bind,
          Function.comp_def]
      · simp only [hsource, Option.bind_some, h]
    · refine settles_logging.settlesOne hvalue hlogging rfl (fun v => ?_)
        (fun s v _ h => source?_of_inLogging h (hvalueFound v)) fun s v h => ?_
      · simp only [hmade, hserver, hmessages, hdispatch, Option.bind_some, Option.map_eq_bind,
          Function.comp_def]
      · simp only [hsource, Option.bind_some, h]

end Config

end IdentityProvider
