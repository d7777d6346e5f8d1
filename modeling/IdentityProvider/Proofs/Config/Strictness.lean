import IdentityProvider.Proofs.Config.Loading
import IdentityProvider.Proofs.Config.Tables

/-
  No misspelt setting is ignored.

  What a section is made of has to be made as well (`pair?_passes`), so that what holds of the keys
  of an inner section holds of a whole document (`Strict.key`): its tables hold the keys that are
  declared for them and no others (`strict_table`).  Only the keys of the texts for error codes are
  free, and each of these texts gets into the settings (`NothingIgnored`).
-/

namespace IdentityProvider.Config

open Toml

/-! ## Declared keys -/

/-- If something is made of a value, the table at the end of the way holds no other keys. -/
def Strict (way : List Toml.Step) (keys : List String) (decode : Toml → Option α) : Prop :=
  ∀ value a entries, decode value = some a → tableAt? way value = some entries →
    ∀ entry ∈ entries, entry.1 ∈ keys

/-- What stands behind the key of a table that something is made of can be decoded. -/
def Passes (key : String) (inner : Toml → Option β) (decode : Toml → Option α) : Prop :=
  ∀ entries a value, decode (.table entries) = some a → entries.lookup key = some value →
    ∃ b, inner value = some b

section

variable {way : List Toml.Step} {keys : List String} {first second : String}
  {standard₁ : Option α} {decode₁ : Toml → Option α} {standard₂ : Option β}
  {decode₂ : Toml → Option β} {make : α × β → γ}

theorem strict_pair : Strict [] [first, second] fun value =>
    (pair? first second standard₁ decode₁ standard₂ decode₂ value).map make := by
  intro value c entries h hentries
  obtain ⟨⟨a, b⟩, hpair, -⟩ := Option.map_eq_some_iff.mp h
  obtain ⟨fields, hfields, -⟩ := pair?_eq_some_iff.mp hpair
  cases value with
  | table found =>
    cases hentries
    rw [fields?_table] at hfields
    have hkeys := (Option.ite_none_right_eq_some.mp hfields).1
    intro entry hentry
    exact List.contains_iff_mem.mp (List.all_eq_true.mp hkeys entry hentry)
  | _ => cases hentries

theorem pair?_passes :
    Passes first decode₁ (fun value =>
      (pair? first second standard₁ decode₁ standard₂ decode₂ value).map make) ∧
    Passes second decode₂ fun value =>
      (pair? first second standard₁ decode₁ standard₂ decode₂ value).map make := by
  constructor
  all_goals
    intro entries c value h hvalue
    obtain ⟨⟨a, b⟩, hpair, -⟩ := Option.map_eq_some_iff.mp h
    obtain ⟨fields, hfields, ha, hb⟩ := pair?_eq_some_iff.mp hpair
    obtain rfl := eq_of_fields?_table hfields
  · rw [hvalue] at ha
    exact ⟨a, ha⟩
  · rw [hvalue] at hb
    exact ⟨b, hb⟩

theorem Strict.key {key : String} {inner : Toml → Option β} {decode : Toml → Option α}
    (h : Strict way keys inner) (hpasses : Passes key inner decode) :
    Strict (.key key :: way) keys decode := by
  intro value a entries hdecode hentries
  cases value with
  | table found =>
    obtain ⟨next, hnext, hentries⟩ := Option.bind_eq_some_iff.mp hentries
    obtain ⟨b, hb⟩ := hpasses found a next hdecode hnext
    exact h next b entries hb hentries
  | _ => cases hentries

theorem strict_rules (index : Nat) : Strict [.item index] ["prefix", "surface"] rules? := by
  intro value rules entries h hentries
  cases value with
  | array items =>
    obtain ⟨item, hitem, hinner⟩ := Option.bind_eq_some_iff.mp hentries
    obtain ⟨front, back, rfl⟩ := List.append_of_mem (List.mem_of_getElem? hitem)
    rw [rules?_array] at h
    obtain ⟨_, rule, _, hrule, -⟩ := mapM_append_cons h
    rw [rule?_eq] at hrule
    exact strict_pair item rule entries hrule hinner
  | _ => cases hentries

end

theorem ofDocument?_passes : Passes "server" server? ofDocument? ∧
    Passes "messages" messages? ofDocument? ∧ Passes "dispatch" dispatch? ofDocument? ∧
      Passes "logging" logging? ofDocument? := by
  refine ⟨?_, ?_, ?_, ?_⟩
  all_goals
    intro entries config value h hvalue
    obtain ⟨-, hserver, hmessages, hdispatch, hlogging⟩ := ofEntries?_eq_some_iff.mp h
  · rw [hvalue] at hserver
    exact ⟨_, hserver⟩
  · rw [hvalue] at hmessages
    exact ⟨_, hmessages⟩
  · rw [hvalue] at hdispatch
    exact ⟨_, hdispatch⟩
  · rw [hvalue] at hlogging
    exact ⟨_, hlogging⟩

/-- No table of a document that makes settings holds a key that is not declared for it. -/
theorem strict_table (table : Table) : Strict table.way table.keys ofDocument? := by
  obtain ⟨hserver, hmessages, hdispatch, hlogging⟩ := ofDocument?_passes
  cases table with
  | whole =>
    intro value config entries h hentries entry hentry
    cases value with
    | table found =>
      cases hentries
      have hkeys := (ofEntries?_eq_some_iff.mp h).1
      exact List.contains_iff_mem.mp (List.all_eq_true.mp hkeys entry hentry)
    | _ => cases hentries
  | server =>
    refine Strict.key ?_ hserver
    rw [server?_eq]
    exact strict_pair
  | health =>
    refine Strict.key ?_ hserver
    rw [server?_eq]
    refine Strict.key ?_ pair?_passes.2
    rw [health?_eq]
    exact strict_pair
  | messages =>
    refine Strict.key ?_ hmessages
    rw [messages?_eq]
    exact strict_pair
  | dispatch =>
    refine Strict.key ?_ hdispatch
    rw [dispatch?_eq]
    exact strict_pair
  | rule index =>
    refine Strict.key ?_ hdispatch
    rw [dispatch?_eq]
    exact Strict.key (strict_rules index) pair?_passes.1
  | logging =>
    refine Strict.key ?_ hlogging
    rw [logging?_eq]
    exact strict_pair

/-! ## Texts -/

section

variable {entries texts : Entries} {config : Config}

theorem mapM_text_eq_some_iff {pairs : List (String × String)} :
    (entries.mapM fun entry => entry.2.text?.map (entry.1, ·)) = some pairs ↔
      entries = pairs.map fun pair => (pair.1, .string pair.2) := by
  induction entries generalizing pairs with
  | nil => cases pairs <;> simp
  | cons entry entries ih =>
    obtain ⟨key, value⟩ := entry
    rw [List.mapM_cons]
    constructor
    · intro h
      obtain ⟨pair, hpair, h⟩ := Option.bind_eq_some_iff.mp h
      obtain ⟨rest, hrest, heq⟩ := Option.bind_eq_some_iff.mp h
      cases heq
      obtain ⟨words, hwords, rfl⟩ := Option.map_eq_some_iff.mp hpair
      cases value with
      | string text =>
        cases hwords
        rw [List.map_cons, ← ih.mp hrest]
      | _ => cases hwords
    · intro h
      cases pairs with
      | nil => cases h
      | cons pair pairs =>
        rw [List.map_cons, List.cons.injEq, Prod.mk.injEq] at h
        obtain ⟨⟨rfl, rfl⟩, hrest⟩ := h
        rw [ih.mpr hrest]
        rfl

theorem texts?_eq_some_iff {pairs : List (String × String)} :
    (Toml.table entries).texts? = some pairs ↔
      entries = pairs.map fun pair => (pair.1, .string pair.2) := by
  rw [texts?_table]
  exact mapM_text_eq_some_iff

/-- The texts of a document are the texts of its settings. -/
theorem texts_eq_of_ofEntries? {document : Entries} (h : ofEntries? document = some config)
    (htexts : tableAt? textsWay (.table document) = some texts) :
    texts = config.messages.entries.map fun pair => (pair.1, .string pair.2) := by
  obtain ⟨messages, hmessages, hinner⟩ := Option.bind_eq_some_iff.mp htexts
  cases messages with
  | table held =>
    obtain ⟨found, hfound, htable⟩ := Option.bind_eq_some_iff.mp hinner
    cases found with
    | table entries =>
      cases htable
      have hmade := (ofEntries?_eq_some_iff.mp h).2.2.1
      rw [hmessages, Option.elim_some, messages?_eq] at hmade
      obtain ⟨⟨path, pairs⟩, hpair, heq⟩ := Option.map_eq_some_iff.mp hmade
      obtain ⟨fields, hfields, -, hpairs⟩ := pair?_eq_some_iff.mp hpair
      obtain rfl := eq_of_fields?_table hfields
      rw [hfound, Option.elim_some, texts?_eq_some_iff] at hpairs
      rw [← heq]
      exact hpairs
    | _ => cases htable
  | _ => cases hinner

/-- One more text, anywhere in the table, is one more text of the settings. -/
theorem texts?_added {key words : String} {before after : Entries} {pairs : List (String × String)}
    (h : Added key (.string words) before after) (hbefore : (Toml.table before).texts? = some pairs) :
    ∃ front back, pairs = front ++ back ∧
      (Toml.table after).texts? = some (front ++ (key, words) :: back) := by
  obtain ⟨front, back⟩ := h
  rw [texts?_eq_some_iff, eq_comm, List.map_eq_append_iff] at hbefore
  obtain ⟨front, back, rfl, rfl, rfl⟩ := hbefore
  refine ⟨front, back, rfl, ?_⟩
  rw [texts?_eq_some_iff, List.map_append, List.map_cons]

/-- A document to which one more text is added makes the same settings with this text in them. -/
theorem ofEntries?_text_added {key words : String} {before after : Entries}
    (h : DiffersAt (Added key (.string words)) textsWay (.table before) (.table after))
    (hbefore : ofEntries? before = some config) :
    ∃ front back, config.messages.entries = front ++ back ∧ ofEntries? after =
      some { config with messages.entries := front ++ (key, words) :: back } := by
  cases h with
  | key _ _ front _ _ back hfront h =>
  cases h with
  | key _ _ front' _ _ back' hfront' h =>
  cases h with
  | here texts more hadded =>
  obtain ⟨hkeys, hserver, hmessages, hdispatch, hlogging⟩ := ofEntries?_eq_some_iff.mp hbefore
  rw [lookup_append_cons_self hfront, Option.elim_some, messages?_eq] at hmessages
  obtain ⟨⟨path, pairs⟩, hpair, heq⟩ := Option.map_eq_some_iff.mp hmessages
  obtain ⟨fields, hfields, hpath, hpairs⟩ := pair?_eq_some_iff.mp hpair
  obtain rfl := eq_of_fields?_table hfields
  rw [lookup_append_cons_self hfront', Option.elim_some] at hpairs
  obtain ⟨early, late, rfl, hafter⟩ := texts?_added hadded hpairs
  have hinner := sameBut_replaced "entries" front' (.table texts) (.table more) back'
  have houter := sameBut_replaced "messages" front
    (.table (front' ++ ("entries", .table texts) :: back'))
    (.table (front' ++ ("entries", .table more) :: back')) back
  refine ⟨early, late, by rw [← heq], ofEntries?_eq_some_iff.mpr ⟨?_, ?_, ?_, ?_, ?_⟩⟩
  · rw [houter.keys sectionKeys (by decide)]
    exact hkeys
  · rw [houter.others "server" (by decide)]
    exact hserver
  · rw [lookup_append_cons_self hfront, Option.elim_some, messages?_eq]
    refine Option.map_eq_some_iff.mpr ⟨(path, early ++ (key, words) :: late), ?_, by rw [← heq]⟩
    refine pair?_eq_some_iff.mpr ⟨_, by rw [hinner.fields? (by simp), hfields]; rfl, ?_, ?_⟩
    · rw [hinner.others "path" (by decide)]
      exact hpath
    · rw [lookup_append_cons_self hfront', Option.elim_some]
      exact hafter
  · rw [houter.others "dispatch" (by decide)]
    exact hdispatch
  · rw [houter.others "logging" (by decide)]
    exact hlogging

end

/-! ## Nothing is ignored -/

theorem tableAt?_of_differsAt {change : Entries → Entries → Prop} {way : List Toml.Step}
    {value other : Toml} (h : DiffersAt change way value other) :
    ∃ before after, change before after ∧ tableAt? way other = some after := by
  induction h with
  | here before after hchange => exact ⟨before, after, hchange, rfl⟩
  | key key way front value other back hfront _ ih =>
    obtain ⟨before, after, hchange, hafter⟩ := ih
    refine ⟨before, after, hchange, ?_⟩
    rw [tableAt?, lookup_append_cons_self hfront, Option.bind_some, hafter]
  | item way front value other back _ ih =>
    obtain ⟨before, after, hchange, hafter⟩ := ih
    refine ⟨before, after, hchange, ?_⟩
    rw [tableAt?, getElem?_append_cons, Option.bind_some, hafter]

/-- Nothing that stands in a settings text is ignored. -/
structure NothingIgnored (env : Environment) (text : String) : Prop where
  /-- The tables of a document that makes settings hold declared keys only. -/
  declared : ∀ expanded document config, env.expand text = .ok expanded →
    Toml.read? expanded = some document → parse? expanded = some config →
    ∀ (table : Table) entries, tableAt? table.way (.table document) = some entries →
      ∀ entry ∈ entries, entry.1 ∈ table.keys
  /-- One more key in any of these tables, with any value, and the text is refused as it is read,
  whatever else it holds. -/
  refused : ∀ expanded before document (table : Table) key value,
    env.expand text = .ok expanded → Toml.read? expanded = some document →
    DiffersAt (Added key value) table.way (.table before) (.table document) →
    key ∉ table.keys → ofText env text = .error (.malformed expanded)
  /-- The texts for error codes get into the settings, all of them and as they are. -/
  kept : ∀ expanded document config, env.expand text = .ok expanded →
    Toml.read? expanded = some document → parse? expanded = some config →
    ∀ texts, tableAt? textsWay (.table document) = some texts →
      texts = config.messages.entries.map fun pair => (pair.1, .string pair.2)
  /-- Their keys are free: one more text, behind any key, is one more text of the settings. -/
  free : ∀ expanded before document key words config, env.expand text = .ok expanded →
    Toml.read? expanded = some document →
    DiffersAt (Added key (.string words)) textsWay (.table before) (.table document) →
    ofEntries? before = some config → config.Consistent →
    ∃ front back, config.messages.entries = front ++ back ∧ ofText env text =
      .ok { config with messages.entries := front ++ (key, words) :: back }

theorem nothing_ignored (env : Environment) (text : String) : NothingIgnored env text where
  declared expanded document config _ hread hparse table entries htable := by
    rw [parse?_of_read? hread] at hparse
    exact strict_table table (.table document) config entries hparse htable
  refused expanded before document table key value hexpand hread hadded hkey := by
    rw [ofText_eq_malformed_iff hexpand, parse?_of_read? hread]
    obtain ⟨_, entries, ⟨front, back⟩, htable⟩ := tableAt?_of_differsAt hadded
    refine Option.eq_none_iff_forall_ne_some.mpr fun config hconfig => hkey ?_
    exact strict_table table (.table document) config _ hconfig htable (key, value) (by simp)
  kept expanded document config _ hread hparse texts htexts := by
    rw [parse?_of_read? hread] at hparse
    exact texts_eq_of_ofEntries? hparse htexts
  free expanded before document key words config hexpand hread hadded hbefore hconsistent := by
    obtain ⟨front, back, hentries, hafter⟩ := ofEntries?_text_added hadded hbefore
    refine ⟨front, back, hentries, ofText_eq_iff.mpr (.loaded expanded _ hexpand ?_ ?_)⟩
    · rw [parse?_of_read? hread, hafter]
    · exact ⟨hconsistent.rules_ne_nil, hconsistent.rules_rooted, hconsistent.health_rooted⟩

/-- A key that is not declared, in settings that would be refused for having no rules as well. -/
example : ofText ⟨[]⟩ "[dispatch]\nrules = []\n[server]\nport = 80" =
    .error (.malformed "[dispatch]\nrules = []\n[server]\nport = 80") := by cbv

end IdentityProvider.Config
