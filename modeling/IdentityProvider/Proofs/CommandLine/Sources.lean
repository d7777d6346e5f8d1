import IdentityProvider.Proofs.CommandLine.Layout

/-
  Where the values of the options come from.

  An option that the command line gives has its value from there, and then its variable does not
  matter, whatever it holds; any other option has the value of its variable, or its default where
  that is not set (`sources_in_order`).  No other variable matters, nor the order in which the two
  options are given.
-/

namespace IdentityProvider.CommandLine

open Traversal

/-! ## Settled values -/

/-- The value is the one that the option has. -/
def Settled.Holds (settled : Settled) : Setting → List UInt8 → Prop
  | .config, value => (fileOf value).map some = .ok settled.config
  | .listen, value => (addressOf value).map some = .ok settled.listen

/-- Some of the words names the option. -/
def Names (line : List (List UInt8)) (setting : Setting) : Prop :=
  ∃ bytes ∈ line, ∃ joined, Joins bytes setting joined

section

variable {settled next last final : Settled} {setting other : Setting} {value given : List UInt8}
  {words line : List (List UInt8)}

theorem give_config_eq_ok_iff : settled.give .config value = .ok next ↔ settled.config = none ∧
    ∃ file, fileOf value = .ok file ∧ { settled with config := some file } = next := by
  unfold Settled.give
  cases hconfig : settled.config with
  | none => simp [Settled.has, hconfig, Settled.put, map_eq_ok_iff]
  | some file => simp [Settled.has, hconfig]

theorem give_listen_eq_ok_iff : settled.give .listen value = .ok next ↔ settled.listen = none ∧
    ∃ address, addressOf value = .ok address ∧ { settled with listen := some address } = next := by
  unfold Settled.give
  cases hlisten : settled.listen with
  | none => simp [Settled.has, hlisten, Settled.put, map_eq_ok_iff]
  | some address => simp [Settled.has, hlisten]

/-- Two options can be settled in either order. -/
theorem give_comm (hne : setting ≠ other) (hfirst : settled.give setting value = .ok next)
    (hsecond : next.give other given = .ok last) :
    ∃ middle, settled.give other given = .ok middle ∧ middle.give setting value = .ok last := by
  cases setting with
  | config =>
    cases other with
    | config => exact absurd rfl hne
    | listen =>
      obtain ⟨hconfig, file, hfile, rfl⟩ := give_config_eq_ok_iff.mp hfirst
      obtain ⟨hlisten, address, haddress, rfl⟩ := give_listen_eq_ok_iff.mp hsecond
      exact ⟨{ settled with listen := some address },
        give_listen_eq_ok_iff.mpr ⟨hlisten, address, haddress, rfl⟩,
        give_config_eq_ok_iff.mpr ⟨hconfig, file, hfile, rfl⟩⟩
  | listen =>
    cases other with
    | config =>
      obtain ⟨hlisten, address, haddress, rfl⟩ := give_listen_eq_ok_iff.mp hfirst
      obtain ⟨hconfig, file, hfile, rfl⟩ := give_config_eq_ok_iff.mp hsecond
      exact ⟨{ settled with config := some file },
        give_config_eq_ok_iff.mpr ⟨hconfig, file, hfile, rfl⟩,
        give_listen_eq_ok_iff.mpr ⟨hlisten, address, haddress, rfl⟩⟩
    | listen => exact absurd rfl hne

theorem has_of_give (h : settled.give setting value = .ok next) :
    settled.has setting = false ∧
      ∀ other, next.has other = (settled.has other || other = setting) := by
  cases setting with
  | config =>
    obtain ⟨hconfig, file, -, rfl⟩ := give_config_eq_ok_iff.mp h
    refine ⟨by simp [Settled.has, hconfig], fun other => ?_⟩
    cases other <;> simp [Settled.has]
  | listen =>
    obtain ⟨hlisten, address, -, rfl⟩ := give_listen_eq_ok_iff.mp h
    refine ⟨by simp [Settled.has, hlisten], fun other => ?_⟩
    cases other <;> simp [Settled.has]

theorem holds_of_give (h : settled.give setting value = .ok next) : next.Holds setting value := by
  cases setting with
  | config =>
    obtain ⟨-, file, hfile, rfl⟩ := give_config_eq_ok_iff.mp h
    exact map_eq_ok_iff.mpr ⟨file, hfile, rfl⟩
  | listen =>
    obtain ⟨-, address, haddress, rfl⟩ := give_listen_eq_ok_iff.mp h
    exact map_eq_ok_iff.mpr ⟨address, haddress, rfl⟩

/-- An option keeps its value, because no option can be given twice. -/
theorem Settled.Holds.give (hholds : settled.Holds other given)
    (h : settled.give setting value = .ok next) : next.Holds other given := by
  cases other with
  | config =>
    obtain ⟨file, hfile, hconfig⟩ := map_eq_ok_iff.mp hholds
    cases setting with
    | config =>
      rw [(give_config_eq_ok_iff.mp h).1] at hconfig
      cases hconfig
    | listen =>
      obtain ⟨-, address, -, rfl⟩ := give_listen_eq_ok_iff.mp h
      exact hholds
  | listen =>
    obtain ⟨address, haddress, hlisten⟩ := map_eq_ok_iff.mp hholds
    cases setting with
    | config =>
      obtain ⟨-, file, -, rfl⟩ := give_config_eq_ok_iff.mp h
      exact hholds
    | listen =>
      rw [(give_listen_eq_ok_iff.mp h).1] at hlisten
      cases hlisten

/-! ## What an accepted line settles -/

theorem Joins.unique {bytes : List UInt8} {joined joined' : Option (List UInt8)}
    (h : Joins bytes setting joined) (hother : Joins bytes other joined') :
    setting = other ∧ joined = joined' := by
  rw [joins_iff] at h hother
  rw [h] at hother
  simpa using hother

theorem Spells.names_iff (h : Spells setting value words) :
    Names words other ↔ other = setting := by
  cases h with
  | apart hjoins hplain =>
    constructor
    · rintro ⟨bytes, hbytes, joined, hother⟩
      rw [List.mem_cons, List.mem_singleton] at hbytes
      rcases hbytes with rfl | rfl
      · exact (hother.unique hjoins).1
      · exact absurd hother (not_joins_of_isPlain hplain)
    · rintro rfl
      exact ⟨_, List.mem_cons_self, none, hjoins⟩
  | joined hjoins =>
    constructor
    · rintro ⟨bytes, hbytes, joined, hother⟩
      rw [List.mem_singleton] at hbytes
      subst hbytes
      exact (hother.unique hjoins).1
    · rintro rfl
      exact ⟨_, List.mem_cons_self, _, hjoins⟩

theorem names_append {rest : List (List UInt8)} :
    Names (words ++ rest) setting ↔ Names words setting ∨ Names rest setting := by
  simp only [Names, List.mem_append, or_and_right, exists_or]

theorem not_names_nil : ¬ Names [] setting := by
  rintro ⟨bytes, hbytes, -⟩
  exact absurd hbytes List.not_mem_nil

theorem not_names_escape : ¬ Names [[hyphen, hyphen]] setting := by
  rintro ⟨bytes, hbytes, joined, hjoins⟩
  rw [List.mem_singleton] at hbytes
  rw [hbytes, joins_iff] at hjoins
  cases hjoins

/-- An accepted line settles the options that it names. -/
theorem Accepts.has_iff (h : Accepts settled line final) :
    final.has setting = true ↔ settled.has setting = true ∨ Names line setting := by
  induction h with
  | done settled => simp [not_names_nil]
  | escaped settled => simp [not_names_escape]
  | option hspells hgive _ ih =>
    rw [ih, (has_of_give hgive).2, names_append, hspells.names_iff, Bool.or_eq_true,
      decide_eq_true_iff, or_assoc]

theorem Accepts.holds (h : Accepts settled line final) (hholds : settled.Holds setting value) :
    final.Holds setting value := by
  induction h with
  | done settled | escaped settled => exact hholds
  | option _ hgive _ ih => exact ih (hholds.give hgive)

/-- An option that the line gives has the value that stands there. -/
theorem Accepts.exists_holds (h : Accepts settled line final) (hnames : Names line setting) :
    ∃ before words after value, line = before ++ words ++ after ∧ Spells setting value words ∧
      final.Holds setting value := by
  induction h with
  | done settled => exact absurd hnames not_names_nil
  | escaped settled => exact absurd hnames not_names_escape
  | @option settled next final other given words rest hspells hgive haccepts ih =>
    rcases names_append.mp hnames with hfirst | hlater
    · obtain rfl := hspells.names_iff.mp hfirst
      exact ⟨[], words, rest, given, rfl, hspells, haccepts.holds (holds_of_give hgive)⟩
    · obtain ⟨before, option, after, value, rfl, hoption, hholds⟩ := ih hlater
      exact ⟨words ++ before, option, after, value, by simp only [List.append_assoc], hoption,
        hholds⟩

/-- Two options that follow each other can change places. -/
theorem Accepts.exchange {first second rest : List (List UInt8)} (h : Accepts settled
    (first ++ second ++ rest) final) (hne : setting ≠ other) (hfirst : Spells setting value first)
    (hsecond : Spells other given second) : Accepts settled (second ++ first ++ rest) final := by
  rw [← readWords_eq_ok_iff, List.append_assoc] at h ⊢
  obtain ⟨next, hgive, hrest⟩ := (readWords_spelled hfirst).mp h
  obtain ⟨last, hother, hrest⟩ := (readWords_spelled hsecond).mp hrest
  obtain ⟨middle, hother, hgive⟩ := give_comm hne hgive hother
  exact (readWords_spelled hsecond).mpr
    ⟨middle, hother, (readWords_spelled hfirst).mpr ⟨last, hgive, hrest⟩⟩

/-- An accepted line that gives both options gives them one behind the other. -/
theorem Accepts.exists_both (h : Accepts settled line final)
    (hnames : ∀ setting, Names line setting) :
    ∃ first second rest setting other value given, setting ≠ other ∧
      Spells setting value first ∧ Spells other given second ∧ line = first ++ second ++ rest := by
  cases h with
  | done _ => exact absurd (hnames .config) not_names_nil
  | escaped _ => exact absurd (hnames .config) not_names_escape
  | @option _ next _ setting value first rest hfirst hgive hrest =>
    have hlater : ∀ other, other ≠ setting → Names rest other := by
      intro other hother
      rcases names_append.mp (hnames other) with hnamed | hnamed
      · exact absurd (hfirst.names_iff.mp hnamed) hother
      · exact hnamed
    obtain ⟨other, hother⟩ : ∃ other, other ≠ setting := by
      cases setting with
      | config => exact ⟨.listen, nofun⟩
      | listen => exact ⟨.config, nofun⟩
    cases hrest with
    | done _ => exact absurd (hlater other hother) not_names_nil
    | escaped _ => exact absurd (hlater other hother) not_names_escape
    | @option _ last _ third given second rest hsecond hthird _ =>
      have hne : setting ≠ third := by
        rintro rfl
        have hhas := (has_of_give hthird).1
        rw [(has_of_give hgive).2] at hhas
        simp at hhas
      exact ⟨first, second, rest, setting, third, value, given, hne, hfirst, hsecond,
        (List.append_assoc _ _ _).symm⟩

end

/-! ## The two sources -/

/-- The option has this value, which is one that it takes. -/
def Takes (arguments : Arguments) : Setting → List UInt8 → Prop
  | .config, value => value ≠ [] ∧ arguments.config = value
  | .listen, value => ∃ text address, Text.Utf8.text? value = some text ∧
      Address.read? text = some address ∧ arguments.listen = some address

/-- The option has its default. -/
def IsStandard (arguments : Arguments) : Setting → Prop
  | .config => arguments.config = Text.Utf8.encode "idp.toml"
  | .listen => arguments.listen = none

/-- The command line gives the option, in whatever spelling. -/
def Gives (words : List (List UInt8)) (setting : Setting) : Prop := Names words.tail setting

/-- The second command line is the first with its two options exchanged. -/
inductive Exchanged : List (List UInt8) → List (List UInt8) → Prop
  | options (name : List UInt8) {first second : List (List UInt8)} (rest : List (List UInt8))
    {setting other : Setting} {value given : List UInt8} : setting ≠ other →
    Spells setting value first → Spells other given second →
    Exchanged (name :: (first ++ second ++ rest)) (name :: (second ++ first ++ rest))

section

variable {words : List (List UInt8)} {env other : Environment} {arguments : Arguments}
  {settled : Settled} {setting : Setting} {value : List UInt8}

theorem fileOf_eq_ok_iff {file : List UInt8} :
    fileOf value = .ok file ↔ value ≠ [] ∧ file = value := by
  unfold fileOf
  split
  · next hempty => simp [hempty]
  · next hempty => simp [hempty, eq_comm]

theorem addressOf_eq_ok_iff {address : Address} : addressOf value = .ok address ↔
    ∃ text, Text.Utf8.text? value = some text ∧ Address.read? text = some address := by
  unfold addressOf
  cases htext : Text.Utf8.text? value with
  | none => simp
  | some text => cases hread : Address.read? text <;> simp [hread]

theorem readBytes_eq_ok_iff : readBytes env words = .ok arguments ↔
    ∃ settled, Accepts .empty words.tail settled ∧
      configOf settled env = .ok arguments.config ∧
      listenOf settled env = .ok arguments.listen := by
  simp only [readBytes, bind_eq_ok_iff, readWords_eq_ok_iff]
  constructor
  · rintro ⟨settled, haccepts, config, hconfig, listen, hlisten, harguments⟩
    cases harguments
    exact ⟨settled, haccepts, hconfig, hlisten⟩
  · rintro ⟨settled, haccepts, hconfig, hlisten⟩
    exact ⟨settled, haccepts, _, hconfig, _, hlisten, rfl⟩

theorem Accepts.has_iff_gives
    (h : Accepts .empty words.tail settled) :
    settled.has setting = true ↔ Gives words setting := by
  have hempty : ¬ Settled.empty.has setting = true := by cases setting <;> exact nofun
  exact h.has_iff.trans (or_iff_right hempty)

/-- Only the variables of the options that are not settled are looked at. -/
theorem sources_congr (settled : Settled) (h : ∀ setting, ¬ settled.has setting = true →
    env.value? setting.variableName = other.value? setting.variableName) :
    configOf settled env = configOf settled other ∧
      listenOf settled env = listenOf settled other := by
  constructor
  · unfold configOf
    cases hconfig : settled.config with
    | some file => rfl
    | none => rw [h .config (by simp [Settled.has, hconfig])]
  · unfold listenOf
    cases hlisten : settled.listen with
    | some address => rfl
    | none => rw [h .listen (by simp [Settled.has, hlisten])]

theorem readBytes_congr (h : ∀ setting, ¬ Gives words setting →
    env.value? setting.variableName = other.value? setting.variableName) :
    readBytes env words = readBytes other words := by
  unfold readBytes
  cases hread : readWords .empty none words.tail with
  | error refusal => rfl
  | ok settled =>
    have haccepts := readWords_eq_ok_iff.mp hread
    obtain ⟨hconfig, hlisten⟩ := sources_congr settled fun setting hhas =>
      h setting fun hgives => hhas (haccepts.has_iff_gives.mpr hgives)
    show (configOf settled env >>= _) = (configOf settled other >>= _)
    rw [hconfig, hlisten]

theorem takes_of_holds (hholds : settled.Holds setting value)
    (hconfig : configOf settled env = .ok arguments.config)
    (hlisten : listenOf settled env = .ok arguments.listen) : Takes arguments setting value := by
  cases setting with
  | config =>
    obtain ⟨file, hfile, hsettled⟩ := map_eq_ok_iff.mp hholds
    simp only [configOf, ← hsettled, Except.ok.injEq] at hconfig
    rw [hconfig] at hfile
    exact fileOf_eq_ok_iff.mp hfile
  | listen =>
    obtain ⟨address, haddress, hsettled⟩ := map_eq_ok_iff.mp hholds
    simp only [listenOf, ← hsettled, Except.ok.injEq] at hlisten
    obtain ⟨text, htext, hread⟩ := addressOf_eq_ok_iff.mp haddress
    exact ⟨text, address, htext, hread, hlisten.symm⟩

theorem takes_variable (hhas : ¬ settled.has setting = true)
    (hset : env.value? setting.variableName = some value)
    (hconfig : configOf settled env = .ok arguments.config)
    (hlisten : listenOf settled env = .ok arguments.listen) :
    Takes arguments setting value := by
  cases setting with
  | config =>
    have hnone : settled.config = none := by simpa [Settled.has] using hhas
    simp only [configOf, hnone, hset] at hconfig
    exact fileOf_eq_ok_iff.mp hconfig
  | listen =>
    have hnone : settled.listen = none := by simpa [Settled.has] using hhas
    simp only [listenOf, hnone, hset] at hlisten
    obtain ⟨address, haddress, hlisten⟩ := map_eq_ok_iff.mp hlisten
    obtain ⟨text, htext, hread⟩ := addressOf_eq_ok_iff.mp haddress
    exact ⟨text, address, htext, hread, hlisten.symm⟩

theorem isStandard_of_unset (hhas : ¬ settled.has setting = true)
    (hunset : env.value? setting.variableName = none)
    (hconfig : configOf settled env = .ok arguments.config)
    (hlisten : listenOf settled env = .ok arguments.listen) : IsStandard arguments setting := by
  cases setting with
  | config =>
    have hnone : settled.config = none := by simpa [Settled.has] using hhas
    simp only [configOf, hnone, hunset, Except.ok.injEq] at hconfig
    exact hconfig.symm
  | listen =>
    have hnone : settled.listen = none := by simpa [Settled.has] using hhas
    simp only [listenOf, hnone, hunset, Except.ok.injEq] at hlisten
    exact hlisten.symm

theorem Exchanged.readBytes_eq_ok {exchanged : List (List UInt8)} (h : Exchanged words exchanged)
    (hread : readBytes env words = .ok arguments) : readBytes env exchanged = .ok arguments := by
  cases h with
  | options name rest hne hfirst hsecond =>
    obtain ⟨settled, haccepts, hsources⟩ := readBytes_eq_ok_iff.mp hread
    refine readBytes_eq_ok_iff.mpr ⟨settled, ?_, hsources⟩
    exact haccepts.exchange hne hfirst hsecond

theorem exists_exchanged (hread : readBytes env words = .ok arguments)
    (hgives : ∀ setting, Gives words setting) : ∃ exchanged, Exchanged words exchanged := by
  obtain ⟨settled, haccepts, -⟩ := readBytes_eq_ok_iff.mp hread
  obtain ⟨first, second, rest, setting, other, value, given, hne, hfirst, hsecond, hline⟩ :=
    haccepts.exists_both hgives
  cases words with
  | nil =>
    obtain ⟨word, hword, -⟩ := hgives .config
    cases hword
  | cons name words =>
    obtain rfl : words = first ++ second ++ rest := hline
    exact ⟨_, .options name rest hne hfirst hsecond⟩

end

/-- What decides about the options of a command line, and in which order. -/
structure SourcesInOrder (words : List (List UInt8)) : Prop where
  /-- The outcome depends on no variable but those of the options that are not given. -/
  dependsOn : ∀ env other : Environment,
    (∀ setting, ¬ Gives words setting →
      env.value? setting.variableName = other.value? setting.variableName) →
    readBytes env words = readBytes other words
  /-- An option that is given has the value that stands on the command line. -/
  given : ∀ env arguments, readBytes env words = .ok arguments →
    ∀ setting, Gives words setting →
      ∃ before option after value, words.tail = before ++ option ++ after ∧
        Spells setting value option ∧ Takes arguments setting value
  /-- Any other option has the value of its variable, and its default where that is not set. -/
  absent : ∀ env arguments, readBytes env words = .ok arguments →
    ∀ setting, ¬ Gives words setting →
      (∀ value, env.value? setting.variableName = some value → Takes arguments setting value) ∧
      (env.value? setting.variableName = none → IsStandard arguments setting)
  /-- An accepted command line that gives both options has them one behind the other. -/
  exchangeable : ∀ env arguments, readBytes env words = .ok arguments →
    (∀ setting, Gives words setting) → ∃ exchanged, Exchanged words exchanged
  /-- Exchanging them makes no difference. -/
  exchanged : ∀ exchanged, Exchanged words exchanged → ∀ env arguments,
    readBytes env words = .ok arguments → readBytes env exchanged = .ok arguments

/-- The command line goes before the environment, and that before the defaults. -/
theorem sources_in_order (words : List (List UInt8)) : SourcesInOrder words where
  dependsOn _ _ := readBytes_congr
  given env arguments hread setting hgives := by
    obtain ⟨settled, haccepts, hconfig, hlisten⟩ := readBytes_eq_ok_iff.mp hread
    obtain ⟨before, option, after, value, hline, hspells, hholds⟩ := haccepts.exists_holds hgives
    exact ⟨before, option, after, value, hline, hspells, takes_of_holds hholds hconfig hlisten⟩
  absent env arguments hread setting hgives := by
    obtain ⟨settled, haccepts, hconfig, hlisten⟩ := readBytes_eq_ok_iff.mp hread
    have hhas : ¬ settled.has setting = true := fun hhas => hgives (haccepts.has_iff_gives.mp hhas)
    exact ⟨fun value hset => takes_variable hhas hset hconfig hlisten,
      fun hunset => isStandard_of_unset hhas hunset hconfig hlisten⟩
  exchangeable _ _ := exists_exchanged
  exchanged _ h _ _ := h.readBytes_eq_ok

/-- A file in the environment, and where an address should be what is not even text. -/
def fileAndNoise : Environment :=
  ⟨[("IDP_CONFIG", Text.Utf8.encode "a.toml"), ("IDP_LISTEN", [0xFF])]⟩

/-- A line that gives the address only. -/
def addressLine : List (List UInt8) := ["idp", "--listen=127.0.0.1:80"].map Text.Utf8.encode

/-- A line that gives the file and then the address. -/
def fileThenAddress : List (List UInt8) :=
  ["idp", "-c", "b.toml", "--listen=127.0.0.1:80"].map Text.Utf8.encode

/-- A line that gives the address and then the file. -/
def addressThenFile : List (List UInt8) :=
  ["idp", "--listen=127.0.0.1:80", "-c", "b.toml"].map Text.Utf8.encode

theorem spells_address : Spells .listen (Text.Utf8.encode "127.0.0.1:80")
    [Text.Utf8.encode "--listen=127.0.0.1:80"] :=
  .joined (joins_iff.mpr (by decide +kernel))

theorem spells_file : Spells .config (Text.Utf8.encode "b.toml")
    [Text.Utf8.encode "-c", Text.Utf8.encode "b.toml"] :=
  have hplain : Word.ofBytes (Text.Utf8.encode "b.toml") = .plain (Text.Utf8.encode "b.toml") := by
    decide +kernel
  .apart (joins_iff.mpr (by decide +kernel)) (ofBytes_eq_plain_iff.mp hplain).1

theorem gives_addressLine {setting : Setting} : Gives addressLine setting ↔ setting = .listen :=
  spells_address.names_iff

theorem gives_fileThenAddress (setting : Setting) : Gives fileThenAddress setting := by
  have hnames : Names ([Text.Utf8.encode "-c", Text.Utf8.encode "b.toml"] ++
      [Text.Utf8.encode "--listen=127.0.0.1:80"]) setting := by
    rw [names_append, spells_file.names_iff, spells_address.names_iff]
    cases setting <;> simp
  exact hnames

theorem exchanged_fileThenAddress : Exchanged fileThenAddress addressThenFile :=
  .options (Text.Utf8.encode "idp") [] (by decide) spells_file spells_address

/-- The address of the line goes before the noise in the environment, whose file is taken; a file
and an address can stand in either order; and a bare line asks for the defaults. -/
theorem sources_in_order_address :
    (∃ arguments, readBytes fileAndNoise addressLine = .ok arguments ∧
      readBytes ⟨[("IDP_CONFIG", Text.Utf8.encode "a.toml")]⟩ addressLine = .ok arguments ∧
      Takes arguments .config (Text.Utf8.encode "a.toml") ∧
      ∃ before option after value, addressLine.tail = before ++ option ++ after ∧
        Spells .listen value option ∧ Takes arguments .listen value) ∧
    (∃ arguments, readBytes fileAndNoise fileThenAddress = .ok arguments ∧
      readBytes fileAndNoise addressThenFile = .ok arguments ∧
      ∃ exchanged, Exchanged fileThenAddress exchanged) ∧
    ∃ arguments, readBytes ⟨[]⟩ [Text.Utf8.encode "idp"] = .ok arguments ∧
      ∀ setting, IsStandard arguments setting := by
  have haddress : readBytes fileAndNoise addressLine =
      .ok ⟨Text.Utf8.encode "a.toml", Address.read? "127.0.0.1:80"⟩ := by decide +kernel
  have hboth : readBytes fileAndNoise fileThenAddress =
      .ok ⟨Text.Utf8.encode "b.toml", Address.read? "127.0.0.1:80"⟩ := by decide +kernel
  have hnone : readBytes ⟨[]⟩ [Text.Utf8.encode "idp"] = .ok ⟨standardConfig, none⟩ := by
    decide +kernel
  refine ⟨⟨_, haddress, ?_, ?_, ?_⟩, ⟨_, hboth, ?_, ?_⟩, ⟨_, hnone, fun setting => ?_⟩⟩
  · rw [← haddress]
    refine (sources_in_order addressLine).dependsOn _ _ fun setting hgives => ?_
    cases setting with
    | config => rfl
    | listen => exact absurd (gives_addressLine.mpr rfl) hgives
  · refine ((sources_in_order addressLine).absent _ _ haddress .config fun hgives => ?_).1 _ rfl
    exact absurd (gives_addressLine.mp hgives) (by decide)
  · exact (sources_in_order addressLine).given _ _ haddress .listen (gives_addressLine.mpr rfl)
  · exact (sources_in_order fileThenAddress).exchanged _ exchanged_fileThenAddress _ _ hboth
  · exact (sources_in_order fileThenAddress).exchangeable _ _ hboth gives_fileThenAddress
  · refine ((sources_in_order _).absent _ _ hnone setting not_names_nil).2 ?_
    cases setting <;> rfl

end IdentityProvider.CommandLine
