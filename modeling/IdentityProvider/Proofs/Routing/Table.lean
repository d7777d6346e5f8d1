import IdentityProvider.Proofs.Traversal
import IdentityProvider.Routing.Router
import Mathlib.Data.List.Induction
import Mathlib.Data.List.Nodup

/-
  What it takes to put a service into a table, and what becomes of the table.

  `Router.Sound` is the invariant of tables that are built up service by service.  In such a table
  an insertion either adds the service to the one route with its text or appends a new route
  (`insert_cases`).  Services for different texts can be put in in either order as long as the
  order of the routes is settled already (`insert_swap`); so a table that keeps the services of a
  route together can be put into another one as if it did not (`insertAll_of_entries`).
-/

namespace IdentityProvider

/-- A service with its verb and text, as it is put into a table. -/
abbrev Router.Entry (α : Type) := Verb × String × (Call → α)

/-- The route with a further service, if it is the route with this text. -/
def Route.extendedAt (text : String) (verb : Verb) (service : Call → α) (route : Route α) :
    Route α :=
  if route.text = text then { route with services := route.services ++ [(verb, service)] }
  else route

namespace Route

@[simp] theorem extendedAt_text (text : String) (verb : Verb) (service : Call → α)
    (route : Route α) : (route.extendedAt text verb service).text = route.text := by
  unfold extendedAt
  split
  · rfl
  · rfl

@[simp] theorem extendedAt_pattern (text : String) (verb : Verb) (service : Call → α)
    (route : Route α) : (route.extendedAt text verb service).pattern = route.pattern := by
  unfold extendedAt
  split
  · rfl
  · rfl

theorem extendedAt_of_ne {text : String} {route : Route α} (h : route.text ≠ text) (verb : Verb)
    (service : Call → α) : route.extendedAt text verb service = route :=
  if_neg h

theorem extendedAt_services_ne_nil {route : Route α} (h : route.services ≠ []) (text : String)
    (verb : Verb) (service : Call → α) : (route.extendedAt text verb service).services ≠ [] := by
  unfold extendedAt
  split
  · simp
  · exact h

theorem extendedAt_comm {a b : String} (h : a ≠ b) (v w : Verb) (s t : Call → α)
    (route : Route α) :
    (route.extendedAt a v s).extendedAt b w t = (route.extendedAt b w t).extendedAt a v s := by
  by_cases ha : route.text = a
  · have hb : route.text ≠ b := ha ▸ h
    have hb' : (route.extendedAt a v s).text ≠ b := by rwa [extendedAt_text]
    rw [extendedAt_of_ne hb, extendedAt_of_ne hb']
  · have ha' : (route.extendedAt b w t).text ≠ a := by rwa [extendedAt_text]
    rw [extendedAt_of_ne ha, extendedAt_of_ne ha']

theorem map_extendedAt_of_notMem {text : String} {routes : List (Route α)}
    (h : text ∉ routes.map Route.text) (verb : Verb) (service : Call → α) :
    routes.map (extendedAt text verb service) = routes := by
  rw [List.map_congr_left (g := id), List.map_id]
  intro route hroute
  refine extendedAt_of_ne (fun htext => h ?_) verb service
  exact htext ▸ List.mem_map_of_mem hroute

end Route

namespace Router

/-- A table as it comes about service by service: no two routes have the same text, every pattern
is what its text writes, and no route is without a service. -/
structure Sound (router : Router α) : Prop where
  distinct : (router.routes.map Route.text).Nodup
  written : ∀ route ∈ router.routes, Routing.Pattern.ofText? route.text = some route.pattern
  served : ∀ route ∈ router.routes, route.services ≠ []

theorem sound_empty : (empty : Router α).Sound where
  distinct := List.nodup_nil
  written _ h := absurd h List.not_mem_nil
  served _ h := absurd h List.not_mem_nil

/-! ## A single insertion -/

/-- The text has no service for the verb yet. -/
def IsFree (verb : Verb) (text : String) (routes : List (Route α)) : Prop :=
  ∀ route ∈ routes, route.text = text → route.service? verb = none

instance (verb : Verb) (text : String) (routes : List (Route α)) :
    Decidable (IsFree verb text routes) :=
  inferInstanceAs (Decidable (∀ route ∈ routes, route.text = text → route.service? verb = none))

theorem merge_eq_ite {routes : List (Route α)} (hdistinct : (routes.map Route.text).Nodup)
    (text : String) (verb : Verb) (service : Call → α) :
    merge text verb service routes = if IsFree verb text routes
      then .ok (routes.map (Route.extendedAt text verb service))
      else .error (.overlapping verb text) := by
  induction routes with
  | nil => rfl
  | cons route routes ih =>
    rw [List.map_cons, List.nodup_cons] at hdistinct
    rw [merge]
    by_cases htext : route.text = text
    · have hrest : text ∉ routes.map Route.text := htext ▸ hdistinct.1
      have hfree : IsFree verb text (route :: routes) ↔ route.service? verb = none := by
        refine ⟨fun h => h route List.mem_cons_self htext, fun h other hother hother' => ?_⟩
        rcases List.mem_cons.mp hother with rfl | hother
        · exact h
        · exact absurd (hother' ▸ List.mem_map_of_mem hother) hrest
      rw [if_pos htext, List.map_cons, Route.map_extendedAt_of_notMem hrest, Route.extendedAt,
        if_pos htext]
      simp only [hfree]
      cases route.service? verb with
      | none => rfl
      | some other => rfl
    · have hfree : IsFree verb text (route :: routes) ↔ IsFree verb text routes := by
        unfold IsFree
        rw [List.forall_mem_cons]
        exact and_iff_right fun h => absurd h htext
      rw [if_neg htext, ih hdistinct.2, List.map_cons, Route.extendedAt_of_ne htext]
      simp only [hfree]
      split
      · rfl
      · rfl

theorem any_text_iff {routes : List (Route α)} {text : String} :
    routes.any (·.text = text) = true ↔ text ∈ routes.map Route.text := by
  simp [List.mem_map, List.any_eq_true]

section

variable {router table : Router α} {verb : Verb} {text : String} {service : Call → α}
  {pattern : Routing.Pattern}

/-- The route with the text gets a further service. -/
theorem insert_of_mem (h : router.Sound)
    (hpattern : Routing.Pattern.ofText? text = some pattern)
    (hmem : text ∈ router.routes.map Route.text) (hfree : IsFree verb text router.routes) :
    router.insert verb text service =
      .ok ⟨router.routes.map (Route.extendedAt text verb service)⟩ := by
  unfold insert
  rw [hpattern]
  dsimp only
  rw [if_pos (any_text_iff.mpr hmem), merge_eq_ite h.distinct, if_pos hfree]
  rfl

/-- A route with a new text comes last. -/
theorem insert_of_notMem (hpattern : Routing.Pattern.ofText? text = some pattern)
    (hnew : text ∉ router.routes.map Route.text)
    (hclear : ∀ route ∈ router.routes, route.pattern.clashesWith pattern = false) :
    router.insert verb text service =
      .ok ⟨router.routes ++ [⟨text, pattern, [(verb, service)]⟩]⟩ := by
  have hfind : router.routes.find? (·.pattern.clashesWith pattern) = none := by
    refine List.find?_eq_none.mpr fun route hroute => ?_
    rw [hclear route hroute]
    exact Bool.false_ne_true
  unfold insert
  rw [hpattern]
  dsimp only
  rw [if_neg (mt any_text_iff.mp hnew), hfind]

/-- There are no other ways to put a service in. -/
theorem insert_cases (h : router.Sound) (hinsert : router.insert verb text service = .ok table) :
    ∃ pattern, Routing.Pattern.ofText? text = some pattern ∧
      ((text ∈ router.routes.map Route.text ∧ IsFree verb text router.routes ∧
          table = ⟨router.routes.map (Route.extendedAt text verb service)⟩) ∨
        (text ∉ router.routes.map Route.text ∧
          (∀ route ∈ router.routes, route.pattern.clashesWith pattern = false) ∧
          table = ⟨router.routes ++ [⟨text, pattern, [(verb, service)]⟩]⟩)) := by
  unfold insert at hinsert
  cases hpattern : Routing.Pattern.ofText? text with
  | none =>
    rw [hpattern] at hinsert
    cases hinsert
  | some pattern =>
    rw [hpattern] at hinsert
    dsimp only at hinsert
    refine ⟨pattern, rfl, ?_⟩
    by_cases hmem : text ∈ router.routes.map Route.text
    · rw [if_pos (any_text_iff.mpr hmem), merge_eq_ite h.distinct] at hinsert
      split at hinsert
      · next hfree =>
        cases hinsert
        exact .inl ⟨hmem, hfree, rfl⟩
      · cases hinsert
    · rw [if_neg (mt any_text_iff.mp hmem)] at hinsert
      cases hfind : router.routes.find? (·.pattern.clashesWith pattern) with
      | none =>
        rw [hfind] at hinsert
        cases hinsert
        refine .inr ⟨hmem, fun route hroute => ?_, rfl⟩
        simpa using List.find?_eq_none.mp hfind route hroute
      | some other =>
        rw [hfind] at hinsert
        cases hinsert

theorem map_text_extendedAt (routes : List (Route α)) :
    (routes.map (Route.extendedAt text verb service)).map Route.text = routes.map Route.text := by
  rw [List.map_map]
  exact List.map_congr_left fun route _ => route.extendedAt_text text verb service

/-- A sound table stays sound. -/
theorem Sound.insert (h : router.Sound) (hinsert : router.insert verb text service = .ok table) :
    table.Sound := by
  obtain ⟨pattern, hpattern, ⟨hmem, hfree, rfl⟩ | ⟨hnew, hclear, rfl⟩⟩ := insert_cases h hinsert
  · refine ⟨?_, ?_, ?_⟩
    · rw [map_text_extendedAt]
      exact h.distinct
    · intro route hroute
      obtain ⟨old, hold, rfl⟩ := List.mem_map.mp hroute
      rw [Route.extendedAt_text, Route.extendedAt_pattern]
      exact h.written old hold
    · intro route hroute
      obtain ⟨old, hold, rfl⟩ := List.mem_map.mp hroute
      exact Route.extendedAt_services_ne_nil (h.served old hold) text verb service
  · refine ⟨?_, ?_, ?_⟩
    · rw [List.map_append, List.map_singleton, ← List.concat_eq_append]
      exact List.Nodup.concat hnew h.distinct
    · intro route hroute
      rcases List.mem_append.mp hroute with hold | hlast
      · exact h.written route hold
      · rw [List.mem_singleton.mp hlast]
        exact hpattern
    · intro route hroute
      rcases List.mem_append.mp hroute with hold | hlast
      · exact h.served route hold
      · rw [List.mem_singleton.mp hlast]
        exact List.cons_ne_nil _ _

/-- The texts of a table after an insertion are those before it and the new one. -/
theorem mem_texts_insert_iff (h : router.Sound)
    (hinsert : router.insert verb text service = .ok table) {t : String} :
    t ∈ table.routes.map Route.text ↔ t ∈ router.routes.map Route.text ∨ t = text := by
  obtain ⟨pattern, hpattern, ⟨hmem, hfree, rfl⟩ | ⟨hnew, hclear, rfl⟩⟩ := insert_cases h hinsert
  · rw [map_text_extendedAt]
    exact ⟨.inl, fun ht => ht.elim id fun heq => heq ▸ hmem⟩
  · rw [List.map_append, List.map_singleton, List.mem_append, List.mem_singleton]

end

/-! ## Insertions in another order -/

theorem isFree_map_extendedAt_iff {a b : String} (hne : a ≠ b) {v w : Verb} {s : Call → α}
    {routes : List (Route α)} :
    IsFree w b (routes.map (Route.extendedAt a v s)) ↔ IsFree w b routes := by
  unfold IsFree
  rw [List.forall_mem_map]
  refine forall₂_congr fun route _ => ?_
  rw [Route.extendedAt_text]
  refine forall_congr' fun htext => ?_
  rw [Route.extendedAt_of_ne (fun ha => hne (ha.symm.trans htext))]

/-- Two services for different texts can change places if the first one goes to a route that is
there already: the order of the routes stays the same. -/
theorem insert_swap {router first both : Router α} (h : router.Sound) {a b : String} (hne : a ≠ b)
    {v w : Verb} {s t : Call → α} (hmem : a ∈ router.routes.map Route.text)
    (hfirst : router.insert v a s = .ok first) (hboth : first.insert w b t = .ok both) :
    ∃ other, router.insert w b t = .ok other ∧ other.insert v a s = .ok both := by
  have hsound := h.insert hfirst
  obtain ⟨pattern, hpattern, hcases⟩ := insert_cases h hfirst
  obtain ⟨_, hfree, rfl⟩ := hcases.resolve_right fun hnew => hnew.1 hmem
  obtain ⟨pattern', hpattern', ⟨hmem', hfree', rfl⟩ | ⟨hnew', hclear', rfl⟩⟩ :=
    insert_cases hsound hboth
  -- both services go to routes that are there
  · rw [map_text_extendedAt] at hmem'
    rw [isFree_map_extendedAt_iff hne] at hfree'
    have hother := @insert_of_mem _ router w b t pattern' h hpattern' hmem' hfree'
    refine ⟨_, hother, ?_⟩
    rw [insert_of_mem (h.insert hother) hpattern (by rwa [map_text_extendedAt])
      ((isFree_map_extendedAt_iff hne.symm).mpr hfree), List.map_map, List.map_map]
    simp only [Function.comp_def, Route.extendedAt_comm hne]
  -- the second one makes a new route
  · rw [map_text_extendedAt] at hnew'
    rw [List.forall_mem_map] at hclear'
    simp only [Route.extendedAt_pattern] at hclear'
    have hother := @insert_of_notMem _ router w b t pattern' hpattern' hnew' hclear'
    refine ⟨_, hother, ?_⟩
    have hfree'' : IsFree v a (router.routes ++ [⟨b, pattern', [(w, t)]⟩]) := by
      intro route hroute htext
      rcases List.mem_append.mp hroute with hold | hlast
      · exact hfree route hold htext
      · rw [List.mem_singleton.mp hlast] at htext
        exact absurd htext.symm hne
    have hmem'' : a ∈ (router.routes ++ [(⟨b, pattern', [(w, t)]⟩ : Route α)]).map Route.text := by
      rw [List.map_append]
      exact List.mem_append_left _ hmem
    rw [insert_of_mem (h.insert hother) hpattern hmem'' hfree'', List.map_append,
      List.map_singleton, Route.extendedAt_of_ne hne.symm]

/-! ## Many insertions -/

section

variable {router table : Router α} {entries : List (Entry α)}

theorem insertAll_cons_eq_ok_iff {verb : Verb} {text : String} {service : Call → α} :
    router.insertAll ((verb, text, service) :: entries) = .ok table ↔
      ∃ next, router.insert verb text service = .ok next ∧ next.insertAll entries = .ok table := by
  unfold insertAll
  rw [List.foldlM_cons]
  exact Traversal.bind_eq_ok_iff

theorem insertAll_append_eq_ok_iff {others : List (Entry α)} :
    router.insertAll (entries ++ others) = .ok table ↔
      ∃ middle, router.insertAll entries = .ok middle ∧ middle.insertAll others = .ok table := by
  unfold insertAll
  rw [List.foldlM_append]
  exact Traversal.bind_eq_ok_iff

theorem insertAll_singleton_eq_ok_iff {verb : Verb} {text : String} {service : Call → α} :
    router.insertAll [(verb, text, service)] = .ok table ↔
      router.insert verb text service = .ok table := by
  rw [insertAll_cons_eq_ok_iff]
  constructor
  · rintro ⟨next, hnext, htable⟩
    cases htable
    exact hnext
  · intro h
    exact ⟨table, h, rfl⟩

theorem Sound.insertAll (h : router.Sound) (hinsert : router.insertAll entries = .ok table) :
    table.Sound := by
  induction entries generalizing router with
  | nil =>
    cases hinsert
    exact h
  | cons entry entries ih =>
    obtain ⟨next, hnext, htable⟩ := insertAll_cons_eq_ok_iff.mp hinsert
    exact ih (h.insert hnext) htable

theorem mem_texts_insertAll_iff (h : router.Sound) (hinsert : router.insertAll entries = .ok table)
    {t : String} : t ∈ table.routes.map Route.text ↔
      t ∈ router.routes.map Route.text ∨ t ∈ entries.map (·.2.1) := by
  induction entries generalizing router with
  | nil =>
    cases hinsert
    simp
  | cons entry entries ih =>
    obtain ⟨next, hnext, htable⟩ := insertAll_cons_eq_ok_iff.mp hinsert
    rw [ih (h.insert hnext) htable, mem_texts_insert_iff h hnext, List.map_cons, List.mem_cons,
      or_assoc]

/-- A service can be put in behind those for other texts if its route is there already. -/
theorem insertAll_swap {first both : Router α} (h : router.Sound) {a : String} {v : Verb}
    {s : Call → α} (hmem : a ∈ router.routes.map Route.text)
    (hne : ∀ entry ∈ entries, a ≠ entry.2.1) (hfirst : router.insert v a s = .ok first)
    (hboth : first.insertAll entries = .ok both) :
    ∃ other, router.insertAll entries = .ok other ∧ other.insert v a s = .ok both := by
  induction entries generalizing router first with
  | nil =>
    cases hboth
    exact ⟨router, rfl, hfirst⟩
  | cons entry entries ih =>
    obtain ⟨w, b, t⟩ := entry
    rw [List.forall_mem_cons] at hne
    obtain ⟨next, hnext, hrest⟩ := insertAll_cons_eq_ok_iff.mp hboth
    obtain ⟨router', hrouter', hnext'⟩ := insert_swap h hne.1 hmem hfirst hnext
    have hmem' := (mem_texts_insert_iff h hrouter').mpr (.inl hmem)
    obtain ⟨other, hother, hlast⟩ := ih (h.insert hrouter') hmem' hne.2 hnext' hrest
    exact ⟨other, insertAll_cons_eq_ok_iff.mpr ⟨router', hrouter', hother⟩, hlast⟩

end

/-! ## The entries of a table -/

/-- An entry with another text and another service. -/
def Entry.map (f : String → String) (g : (Call → α) → Call → β) (entry : Entry α) : Entry β :=
  (entry.1, f entry.2.1, g entry.2.2)

theorem entries_append (routes others : List (Route α)) :
    entries ⟨routes ++ others⟩ = entries ⟨routes⟩ ++ entries ⟨others⟩ :=
  List.flatMap_append

theorem text_of_mem_entries {routes : List (Route α)} {entry : Entry α}
    (h : entry ∈ entries ⟨routes⟩) : entry.2.1 ∈ routes.map Route.text := by
  obtain ⟨route, hroute, hentry⟩ := List.mem_flatMap.mp h
  obtain ⟨service, _, rfl⟩ := List.mem_map.mp hentry
  exact List.mem_map_of_mem hroute

/-- A route of a sound table shows in its entries. -/
theorem exists_mem_entries {routes : List (Route α)} {route : Route α} (h : route ∈ routes)
    (hserved : route.services ≠ []) : ∃ entry ∈ entries ⟨routes⟩, entry.2.1 = route.text := by
  obtain ⟨service, hservice⟩ := List.exists_mem_of_ne_nil _ hserved
  exact ⟨_, List.mem_flatMap.mpr ⟨route, h, List.mem_map_of_mem hservice⟩, rfl⟩

/-- A service for a route that is there comes behind the entries of this route. -/
theorem entries_extendedAt {before after : List (Route α)} {route : Route α}
    (hbefore : route.text ∉ before.map Route.text) (hafter : route.text ∉ after.map Route.text)
    (verb : Verb) (service : Call → α) :
    entries ⟨(before ++ route :: after).map (Route.extendedAt route.text verb service)⟩ =
      entries ⟨before ++ [route]⟩ ++ (verb, route.text, service) :: entries ⟨after⟩ := by
  rw [List.map_append, List.map_cons, Route.map_extendedAt_of_notMem hbefore,
    Route.map_extendedAt_of_notMem hafter, Route.extendedAt, if_pos rfl]
  simp [entries]

/-- In a sound table the text of a route occurs neither before nor after it. -/
theorem Sound.notMem_texts {before after : List (Route α)} {route : Route α}
    (h : Sound ⟨before ++ route :: after⟩) :
    route.text ∉ before.map Route.text ∧ route.text ∉ after.map Route.text := by
  have hdistinct := h.distinct
  rw [List.map_append, List.map_cons, List.nodup_append] at hdistinct
  exact ⟨fun hmem => hdistinct.2.2 _ hmem _ List.mem_cons_self rfl,
    (List.nodup_cons.mp hdistinct.2.1).1⟩

theorem exists_entry_of_mem_texts {list : List (Entry α)} {inner : Router α}
    (hinner : empty.insertAll list = .ok inner) {text : String}
    (h : text ∈ inner.routes.map Route.text) : ∃ entry ∈ list, entry.2.1 = text := by
  rcases (mem_texts_insertAll_iff sound_empty hinner).mp h with hnone | hlist
  · cases hnone
  · exact List.mem_map.mp hlist

section

variable {f : String → String} {g : (Call → α) → Call → β} {outer table : Router β}

/-- A service that went to a route in the middle of a table can be put in last as well, once the
table goes into another one. -/
theorem insertAll_extendedAt (houter : outer.Sound) {before after : List (Route α)}
    {route : Route α} (hsound : Sound ⟨before ++ route :: after⟩)
    (hf : ∀ later ∈ after, f route.text ≠ f later.text) {verb : Verb} {service : Call → α}
    (htable : outer.insertAll ((entries ⟨(before ++ route :: after).map
      (Route.extendedAt route.text verb service)⟩).map (Entry.map f g)) = .ok table) :
    ∃ most, outer.insertAll ((entries ⟨before ++ route :: after⟩).map (Entry.map f g)) = .ok most ∧
      most.insert verb (f route.text) (g service) = .ok table := by
  obtain ⟨hbefore, hafter⟩ := hsound.notMem_texts
  rw [entries_extendedAt hbefore hafter, List.map_append, List.map_cons] at htable
  obtain ⟨first, hfirst, hrest⟩ := insertAll_append_eq_ok_iff.mp htable
  obtain ⟨second, hsecond, hthird⟩ := insertAll_cons_eq_ok_iff.mp hrest
  have hthere : f route.text ∈ first.routes.map Route.text := by
    obtain ⟨entry, hentry, htext⟩ := exists_mem_entries
      (List.mem_append_right before List.mem_cons_self : route ∈ before ++ [route])
      (hsound.served route (List.mem_append_right before List.mem_cons_self))
    refine (mem_texts_insertAll_iff houter hfirst).mpr (.inr ?_)
    rw [List.map_map]
    exact List.mem_map.mpr ⟨entry, hentry, congrArg f htext⟩
  have hne : ∀ other ∈ (entries ⟨after⟩).map (Entry.map f g), f route.text ≠ other.2.1 := by
    intro other hother
    obtain ⟨entry, hentry, rfl⟩ := List.mem_map.mp hother
    obtain ⟨later, hlater, htext⟩ := List.mem_map.mp (text_of_mem_entries hentry)
    show f route.text ≠ f entry.2.1
    rw [← htext]
    exact hf later hlater
  obtain ⟨most, hmost, hlast⟩ := insertAll_swap (houter.insertAll hfirst) hthere hne hsecond hthird
  refine ⟨most, ?_, hlast⟩
  rw [List.append_cons, entries_append, List.map_append]
  exact insertAll_append_eq_ok_iff.mpr ⟨first, hfirst, hmost⟩

/-- The entries of a table can be put into another one in the order in which they came into the
first: a table keeps the services of a route together, and that makes no difference. -/
theorem insertAll_of_entries (houter : outer.Sound) {list : List (Entry α)} {inner : Router α}
    (hf : ∀ a ∈ list, ∀ b ∈ list, f a.2.1 = f b.2.1 → a.2.1 = b.2.1)
    (hinner : empty.insertAll list = .ok inner)
    (htable : outer.insertAll (inner.entries.map (Entry.map f g)) = .ok table) :
    outer.insertAll (list.map (Entry.map f g)) = .ok table := by
  induction list using List.reverseRecOn generalizing inner table with
  | nil =>
    cases hinner
    exact htable
  | append_singleton list entry ih =>
    obtain ⟨verb, text, service⟩ := entry
    obtain ⟨middle, hmiddle, hlast⟩ := insertAll_append_eq_ok_iff.mp hinner
    rw [insertAll_singleton_eq_ok_iff] at hlast
    have hsound := sound_empty.insertAll hmiddle
    have hf' : ∀ a ∈ list, ∀ b ∈ list, f a.2.1 = f b.2.1 → a.2.1 = b.2.1 := fun a ha b hb =>
      hf a (List.mem_append_left _ ha) b (List.mem_append_left _ hb)
    rw [List.map_append, List.map_singleton, insertAll_append_eq_ok_iff]
    obtain ⟨pattern, _, ⟨hmem, _, rfl⟩ | ⟨_, _, rfl⟩⟩ := insert_cases hsound hlast
    -- the service went to a route in the middle of the table
    · obtain ⟨routes⟩ := middle
      obtain ⟨route, hroute, rfl⟩ := List.mem_map.mp hmem
      obtain ⟨before, after, rfl⟩ := List.mem_iff_append.mp hroute
      have hne : ∀ later ∈ after, f route.text ≠ f later.text := by
        intro later hlater heq
        have hlater' : later ∈ before ++ route :: after :=
          List.mem_append_right _ (List.mem_cons_of_mem _ hlater)
        obtain ⟨a, ha, hatext⟩ := exists_entry_of_mem_texts hmiddle (List.mem_map_of_mem hroute)
        obtain ⟨b, hb, hbtext⟩ := exists_entry_of_mem_texts hmiddle (List.mem_map_of_mem hlater')
        rw [← hatext, ← hbtext] at heq
        have hsame := hf' a ha b hb heq
        rw [hatext, hbtext] at hsame
        exact hsound.notMem_texts.2 (hsame ▸ List.mem_map_of_mem hlater)
      obtain ⟨most, hmost, hlast'⟩ := insertAll_extendedAt houter hsound hne htable
      exact ⟨most, ih hf' hmiddle hmost, insertAll_singleton_eq_ok_iff.mpr hlast'⟩
    -- the service made a new route at the end
    · rw [entries_append, List.map_append] at htable
      obtain ⟨most, hmost, hrest⟩ := insertAll_append_eq_ok_iff.mp htable
      exact ⟨most, ih hf' hmiddle hmost, hrest⟩

end

end Router

end IdentityProvider
