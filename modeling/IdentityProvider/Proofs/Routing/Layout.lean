import IdentityProvider.Proofs.Routing.Table
import IdentityProvider.Endpoint

/-
  Ways to write a table down, and the flat table that each of them comes to.

  A `Layout` puts in services one by one and other layouts below a start, as deep as one likes.
  `Layout.flat` writes every route out in full, with the starts in front of its text.  What a
  layout builds is what its flat list builds (`insertAll_flat`) as long as the text of a route
  below a start is the two written one behind the other (`Joins`), which it is but for the root
  and for two slashes behind a start that ends in one.
-/

namespace IdentityProvider

/-- A way to write a table down. -/
inductive Layout (α : Type)
  | empty
  /-- A service behind what stands in front. -/
  | route (front : Layout α) (verb : Verb) (text : String) (service : Call → α)
  /-- All that `inner` has, below a start, behind what stands in front. -/
  | nest (front : Layout α) (start : String) (inner : Layout α)

/-- The service does not look at the path as the router in charge of it sees it. -/
def IgnoresPath (service : Call → α) : Prop :=
  ∀ call path, service { call with request := { call.request with path := path } } = service call

/-- No endpoint looks at the path but through what its route captures. -/
theorem Endpoint.ignoresPath_run (endpoint : Endpoint) : IgnoresPath endpoint.run := by
  intro call path
  cases endpoint <;> rfl

theorem Router.stripped_eq {service : Call → α} (h : IgnoresPath service) (n : Nat) :
    stripped n service = service :=
  funext fun call => h call _

/-! ## Texts below a start -/

/-- The text below the start is the two written one behind the other. -/
def Joins (start text : String) : Prop :=
  text ≠ "/" ∧ (start.toList.getLast? = some '/' → ¬ ['/', '/'] <+: text.toList)

instance (start text : String) : Decidable (Joins start text) :=
  inferInstanceAs (Decidable (text ≠ "/" ∧
    (start.toList.getLast? = some '/' → ¬ ['/', '/'] <+: text.toList)))

/-- A text written out in full below a start.  A slash at the end of the start is the one that the
text begins with. -/
def inFull (start text : String) : String :=
  String.ofList ((if start.toList.getLast? = some '/' then start.toList.dropLast
    else start.toList) ++ text.toList)

theorem inFull_injective (start : String) : Function.Injective (inFull start) := by
  intro a b h
  have hlists := String.ofList_injective h
  exact String.toList_injective (List.append_cancel_left hlists)

/-- What a router makes of a text below a start is the full text. -/
theorem below_eq_inFull {start text : String} {pattern : Routing.Pattern}
    (hpattern : Routing.Pattern.ofText? text = some pattern) (h : Joins start text) :
    String.ofList (Router.below start.toList text.toList) = inFull start text := by
  obtain ⟨rest, _, htext, _⟩ := Routing.Pattern.ofText?_eq_some hpattern
  obtain ⟨hroot, hdoubled⟩ := h
  unfold Router.below inFull
  congr 1
  split
  · next hslash =>
    have hrest : rest.head? ≠ some '/' := by
      intro hhead
      refine hdoubled hslash ?_
      rw [htext]
      cases rest with
      | nil => cases hhead
      | cons c cs =>
        cases hhead
        exact ⟨cs, rfl⟩
    have hdrop : ('/' :: rest).dropWhile (· = '/') = rest := by
      cases rest with
      | nil => rfl
      | cons c cs =>
        have hc : c ≠ '/' := fun hc => hrest (congrArg some hc)
        simp [hc]
    rw [htext, hdrop]
    obtain ⟨before, hbefore⟩ := List.getLast?_eq_some_iff.mp hslash
    rw [hbefore, List.dropLast_concat, List.append_assoc, List.singleton_append]
  · have hne : text.toList ≠ ['/'] := fun heq => hroot (String.toList_injective heq)
    rw [if_neg hne]

/-- Routes that are put below a start are put in with other texts and other services. -/
theorem Router.insertAll_of_nest {router inner table : Router α} {start : String}
    (h : router.nest start inner = .ok table) :
    router.insertAll (inner.entries.map (Entry.map
      (fun text => String.ofList (below start.toList text.toList))
      (stripped (depth start.toList)))) = .ok table := by
  unfold nest at h
  split at h
  · exact h
  · cases h

namespace Layout

/-! ## What a layout comes to -/

/-- The table that the layout builds. -/
def build : Layout α → Except RouteError (Router α)
  | .empty => .ok .empty
  | .route front verb text service => do (← front.build).insert verb text service
  | .nest front start inner => do
    let router ← front.build
    router.nest start (← inner.build)

/-- Every route of the layout with its full text, in order, and with a service that sees the path
without the starts. -/
def flat : Layout α → List (Router.Entry α)
  | .empty => []
  | .route front verb text service => front.flat ++ [(verb, text, service)]
  | .nest front start inner =>
    front.flat ++ inner.flat.map
      (Router.Entry.map (inFull start) (Router.stripped (Router.depth start.toList)))

/-- Every route of the layout with its full text, in order, and with the service as it was
written. -/
def written : Layout α → List (Router.Entry α)
  | .empty => []
  | .route front verb text service => front.written ++ [(verb, text, service)]
  | .nest front start inner =>
    front.written ++ inner.written.map (Router.Entry.map (inFull start) id)

/-- Below every start the texts are joined by writing one behind the other. -/
def Joined : Layout α → Prop
  | .empty => True
  | .route front _ _ _ => front.Joined
  | .nest front start inner =>
    front.Joined ∧ inner.Joined ∧ ∀ entry ∈ inner.flat, Joins start entry.2.1

instance decidableJoined : (layout : Layout α) → Decidable layout.Joined
  | .empty => .isTrue trivial
  | .route front _ _ _ => decidableJoined front
  | .nest front start inner =>
    have := decidableJoined front
    have := decidableJoined inner
    inferInstanceAs (Decidable (front.Joined ∧ inner.Joined ∧
      ∀ entry ∈ inner.flat, Joins start entry.2.1))

/-- To a service that does not look at its path it makes no difference how deep it stands. -/
theorem flat_eq_written {layout : Layout α}
    (h : ∀ entry ∈ layout.written, IgnoresPath entry.2.2) : layout.flat = layout.written := by
  induction layout with
  | empty => rfl
  | route front verb text service ih =>
    rw [flat, written, ih fun entry hentry => h entry (List.mem_append_left _ hentry)]
  | nest front start inner ihfront ihinner =>
    have hfront : ∀ entry ∈ front.written, IgnoresPath entry.2.2 :=
      fun entry hentry => h entry (List.mem_append_left _ hentry)
    have hinner : ∀ entry ∈ inner.written, IgnoresPath entry.2.2 := by
      intro entry hentry
      exact h (Router.Entry.map (inFull start) id entry)
        (List.mem_append_right _ (List.mem_map_of_mem hentry))
    rw [flat, written, ihfront hfront, ihinner hinner]
    congr 1
    refine List.map_congr_left fun entry hentry => ?_
    unfold Router.Entry.map
    rw [Router.stripped_eq (hinner entry hentry), id]

theorem build_route_eq_ok_iff {front : Layout α} {verb : Verb} {text : String}
    {service : Call → α} {table : Router α} :
    (route front verb text service).build = .ok table ↔
      ∃ router, front.build = .ok router ∧ router.insert verb text service = .ok table :=
  Traversal.bind_eq_ok_iff

theorem build_nest_eq_ok_iff {front inner : Layout α} {start : String} {table : Router α} :
    (nest front start inner).build = .ok table ↔
      ∃ router below, front.build = .ok router ∧ inner.build = .ok below ∧
        router.nest start below = .ok table := by
  simp only [build, Traversal.bind_eq_ok_iff, exists_and_left]

theorem sound_build {layout : Layout α} {table : Router α} (h : layout.build = .ok table) :
    table.Sound := by
  induction layout generalizing table with
  | empty =>
    cases h
    exact Router.sound_empty
  | route front verb text service ih =>
    obtain ⟨router, hrouter, htable⟩ := build_route_eq_ok_iff.mp h
    exact (ih hrouter).insert htable
  | nest front start inner ih _ =>
    obtain ⟨router, below, hrouter, _, htable⟩ := build_nest_eq_ok_iff.mp h
    exact (ih hrouter).insertAll (Router.insertAll_of_nest htable)

/-- The table of a layout is the table of its routes written out in full. -/
theorem insertAll_flat {layout : Layout α} {table : Router α} (hjoined : layout.Joined)
    (h : layout.build = .ok table) : Router.empty.insertAll layout.flat = .ok table := by
  induction layout generalizing table with
  | empty => exact h
  | route front verb text service ih =>
    obtain ⟨router, hrouter, htable⟩ := build_route_eq_ok_iff.mp h
    exact Router.insertAll_append_eq_ok_iff.mpr
      ⟨router, ih hjoined hrouter, Router.insertAll_singleton_eq_ok_iff.mpr htable⟩
  | nest front start inner ihfront ihinner =>
    obtain ⟨hfront, hinner, hjoins⟩ := hjoined
    obtain ⟨router, below, hrouter, hbelow, htable⟩ := build_nest_eq_ok_iff.mp h
    have hflat := ihfront hfront hrouter
    have hflat' := ihinner hinner hbelow
    have hsound := Router.sound_empty.insertAll hflat
    have hsound' := Router.sound_empty.insertAll hflat'
    refine Router.insertAll_append_eq_ok_iff.mpr ⟨router, hflat, ?_⟩
    refine Router.insertAll_of_entries hsound (fun _ _ _ _ => @inFull_injective start _ _) hflat' ?_
    rw [← Router.insertAll_of_nest htable]
    congr 1
    -- the texts in the table below are those of its layout, and these are joined to the start
    refine List.map_congr_left fun entry hentry => ?_
    obtain ⟨route, hroute, htext⟩ := List.mem_map.mp (Router.text_of_mem_entries hentry)
    obtain ⟨other, hother, hsame⟩ := Router.exists_entry_of_mem_texts hflat'
      (Router.text_of_mem_entries hentry)
    have hjoin : Joins start entry.2.1 := hsame ▸ hjoins other hother
    have hpattern := hsound'.written route hroute
    rw [htext] at hpattern
    unfold Router.Entry.map
    dsimp only
    rw [below_eq_inFull hpattern hjoin]

end Layout

end IdentityProvider
