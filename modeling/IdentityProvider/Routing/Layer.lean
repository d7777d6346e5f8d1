import IdentityProvider.Routing.Router

/-
  Layers leave the routing alone.

  `find?_layer`: the route in charge of a path is the same with a layer and without.
  `serve_layer`: a layer that looks at nothing but the request changes the answers of services and
  nothing else, in particular not what the router itself answers.
  `insert_layer`, `nest_layer`: services can be put into a table before a layer or, in the layer,
  after it.
-/

namespace IdentityProvider

namespace Route

theorem service?_map (f : (Call → α) → Call → β) (route : Route α) (verb : Verb) :
    (route.map f).service? verb = (route.service? verb).map f := by
  obtain ⟨text, pattern, services⟩ := route
  simp only [map, service?]
  induction services with
  | nil => rfl
  | cons entry services ih =>
    obtain ⟨v, service⟩ := entry
    by_cases h : verb = v
    · simp [h]
    · have hne : (verb == v) = false := by simpa using h
      simp [List.lookup_cons, hne, ih]

theorem answering?_map (f : (Call → α) → Call → β) (route : Route α) (method : String) :
    (route.map f).answering? method = (route.answering? method).map f := by
  unfold answering?
  rw [List.map_findSome?]
  exact congrArg (List.findSome? · _) (funext (service?_map f route))

theorem methods_map (f : (Call → α) → Call → β) (route : Route α) :
    (route.map f).methods = route.methods := by
  simp [methods, map, List.flatMap_map]

end Route

namespace Router

/-- A candidate with every service of its route changed. -/
def Candidate.map (f : (Call → α) → Call → β) (c : Candidate α) : Candidate β := (c.1.map f, c.2)

theorem candidates_layer (f : (Call → α) → Call → β) (router : Router α) (path : String) :
    (router.layer f).candidates path = (router.candidates path).map (Candidate.map f) := by
  simp only [candidates, layer, List.filterMap_map, List.map_filterMap]
  congr 1
  funext route
  simp [Route.map, Candidate.map, Function.comp_def]

theorem better_map (f : (Call → α) → Call → β) (a b : Candidate α) :
    better (a.map f) (b.map f) = (better a b).map f := by
  by_cases h : a.1.pattern.weights < b.1.pattern.weights
  · simp [better, Candidate.map, Route.map, h]
  · simp [better, Candidate.map, Route.map, h]

theorem find?_layer (f : (Call → α) → Call → β) (router : Router α) (path : String) :
    (router.layer f).find? path = (router.find? path).map (Candidate.map f) := by
  unfold find?
  rw [candidates_layer]
  cases router.candidates path with
  | nil => rfl
  | cons c cs =>
    simp only [List.map_cons, Option.map_some, Option.some.injEq]
    induction cs generalizing c with
    | nil => rfl
    | cons d cs ih => rw [List.map_cons, List.foldl_cons, better_map, ih, List.foldl_cons]

theorem serve_layer (h : Request → α → β) (router : Router α) (request : Request) :
    (router.layer fun service call => h call.request (service call)).serve request =
      (router.serve request).map (h request) := by
  unfold serve
  rw [find?_layer]
  cases router.find? request.path with
  | none => rfl
  | some c =>
    obtain ⟨route, captures⟩ := c
    simp only [Option.map_some, Candidate.map, Route.methods_map, Route.answering?_map]
    cases route.answering? request.method <;> rfl

/-! ## Insertions -/

theorem merge_layer (f : (Call → α) → Call → β) (text : String) (verb : Verb)
    (service : Call → α) (routes : List (Route α)) :
    merge text verb (f service) (routes.map (Route.map f)) =
      (merge text verb service routes).map (List.map (Route.map f)) := by
  induction routes with
  | nil => rfl
  | cons route routes ih =>
    have htext : (route.map f).text = route.text := rfl
    rw [List.map_cons, merge, merge, htext, Route.service?_map, Option.isSome_map, ih]
    by_cases h : route.text = text
    · rw [if_pos h, if_pos h]
      cases route.service? verb with
      | none => simp [Except.map, Route.map]
      | some other => rfl
    · rw [if_neg h, if_neg h]
      cases merge text verb service routes with
      | error error => rfl
      | ok merged => rfl

theorem insert_layer (f : (Call → α) → Call → β) (router : Router α) (verb : Verb)
    (text : String) (service : Call → α) :
    (router.layer f).insert verb text (f service) =
      (router.insert verb text service).map (layer f) := by
  have hany : (router.layer f).routes.any (·.text = text) = router.routes.any (·.text = text) :=
    List.any_map
  have hfind (pattern : Routing.Pattern) :
      (router.layer f).routes.find? (·.pattern.clashesWith pattern) =
        (router.routes.find? (·.pattern.clashesWith pattern)).map (Route.map f) :=
    List.find?_map
  unfold insert
  cases Routing.Pattern.ofText? text with
  | none => rfl
  | some pattern =>
    dsimp only
    rw [hany, hfind]
    split
    · show (merge text verb (f service) (router.routes.map (Route.map f))).map Router.mk = _
      rw [merge_layer]
      cases merge text verb service router.routes with
      | error error => rfl
      | ok merged => rfl
    · cases router.routes.find? (·.pattern.clashesWith pattern) with
      | none => simp [Except.map, layer, Route.map]
      | some other => rfl

theorem insertAll_layer (f : (Call → α) → Call → β) (router : Router α)
    (entries : List (Verb × String × (Call → α))) :
    (router.layer f).insertAll (entries.map fun entry => (entry.1, entry.2.1, f entry.2.2)) =
      (router.insertAll entries).map (layer f) := by
  induction entries generalizing router with
  | nil => rfl
  | cons entry entries ih =>
    unfold insertAll at ih ⊢
    rw [List.map_cons, List.foldlM_cons, List.foldlM_cons, insert_layer]
    cases router.insert entry.1 entry.2.1 entry.2.2 with
    | error error => rfl
    | ok next => exact ih next

theorem entries_layer (f : (Call → α) → Call → β) (router : Router α) :
    (router.layer f).entries =
      router.entries.map fun entry => (entry.1, entry.2.1, f entry.2.2) := by
  unfold entries layer
  rw [List.flatMap_map, List.map_flatMap]
  congr 1
  funext route
  simp [Route.map]

/-- A layer that treats a service and the same service below a start alike goes around routes that
are put below a start as well. -/
theorem nest_layer {f : (Call → α) → Call → β}
    (hf : ∀ n service, stripped n (f service) = f (stripped n service)) (router inner : Router α)
    (start : String) :
    (router.layer f).nest start (inner.layer f) = (router.nest start inner).map (layer f) := by
  unfold nest
  split
  · rw [← insertAll_layer, entries_layer, List.map_map, List.map_map]
    congr 2
    funext entry
    exact congrArg (fun service => (entry.1, _, service)) (hf _ _)
  · rfl

end Router

end IdentityProvider
