import IdentityProvider.Routing.Router
import Mathlib.Data.List.Forall2

/-
  Two tables with the same routes.

  `Router.Alike R` says that two tables have the same texts, patterns and verbs in the same order,
  and that services in the same place come to `R`-related answers for every call.  Routing looks at
  no answer, so such tables stay alike whatever is done to both of them, and they answer a request
  alike: `Router.Alike.serve` for requests, `Router.Alike.insert` for a further service and
  `Router.Alike.layer` for a layer.
-/

namespace IdentityProvider

/-- Services that come to related answers for every call. -/
def ServicesAlike (R : α → β → Prop) (service : Call → α) (other : Call → β) : Prop :=
  ∀ call, R (service call) (other call)

/-- Routes with the same text, pattern and verbs, and with services that are alike. -/
structure Route.Alike (R : α → β → Prop) (route : Route α) (other : Route β) : Prop where
  text : route.text = other.text
  pattern : route.pattern = other.pattern
  services : List.Forall₂ (fun entry entry' => entry.1 = entry'.1 ∧
    ServicesAlike R entry.2 entry'.2) route.services other.services

/-- Tables with routes that are alike, in the same order. -/
def Router.Alike (R : α → β → Prop) (router : Router α) (other : Router β) : Prop :=
  List.Forall₂ (Route.Alike R) router.routes other.routes

/-- Candidates whose routes are alike and whose captures take the same. -/
structure Router.CandidatesAlike (R : α → β → Prop) (candidate : Candidate α)
    (other : Candidate β) : Prop where
  route : candidate.1.Alike R other.1
  captures : candidate.2 = other.2

/-- Replies of the same kind: both with related answers, or both the router's own. -/
inductive Reply.Alike (R : α → β → Prop) : Reply α → Reply β → Prop
  | served {answer : α} {other : β} :
    R answer other → Alike R (.served answer) (.served other)
  | notFound : Alike R .notFound .notFound
  | notAllowed (methods : List String) : Alike R (.notAllowed methods) (.notAllowed methods)

/-- Results that are both refused for the same reason, or both related tables. -/
inductive InsertedAlike (R : α → β → Prop) :
    Except RouteError (Router α) → Except RouteError (Router β) → Prop
  | refused (error : RouteError) : InsertedAlike R (.error error) (.error error)
  | inserted {router : Router α} {other : Router β} :
    router.Alike R other → InsertedAlike R (.ok router) (.ok other)

section

variable {R : α → β → Prop}

namespace Route.Alike

variable {route : Route α} {other : Route β}

theorem service? (h : route.Alike R other) (verb : Verb) :
    Option.Rel (ServicesAlike R) (route.service? verb) (other.service? verb) := by
  have hservices := h.services
  unfold Route.service?
  generalize route.services = entries, other.services = entries' at hservices ⊢
  induction hservices with
  | nil => exact .none
  | @cons entry entry' entries entries' hentry _ ih =>
    obtain ⟨v, service⟩ := entry
    obtain ⟨v', service'⟩ := entry'
    obtain ⟨rfl, hservice⟩ := hentry
    rw [List.lookup_cons, List.lookup_cons]
    cases verb == v with
    | true => exact .some hservice
    | false => exact ih

theorem answering? (h : route.Alike R other) (method : String) :
    Option.Rel (ServicesAlike R) (route.answering? method) (other.answering? method) := by
  unfold Route.answering?
  induction Verb.serving method with
  | nil => exact .none
  | cons verb verbs ih =>
    have hservice := h.service? verb
    rw [List.findSome?_cons, List.findSome?_cons]
    generalize route.service? verb = s?, other.service? verb = t? at hservice ⊢
    cases hservice with
    | none => exact ih
    | some hservice => exact .some hservice

theorem methods (h : route.Alike R other) : route.methods = other.methods := by
  have hservices := h.services
  unfold Route.methods
  generalize route.services = entries, other.services = entries' at hservices ⊢
  induction hservices with
  | nil => rfl
  | cons hentry _ ih => rw [List.flatMap_cons, List.flatMap_cons, hentry.1, ih]

theorem map {S : γ → δ → Prop} {f : (Call → α) → Call → γ} {g : (Call → β) → Call → δ}
    (h : route.Alike R other)
    (hfg : ∀ service other, ServicesAlike R service other →
      ServicesAlike S (f service) (g other)) :
    (route.map f).Alike S (other.map g) where
  text := h.text
  pattern := h.pattern
  services := List.rel_map (fun _ _ hentry => ⟨hentry.1, hfg _ _ hentry.2⟩) h.services

end Route.Alike

namespace Router.Alike

variable {router : Router α} {other : Router β}

theorem layer {S : γ → δ → Prop} {f : (Call → α) → Call → γ} {g : (Call → β) → Call → δ}
    (h : router.Alike R other)
    (hfg : ∀ service other, ServicesAlike R service other →
      ServicesAlike S (f service) (g other)) :
    (router.layer f).Alike S (other.layer g) :=
  List.rel_map (fun _ _ hroute => hroute.map hfg) h

/-! ## Requests -/

theorem candidates (h : router.Alike R other) (path : String) :
    List.Forall₂ (CandidatesAlike R) (router.candidates path) (other.candidates path) := by
  refine List.rel_filterMap ?_ h
  intro route route' hroute
  simp only [hroute.pattern]
  cases route'.pattern.matchPath path with
  | none => exact .none
  | some captures => exact .some ⟨hroute, rfl⟩

theorem better {c c' : Candidate α} {d d' : Candidate β} (h : CandidatesAlike R c d)
    (h' : CandidatesAlike R c' d') :
    CandidatesAlike R (Router.better c c') (Router.better d d') := by
  unfold Router.better
  rw [h.route.pattern, h'.route.pattern]
  split
  · exact h'
  · exact h

theorem find? (h : router.Alike R other) (path : String) :
    Option.Rel (CandidatesAlike R) (router.find? path) (other.find? path) := by
  have hcandidates := h.candidates path
  unfold Router.find?
  generalize router.candidates path = cs, other.candidates path = ds at hcandidates ⊢
  cases hcandidates with
  | nil => exact .none
  | cons hfirst hrest =>
    exact .some (List.rel_foldl (fun _ _ hcd _ _ hcd' => better hcd hcd') hfirst hrest)

/-- Tables that are alike answer every request alike. -/
theorem serve (h : router.Alike R other) (request : Request) :
    (router.serve request).Alike R (other.serve request) := by
  have hfind := h.find? request.path
  unfold Router.serve
  generalize router.find? request.path = c?, other.find? request.path = d? at hfind ⊢
  cases hfind with
  | none => exact .notFound
  | @some c d hcd =>
    obtain ⟨route, captures⟩ := c
    obtain ⟨route', captures'⟩ := d
    obtain ⟨hroute, rfl⟩ := hcd
    have hservice := hroute.answering? request.method
    simp only [hroute.methods]
    generalize route.answering? request.method = s?, route'.answering? request.method = t?
      at hservice ⊢
    cases hservice with
    | none => exact .notAllowed _
    | some hservice => exact .served (hservice _)

/-! ## Further services -/

theorem any_text (h : router.Alike R other) (text : String) :
    (router.routes.any (·.text = text)) = other.routes.any (·.text = text) := by
  unfold Router.Alike at h
  generalize router.routes = routes, other.routes = routes' at h ⊢
  induction h with
  | nil => rfl
  | cons hroute _ ih => rw [List.any_cons, List.any_cons, ih, hroute.text]

theorem find?_clashing (h : router.Alike R other) (pattern : Routing.Pattern) :
    Option.Rel (Route.Alike R) (router.routes.find? (·.pattern.clashesWith pattern))
      (other.routes.find? (·.pattern.clashesWith pattern)) := by
  unfold Router.Alike at h
  generalize router.routes = routes, other.routes = routes' at h ⊢
  induction h with
  | nil => exact .none
  | @cons route route' _ _ hroute _ ih =>
    rw [List.find?_cons, List.find?_cons, hroute.pattern]
    cases route'.pattern.clashesWith pattern with
    | true => exact .some hroute
    | false => exact ih

/-- A further service for the route with a text is refused in both tables or in none. -/
theorem merge {service : Call → α} {service' : Call → β} (h : router.Alike R other)
    (hservice : ServicesAlike R service service') (text : String) (verb : Verb) :
    InsertedAlike R ((Router.merge text verb service router.routes).map Router.mk)
      ((Router.merge text verb service' other.routes).map Router.mk) := by
  obtain ⟨routes⟩ := router
  obtain ⟨routes'⟩ := other
  unfold Router.Alike at h
  dsimp only at h ⊢
  induction h with
  | nil => exact .inserted .nil
  | @cons route route' routes routes' hroute hrest ih =>
    unfold Router.merge
    rw [hroute.text]
    split
    -- the verb is taken in both routes or free in both
    · have htaken : (route.service? verb).isSome = (route'.service? verb).isSome := by
        have hservices := hroute.service? verb
        generalize route.service? verb = s?, route'.service? verb = t? at hservices ⊢
        cases hservices <;> rfl
      rw [htaken]
      split
      · exact .refused _
      · refine .inserted (.cons ⟨rfl, hroute.pattern, ?_⟩ hrest)
        exact List.rel_append hroute.services (.cons ⟨rfl, hservice⟩ .nil)
    -- the route with the text comes later: what became of the rest decides
    · generalize Router.merge text verb service routes = merged,
        Router.merge text verb service' routes' = merged' at ih ⊢
      cases merged with
      | error error =>
        cases merged' with
        | error error' =>
          cases ih
          exact .refused _
        | ok _ => cases ih
      | ok _ =>
        cases merged' with
        | error _ => cases ih
        | ok _ =>
          obtain _ | htail := ih
          exact .inserted (.cons hroute htail)

/-- A further service is refused in both tables, for the same reason, or in none. -/
theorem insert {service : Call → α} {service' : Call → β} (h : router.Alike R other)
    (hservice : ServicesAlike R service service') (verb : Verb) (text : String) :
    InsertedAlike R (router.insert verb text service) (other.insert verb text service') := by
  unfold Router.insert
  cases Routing.Pattern.ofText? text with
  | none => exact .refused _
  | some pattern =>
    dsimp only
    rw [h.any_text]
    split
    · exact h.merge hservice text verb
    · have hfind := h.find?_clashing pattern
      generalize router.routes.find? (·.pattern.clashesWith pattern) = r?,
        other.routes.find? (·.pattern.clashesWith pattern) = r'? at hfind ⊢
      cases hfind with
      | none =>
        refine .inserted (List.rel_append h (.cons ⟨rfl, rfl, ?_⟩ .nil))
        exact .cons ⟨rfl, hservice⟩ .nil
      | some hroute =>
        simp only [hroute.text]
        exact .refused _

end Router.Alike

/-- Every table is like itself where every answer is related to itself. -/
theorem Router.alike_self {R : α → α → Prop} (hR : ∀ answer, R answer answer)
    (router : Router α) : router.Alike R router := by
  refine List.forall₂_same.2 fun route _ => ⟨rfl, rfl, ?_⟩
  exact List.forall₂_same.2 fun entry _ => ⟨rfl, fun call => hR (entry.2 call)⟩

end

end IdentityProvider
