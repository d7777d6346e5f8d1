import IdentityProvider.Http.Request
import IdentityProvider.Http.Response
import IdentityProvider.Log.Event
import IdentityProvider.Routing.Pattern

/-
  Routers.

  A router is a table of routes; a route has a pattern and a service for each method it knows.  Of
  the routes whose patterns match a path the one with the greatest weights is in charge.  A table
  is built up route by route, and a route that does not fit is refused; the routes of one table
  can be put into another below a start of the path, and the services then see the path without
  it.
-/

namespace IdentityProvider

/-- The methods that a route can have a service for. -/
inductive Verb
  | get
  | head
  | post
  | put
  | delete
  | patch
  | options
  | trace
  | connect
  deriving DecidableEq, Repr

namespace Verb

/-- The name of a method in a request. -/
def name : Verb → String
  | .get => "GET"
  | .head => "HEAD"
  | .post => "POST"
  | .put => "PUT"
  | .delete => "DELETE"
  | .patch => "PATCH"
  | .options => "OPTIONS"
  | .trace => "TRACE"
  | .connect => "CONNECT"

/-- All verbs. -/
def all : List Verb := [.get, .head, .post, .put, .delete, .patch, .options, .trace, .connect]

/-- The verb with exactly this name. -/
def ofName? (name : String) : Option Verb := all.find? (·.name = name)

/-- The verbs whose services answer a method, each going before the next: where there is no service
for heads, a request for the head alone is one for the whole. -/
def serving (method : String) : List Verb :=
  if method = "HEAD" then [.head, .get] else (ofName? method).toList

/-- The methods that a verb serves. -/
def served : Verb → List String
  | .get => ["GET", "HEAD"]
  | v => [v.name]

end Verb

/-- A request for which a route is in charge, with what the captures of its pattern take. -/
structure Call where
  request : Request
  captures : Routing.Captures
  deriving DecidableEq, Repr

/-- A route: its pattern, in writing and read, and the service for each verb, in the order in
which they were put in. -/
structure Route (α : Type) where
  text : String
  pattern : Routing.Pattern
  services : List (Verb × (Call → α))

/-- Why a route cannot be put into a table. -/
inductive RouteError
  /-- The text writes no pattern. -/
  | malformed (text : String)
  /-- The pattern cannot stand beside that of another route. -/
  | conflicting (text other : String)
  /-- The route has a service for this verb. -/
  | overlapping (verb : Verb) (text : String)
  /-- No routes can be put below this text. -/
  | unnestable (start : String)
  deriving DecidableEq, Repr

/-- A table of routes. -/
structure Router (α : Type) where
  routes : List (Route α)

/-- The answer of a router. -/
inductive Reply (α : Type)
  | served (answer : α)
  /-- No pattern matches. -/
  | notFound
  /-- The route in charge knows only these methods. -/
  | notAllowed (methods : List String)

namespace Route

/-- The service for a verb. -/
def service? (route : Route α) (verb : Verb) : Option (Call → α) := route.services.lookup verb

/-- The service that answers a method. -/
def answering? (route : Route α) (method : String) : Option (Call → α) :=
  (Verb.serving method).findSome? route.service?

/-- The methods that the route serves. -/
def methods (route : Route α) : List String := route.services.flatMap (·.1.served)

/-- The route with every service changed in the same way. -/
def map (f : (Call → α) → Call → β) (route : Route α) : Route β :=
  ⟨route.text, route.pattern, route.services.map fun (verb, service) => (verb, f service)⟩

end Route

namespace Router

/-- The table without routes. -/
def empty : Router α := ⟨[]⟩

/-- The table with another service for the route with this text. -/
def merge (text : String) (verb : Verb) (service : Call → α) :
    List (Route α) → Except RouteError (List (Route α))
  | [] => .ok []
  | route :: routes =>
    if route.text = text then
      if (route.service? verb).isSome then .error (.overlapping verb text)
      else .ok ({ route with services := route.services ++ [(verb, service)] } :: routes)
    else (merge text verb service routes).map (route :: ·)

/-- The table with a service for the verb at the paths that the text writes. -/
def insert (router : Router α) (verb : Verb) (text : String) (service : Call → α) :
    Except RouteError (Router α) :=
  match Routing.Pattern.ofText? text with
  | none => .error (.malformed text)
  | some pattern =>
    if router.routes.any (·.text = text) then
      (merge text verb service router.routes).map Router.mk
    else match router.routes.find? (·.pattern.clashesWith pattern) with
      | some other => .error (.conflicting text other.text)
      | none => .ok ⟨router.routes ++ [⟨text, pattern, [(verb, service)]⟩]⟩

/-- The table with all these services put in, one after the other. -/
def insertAll (router : Router α) (entries : List (Verb × String × (Call → α))) :
    Except RouteError (Router α) :=
  entries.foldlM (fun r e => r.insert e.1 e.2.1 e.2.2) router

/-- The services of a table with their verbs and texts. -/
def entries (router : Router α) : List (Verb × String × (Call → α)) :=
  router.routes.flatMap fun route => route.services.map fun (verb, service) =>
    (verb, route.text, service)

/-- The table with every service changed in the same way. -/
def layer (f : (Call → α) → Call → β) (router : Router α) : Router β :=
  ⟨router.routes.map (·.map f)⟩

/-- Whether a written segment takes all the rest of a path. -/
def takesRest (segment : List Char) : Bool :=
  ['{', '*'].isPrefixOf segment && ['}'].isSuffixOf segment &&
    ['}', '}'].isSuffixOf segment = false

/-- Whether routes can be put below a text. -/
def isNestable (start : List Char) : Bool :=
  start.head? = some '/' && 1 < start.length && !(Text.splitOn '/' start).any takesRest

/-- The text of a route below a start.  The slash between the two is not doubled, and the root
below a start is the start itself. -/
def below (start text : List Char) : List Char :=
  if start.getLast? = some '/' then start ++ text.dropWhile (· = '/')
  else if text = ['/'] then start
  else start ++ text

/-- How many segments a start has. -/
def depth (start : List Char) : Nat :=
  let slashes := start.count '/'
  if start.getLast? = some '/' then slashes - 1 else slashes

/-- A path without its first segments. -/
def dropSegments : Nat → List Char → List Char
  | n + 1, '/' :: path => dropSegments n (path.dropWhile (· ≠ '/'))
  | _, path => path

/-- A path without its first segments; where none is left, the root. -/
def strip (n : Nat) (path : String) : String :=
  match dropSegments n path.toList with
  | [] => "/"
  | rest => String.ofList rest

/-- A service that sees the path without its first segments. -/
def stripped (n : Nat) (service : Call → α) : Call → α := fun call =>
  service { call with request := { call.request with path := strip n call.request.path } }

/-- The table with the routes of another put below a start. -/
def nest (router : Router α) (start : String) (inner : Router α) : Except RouteError (Router α) :=
  if isNestable start.toList then
    router.insertAll (inner.entries.map fun (verb, text, service) =>
      (verb, String.ofList (below start.toList text.toList),
        stripped (depth start.toList) service))
  else .error (.unnestable start)

/-- A route that matches a path, with what its captures take. -/
abbrev Candidate (α : Type) := Route α × Routing.Captures

/-- The routes that match a path. -/
def candidates (router : Router α) (path : String) : List (Candidate α) :=
  router.routes.filterMap fun route => (route.pattern.matchPath path).map (route, ·)

/-- Of two candidates the one with the greater weights. -/
def better (a b : Candidate α) : Candidate α :=
  if a.1.pattern.weights < b.1.pattern.weights then b else a

/-- The route in charge of a path, with what its captures take. -/
def find? (router : Router α) (path : String) : Option (Candidate α) :=
  match router.candidates path with
  | [] => none
  | c :: cs => some (cs.foldl better c)

/-- What a router answers. -/
def serve (router : Router α) (request : Request) : Reply α :=
  match router.find? request.path with
  | none => .notFound
  | some (route, captures) =>
    match route.answering? request.method with
    | some service => .served (service ⟨request, captures⟩)
    | none => .notAllowed route.methods

end Router

namespace Reply

/-- The reply with another answer. -/
def map (f : α → β) : Reply α → Reply β
  | .served answer => .served (f answer)
  | .notFound => .notFound
  | .notAllowed methods => .notAllowed methods

/-- What the answer of a service holds, if a service answered. -/
def answer? : Reply α → Option α
  | .served answer => some answer
  | .notFound => none
  | .notAllowed _ => none

/-- The response to a request: that of a service, where it may have a body, or the router's own. -/
def response (request : Request) : Reply Response → Response
  | .served response =>
    if response.isBodiless request.method then response.withoutBody else response
  | .notFound => .ofStatus Status.notFound
  | .notAllowed methods =>
    { Response.ofStatus Status.methodNotAllowed with
      headers := [("allow", String.intercalate "," methods)] }

end Reply

end IdentityProvider
