import IdentityProvider.Catalog.Bundle
import IdentityProvider.Config
import IdentityProvider.Dispatch
import IdentityProvider.Endpoint

/-
  The server: routes in layers, built from the settings.

  A break-off becomes a raised failure, and a raised failure becomes the response that the
  dispatcher makes of it for the path that was sent.  All other responses are left as they are.

  Outside of these two layers the program has a third one, of the HTTP library, which traces each
  request: it opens a span around it and logs events of its own, under targets of its own, and it
  changes no response.  Neither the span nor these events are part of what is logged here.
-/

namespace IdentityProvider

/-- What was left behind, in words. -/
def Crash.text : Crash → String
  | .said text => "handler panicked: " ++ text
  | .unnamed => "handler panicked: unknown panic payload"

/-- The failure that a break-off amounts to. -/
def Crash.failure (crash : Crash) : Failure := .ofError crash.text

/-- The response of a service, with a break-off as a raised failure. -/
def Outcome.response : Outcome → Response
  | .answered response => response
  | .crashed crash => crash.failure.response

/-- A response, and what is logged on the way to it. -/
abbrev Logged := Response × List Log.Event

namespace Dispatcher

/-- The response that is sent in the place of one that may carry a raised failure. -/
def settle (dispatcher : Dispatcher) (path : String) (response : Response) : Logged :=
  match response.raised with
  | some failure => dispatcher.dispatch failure path
  | none => (response, [])

/-- A service with its layers around it. -/
def wrap (dispatcher : Dispatcher) (service : Call → Outcome) : Call → Logged := fun call =>
  dispatcher.settle call.request.sentPath (service call).response

end Dispatcher

/-- Routes in their layers, and the address at which they are to be served. -/
structure Server where
  router : Router Logged
  listenAddress : Address

/-- Why a server cannot be built. -/
inductive StartError
  | bundle (error : BundleError)
  /-- The health route does not fit the other routes. -/
  | route (error : RouteError)
  deriving DecidableEq, Repr

/-- Why a route is refused, in words. -/
def RouteError.text : RouteError → String
  | .malformed text => "no pattern: " ++ text
  | .conflicting text other => "conflicting patterns: " ++ text ++ " and " ++ other
  | .overlapping verb text => "a second service for " ++ verb.name ++ " " ++ text
  | .unnestable start => "no routes can be put below " ++ start

/-- Why a server cannot be built, in words. -/
def StartError.text (remark : Toml.Remark) : StartError → String
  | .bundle error => error.text remark
  | .route error => error.text

namespace Server

/-- The catalog with the bundle that the settings name, if they name one. -/
def withBundle (files : Files) (messages : Config.Messages) :
    Except BundleError Catalog × List Log.Event :=
  match messages.path with
  | some path => Catalog.builtin.withFile files path
  | none => (.ok .builtin, [])

/-- The catalog of the settings: the built-in texts, those of the bundle and those of the settings
themselves, the later ones going before the earlier. -/
def catalog (files : Files) (messages : Config.Messages) :
    Except BundleError Catalog × List Log.Event :=
  match withBundle files messages with
  | (.error error, events) => (.error error, events)
  | (.ok catalog, events) =>
    let catalog := catalog.overlay messages.entries
    (.ok catalog, events ++ [.catalogLoaded catalog.size])

/-- The routes with the health route, if it is on. -/
def withHealth (health : Config.Health) (routes : Router Outcome) :
    Except RouteError (Router Outcome) :=
  if health.enabled then routes.insert .get health.path Endpoint.health.run else .ok routes

/-- The server around the given routes, and what is logged while it is built. -/
def build (files : Files) (config : Config) (routes : Router Outcome) :
    Except StartError Server × List Log.Event :=
  match catalog files config.messages with
  | (.error error, events) => (.error (.bundle error), events)
  | (.ok catalog, events) =>
    match withHealth config.server.health routes with
    | .error error => (.error (.route error), events)
    | .ok routes =>
      (.ok ⟨routes.layer (Dispatcher.wrap ⟨config.dispatch, catalog⟩),
        config.server.listenAddress⟩, events)

/-- The server at another address. -/
def withListenAddress (server : Server) (address : Address) : Server :=
  { server with listenAddress := address }

end Server

namespace Router

/-- The router of a server put below a start, alone in another router. -/
def mount (start : String) (router : Router Logged) : Except RouteError (Router Logged) :=
  Router.empty.nest start router

/-- What a server's router sends in answer to a request, and what is logged. -/
def respond (router : Router Logged) (request : Request) : Logged :=
  let reply := router.serve request
  ((reply.map Prod.fst).response request, (reply.answer?.map Prod.snd).getD [])

end Router

end IdentityProvider
