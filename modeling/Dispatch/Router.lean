import Dispatch.Chain.Cache
import Dispatch.Envelope
import Dispatch.Settings

/-!
# Routers

A router owns the route table, the global middleware, the compiled chains and
the pools.  Each route, and each of the two answers to unmatched requests, is
an entry: its handlers, their numbers, and the chain that was compiled for it.
New middleware makes every chain void.

Handlers are numbered before a route is put into the table, so a route that is
refused there leaves its handlers known.
-/

namespace Dispatch

structure Entry (ε σ : Type) where
  handlers : List (Handler ε σ)
  ids : List HandlerId
  chain : Option (Chain ε σ) := none

inductive RegistrationError where
  | route (error : InsertError)
  | noHandlers (template : String)
  deriving DecidableEq

namespace RegistrationError

def kind : RegistrationError → String
  | .route error => error.kind
  | .noHandlers _ => "NoHandlers"

def message : RegistrationError → String
  | .route error => error.message
  | .noHandlers template => s!"route `{template}` has no handlers"

/-- What a registration that must not fail panics with. -/
def refusal (error : RegistrationError) : String :=
  s!"invalid route registration: {error.message}"

end RegistrationError

variable {ε σ : Type}

/-- What a router does with the failure of a request. -/
abbrev ErrorHandler (ε σ : Type) := Failure → Script ε σ Unit

/-! ## The handlers that a router begins with -/

namespace HeaderValue

def json : HeaderValue := ⟨Text.utf8 "application/json", by decide⟩

end HeaderValue

namespace Exchange

/-- Shows a failure as an envelope under its status.  A body that a handler
wrote under an error status of its own stays. -/
def showFailure (exchange : Exchange ε) (failure : Failure) : Exchange ε :=
  let shown := exchange.respond failure.status .json
    (Text.utf8 (Envelope.ofFailure failure).toJson)
  match failure with
  | .http status _ =>
    if status = exchange.status ∧ exchange.responseBody ≠ [] then exchange
    else shown
  | _ => shown

end Exchange

namespace Handler

def notFound : Handler ε σ :=
  .ofScript .notFound (some "not_found") (.modify fun exchange =>
    exchange.fail (.notFound exchange.request.path))

def methodNotAllowed : Handler ε σ :=
  .ofScript .methodNotAllowed (some "method_not_allowed") (.modify fun exchange =>
    exchange.fail (.methodNotAllowed exchange.allow))

end Handler

def ErrorHandler.showing : ErrorHandler ε σ :=
  fun failure => .modify (·.showFailure failure)

/-! ## The router -/

structure Router (ε σ : Type) where
  table : RouteTable (Entry ε σ)
  middleware : List (Handler ε σ) := []
  middlewareIds : List HandlerId := []
  registry : HandlerRegistry ε σ
  chains : ChainCache (Chain ε σ) := .empty
  notFound : Entry ε σ
  methodNotAllowed : Entry ε σ
  errorHandler : ErrorHandler ε σ := .showing
  pools : Pools ε σ
  settings : Settings

namespace Entry

/-- An entry whose handlers are numbered by a registry. -/
def register (handlers : List (Handler ε σ)) (registry : HandlerRegistry ε σ) :
    Entry ε σ × HandlerRegistry ε σ :=
  let (ids, registry) := registry.registerAll handlers
  ({ handlers, ids }, registry)

def forget (entry : Entry ε σ) : Entry ε σ := { entry with chain := none }

end Entry

namespace Router

def ofSettings (settings : Settings) : Router ε σ :=
  let (notFound, registry) := Entry.register [.notFound] .empty
  let (methodNotAllowed, registry) :=
    Entry.register [.methodNotAllowed] registry
  { table := {
      policy := settings.conflictPolicy
      decode := settings.decodeParams
    }
    registry, notFound, methodNotAllowed
    pools := .ofLimits settings.poolLimits
    settings }

/-! ### Registration -/

/-- What comes of a registration. -/
structure Registration (ε σ : Type) where
  router : Router ε σ
  result : Except RegistrationError RouteId
  events : List Event := []

/-- Registers a route.  No method stands for every method. -/
def register (router : Router ε σ) (method : Option Method) (template : String)
    (handlers : List (Handler ε σ)) : Registration ε σ :=
  if handlers.isEmpty then
    { router, result := .error (.noHandlers template) }
  else
    match Pattern.compile template method with
    | .error error => { router, result := .error (.route (.pattern error)) }
    | .ok pattern =>
      let (entry, registry) := Entry.register handlers router.registry
      let events := router.table.insertEvents pattern
      match router.table.insert pattern entry with
      | .error error =>
        { router := { router with registry }
          result := .error (.route error)
          events }
      | .ok (table, id) =>
        { router := { router with registry, table }, result := .ok id, events }

/-- Makes every chain void. -/
def forgetChains (router : Router ε σ) : Router ε σ :=
  { router with
    table := router.table.mapValues Entry.forget
    notFound := router.notFound.forget
    methodNotAllowed := router.methodNotAllowed.forget
    chains := .empty }

/-- Adds one handler to the global middleware. -/
def addMiddleware (router : Router ε σ) (handler : Handler ε σ) :
    Router ε σ × Event :=
  let (id, registry) := router.registry.register handler
  ({ router with
      registry
      middleware := router.middleware ++ [handler]
      middlewareIds := router.middlewareIds ++ [id] },
    .middlewareAdded handler.shownLabel id.toText)

/-- Adds global middleware, for routes registered before and after. -/
def useMiddleware (router : Router ε σ) (handlers : List (Handler ε σ)) :
    Router ε σ × List Event :=
  let (router, events) := handlers.foldl (fun (router, events) handler =>
      let (router, event) := router.addMiddleware handler
      (router, events ++ [event]))
    (router, [])
  (router.forgetChains, events)

def setNotFound (router : Router ε σ) (handler : Handler ε σ) : Router ε σ :=
  let (notFound, registry) := Entry.register [handler] router.registry
  { router with notFound, registry }

def setMethodNotAllowed (router : Router ε σ) (handler : Handler ε σ) :
    Router ε σ :=
  let (methodNotAllowed, registry) := Entry.register [handler] router.registry
  { router with methodNotAllowed, registry }

def setErrorHandler (router : Router ε σ) (handler : ErrorHandler ε σ) :
    Router ε σ :=
  { router with errorHandler := handler }

def describe (router : Router ε σ) : String :=
  let middleware := ", ".intercalate (router.middleware.map Handler.describe)
  s!"Router \x7b routes: {router.table.routes.size}, " ++
    s!"middleware: [{middleware}], chains: {router.chains.size}, " ++
    s!"config: {router.settings.describe}, .. \x7d"

end Router
end Dispatch
