import Dispatch.Router

/-!
# Serving requests

A request is loaded into a pooled context, its route is looked up, the chain of
the route is run, and a failure, or an error status without one, is given to
the error handler.  The context goes back to its pool also if a handler panics.
-/

namespace Dispatch

variable {ε σ : Type}

namespace Router

/-! ## The chain of an answer -/

/-- The entry that serves what was looked up. -/
def entryOf (router : Router ε σ) : Lookup (Entry ε σ) → Entry ε σ
  | .found route => route.value
  | .methodNotAllowed _ => router.methodNotAllowed
  | .notFound => router.notFound

/-- Keeps a chain with the entry that it was compiled for. -/
def pin (router : Router ε σ) (answer : Lookup (Entry ε σ))
    (chain : Chain ε σ) : Router ε σ :=
  let keep (entry : Entry ε σ) : Entry ε σ := { entry with chain := some chain }
  match answer with
  | .found route => { router with table := router.table.modify route.id keep }
  | .methodNotAllowed _ =>
    { router with methodNotAllowed := keep router.methodNotAllowed }
  | .notFound => { router with notFound := keep router.notFound }

/-- The key of the chain of an entry. -/
def keyOf (router : Router ε σ) (entry : Entry ε σ) : ChainKey :=
  .ofParts router.middlewareIds entry.ids

/-- The chain that serves an answer: the one kept with the entry, or the one
in the cache, or a new one. -/
def chainFor (router : Router ε σ) (answer : Lookup (Entry ε σ)) :
    Chain ε σ × Router ε σ × List Event :=
  let entry := router.entryOf answer
  match entry.chain with
  | some chain => (chain, router, [])
  | none =>
    let key := router.keyOf entry
    let got := router.chains.getOrBuild key fun cache =>
      (.compile key router.middleware entry.handlers, cache)
    let router := { router with chains := got.cache }.pin answer got.chain
    let events :=
      if got.built then [Event.chainCompiled key.toText got.chain.length]
      else []
    (got.chain, router, events)

/-- What an exchange shows of the answer before its chain runs. -/
def prepare (answer : Lookup (Entry ε σ)) (exchange : Exchange ε) :
    Exchange ε :=
  match answer with
  | .methodNotAllowed allow =>
    let exchange :=
      match HeaderValue.ofText? allow.headerValue with
      | some value => exchange.setHeader .allow value
      | none => exchange
    { exchange with allow }
  | _ => exchange

def matchEvents : Lookup (Entry ε σ) → List Event
  | .found route => [.routeMatched route.pattern.toText]
  | _ => []

/-! ## After the chain -/

/-- The failure to be handled: the recorded one, or else that of an error
status.  No failure is left recorded. -/
def pendingFailure (exchange : Exchange ε) : Option Failure × Exchange ε :=
  let (failure, exchange) := exchange.takeFailure
  match failure with
  | some failure => (some failure, exchange)
  | none =>
    if exchange.status.IsError then
      (some (.ofStatus exchange.status), exchange)
    else (none, exchange)

def failureEvents (exchange : Exchange ε) (failure : Failure) : List Event :=
  if failure.isInternal then
    [.internalError exchange.request.method.name exchange.request.path
      failure.message]
  else []

def stripBody (settings : Settings) (exchange : Exchange ε) : Exchange ε :=
  if settings.stripHeadBody ∧ exchange.request.method = .head then
    { exchange with responseBody := [] }
  else exchange

/-- A run with what it reported. -/
structure Report (ε σ : Type) where
  result : Context.Result ε σ
  events : List Event

/-- Has a failure handled, and strips the body of an answer to HEAD. -/
def finish (router : Router ε σ) (context : Context ε σ) (outside : σ) :
    Report ε σ :=
  let strip (context : Context ε σ) : Context ε σ :=
    context.modify (stripBody router.settings)
  match pendingFailure context.exchange with
  | (none, _) =>
    { result := { context := strip context, outside, panic := none }
      events := [] }
  | (some failure, exchange) =>
    let context := { context with exchange }
    let result := context.perform outside (router.errorHandler failure)
    let context :=
      if result.panic.isSome then result.context else strip result.context
    { result := { result with context }
      events := failureEvents exchange failure }

/-! ## Dispatch -/

/-- What is left once a request was processed: its context, which is still to
go back to the pool. -/
structure Processed (ε σ : Type) where
  router : Router ε σ
  report : Report ε σ

def dispatchedEvent (exchange : Exchange ε) : Event :=
  .dispatched exchange.request.method.name exchange.request.path
    exchange.status.code

/-- Runs a chain over a context, and then the error handler if need be. -/
def serve (router : Router ε σ) (context : Context ε σ) (outside : σ)
    (chain : Chain ε σ) : Report ε σ :=
  let ran := context.run outside chain
  if ran.panic.isSome then { result := ran, events := [] }
  else
    let report := router.finish ran.context ran.outside
    if report.result.panic.isSome then report
    else
      { report with
        events := report.events ++
          [dispatchedEvent report.result.context.exchange] }

def process (router : Router ε σ) (request : Request) (outside : σ) :
    Processed ε σ :=
  let (context, contexts) := router.pools.contexts.acquire
  let router := { router with pools := { router.pools with contexts } }
  let exchange := context.exchange.load request
  let (answer, captures) :=
    router.table.lookup request.method request.path exchange.captures
  let (chain, router, compiled) := router.chainFor answer
  let exchange := prepare answer { exchange with captures }
  let report := router.serve { context with exchange } outside chain
  { router
    report := { report with
      events := matchEvents answer ++ compiled ++ report.events } }

/-- Gives a context back to the pool. -/
def release (router : Router ε σ) (context : Context ε σ) : Router ε σ :=
  { router with
    pools := { router.pools with
      contexts := router.pools.contexts.release context } }

/-- What comes of a dispatch: a response, or the message of a panic. -/
structure Dispatched (ε σ : Type) where
  router : Router ε σ
  outside : σ
  result : Except String Response
  events : List Event

/-- Takes the response, unless a panic ended the run, and gives the context
back. -/
def Processed.conclude (processed : Processed ε σ)
    (take : Exchange ε → Response × Exchange ε) : Dispatched ε σ :=
  let ended := processed.report.result
  let events := processed.report.events ++
    processed.router.pools.contexts.releaseEvents
  match ended.panic with
  | some message =>
    { router := processed.router.release ended.context
      outside := ended.outside
      result := .error message
      events }
  | none =>
    let (response, exchange) := take ended.context.exchange
    { router := processed.router.release { ended.context with exchange }
      outside := ended.outside
      result := .ok response
      events }

def dispatch (router : Router ε σ) (request : Request) (outside : σ) :
    Dispatched ε σ :=
  (router.process request outside).conclude Exchange.takeResponse

/-- Dispatches into a response that the caller keeps.  It stays as it is if a
handler panics. -/
def dispatchInto (router : Router ε σ) (request : Request) (outside : σ)
    (kept : Response) : Dispatched ε σ × Response :=
  let dispatched :=
    (router.process request outside).conclude (·.takeResponseInto kept)
  (dispatched, dispatched.result.toOption.getD kept)

/-! ## Resolving -/

/-- What a request would be matched with. -/
inductive Resolution where
  | matched (pattern : Pattern) (captures : Captures)
  | methodNotAllowed (allow : AllowList)
  | notFound

structure Resolved (ε σ : Type) where
  router : Router ε σ
  resolution : Resolution
  events : List Event

/-- Looks a request up without serving it. -/
def resolve (router : Router ε σ) (method : Method) (target : String) :
    Resolved ε σ :=
  let (store, pool) := router.pools.captures.acquire
  let (answer, captures) := router.table.lookup method target store
  { router := { router with
      pools := { router.pools with captures := pool.release captures } }
    resolution :=
      match answer with
      | .found route => .matched route.pattern captures
      | .methodNotAllowed allow => .methodNotAllowed allow
      | .notFound => .notFound
    events := pool.releaseEvents }

end Router
end Dispatch
