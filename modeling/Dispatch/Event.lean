/-!
# Reported events

What happens during registration and dispatch is reported as events, each of a
severity and with named fields in text form.
-/

namespace Dispatch

inductive Severity where
  | error
  | warn
  | info
  | debug
  | trace
  deriving DecidableEq

namespace Severity

/-- Zero for the most severe. -/
def rank : Severity → Nat
  | .error => 0
  | .warn => 1
  | .info => 2
  | .debug => 3
  | .trace => 4

def name : Severity → String
  | .error => "ERROR"
  | .warn => "WARN"
  | .info => "INFO"
  | .debug => "DEBUG"
  | .trace => "TRACE"

/-- The severity of a name in any case. -/
def ofName? (name : String) : Option Severity :=
  [.error, .warn, .info, .debug, .trace].find? fun severity =>
    severity.name = name.toUpper

end Severity

inductive Event where
  | routeConflict (route existing : String)
  | routeShadowed (route : String)
  | routeRegistered (route : String) (id : Nat)
  | middlewareAdded (label id : String)
  | chainCompiled (key : String) (steps : Nat)
  | routeMatched (route : String)
  | dispatched (method path : String) (status : Nat)
  | poolFull (maxIdle : Nat)
  | internalError (method path error : String)
  deriving DecidableEq

namespace Event

def severity : Event → Severity
  | .routeConflict .. | .routeShadowed .. => .warn
  | .routeRegistered .. | .middlewareAdded .. | .chainCompiled .. => .debug
  | .routeMatched .. | .dispatched .. | .poolFull .. => .trace
  | .internalError .. => .error

def message : Event → String
  | .routeConflict .. => "route conflicts with an earlier registration"
  | .routeShadowed .. => "route is shadowed by an earlier registration"
  | .routeRegistered .. => "registered route"
  | .middlewareAdded .. => "added global middleware"
  | .chainCompiled .. => "compiled middleware chain"
  | .routeMatched .. => "matched route"
  | .dispatched .. => "dispatched request"
  | .poolFull .. => "pool full, discarding released value"
  | .internalError .. => "internal error during dispatch"

def fields : Event → List (String × String)
  | .routeConflict route existing =>
    [("route", route), ("existing", existing)]
  | .routeShadowed route => [("route", route)]
  | .routeRegistered route id => [("route", route), ("id", toString id)]
  | .middlewareAdded label id => [("middleware", label), ("id", id)]
  | .chainCompiled key steps => [("key", key), ("steps", toString steps)]
  | .routeMatched route => [("route", route)]
  | .dispatched method path status =>
    [("method", method), ("path", path), ("status", toString status)]
  | .poolFull maxIdle => [("max_idle", toString maxIdle)]
  | .internalError method path error =>
    [("method", method), ("path", path), ("error", error)]

/-- The events that are at least as severe as a level, if there is one. -/
def atLeast (level : Option Severity) (events : List Event) : List Event :=
  events.filter fun event => level.any fun level =>
    event.severity.rank ≤ level.rank

end Event
end Dispatch
