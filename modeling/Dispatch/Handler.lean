import Dispatch.Program

/-!
# Handlers and their registry

Middleware and route handlers are of one kind.  A handler has an identity,
which its copies share and which tells it from every other handler, even one
that does the same.  The registry numbers handlers in the order in which it
first meets them.
-/

namespace Dispatch

inductive HandlerIdentity where
  /-- The handler that a router begins with for unknown paths. -/
  | notFound
  /-- The handler that a router begins with for refused methods. -/
  | methodNotAllowed
  | custom (key : Nat)
  deriving DecidableEq

structure Handler (ε σ : Type) where
  identity : HandlerIdentity
  label : Option String := none
  body : Nat → Scope ε σ → Program ε σ

variable {ε σ : Type}

namespace Handler

def ofScript (identity : HandlerIdentity) (label : Option String)
    (script : Script ε σ Unit) : Handler ε σ :=
  { identity, label, body := script.program }

/-- The label as it is shown. -/
def shownLabel (handler : Handler ε σ) : String :=
  handler.label.getD "<anonymous>"

def SameAs (a b : Handler ε σ) : Prop := a.identity = b.identity

instance (a b : Handler ε σ) : Decidable (a.SameAs b) :=
  inferInstanceAs (Decidable (_ = _))

def describe (handler : Handler ε σ) : String :=
  "Handler \x7b name: " ++ Text.quoted handler.shownLabel ++ ", .. \x7d"

end Handler

structure HandlerId where
  number : Nat
  deriving DecidableEq

namespace HandlerId

def toText (id : HandlerId) : String := s!"h{id.number}"

def describe (id : HandlerId) : String := s!"HandlerId({id.number})"

end HandlerId

structure HandlerRegistry (ε σ : Type) where
  ids : List (HandlerIdentity × HandlerId) := []
  handlers : List (Handler ε σ) := []

namespace HandlerRegistry

def empty : HandlerRegistry ε σ := {}

def idOf? (registry : HandlerRegistry ε σ) (handler : Handler ε σ) :
    Option HandlerId :=
  registry.ids.lookup handler.identity

/-- The number of a handler, which is the next free one if it is new. -/
def register (registry : HandlerRegistry ε σ) (handler : Handler ε σ) :
    HandlerId × HandlerRegistry ε σ :=
  match registry.idOf? handler with
  | some id => (id, registry)
  | none =>
    let id : HandlerId := ⟨registry.handlers.length⟩
    (id, { ids := registry.ids ++ [(handler.identity, id)]
           handlers := registry.handlers ++ [handler] })

def registerAll (registry : HandlerRegistry ε σ) :
    List (Handler ε σ) → List HandlerId × HandlerRegistry ε σ
  | [] => ([], registry)
  | handler :: rest =>
    let (id, registry) := registry.register handler
    let (ids, registry) := registry.registerAll rest
    (id :: ids, registry)

end HandlerRegistry
end Dispatch
