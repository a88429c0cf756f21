import Dispatch.Proofs.Router.Serving
import Dispatch.Router.Group
import Mathlib.Tactic

/-!
# Sessions with a router

A session is a router with the groups that are open on it.  Groups are opened
inside each other; a route is registered through the innermost one, or directly
if none is open.  Registration, middleware, the handlers for unmatched requests
and visits come in any order.

A journal is kept beside a session.  It is written from the operations alone,
and of the router it notes only under which number a route was accepted.  The
middleware in force at a registration is that of the open groups, outermost
first.
-/

namespace Dispatch

variable {ε σ : Type}

inductive Operation (ε σ : Type) where
  | openGroup (base : String)
  | closeGroup
  /-- Adds middleware to the innermost open group. -/
  | useInGroup (handlers : List (Handler ε σ))
  /-- No method stands for every method. -/
  | register (method : Option Method) (template : String)
      (handlers : List (Handler ε σ))
  | useMiddleware (handlers : List (Handler ε σ))
  | setNotFound (handler : Handler ε σ)
  | setMethodNotAllowed (handler : Handler ε σ)
  | setErrorHandler (handler : ErrorHandler ε σ)
  | visit (visit : Visit σ)

namespace Operation

/-- The handlers that an operation brings in. -/
def handlers : Operation ε σ → List (Handler ε σ)
  | .useInGroup handlers | .register _ _ handlers | .useMiddleware handlers =>
    handlers
  | .setNotFound handler | .setMethodNotAllowed handler => [handler]
  | .openGroup _ | .closeGroup | .setErrorHandler _ | .visit _ => []

/-- The handlers that a router has to do with: those that it begins with, and
those that operations bring in. -/
def allHandlers (operations : List (Operation ε σ)) : Set (Handler ε σ) :=
  { handler | handler = .notFound ∨ handler = .methodNotAllowed ∨
      ∃ operation ∈ operations, handler ∈ operation.handlers }

/-- Identities tell the handlers of operations apart if each is named by its
own. -/
theorem injOn_allHandlers {operations : List (Operation ε σ)}
    {named : HandlerIdentity → Handler ε σ} (hnotFound : named .notFound = .notFound)
    (hmethodNotAllowed : named .methodNotAllowed = .methodNotAllowed)
    (hnamed : ∀ handler ∈ operations.flatMap handlers,
      named handler.identity = handler) :
    Set.InjOn Handler.identity (allHandlers operations) := by
  have hinverse : Set.LeftInvOn named Handler.identity
      (allHandlers operations) := by
    intro handler hhandler
    rcases hhandler with hfirst | hsecond | hbrought
    · rw [hfirst]
      exact hnotFound
    · rw [hsecond]
      exact hmethodNotAllowed
    · exact hnamed handler (List.mem_flatMap.mpr hbrought)
  exact hinverse.injOn

end Operation

structure Session (ε σ : Type) where
  router : Router ε σ
  /-- The innermost is first. -/
  groups : List (RouteGroup ε σ) := []

namespace Session

def ofSettings (settings : Settings) : Session ε σ :=
  { router := .ofSettings settings }

def openGroup (session : Session ε σ) (base : String) : RouteGroup ε σ :=
  match session.groups with
  | [] => .ofBase base
  | group :: _ => group.nested base

def register (session : Session ε σ) (method : Option Method)
    (template : String) (handlers : List (Handler ε σ)) :
    Router.Registration ε σ :=
  match session.groups with
  | [] => session.router.register method template handlers
  | group :: _ => group.register session.router method template handlers

def apply (session : Session ε σ) : Operation ε σ → Session ε σ
  | .openGroup base =>
    { session with groups := session.openGroup base :: session.groups }
  | .closeGroup => { session with groups := session.groups.tail }
  | .useInGroup handlers =>
    { session with
      groups := session.groups.modifyHead (·.useMiddleware handlers) }
  | .register method template handlers =>
    { session with router := (session.register method template handlers).router }
  | .useMiddleware handlers =>
    { session with router := (session.router.useMiddleware handlers).1 }
  | .setNotFound handler =>
    { session with router := session.router.setNotFound handler }
  | .setMethodNotAllowed handler =>
    { session with router := session.router.setMethodNotAllowed handler }
  | .setErrorHandler handler =>
    { session with router := session.router.setErrorHandler handler }
  | .visit visit => { session with router := session.router.visit visit }

end Session

/-! ## The journal -/

/-- What a route was accepted with. -/
structure Accepted (ε σ : Type) where
  /-- The middleware of the open groups, outermost first. -/
  inherited : List (Handler ε σ)
  own : List (Handler ε σ)

structure Journal (ε σ : Type) where
  middleware : List (Handler ε σ) := []
  /-- What each open group was given itself, innermost first. -/
  groups : List (List (Handler ε σ)) := []
  routes : RouteId → Option (Accepted ε σ) := fun _ => none
  notFound : Handler ε σ := .notFound
  methodNotAllowed : Handler ε σ := .methodNotAllowed

namespace Journal

/-- The middleware that open groups put before a route. -/
def inForce (groups : List (List (Handler ε σ))) : List (Handler ε σ) :=
  groups.reverse.flatten

/-- Notes an operation that is about to be applied to a session. -/
def note (journal : Journal ε σ) (session : Session ε σ) :
    Operation ε σ → Journal ε σ
  | .openGroup _ => { journal with groups := [] :: journal.groups }
  | .closeGroup => { journal with groups := journal.groups.tail }
  | .useInGroup handlers =>
    { journal with groups := journal.groups.modifyHead (· ++ handlers) }
  | .register method template handlers =>
    match (session.register method template handlers).result with
    | .ok id =>
      let accepted : Accepted ε σ :=
        { inherited := inForce journal.groups, own := handlers }
      { journal with routes := Function.update journal.routes id accepted }
    | .error _ => journal
  | .useMiddleware handlers =>
    { journal with middleware := journal.middleware ++ handlers }
  | .setNotFound handler => { journal with notFound := handler }
  | .setMethodNotAllowed handler => { journal with methodNotAllowed := handler }
  | .setErrorHandler _ | .visit _ => journal

end Journal

/-- A session with its journal. -/
structure Run (ε σ : Type) where
  session : Session ε σ
  journal : Journal ε σ := {}

namespace Run

def apply (run : Run ε σ) (operation : Operation ε σ) : Run ε σ :=
  { session := run.session.apply operation
    journal := run.journal.note run.session operation }

def ofOperations (settings : Settings) (operations : List (Operation ε σ)) :
    Run ε σ :=
  operations.foldl apply { session := .ofSettings settings }

theorem ofOperations_concat (settings : Settings)
    (operations : List (Operation ε σ)) (operation : Operation ε σ) :
    ofOperations settings (operations ++ [operation]) =
      (ofOperations settings operations).apply operation := by
  simp [ofOperations]

end Run

/-! ## Registration -/

namespace Router

/-- All that comes of a registration: an error, and at most new numbers, or
one more route, whose handlers have their numbers. -/
theorem register_cases (router : Router ε σ) (method : Option Method)
    (template : String) (handlers : List (Handler ε σ)) :
    (∃ error, (router.register method template handlers).result =
        .error error ∧
      ((router.register method template handlers).router = router ∨
        (router.register method template handlers).router =
          { router with
            registry := (Entry.register handlers router.registry).2 })) ∨
    ∃ pattern : Pattern, pattern.Compiled ∧
      (router.register method template handlers).result =
        .ok router.table.routes.size ∧
      (router.register method template handlers).router =
        { router with
          registry := (Entry.register handlers router.registry).2
          table := router.table.push pattern
            (Entry.register handlers router.registry).1 } := by
  unfold register
  split_ifs with hempty
  · exact Or.inl ⟨_, rfl, Or.inl rfl⟩
  · cases hcompile : Pattern.compile template method with
    | error error => exact Or.inl ⟨_, rfl, Or.inl rfl⟩
    | ok pattern =>
        dsimp only
        cases hinsert : router.table.insert pattern
            (Entry.register handlers router.registry).1 with
        | error error => exact Or.inl ⟨_, rfl, Or.inr rfl⟩
        | ok inserted =>
            obtain ⟨table, id⟩ := inserted
            obtain ⟨rfl, rfl, _⟩ := RouteTable.insert_ok hinsert
            exact Or.inr ⟨pattern, ⟨template, method, hcompile⟩, rfl, rfl⟩

end Router

namespace Session

/-- The middleware that is put before the next route. -/
def inherited (session : Session ε σ) : List (Handler ε σ) :=
  match session.groups with
  | [] => []
  | group :: _ => group.middleware

/-- A registration is one on the router, under some template, or is refused
for want of handlers. -/
theorem register_eq (session : Session ε σ) (method : Option Method)
    (template : String) (handlers : List (Handler ε σ)) :
    (∃ error, session.register method template handlers =
        { router := session.router, result := .error error }) ∨
      ∃ full, session.register method template handlers =
        session.router.register method full (session.inherited ++ handlers) := by
  unfold register inherited
  cases session.groups with
  | nil => exact Or.inr ⟨template, rfl⟩
  | cons group outer =>
      unfold RouteGroup.register
      dsimp only
      split_ifs with hempty
      · exact Or.inl ⟨_, rfl⟩
      · exact Or.inr ⟨_, rfl⟩

end Session

end Dispatch
