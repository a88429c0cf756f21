import Dispatch.Exchange

/-!
# What handlers do

A handler computes on its exchange, and now and then passes control: to the
next step of the running chain, to a chain of its own, or to a reset.  Between
two such points it is a function, so a handler's run is a tree.  A node holds
the exchange as the handler leaves it, and a branch for each exchange that it
may find when control comes back.

Running a tree needs what is left of the chain.  `Pending` is that, as the
effect of entering the next step.  A tree has no infinite branch, so every run
ends.
-/

namespace Dispatch

/-- What a handler may change: its exchange, and state outside of it. -/
structure Scope (ε σ : Type) where
  exchange : Exchange ε
  outside : σ

/-- Branches are given the number of steps entered so far, and the scope. -/
inductive Program (ε σ : Type) where
  | done (scope : Scope ε σ)
  | panic (scope : Scope ε σ) (message : String)
  /-- Invokes the next step of the running chain. -/
  | next (scope : Scope ε σ) (resume : Nat → Scope ε σ → Program ε σ)
  /-- Runs a chain of `length` steps in place of the running one. -/
  | run (scope : Scope ε σ) (length : Nat)
      (step : Nat → Nat → Scope ε σ → Program ε σ)
      (resume : Nat → Scope ε σ → Program ε σ)
  /-- Clears the exchange and leaves no chain. -/
  | reset (scope : Scope ε σ) (resume : Nat → Scope ε σ → Program ε σ)

variable {ε σ : Type}

/-- How control comes back. -/
structure Outcome (ε σ : Type) where
  scope : Scope ε σ
  /-- The number of steps entered of the chain that was run last. -/
  cursor : Nat
  panic : Option String := none

/-- What is left of the running chain. -/
inductive Pending (ε σ : Type) where
  | exhausted
  | ready (enter : Nat → Scope ε σ → Outcome ε σ × Pending ε σ)

namespace Pending

/-- A chain of steps, each given as its effect when the rest is pending. -/
def ofSteps
    (steps : List (Nat → Scope ε σ → Pending ε σ → Outcome ε σ × Pending ε σ)) :
    Pending ε σ :=
  steps.foldr (fun step rest => .ready fun cursor scope => step cursor scope rest)
    .exhausted

/-- Enters the next step, unless there is none, or some step was entered and
the exchange is halted. -/
def next (pending : Pending ε σ) (cursor : Nat) (scope : Scope ε σ) :
    Outcome ε σ × Pending ε σ :=
  match pending with
  | .exhausted => ({ scope, cursor }, .exhausted)
  | .ready enter =>
    if 0 < cursor ∧ scope.exchange.Halted then ({ scope, cursor }, pending)
    else enter (cursor + 1) scope

end Pending

namespace Program

def exec : Program ε σ → Nat → Pending ε σ → Outcome ε σ × Pending ε σ
  | .done scope, cursor, pending => ({ scope, cursor }, pending)
  | .panic scope message, cursor, pending =>
    ({ scope, cursor, panic := some message }, pending)
  | .next scope resume, cursor, pending =>
    let (outcome, pending) := pending.next cursor scope
    match outcome.panic with
    | some _ => (outcome, pending)
    | none =>
      (resume outcome.cursor outcome.scope).exec outcome.cursor pending
  | .run scope length step resume, _, _ =>
    let pending := Pending.ofSteps ((List.range length).map
      fun index cursor scope rest => (step index cursor scope).exec cursor rest)
    let (outcome, pending) := pending.next 0 scope
    match outcome.panic with
    | some _ => (outcome, pending)
    | none =>
      (resume outcome.cursor outcome.scope).exec outcome.cursor pending
  | .reset scope resume, _, _ =>
    let scope := { scope with exchange := scope.exchange.reset }
    (resume 0 scope).exec 0 .exhausted

end Program

/-! ## Scripts -/

/-- The text of a handler: a program given what comes after it. -/
def Script (ε σ α : Type) : Type :=
  (α → Nat → Scope ε σ → Program ε σ) → Nat → Scope ε σ → Program ε σ

namespace Script

variable {α β : Type}

instance : Monad (Script ε σ) where
  pure a := fun resume => resume a
  bind script f := fun resume => script fun a => f a resume

def exchange : Script ε σ (Exchange ε) :=
  fun resume cursor scope => resume scope.exchange cursor scope

/-- The number of steps entered of the running chain. -/
def cursor : Script ε σ Nat :=
  fun resume cursor scope => resume cursor cursor scope

def modify (change : Exchange ε → Exchange ε) : Script ε σ Unit :=
  fun resume cursor scope =>
    resume () cursor { scope with exchange := change scope.exchange }

def modifyOutside (change : σ → σ) : Script ε σ Unit :=
  fun resume cursor scope =>
    resume () cursor { scope with outside := change scope.outside }

def panic (message : String) : Script ε σ α :=
  fun _ _ scope => .panic scope message

/-- Sets status, content type and body at once.  A content type that is not
visible text is a bug of the handler: it panics, with the status set. -/
def respond (status : Status) (contentType : String) (body : Bytes) :
    Script ε σ Unit :=
  match HeaderValue.ofVisibleText? contentType with
  | some value => modify (·.respond status value body)
  | none => do
    modify ({ · with status })
    panic "HeaderValue::from_static with invalid bytes"

/-- Hands over to the next step of the chain, and goes on when it is back. -/
def next : Script ε σ Unit :=
  fun resume _ scope => .next scope (resume ())

def reset : Script ε σ Unit :=
  fun resume _ scope => .reset scope (resume ())

/-- The program of a whole script. -/
def program (script : Script ε σ Unit) (cursor : Nat) (scope : Scope ε σ) :
    Program ε σ :=
  script (fun _ _ scope => .done scope) cursor scope

end Script
end Dispatch
