import Dispatch.Handler

/-!
# Chains

A chain is the sequence of global middleware, group middleware and route
handlers of one route, keyed by the numbers of its participants.  Chains of
one to four steps, which are most of them, are held in layouts of their own.
-/

namespace Dispatch

/-! ## Keys -/

structure ChainKey where
  ids : List HandlerId
  deriving DecidableEq

namespace ChainKey

def ofParts (shared route : List HandlerId) : ChainKey := ⟨shared ++ route⟩

def toText (key : ChainKey) : String :=
  ",".intercalate (key.ids.map HandlerId.toText)

def describe (key : ChainKey) : String :=
  "ChainKey([" ++ ", ".intercalate (key.ids.map HandlerId.describe) ++ "])"

end ChainKey

/-! ## Compiled chains -/

inductive ChainSteps (ε σ : Type) where
  | one (a : Handler ε σ)
  | two (a b : Handler ε σ)
  | three (a b c : Handler ε σ)
  | four (a b c d : Handler ε σ)
  | many (handlers : List (Handler ε σ))

variable {ε σ : Type}

namespace ChainSteps

def ofList : List (Handler ε σ) → ChainSteps ε σ
  | [a] => .one a
  | [a, b] => .two a b
  | [a, b, c] => .three a b c
  | [a, b, c, d] => .four a b c d
  | handlers => .many handlers

def length : ChainSteps ε σ → Nat
  | .one _ => 1
  | .two .. => 2
  | .three .. => 3
  | .four .. => 4
  | .many handlers => handlers.length

def get? : ChainSteps ε σ → Nat → Option (Handler ε σ)
  | .one a, 0 | .two a _, 0 | .three a _ _, 0 | .four a _ _ _, 0 => some a
  | .two _ b, 1 | .three _ b _, 1 | .four _ b _ _, 1 => some b
  | .three _ _ c, 2 | .four _ _ c _, 2 => some c
  | .four _ _ _ d, 3 => some d
  | .many handlers, index => handlers[index]?
  | _, _ => none

def isFixedSize : ChainSteps ε σ → Bool
  | .many _ => false
  | _ => true

end ChainSteps

structure Chain (ε σ : Type) where
  key : ChainKey
  steps : ChainSteps ε σ

namespace Chain

def compile (key : ChainKey) (shared route : List (Handler ε σ)) : Chain ε σ :=
  { key, steps := .ofList (shared ++ route) }

def length (chain : Chain ε σ) : Nat := chain.steps.length

/-- The program of one step.  There is nothing to do past the end. -/
def invoke (chain : Chain ε σ) (index cursor : Nat) (scope : Scope ε σ) :
    Program ε σ :=
  match chain.steps.get? index with
  | some handler => handler.body cursor scope
  | none => .done scope

def describe (chain : Chain ε σ) : String :=
  "CompiledChain \x7b key: " ++ chain.key.describe ++
    s!", steps: {chain.length}, fixed_size: {chain.steps.isFixedSize} \x7d"

end Chain

namespace Script

/-- Runs a chain from its first step, in place of the running one. -/
def run (chain : Chain ε σ) : Script ε σ Unit :=
  fun resume _ scope =>
    .run scope chain.length chain.invoke (resume ())

end Script
end Dispatch
