import Dispatch.Chain

/-!
# Dispatch contexts

A context is an exchange together with the chain that runs over it.  It is
what a pool keeps and hands out.
-/

namespace Dispatch

structure Context (ε σ : Type) where
  exchange : Exchange ε := .blank
  /-- The number of steps entered of the running chain. -/
  cursor : Nat := 0
  pending : Pending ε σ := .exhausted

variable {ε σ : Type}

namespace Context

def blank : Context ε σ := {}

instance : Inhabited (Context ε σ) := ⟨blank⟩

/-- What a context and the state outside are after some program ran, and the
message of a panic that ended it. -/
structure Result (ε σ : Type) where
  context : Context ε σ
  outside : σ
  panic : Option String

def resultOf (ended : Outcome ε σ × Pending ε σ) : Result ε σ :=
  { context := {
      exchange := ended.1.scope.exchange
      cursor := ended.1.cursor
      pending := ended.2
    }
    outside := ended.1.scope.outside
    panic := ended.1.panic }

/-- Runs a handler body on a context, outside of any step. -/
def exec (context : Context ε σ) (outside : σ)
    (body : Nat → Scope ε σ → Program ε σ) : Result ε σ :=
  resultOf ((body context.cursor { exchange := context.exchange, outside }).exec
    context.cursor context.pending)

def perform (context : Context ε σ) (outside : σ) (script : Script ε σ Unit) :
    Result ε σ :=
  context.exec outside script.program

/-- Runs a chain from its first step. -/
def run (context : Context ε σ) (outside : σ) (chain : Chain ε σ) :
    Result ε σ :=
  context.perform outside (.run chain)

/-- Invokes the next step of the running chain. -/
def next (context : Context ε σ) (outside : σ) : Result ε σ :=
  context.perform outside .next

def modify (context : Context ε σ) (change : Exchange ε → Exchange ε) :
    Context ε σ :=
  { context with exchange := change context.exchange }

def reset (context : Context ε σ) : Context ε σ :=
  { exchange := context.exchange.reset }

/-- The text of a slot; one that was never used has no key. -/
def describeSlot : Option Slot → String
  | none => "Slot \x7b key: None, hash: 0, start: 0, end: 0 \x7d"
  | some slot =>
    "Slot \x7b key: Some(" ++ Text.quoted slot.name ++
      s!"), hash: {slot.hash.toNat}, start: {slot.start}, end: {slot.stop} \x7d"

def describeCaptures (captures : Captures) : String :=
  let fixed := ", ".intercalate (captures.fixed.toList.map describeSlot)
  let spill :=
    ", ".intercalate (captures.spill.map fun slot => describeSlot (some slot))
  s!"ParamStore \x7b inline: [{fixed}], len: {captures.size}, " ++
    s!"overflow: [{spill}], values: {Text.quoted captures.buffer} \x7d"

def describe (context : Context ε σ) : String :=
  let exchange := context.exchange
  let failure := match exchange.failure with
    | some failure => s!"Some({failure.describe})"
    | none => "None"
  s!"DispatchContext \x7b method: {exchange.request.method.name}, " ++
    s!"target: {Text.quoted exchange.request.target}, " ++
    s!"params: {describeCaptures exchange.captures}, " ++
    s!"status: {exchange.status.code}, error: {failure}, " ++
    s!"cursor: {context.cursor}, .. \x7d"

end Context
end Dispatch
