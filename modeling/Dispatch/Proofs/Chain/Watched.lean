import Dispatch.Proofs.Program.Related
import Mathlib.Tactic

/-!
# Watched chains

A watched chain does what the chain does, and keeps notes of it beside the
state outside: that a step is entered, that it calls for the next one, that it
returns or panics, each with the scope as it then is.

Watching changes nothing: a watched program is related to the program, by
scopes that are the same without the notes.
-/

namespace Dispatch

variable {ε σ : Type}

/-! ## Notes -/

inductive Turn where
  | entered
  /-- The step calls for the next one, which need not be entered. -/
  | called
  | returned
  | panicked
  deriving DecidableEq

/-- What happened to the step `index` of a chain. -/
structure Note (ε σ : Type) where
  index : Nat
  turn : Turn
  scope : Scope ε σ

/-- The state outside, with notes. -/
structure Noted (ε σ : Type) where
  plain : σ
  notes : List (Note ε σ) := []

namespace Scope

def plain (scope : Scope ε (Noted ε σ)) : Scope ε σ :=
  { exchange := scope.exchange, outside := scope.outside.plain }

def noted (scope : Scope ε σ) (notes : List (Note ε σ)) :
    Scope ε (Noted ε σ) :=
  { exchange := scope.exchange, outside := { plain := scope.outside, notes } }

@[simp] theorem plain_noted (scope : Scope ε σ) (notes : List (Note ε σ)) :
    (scope.noted notes).plain = scope := rfl

@[simp] theorem notes_noted (scope : Scope ε σ) (notes : List (Note ε σ)) :
    (scope.noted notes).outside.notes = notes := rfl

end Scope

/-! ## Watching -/

/-- A program of step `index` that adds to notes. -/
def Program.watched :
    Nat → Program ε σ → List (Note ε σ) → Program ε (Noted ε σ)
  | index, .done scope, notes =>
    .done (scope.noted (notes ++ [⟨index, .returned, scope⟩]))
  | index, .panic scope message, notes =>
    .panic (scope.noted (notes ++ [⟨index, .panicked, scope⟩])) message
  | index, .next scope resume, notes =>
    .next (scope.noted (notes ++ [⟨index, .called, scope⟩])) fun cursor back =>
      (resume cursor back.plain).watched index back.outside.notes
  | index, .run scope length step resume, notes =>
    .run (scope.noted notes) length
      (fun inner cursor back => (step inner cursor back.plain).watched inner
        (back.outside.notes ++ [⟨inner, .entered, back.plain⟩]))
      fun cursor back =>
        (resume cursor back.plain).watched index back.outside.notes
  | index, .reset scope resume, notes =>
    .reset (scope.noted notes) fun cursor back =>
      (resume cursor back.plain).watched index back.outside.notes

/-- The scope of a watched run, and that of the run. -/
structure Scope.Shows (watched : Scope ε (Noted ε σ)) (scope : Scope ε σ) :
    Prop where
  plain : watched.plain = scope

theorem haltTogether_shows :
    HaltTogether (Scope.Shows : Scope ε (Noted ε σ) → Scope ε σ → Prop) := by
  rintro watched _ ⟨rfl⟩
  exact Iff.rfl

theorem Program.related_watched (program : Program ε σ) (index : Nat)
    (notes : List (Note ε σ)) :
    (program.watched index notes).Related Scope.Shows program := by
  induction program generalizing index notes with
  | done scope => exact .done ⟨rfl⟩
  | panic scope message => exact .panic ⟨rfl⟩ message
  | next scope resume ih =>
      rw [watched]
      apply Related.next ⟨rfl⟩
      rintro cursor back _ ⟨rfl⟩
      exact ih cursor back.plain index back.outside.notes
  | run scope length step resume ihstep ihresume =>
      rw [watched]
      apply Related.run ⟨rfl⟩
      · rintro inner _ cursor back _ ⟨rfl⟩
        exact ihstep inner cursor back.plain inner _
      · rintro cursor back _ ⟨rfl⟩
        exact ihresume cursor back.plain index back.outside.notes
  | reset scope resume ih =>
      rw [watched]
      apply Related.reset ⟨rfl⟩
      rintro cursor back _ ⟨rfl⟩
      exact ih cursor back.plain index back.outside.notes

/-! ## Watched chains -/

/-- A handler that notes that step `index` is entered before it begins. -/
def Handler.watched (index : Nat) (handler : Handler ε σ) :
    Handler ε (Noted ε σ) :=
  { identity := handler.identity
    label := handler.label
    body := fun cursor scope => (handler.body cursor scope.plain).watched index
      (scope.outside.notes ++ [⟨index, .entered, scope.plain⟩]) }

namespace Chain

def watched (chain : Chain ε σ) : Chain ε (Noted ε σ) :=
  { key := chain.key
    steps := .ofList (chain.handlers.mapIdx Handler.watched) }

theorem handlers_watched (chain : Chain ε σ) :
    chain.watched.handlers = chain.handlers.mapIdx Handler.watched :=
  ChainSteps.toList_ofList _

theorem length_watched (chain : Chain ε σ) :
    chain.watched.length = chain.length := by
  rw [length_eq, length_eq, handlers_watched, List.length_mapIdx]

theorem invoke_watched (chain : Chain ε σ) {index : Nat}
    (hindex : index < chain.length) (cursor : Nat)
    (scope : Scope ε (Noted ε σ)) :
    chain.watched.invoke index cursor scope =
      (chain.invoke index cursor scope.plain).watched index
        (scope.outside.notes ++ [⟨index, .entered, scope.plain⟩]) := by
  rw [length_eq] at hindex
  rw [invoke_eq, invoke_eq, handlers_watched, List.getElem?_mapIdx,
    List.getElem?_eq_getElem hindex]
  rfl

/-- Runs a watched chain, with no notes before. -/
def observe (chain : Chain ε σ) (exchange : Exchange ε) (outside : σ) :
    Context.Result ε (Noted ε σ) :=
  Context.run { exchange } { plain := outside } chain.watched

end Chain

namespace Context

/-- What is seen of a watched run is what comes of the run. -/
structure Result.Shows (observed : Result ε (Noted ε σ)) (result : Result ε σ) :
    Prop where
  exchange : observed.context.exchange = result.context.exchange
  cursor : observed.context.cursor = result.context.cursor
  outside : observed.outside.plain = result.outside
  panic : observed.panic = result.panic

theorem observe_shows (context : Context ε σ) (outside : σ)
    (chain : Chain ε σ) :
    (chain.observe context.exchange outside).Shows
      (context.run outside chain) := by
  have hran : (chain.observe context.exchange outside).Related Scope.Shows
      (context.run outside chain) := by
    apply run_related haltTogether_shows ⟨rfl⟩ chain.length_watched
    rintro index hindex cursor scope _ ⟨rfl⟩
    rw [chain.length_watched] at hindex
    rw [chain.invoke_watched hindex]
    exact Program.related_watched _ index _
  exact {
    exchange := congrArg Scope.exchange hran.scope.plain
    cursor := hran.cursor
    outside := congrArg Scope.outside hran.scope.plain
    panic := hran.panic }

end Context
end Dispatch
