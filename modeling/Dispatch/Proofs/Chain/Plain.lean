import Dispatch.Proofs.Chain.Watched
import Mathlib.Tactic

/-!
# Chains against plain lists

A plain list of handlers can be run as it is, by looking up each step in it.
There the layouts of compiled chains do not occur, nor their keys, and a step
past the end is a panic.

A compiled chain does what the plain list of its participants does.  The two
differ in steps past the end only, and no run enters one.  To carry this into
handlers that run chains of their own, it is stated for related programs: a
handler may be replaced by one whose chains are plain lists, at any depth.
-/

namespace Dispatch

variable {ε σ : Type}

/-! ## Plain lists -/

/-- The step of a list at an index, which has to be in range. -/
def plainStep (handlers : List (Handler ε σ)) (index cursor : Nat)
    (scope : Scope ε σ) : Program ε σ :=
  match handlers[index]? with
  | some handler => handler.body cursor scope
  | none => .panic scope
    (s!"index out of bounds: the len is {handlers.length} " ++
      s!"but the index is {index}")

/-- Runs a list from its first step, in place of the running chain. -/
def Script.runPlain (handlers : List (Handler ε σ)) : Script ε σ Unit :=
  fun resume _ scope =>
    .run scope handlers.length (plainStep handlers) (resume ())

def Context.runPlain (context : Context ε σ) (outside : σ)
    (handlers : List (Handler ε σ)) : Context.Result ε σ :=
  context.perform outside (.runPlain handlers)

/-! ## Programs that differ past the end -/

/-- Programs that do the same, but for the steps past the ends of the chains
that they run. -/
abbrev Program.Twin : Program ε σ → Program ε σ → Prop :=
  Program.Related Eq

def Handler.Twin (handler other : Handler ε σ) : Prop :=
  ∀ cursor scope, (handler.body cursor scope).Twin (other.body cursor scope)

section

variable {program twin : Program ε σ} {pending other : Pending ε σ}

theorem haltTogether_eq :
    HaltTogether (Eq : Scope ε σ → Scope ε σ → Prop) := by
  rintro scope _ rfl
  exact Iff.rfl

theorem Program.twin_refl (program : Program ε σ) : program.Twin program := by
  induction program with
  | done scope => exact .done rfl
  | panic scope message => exact .panic rfl message
  | next scope resume ih =>
      apply Related.next rfl
      rintro cursor back _ rfl
      exact ih cursor back
  | run scope length step resume ihstep ihresume =>
      apply Related.run rfl
      · rintro index - cursor back _ rfl
        exact ihstep index cursor back
      · rintro cursor back _ rfl
        exact ihresume cursor back
  | reset scope resume ih =>
      apply Related.reset rfl
      rintro cursor back _ rfl
      exact ih cursor back

theorem Handler.twin_refl (handler : Handler ε σ) : handler.Twin handler :=
  fun cursor scope => (handler.body cursor scope).twin_refl

theorem forall₂_twin_refl (handlers : List (Handler ε σ)) :
    List.Forall₂ Handler.Twin handlers handlers :=
  List.forall₂_same.mpr fun handler _ => handler.twin_refl

theorem Outcome.eq_of_related {a b : Outcome ε σ} (hrelated : a.Related Eq b) :
    a = b := by
  cases a
  cases b
  obtain ⟨rfl, rfl, rfl⟩ := hrelated
  rfl

theorem Pending.eq_of_related (hrelated : pending.Related Eq other) :
    pending = other := by
  induction hrelated with
  | exhausted => rfl
  | ready houtcome _ ih =>
      congr 1
      funext cursor scope
      exact Prod.ext (Outcome.eq_of_related (houtcome cursor scope scope rfl))
        (ih cursor scope scope rfl)

theorem Pending.related_refl (pending : Pending ε σ) :
    pending.Related Eq pending := by
  -- a pending chain lies within the pair that entering a step ends in
  refine @Pending.rec ε σ (fun pending => pending.Related Eq pending)
    (fun ended => ended.2.Related Eq ended.2) .exhausted ?_ ?_ pending
  · intro enter ih
    refine .ready ?_ ?_
    · rintro cursor scope _ rfl
      exact ⟨rfl, rfl, rfl⟩
    · rintro cursor scope _ rfl
      exact ih cursor scope
  · intro outcome pending ih
    exact ih

/-- The same is done whatever chain is left, and the same chain is left. -/
theorem Program.Twin.exec_eq (htwins : program.Twin twin) (cursor : Nat)
    (pending : Pending ε σ) :
    program.exec cursor pending = twin.exec cursor pending := by
  have hended := htwins.exec haltTogether_eq cursor pending.related_refl
  exact Prod.ext (Outcome.eq_of_related hended.outcome)
    (Pending.eq_of_related hended.pending)

end

/-! ## Running a chain as its list -/

section

variable {chain : Chain ε σ} {plain : List (Handler ε σ)}
  {resume other : Nat → Scope ε σ → Program ε σ}

theorem Chain.length_of_twins
    (htwins : List.Forall₂ Handler.Twin chain.handlers plain) :
    chain.length = plain.length := by
  rw [length_eq, htwins.length_eq]

theorem Chain.twin_invoke
    (htwins : List.Forall₂ Handler.Twin chain.handlers plain) {index : Nat}
    (hindex : index < chain.length) (cursor : Nat) (scope : Scope ε σ) :
    (chain.invoke index cursor scope).Twin
      (plainStep plain index cursor scope) := by
  have hplain : index < plain.length := length_of_twins htwins ▸ hindex
  rw [length_eq] at hindex
  rw [invoke_eq, plainStep, List.getElem?_eq_getElem hindex,
    List.getElem?_eq_getElem hplain]
  exact htwins.get hindex hplain cursor scope

/-- A handler may run the list in place of the chain. -/
theorem Script.twin_run
    (htwins : List.Forall₂ Handler.Twin chain.handlers plain)
    (hresume : ∀ cursor scope, (resume cursor scope).Twin (other cursor scope))
    (cursor : Nat) (scope : Scope ε σ) :
    (run chain (fun _ => resume) cursor scope).Twin
      (runPlain plain (fun _ => other) cursor scope) := by
  unfold run runPlain
  rw [← Chain.length_of_twins htwins]
  apply Program.Related.run rfl
  · rintro index hindex cursor scope _ rfl
    exact Chain.twin_invoke htwins hindex cursor scope
  · rintro cursor scope _ rfl
    exact hresume cursor scope

theorem Context.run_eq_runPlain
    (htwins : List.Forall₂ Handler.Twin chain.handlers plain)
    (context : Context ε σ) (outside : σ) :
    context.run outside chain = context.runPlain outside plain := by
  have hprogram := Script.twin_run htwins
    (fun _ scope => Program.twin_refl (.done scope)) context.cursor
    { exchange := context.exchange, outside }
  exact congrArg resultOf (hprogram.exec_eq context.cursor context.pending)

/-- Watched, the list enters and leaves the same steps in the same order. -/
theorem Chain.observe_eq_runPlain (chain : Chain ε σ) (exchange : Exchange ε)
    (outside : σ) :
    chain.observe exchange outside =
      Context.runPlain { exchange } { plain := outside }
        (chain.handlers.mapIdx Handler.watched) := by
  apply Context.run_eq_runPlain
  rw [handlers_watched]
  exact forall₂_twin_refl _

end

/-- A chain that does what a plain list does. -/
structure Chain.BehavesAs (chain : Chain ε σ) (handlers : List (Handler ε σ)) :
    Prop where
  length : chain.length = handlers.length
  /-- There is nothing to do past the end. -/
  past : ∀ index, handlers.length ≤ index → ∀ cursor scope,
    chain.invoke index cursor scope = .done scope
  ran : ∀ (context : Context ε σ) (outside : σ),
    context.run outside chain = context.runPlain outside handlers
  observed : ∀ (exchange : Exchange ε) (outside : σ),
    chain.observe exchange outside =
      Context.runPlain { exchange } { plain := outside }
        (handlers.mapIdx Handler.watched)
  /-- A handler may run it in place of any chain, whatever it does then. -/
  started : ∀ resume cursor scope pending,
    (Script.run chain resume cursor scope).exec cursor pending =
      (Script.runPlain handlers resume cursor scope).exec cursor pending
  /-- The handlers may run plain lists themselves, where they ran chains. -/
  nested : ∀ plain, List.Forall₂ Handler.Twin handlers plain →
    ∀ (context : Context ε σ) (outside : σ),
      context.run outside chain = context.runPlain outside plain

/-- A compiled chain does what the list of its participants does, in whichever
layout it is held. -/
theorem Chain.behavesAs_compile (key : ChainKey)
    (shared route : List (Handler ε σ)) :
    (compile key shared route).BehavesAs (shared ++ route) := by
  have hhandlers := handlers_compile key shared route
  have htwins : List.Forall₂ Handler.Twin (compile key shared route).handlers
      (shared ++ route) := by
    rw [hhandlers]
    exact forall₂_twin_refl _
  exact {
    length := length_of_twins htwins
    past := by
      intro index hindex cursor scope
      rw [invoke_eq, hhandlers, List.getElem?_eq_none hindex]
    ran := Context.run_eq_runPlain htwins
    observed := by
      intro exchange outside
      rw [observe_eq_runPlain, hhandlers]
    started := by
      intro resume cursor scope pending
      have hresume := fun cursor scope =>
        Program.twin_refl (resume () cursor scope)
      exact (Script.twin_run htwins hresume cursor scope).exec_eq cursor pending
    nested := by
      intro plain hplain
      rw [← hhandlers] at hplain
      exact Context.run_eq_runPlain hplain }

/-- A handler that runs a chain of five of its own, or their list. -/
theorem Chain.behavesAs_compile_of_nested :
    let noting (n : Nat) : Handler Unit (List Nat) :=
      .ofScript (.custom n) none do
        Script.modifyOutside (· ++ [n])
        Script.next
    let inner := [1, 2, 3, 4, 5].map noting
    let outer : Handler Unit (List Nat) :=
      .ofScript (.custom 0) none (.run (compile ⟨[]⟩ [] inner))
    let plain : Handler Unit (List Nat) :=
      .ofScript (.custom 0) none (.runPlain inner)
    let result := Context.blank.run [] (compile ⟨[]⟩ [] [outer])
    result = Context.blank.runPlain [] [plain] ∧
      result.outside = [1, 2, 3, 4, 5] := by
  intro noting inner outer plain result
  have hplain : outer.Twin plain := by
    intro cursor scope
    refine Script.twin_run ?_ (fun _ scope => Program.twin_refl (.done scope))
      cursor scope
    rw [handlers_compile]
    exact forall₂_twin_refl inner
  exact ⟨(behavesAs_compile ⟨[]⟩ [] [outer]).nested [plain]
    (.cons hplain .nil) .blank [], rfl⟩

end Dispatch
