import Dispatch.Context
import Dispatch.Proofs.Chain
import Mathlib.Tactic

/-!
# What runs ensure

Whoever calls for the next step of a chain, or runs one of their own, gets
control back with some outcome.  What is left of a chain ensures a relation if
the scope that it is entered with and that outcome are always related.

A rule says what a handler may do while it has control: from the scope in which
it got control to the one in which it hands it on.  It may run other chains and
reset its exchange, as long as their steps, and what comes after, keep to the
rule as well.  A rule that is reflexive and transitive is kept by whole runs,
however control went back and forth.
-/

namespace Dispatch

variable {ε σ : Type}

/-! ## What is left of a chain -/

inductive Pending.Ensures (Ensured : Scope ε σ → Outcome ε σ → Prop) :
    Pending ε σ → Prop where
  | exhausted : Ensures Ensured .exhausted
  | ready {enter : Nat → Scope ε σ → Outcome ε σ × Pending ε σ}
      (houtcome : ∀ cursor scope, Ensured scope (enter cursor scope).1)
      (hrest : ∀ cursor scope, Ensures Ensured (enter cursor scope).2) :
      Ensures Ensured (.ready enter)

/-- A part of a run that began with the scope `start`. -/
structure EndEnsures (Ensured : Scope ε σ → Outcome ε σ → Prop)
    (start : Scope ε σ) (ended : Outcome ε σ × Pending ε σ) : Prop where
  outcome : Ensured start ended.1
  pending : ended.2.Ensures Ensured

section

variable {Ensured : Scope ε σ → Outcome ε σ → Prop}

/-- A call that enters no step leaves the scope as it is. -/
theorem Pending.Ensures.next
    (hidle : ∀ cursor scope, Ensured scope { scope, cursor })
    {pending : Pending ε σ} (hensures : pending.Ensures Ensured) (cursor : Nat)
    (scope : Scope ε σ) :
    EndEnsures Ensured scope (pending.next cursor scope) := by
  cases hensures with
  | exhausted => exact ⟨hidle cursor scope, .exhausted⟩
  | ready houtcome hrest =>
      unfold Pending.next
      dsimp only
      split_ifs
      · exact ⟨hidle cursor scope, .ready houtcome hrest⟩
      · exact ⟨houtcome (cursor + 1) scope, hrest (cursor + 1) scope⟩

theorem Pending.rest_ensures {length : Nat}
    {step : Nat → Nat → Scope ε σ → Program ε σ}
    (hstep : ∀ index < length, ∀ cursor scope pending,
      Ensures Ensured pending →
        EndEnsures Ensured scope
          ((step index cursor scope).exec cursor pending)) (entered : Nat) :
    (rest length step entered).Ensures Ensured := by
  induction hleft : length - entered generalizing entered with
  | zero =>
      rw [rest_of_le (by omega)]
      exact .exhausted
  | succ left ih =>
      have hlt : entered < length := by omega
      have hrest := ih (entered + 1) (by omega)
      rw [rest_of_lt hlt]
      apply Ensures.ready
      · intro cursor scope
        exact (hstep entered hlt cursor scope _ hrest).outcome
      · intro cursor scope
        exact (hstep entered hlt cursor scope _ hrest).pending

end

/-! ## Rules -/

/-- A program that has got control with the scope `start`, and whose moves are
all allowed.  A reset is part of the move that it ends. -/
def Program.Obeys (Allowed : Scope ε σ → Scope ε σ → Prop) :
    Scope ε σ → Program ε σ → Prop
  | start, .done scope | start, .panic scope _ => Allowed start scope
  | start, .next scope resume =>
    Allowed start scope ∧ ∀ cursor back, (resume cursor back).Obeys Allowed back
  | start, .run scope _ step resume =>
    Allowed start scope ∧
      (∀ index cursor back, (step index cursor back).Obeys Allowed back) ∧
      ∀ cursor back, (resume cursor back).Obeys Allowed back
  | start, .reset scope resume =>
    Allowed start { scope with exchange := scope.exchange.reset } ∧
      ∀ cursor back, (resume cursor back).Obeys Allowed back

/-- A body that keeps to a rule wherever it begins. -/
def ObeyingBody (Allowed : Scope ε σ → Scope ε σ → Prop)
    (body : Nat → Scope ε σ → Program ε σ) : Prop :=
  ∀ cursor scope, (body cursor scope).Obeys Allowed scope

/-- The rule, for a move that ends with an outcome. -/
def UpTo (Allowed : Scope ε σ → Scope ε σ → Prop) (start : Scope ε σ)
    (outcome : Outcome ε σ) : Prop :=
  Allowed start outcome.scope

/-- What is allowed to one move after the other is allowed to one move. -/
structure IsRule (Allowed : Scope ε σ → Scope ε σ → Prop) : Prop where
  refl : ∀ scope, Allowed scope scope
  trans : ∀ {first second third}, Allowed first second →
    Allowed second third → Allowed first third

section

variable {Allowed : Scope ε σ → Scope ε σ → Prop} {start scope : Scope ε σ}
  {pending : Pending ε σ}

namespace Program

theorem obeys_after (hrule : IsRule Allowed) (hmove : Allowed start scope)
    {ended : Outcome ε σ × Pending ε σ}
    {resume : Nat → Scope ε σ → Program ε σ}
    (hended : EndEnsures (UpTo Allowed) scope ended)
    (hresume : ∀ cursor scope pending, Pending.Ensures (UpTo Allowed) pending →
      EndEnsures (UpTo Allowed) scope
        ((resume cursor scope).exec cursor pending)) :
    EndEnsures (UpTo Allowed) start (after ended resume) := by
  have hback : Allowed start ended.1.scope := hrule.trans hmove hended.outcome
  unfold after
  cases ended.1.panic with
  | some message => exact ⟨hback, hended.pending⟩
  | none =>
      have hrest := hresume ended.1.cursor ended.1.scope _ hended.pending
      exact ⟨hrule.trans hback hrest.outcome, hrest.pending⟩

theorem Obeys.exec (hrule : IsRule Allowed) {program : Program ε σ}
    (hobeys : program.Obeys Allowed start) (cursor : Nat)
    (hpending : pending.Ensures (UpTo Allowed)) :
    EndEnsures (UpTo Allowed) start (program.exec cursor pending) := by
  have hidle : ∀ cursor scope, UpTo Allowed scope { scope, cursor } :=
    fun _ scope => hrule.refl scope
  induction program generalizing start cursor pending with
  | done scope => exact ⟨hobeys, hpending⟩
  | panic scope message => exact ⟨hobeys, hpending⟩
  | next scope resume ih =>
      rw [exec_next]
      apply obeys_after hrule hobeys.1 (hpending.next hidle cursor scope)
      intro cursor back pending hpending
      exact ih cursor back (hobeys.2 cursor back) cursor hpending
  | run scope length step resume ihstep ihresume =>
      obtain ⟨hmove, hstep, hresume⟩ := hobeys
      have hrest : (Pending.rest length step 0).Ensures (UpTo Allowed) := by
        apply Pending.rest_ensures
        intro index _ cursor back pending hpending
        exact ihstep index cursor back (hstep index cursor back) cursor hpending
      rw [exec_run]
      apply obeys_after hrule hmove (hrest.next hidle 0 scope)
      intro cursor back pending hpending
      exact ihresume cursor back (hresume cursor back) cursor hpending
  | reset scope resume ih =>
      unfold Program.exec
      have hrest := ih 0 { scope with exchange := scope.exchange.reset }
        (hobeys.2 _ _) 0 .exhausted
      exact ⟨hrule.trans hobeys.1 hrest.outcome, hrest.pending⟩

end Program

namespace Context

/-- A body keeps to a rule if the chain that is left does. -/
theorem obeys_exec (hrule : IsRule Allowed)
    {body : Nat → Scope ε σ → Program ε σ} (hbody : ObeyingBody Allowed body)
    (context : Context ε σ) (outside : σ)
    (hpending : context.pending.Ensures (UpTo Allowed)) :
    Allowed ⟨context.exchange, outside⟩
      ⟨(context.exec outside body).context.exchange,
        (context.exec outside body).outside⟩ :=
  ((hbody context.cursor _).exec hrule context.cursor hpending).outcome

/-- A run of a chain whose handlers keep to a rule, and what it leaves. -/
theorem obeys_run (hrule : IsRule Allowed) {chain : Chain ε σ}
    (hobeys : ∀ handler ∈ chain.handlers, ObeyingBody Allowed handler.body)
    (context : Context ε σ) (outside : σ) :
    Allowed ⟨context.exchange, outside⟩
        ⟨(context.run outside chain).context.exchange,
          (context.run outside chain).outside⟩ ∧
      (context.run outside chain).context.pending.Ensures (UpTo Allowed) := by
  have hidle : ∀ cursor scope, UpTo Allowed scope { scope, cursor } :=
    fun _ scope => hrule.refl scope
  have hrest : (Pending.rest chain.length chain.invoke 0).Ensures
      (UpTo Allowed) := by
    apply Pending.rest_ensures
    intro index _ cursor scope pending hpending
    rw [Chain.invoke_eq]
    cases hstep : chain.handlers[index]? with
    | none => exact ⟨hrule.refl scope, hpending⟩
    | some handler =>
        have hbody := hobeys handler (List.mem_of_getElem? hstep)
        exact (hbody cursor scope).exec hrule cursor hpending
  have hended := hrest.next hidle 0 ⟨context.exchange, outside⟩
  rw [run_eq]
  exact ⟨hended.outcome, hended.pending⟩

end Context

end

end Dispatch
