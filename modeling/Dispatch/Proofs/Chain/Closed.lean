import Dispatch.Proofs.Chain.Watched
import Dispatch.Proofs.Program.Rules
import Mathlib.Tactic

/-!
# Steps that have returned

Notes are closed if each step that was entered has returned, the innermost
first.  A chain that returns leaves closed notes, whatever its handlers do:
they may call for the next step again and again, run other chains, and reset.

The induction is on the program of a step.  What is left of the chain is known
to add closed notes whenever it returns, so a call adds nothing that is still
open, and at its end the step closes the note with which it began.
-/

namespace Dispatch

variable {ε σ : Type}

inductive Closed : List (Note ε σ) → Prop where
  | nil : Closed []
  | called {notes : List (Note ε σ)} (hnotes : Closed notes) (index : Nat)
      (scope : Scope ε σ) : Closed (notes ++ [⟨index, .called, scope⟩])
  | step {notes inner : List (Note ε σ)} (hnotes : Closed notes)
      (hinner : Closed inner) (index : Nat) (first last : Scope ε σ) :
      Closed (notes ++
        ⟨index, .entered, first⟩ :: (inner ++ [⟨index, .returned, last⟩]))

namespace Closed

variable {notes more : List (Note ε σ)}

theorem append (hnotes : Closed notes) (hmore : Closed more) :
    Closed (notes ++ more) := by
  induction hmore with
  | nil => rwa [List.append_nil]
  | called _ index scope ih =>
      rw [← List.append_assoc]
      exact ih.called index scope
  | step _ hinner index first last ih _ =>
      rw [← List.append_assoc]
      exact ih.step hinner index first last

end Closed

/-! ## Programs -/

/-- From a scope to an outcome closed notes were added, unless that is a
panic. -/
def AddsClosed (start : Scope ε (Noted ε σ)) (outcome : Outcome ε (Noted ε σ)) :
    Prop :=
  outcome.panic = none → ∃ inner, Closed inner ∧
    outcome.scope.outside.notes = start.outside.notes ++ inner

/-- A part of a run of step `index` that began with some notes, up to the end
of the step. -/
structure Returns (index : Nat) (notes : List (Note ε σ))
    (ended : Outcome ε (Noted ε σ) × Pending ε (Noted ε σ)) : Prop where
  notes : ended.1.panic = none →
    ∃ inner last, Closed inner ∧ ended.1.scope.outside.notes =
      notes ++ inner ++ [⟨index, .returned, last⟩]
  pending : ended.2.Ensures AddsClosed

theorem addsClosed_idle (cursor : Nat) (scope : Scope ε (Noted ε σ)) :
    AddsClosed scope { scope, cursor } :=
  fun _ => ⟨[], .nil, (List.append_nil _).symm⟩

section

variable {index : Nat} {notes inner : List (Note ε σ)}
  {start : Scope ε (Noted ε σ)} {pending : Pending ε (Noted ε σ)}
  {ended : Outcome ε (Noted ε σ) × Pending ε (Noted ε σ)}

theorem Returns.of_append (hinner : Closed inner)
    (hreturns : Returns index (notes ++ inner) ended) :
    Returns index notes ended where
  notes := by
    intro hpanic
    obtain ⟨more, last, hmore, hended⟩ := hreturns.notes hpanic
    exact ⟨inner ++ more, last, hinner.append hmore, by simp [hended]⟩
  pending := hreturns.pending

/-- A step that was entered and has returned leaves nothing open. -/
theorem Returns.addsClosed {first : Scope ε σ}
    (hreturns : Returns index
      (start.outside.notes ++ [⟨index, .entered, first⟩]) ended) :
    EndEnsures AddsClosed start ended where
  outcome := by
    intro hpanic
    obtain ⟨inner, last, hinner, hended⟩ := hreturns.notes hpanic
    exact ⟨_, Closed.nil.step hinner index first last, by simp [hended]⟩
  pending := hreturns.pending

namespace Program

theorem returns_after
    {resume : Nat → Scope ε (Noted ε σ) → Program ε (Noted ε σ)}
    (hended : EndEnsures AddsClosed start ended)
    (hresume : ∀ cursor scope pending, Pending.Ensures AddsClosed pending →
      Returns index scope.outside.notes
        ((resume cursor scope).exec cursor pending)) :
    Returns index start.outside.notes (after ended resume) := by
  unfold after
  cases hpanic : ended.1.panic with
  | some message =>
      refine ⟨?_, hended.pending⟩
      intro hnone
      simp [hpanic] at hnone
  | none =>
      obtain ⟨inner, hinner, hnotes⟩ := hended.outcome hpanic
      have hreturns := hresume ended.1.cursor ended.1.scope _ hended.pending
      rw [hnotes] at hreturns
      exact hreturns.of_append hinner

theorem returns_watched (program : Program ε σ) (index : Nat)
    (notes : List (Note ε σ)) (cursor : Nat)
    (hpending : pending.Ensures AddsClosed) :
    Returns index notes ((program.watched index notes).exec cursor pending) := by
  induction program generalizing index notes cursor pending with
  | done scope =>
      refine ⟨fun _ => ⟨[], scope, .nil, ?_⟩, hpending⟩
      rw [List.append_nil]
      rfl
  | panic scope message =>
      refine ⟨?_, hpending⟩
      intro hnone
      contradiction
  | next scope resume ih =>
      have hcalled : Closed [⟨index, .called, scope⟩] :=
        Closed.nil.called index scope
      have hnext := hpending.next addsClosed_idle cursor
        (scope.noted (notes ++ [⟨index, .called, scope⟩]))
      rw [Program.watched, exec_next]
      refine Returns.of_append hcalled (returns_after hnext ?_)
      intro cursor scope pending hpending
      exact ih cursor scope.plain index _ cursor hpending
  | run scope length step resume ihstep ihresume =>
      rw [Program.watched, exec_run]
      have hrest : (Pending.rest length (fun inner cursor back =>
          (step inner cursor back.plain).watched inner
            (back.outside.notes ++ [⟨inner, .entered, back.plain⟩]))
          0).Ensures AddsClosed := by
        apply Pending.rest_ensures
        intro inner _ cursor back pending hpending
        exact (ihstep inner cursor back.plain inner _ cursor
          hpending).addsClosed
      have hnext := hrest.next addsClosed_idle 0 (scope.noted notes)
      refine returns_after hnext ?_
      intro cursor scope pending hpending
      exact ihresume cursor scope.plain index _ cursor hpending
  | reset scope resume ih =>
      simp only [Program.watched, exec]
      exact ih 0 _ index _ 0 .exhausted

end Program

end

/-! ## Chains -/

/-- When a chain returns, each of its steps that was entered has returned. -/
theorem Chain.closed_observe (chain : Chain ε σ) (exchange : Exchange ε)
    (outside : σ)
    (hreturned : (chain.observe exchange outside).panic = none) :
    Closed (chain.observe exchange outside).outside.notes := by
  have hrest : (Pending.rest chain.length chain.watched.invoke 0).Ensures
      AddsClosed := by
    apply Pending.rest_ensures
    intro index hindex cursor scope pending hpending
    rw [chain.invoke_watched hindex]
    exact (Program.returns_watched _ index _ cursor hpending).addsClosed
  unfold observe at hreturned ⊢
  rw [Context.run_eq, chain.length_watched] at hreturned ⊢
  have hnext := hrest.next addsClosed_idle 0
    { exchange, outside := { plain := outside } }
  obtain ⟨inner, hinner, hnotes⟩ := hnext.outcome hreturned
  rw [List.nil_append] at hnotes
  exact hnotes ▸ hinner

end Dispatch
