import Dispatch.Proofs.Captures
import Dispatch.Proofs.Program.Related
import Mathlib.Tactic

/-!
# What a handler cannot see

Two exchanges are alike if they differ at most in the dead slots of their
captures, and two scopes if their exchanges are; the state outside does not
count.  A body is public if it does alike things in alike scopes.  That is a
relation between two runs, and a body need not be related to itself.

Alike programs end alike, since alike scopes are halted together: each step of
one run is matched by the same step of the other.
-/

namespace Dispatch

variable {ε σ : Type}

/-! ## Exchanges and scopes -/

inductive Exchange.Alike (a : Exchange ε) : Exchange ε → Prop where
  | mk {store : Captures} (hagrees : a.captures.Agrees store) :
      Alike a { a with captures := store }

namespace Exchange.Alike

variable {a b c : Exchange ε}

theorem refl (a : Exchange ε) : a.Alike a :=
  .mk (.refl a.captures)

theorem symm (halike : a.Alike b) : b.Alike a := by
  cases halike with
  | mk hagrees => exact .mk hagrees.symm

theorem trans (hab : a.Alike b) (hbc : b.Alike c) : a.Alike c := by
  cases hab with
  | mk hfirst =>
      cases hbc with
      | mk hsecond => exact .mk (hfirst.trans hsecond)

theorem captures (halike : a.Alike b) : a.captures.Agrees b.captures := by
  cases halike with
  | mk hagrees => exact hagrees

theorem halted_iff (halike : a.Alike b) : a.Halted ↔ b.Halted := by
  cases halike with
  | mk _ => exact Iff.rfl

theorem load (halike : a.Alike b) (request : Request) :
    (a.load request).Alike (b.load request) := by
  cases halike with
  | mk hagrees => exact .mk hagrees

theorem withCaptures (halike : a.Alike b) {first second : Captures}
    (hagrees : first.Agrees second) :
    Exchange.Alike { a with captures := first }
      { b with captures := second } := by
  cases halike with
  | mk _ => exact .mk hagrees

theorem takeResponse (halike : a.Alike b) :
    a.takeResponse.1 = b.takeResponse.1 := by
  cases halike with
  | mk _ => rfl

/-- After a reset nothing is left to tell exchanges apart. -/
theorem reset (a b : Exchange ε) : a.reset.Alike b.reset :=
  .mk (.reset a.captures b.captures)

end Exchange.Alike

structure Scope.Alike (a b : Scope ε σ) : Prop where
  exchange : a.exchange.Alike b.exchange

structure Outcome.Alike (a b : Outcome ε σ) : Prop where
  scope : a.scope.Alike b.scope
  cursor : a.cursor = b.cursor
  panic : a.panic = b.panic

/-! ## Programs and pending chains -/

inductive Program.Alike : Program ε σ → Program ε σ → Prop where
  | done {s t : Scope ε σ} (hscope : s.Alike t) : Alike (.done s) (.done t)
  | panic {s t : Scope ε σ} (hscope : s.Alike t) (message : String) :
      Alike (.panic s message) (.panic t message)
  | next {s t : Scope ε σ} {f g : Nat → Scope ε σ → Program ε σ}
      (hscope : s.Alike t)
      (hresume : ∀ cursor s t, s.Alike t → Alike (f cursor s) (g cursor t)) :
      Alike (.next s f) (.next t g)
  | run {s t : Scope ε σ} {length : Nat}
      {step other : Nat → Nat → Scope ε σ → Program ε σ}
      {f g : Nat → Scope ε σ → Program ε σ} (hscope : s.Alike t)
      (hstep : ∀ index cursor s t, s.Alike t →
        Alike (step index cursor s) (other index cursor t))
      (hresume : ∀ cursor s t, s.Alike t → Alike (f cursor s) (g cursor t)) :
      Alike (.run s length step f) (.run t length other g)
  | reset {s t : Scope ε σ} {f g : Nat → Scope ε σ → Program ε σ}
      (hscope : s.Alike t)
      (hresume : ∀ cursor s t, s.Alike t → Alike (f cursor s) (g cursor t)) :
      Alike (.reset s f) (.reset t g)

inductive Pending.Alike : Pending ε σ → Pending ε σ → Prop where
  | exhausted : Alike .exhausted .exhausted
  | ready {enter other : Nat → Scope ε σ → Outcome ε σ × Pending ε σ}
      (houtcome : ∀ cursor s t, s.Alike t →
        (enter cursor s).1.Alike (other cursor t).1)
      (hpending : ∀ cursor s t, s.Alike t →
        Alike (enter cursor s).2 (other cursor t).2) :
      Alike (.ready enter) (.ready other)

/-- Two runs that ended alike. -/
structure EndAlike (a b : Outcome ε σ × Pending ε σ) : Prop where
  outcome : a.1.Alike b.1
  pending : a.2.Alike b.2

/-! ## Running -/

theorem haltTogether_alike :
    HaltTogether (Scope.Alike : Scope ε σ → Scope ε σ → Prop) :=
  fun _ _ hscope => hscope.exchange.halted_iff

theorem Outcome.alike_iff_related {a b : Outcome ε σ} :
    a.Alike b ↔ a.Related Scope.Alike b := by
  constructor
  · intro halike
    exact ⟨halike.scope, halike.cursor, halike.panic⟩
  · intro hrelated
    exact ⟨hrelated.scope, hrelated.cursor, hrelated.panic⟩

theorem Pending.alike_iff_related {pending other : Pending ε σ} :
    pending.Alike other ↔ pending.Related Scope.Alike other := by
  constructor
  · intro halike
    induction halike with
    | exhausted => exact .exhausted
    | ready houtcome _ ih =>
        refine .ready ?_ ih
        intro cursor s t hscope
        exact Outcome.alike_iff_related.mp (houtcome cursor s t hscope)
  · intro hrelated
    induction hrelated with
    | exhausted => exact .exhausted
    | ready houtcome _ ih =>
        refine .ready ?_ ih
        intro cursor s t hscope
        exact Outcome.alike_iff_related.mpr (houtcome cursor s t hscope)

/-- Scopes are alike after a reset, whatever they were before. -/
theorem Program.Alike.related {program twin : Program ε σ}
    (halike : program.Alike twin) : program.Related Scope.Alike twin := by
  induction halike with
  | done hscope => exact .done hscope
  | panic hscope message => exact .panic hscope message
  | next hscope _ ih => exact .next hscope ih
  | run hscope _ _ ihstep ihresume =>
      exact .run hscope (fun index _ => ihstep index) ihresume
  | reset _ _ ih => exact .reset ⟨.reset _ _⟩ ih

theorem Program.Alike.exec {program twin : Program ε σ}
    {pending other : Pending ε σ} (halike : program.Alike twin) (cursor : Nat)
    (hpending : pending.Alike other) :
    EndAlike (program.exec cursor pending) (twin.exec cursor other) := by
  have hended := halike.related.exec haltTogether_alike cursor
    (Pending.alike_iff_related.mp hpending)
  exact ⟨Outcome.alike_iff_related.mpr hended.outcome,
    Pending.alike_iff_related.mpr hended.pending⟩

/-! ## Public bodies -/

/-- A body whose doings depend only on what can be seen of the exchange. -/
def PublicBody (body : Nat → Scope ε σ → Program ε σ) : Prop :=
  ∀ cursor s t, s.Alike t → (body cursor s).Alike (body cursor t)

def Handler.Public (handler : Handler ε σ) : Prop := PublicBody handler.body

namespace Script

theorem public_modify {change : Exchange ε → Exchange ε}
    (hchange : ∀ a b : Exchange ε, a.Alike b → (change a).Alike (change b)) :
    PublicBody (program (modify change : Script ε σ Unit)) := by
  intro cursor s t hscope
  apply Program.Alike.done
  exact ⟨hchange _ _ hscope.exchange⟩

theorem public_panic (message : String) :
    PublicBody (program (panic message : Script ε σ Unit)) := by
  intro cursor s t hscope
  exact .panic hscope message

theorem public_next : PublicBody (program (next : Script ε σ Unit)) := by
  intro cursor s t hscope
  apply Program.Alike.next hscope
  intro cursor s t hscope
  exact .done hscope

end Script

/-! ## Chains -/

/-- Chains of the same public handlers run alike. -/
theorem Chain.alike_invoke {first second : Chain ε σ}
    (hhandlers : first.handlers = second.handlers)
    (hpublic : ∀ handler ∈ first.handlers, handler.Public) (index cursor : Nat)
    {s t : Scope ε σ} (hscope : s.Alike t) :
    (first.invoke index cursor s).Alike (second.invoke index cursor t) := by
  rw [invoke_eq, invoke_eq, ← hhandlers]
  cases hstep : first.handlers[index]? with
  | none => exact .done hscope
  | some handler =>
      have hmem := List.mem_of_getElem? hstep
      exact hpublic handler hmem cursor s t hscope

theorem Chain.alike_run {first second : Chain ε σ}
    (hhandlers : first.handlers = second.handlers)
    (hpublic : ∀ handler ∈ first.handlers, handler.Public) (cursor : Nat)
    {s t : Scope ε σ} (hscope : s.Alike t) :
    ((Script.run first).program cursor s).Alike
      ((Script.run second).program cursor t) := by
  have hlength : first.length = second.length := by
    rw [first.length_eq, second.length_eq, hhandlers]
  unfold Script.program Script.run
  rw [hlength]
  apply Program.Alike.run hscope
  · intro index cursor s t halike
    exact alike_invoke hhandlers hpublic index cursor halike
  · intro cursor s t halike
    exact .done halike

end Dispatch
