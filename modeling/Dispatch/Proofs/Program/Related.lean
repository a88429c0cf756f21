import Dispatch.Context
import Dispatch.Proofs.Chain
import Mathlib.Tactic

/-!
# Related programs

A relation between scopes is lifted to programs.  Two programs are related if
they do the same wherever they hand over control, with related scopes, and are
related again from there on, whenever they are given related scopes.

If related scopes are halted together, related programs take the same course
and end in related scopes.  The induction is on the relation between the two
programs, and what is left of the two chains is related along with them.
-/

namespace Dispatch

variable {ε σ τ : Type}

/-! ## Relations -/

inductive Program.Related (R : Scope ε σ → Scope ε τ → Prop) :
    Program ε σ → Program ε τ → Prop where
  | done {s : Scope ε σ} {t : Scope ε τ} (hscope : R s t) :
      Related R (.done s) (.done t)
  | panic {s : Scope ε σ} {t : Scope ε τ} (hscope : R s t) (message : String) :
      Related R (.panic s message) (.panic t message)
  | next {s : Scope ε σ} {t : Scope ε τ} {f : Nat → Scope ε σ → Program ε σ}
      {g : Nat → Scope ε τ → Program ε τ} (hscope : R s t)
      (hresume : ∀ cursor s t, R s t → Related R (f cursor s) (g cursor t)) :
      Related R (.next s f) (.next t g)
  | run {s : Scope ε σ} {t : Scope ε τ} {length : Nat}
      {step : Nat → Nat → Scope ε σ → Program ε σ}
      {other : Nat → Nat → Scope ε τ → Program ε τ}
      {f : Nat → Scope ε σ → Program ε σ} {g : Nat → Scope ε τ → Program ε τ}
      (hscope : R s t)
      (hstep : ∀ index < length, ∀ cursor s t, R s t →
        Related R (step index cursor s) (other index cursor t))
      (hresume : ∀ cursor s t, R s t → Related R (f cursor s) (g cursor t)) :
      Related R (.run s length step f) (.run t length other g)
  /-- The scopes are related after the reset. -/
  | reset {s : Scope ε σ} {t : Scope ε τ} {f : Nat → Scope ε σ → Program ε σ}
      {g : Nat → Scope ε τ → Program ε τ}
      (hscope : R { s with exchange := s.exchange.reset }
        { t with exchange := t.exchange.reset })
      (hresume : ∀ cursor s t, R s t → Related R (f cursor s) (g cursor t)) :
      Related R (.reset s f) (.reset t g)

structure Outcome.Related (R : Scope ε σ → Scope ε τ → Prop)
    (a : Outcome ε σ) (b : Outcome ε τ) : Prop where
  scope : R a.scope b.scope
  cursor : a.cursor = b.cursor
  panic : a.panic = b.panic

inductive Pending.Related (R : Scope ε σ → Scope ε τ → Prop) :
    Pending ε σ → Pending ε τ → Prop where
  | exhausted : Related R .exhausted .exhausted
  | ready {enter : Nat → Scope ε σ → Outcome ε σ × Pending ε σ}
      {other : Nat → Scope ε τ → Outcome ε τ × Pending ε τ}
      (houtcome : ∀ cursor s t, R s t →
        (enter cursor s).1.Related R (other cursor t).1)
      (hpending : ∀ cursor s t, R s t →
        Related R (enter cursor s).2 (other cursor t).2) :
      Related R (.ready enter) (.ready other)

/-- Two runs that ended related. -/
structure EndRelated (R : Scope ε σ → Scope ε τ → Prop)
    (a : Outcome ε σ × Pending ε σ) (b : Outcome ε τ × Pending ε τ) :
    Prop where
  outcome : a.1.Related R b.1
  pending : a.2.Related R b.2

/-- Related scopes are halted together. -/
def HaltTogether (R : Scope ε σ → Scope ε τ → Prop) : Prop :=
  ∀ s t, R s t → (s.exchange.Halted ↔ t.exchange.Halted)

/-! ## Running -/

section

variable {R : Scope ε σ → Scope ε τ → Prop} {s : Scope ε σ} {t : Scope ε τ}
  {pending : Pending ε σ} {other : Pending ε τ}

theorem Pending.Related.next (hhalt : HaltTogether R)
    (hpending : pending.Related R other) (hscope : R s t) (cursor : Nat) :
    EndRelated R (pending.next cursor s) (other.next cursor t) := by
  cases hpending with
  | exhausted => exact ⟨⟨hscope, rfl, rfl⟩, .exhausted⟩
  | ready houtcome hrest =>
      unfold Pending.next
      simp only [hhalt s t hscope]
      split_ifs
      · exact ⟨⟨hscope, rfl, rfl⟩, .ready houtcome hrest⟩
      · exact ⟨houtcome (cursor + 1) s t hscope, hrest (cursor + 1) s t hscope⟩

theorem Pending.rest_related {length : Nat}
    {step : Nat → Nat → Scope ε σ → Program ε σ}
    {act : Nat → Nat → Scope ε τ → Program ε τ}
    (hstep : ∀ index < length, ∀ cursor s t, R s t →
      ∀ (pending : Pending ε σ) (other : Pending ε τ),
        pending.Related R other →
          EndRelated R ((step index cursor s).exec cursor pending)
            ((act index cursor t).exec cursor other)) (entered : Nat) :
    (rest length step entered).Related R (rest length act entered) := by
  induction hleft : length - entered generalizing entered with
  | zero =>
      have hle : length ≤ entered := by omega
      rw [rest_of_le hle, rest_of_le hle]
      exact .exhausted
  | succ left ih =>
      have hlt : entered < length := by omega
      have hrest := ih (entered + 1) (by omega)
      rw [rest_of_lt hlt, rest_of_lt hlt]
      apply Related.ready
      · intro cursor s t hscope
        exact (hstep entered hlt cursor s t hscope _ _ hrest).outcome
      · intro cursor s t hscope
        exact (hstep entered hlt cursor s t hscope _ _ hrest).pending

namespace Program

theorem endRelated_after {ended : Outcome ε σ × Pending ε σ}
    {last : Outcome ε τ × Pending ε τ} {f : Nat → Scope ε σ → Program ε σ}
    {g : Nat → Scope ε τ → Program ε τ} (hended : EndRelated R ended last)
    (hresume : ∀ cursor s t, R s t →
      ∀ (pending : Pending ε σ) (other : Pending ε τ),
        pending.Related R other →
          EndRelated R ((f cursor s).exec cursor pending)
            ((g cursor t).exec cursor other)) :
    EndRelated R (after ended f) (after last g) := by
  have hcursor := hended.outcome.cursor
  unfold after
  rw [← hended.outcome.panic, ← hcursor]
  cases ended.1.panic with
  | some message => exact hended
  | none =>
      exact hresume ended.1.cursor _ _ hended.outcome.scope _ _ hended.pending

theorem Related.exec (hhalt : HaltTogether R) {program : Program ε σ}
    {twin : Program ε τ} (hrelated : program.Related R twin) (cursor : Nat)
    (hpending : pending.Related R other) :
    EndRelated R (program.exec cursor pending) (twin.exec cursor other) := by
  induction hrelated generalizing cursor pending other with
  | done hscope => exact ⟨⟨hscope, rfl, rfl⟩, hpending⟩
  | panic hscope message => exact ⟨⟨hscope, rfl, rfl⟩, hpending⟩
  | next hscope _ ih =>
      rw [exec_next, exec_next]
      apply endRelated_after (hpending.next hhalt hscope cursor)
      intro cursor s t hscope pending other hpending
      exact ih cursor s t hscope cursor hpending
  | run hscope _ _ ihstep ihresume =>
      rw [exec_run, exec_run]
      -- the new chain is pending in both runs before its first step
      have hrest := Pending.rest_related (R := R)
        (fun index hindex cursor s t hscope pending other hpending =>
          ihstep index hindex cursor s t hscope cursor hpending) 0
      apply endRelated_after (hrest.next hhalt hscope 0)
      intro cursor s t hscope pending other hpending
      exact ihresume cursor s t hscope cursor hpending
  | reset hscope _ ih =>
      unfold Program.exec
      exact ih 0 _ _ hscope 0 .exhausted

end Program

/-! ## Contexts -/

namespace Context

structure Result.Related (R : Scope ε σ → Scope ε τ → Prop)
    (a : Result ε σ) (b : Result ε τ) : Prop where
  scope : R ⟨a.context.exchange, a.outside⟩ ⟨b.context.exchange, b.outside⟩
  cursor : a.context.cursor = b.context.cursor
  pending : a.context.pending.Related R b.context.pending
  panic : a.panic = b.panic

theorem related_resultOf {ended : Outcome ε σ × Pending ε σ}
    {last : Outcome ε τ × Pending ε τ} (hended : EndRelated R ended last) :
    (resultOf ended).Related R (resultOf last) where
  scope := hended.outcome.scope
  cursor := hended.outcome.cursor
  pending := hended.pending
  panic := hended.outcome.panic

variable {a : Context ε σ} {b : Context ε τ} {outside : σ} {beside : τ}

theorem exec_related (hhalt : HaltTogether R)
    (hscope : R ⟨a.exchange, outside⟩ ⟨b.exchange, beside⟩)
    (hcursor : a.cursor = b.cursor) (hpending : a.pending.Related R b.pending)
    {body : Nat → Scope ε σ → Program ε σ}
    {twin : Nat → Scope ε τ → Program ε τ}
    (hbody : ∀ cursor s t, R s t →
      (body cursor s).Related R (twin cursor t)) :
    (a.exec outside body).Related R (b.exec beside twin) := by
  have hended := (hbody a.cursor _ _ hscope).exec hhalt a.cursor hpending
  unfold exec
  rw [← hcursor]
  exact related_resultOf hended

/-- A chain that is run from outside takes the place of what is left. -/
theorem run_related (hhalt : HaltTogether R)
    (hscope : R ⟨a.exchange, outside⟩ ⟨b.exchange, beside⟩)
    {first : Chain ε σ} {second : Chain ε τ}
    (hlength : first.length = second.length)
    (hstep : ∀ index < first.length, ∀ cursor s t, R s t →
      (first.invoke index cursor s).Related R
        (second.invoke index cursor t)) :
    (a.run outside first).Related R (b.run beside second) := by
  have hrest : (Pending.rest first.length first.invoke 0).Related R
      (Pending.rest first.length second.invoke 0) := by
    apply Pending.rest_related
    intro index hindex cursor s t hscope pending other hpending
    exact (hstep index hindex cursor s t hscope).exec hhalt cursor hpending
  rw [run_eq, run_eq, ← hlength]
  exact related_resultOf (hrest.next hhalt hscope 0)

end Context

end

/-! ## Bodies -/

/-- A body that goes on related from related scopes. -/
def RelatedBody (R : Scope ε σ → Scope ε σ → Prop)
    (body : Nat → Scope ε σ → Program ε σ) : Prop :=
  ∀ cursor s t, R s t → (body cursor s).Related R (body cursor t)

theorem Chain.related_invoke {R : Scope ε σ → Scope ε σ → Prop}
    {chain : Chain ε σ}
    (hbodies : ∀ handler ∈ chain.handlers, RelatedBody R handler.body)
    (index cursor : Nat) {s t : Scope ε σ} (hscope : R s t) :
    (chain.invoke index cursor s).Related R
      (chain.invoke index cursor t) := by
  rw [invoke_eq, invoke_eq]
  cases hstep : chain.handlers[index]? with
  | none => exact .done hscope
  | some handler =>
      exact hbodies handler (List.mem_of_getElem? hstep) cursor s t hscope

namespace Script

variable {R : Scope ε σ → Scope ε σ → Prop}

theorem related_modify {change : Exchange ε → Exchange ε}
    (hchange : ∀ s t, R s t → R { s with exchange := change s.exchange }
      { t with exchange := change t.exchange }) :
    RelatedBody R (program (modify change)) := by
  intro cursor s t hscope
  exact .done (hchange s t hscope)

theorem related_panic (message : String) :
    RelatedBody R (program (panic message)) := by
  intro cursor s t hscope
  exact .panic hscope message

theorem related_next : RelatedBody R (program next) := by
  intro cursor s t hscope
  apply Program.Related.next hscope
  intro cursor s t hscope
  exact .done hscope

end Script

end Dispatch
