import Dispatch.Proofs.Chain.Course
import Dispatch.Proofs.Router.Journal
import Mathlib.Tactic

/-!
# Steps in order, at most once, and none once halted

Whatever stepwise handlers do, and however often each calls for the next step,
the steps of a chain are entered in order, each at most once, and the cursor
counts them.  If halting is not taken back, none is entered after it.

A chain that is dispatched has a step: a route is not accepted without handlers,
and requests that no route serves have a handler of their own.
-/

namespace Dispatch

variable {ε σ : Type}

/-! ## Dispatched chains -/

theorem Session.ne_nil_of_register {session : Session ε σ}
    {method : Option Method} {template : String}
    {handlers : List (Handler ε σ)} {id : RouteId}
    (hresult : (session.register method template handlers).result = .ok id) :
    handlers ≠ [] := by
  intro hnone
  subst hnone
  unfold Session.register at hresult
  cases hgroups : session.groups <;>
    simp [hgroups, Router.register, RouteGroup.register] at hresult

namespace Run

/-- Every route has a handler of its own. -/
theorem own_ne_nil (settings : Settings) (operations : List (Operation ε σ))
    {id : RouteId} {accepted : Accepted ε σ}
    (hroute : (ofOperations settings operations).journal.routes id =
      some accepted) : accepted.own ≠ [] := by
  induction operations using List.reverseRecOn with
  | nil => simp [ofOperations] at hroute
  | append_singleton operations operation ih =>
      rw [ofOperations_concat] at hroute
      cases operation with
      | register method template handlers =>
          simp only [apply, Journal.note] at hroute
          split at hroute
          · next number hresult =>
              simp only [Function.update_apply] at hroute
              split_ifs at hroute with hid
              · obtain rfl := Option.some.inj hroute
                exact Session.ne_nil_of_register hresult
              · exact ih hroute
          · exact ih hroute
      | _ => exact ih hroute

/-- The entry that serves an answer has a handler. -/
theorem entryOf_ne_nil (settings : Settings)
    (operations : List (Operation ε σ)) {answer : Lookup (Entry ε σ)}
    (hoffers :
      (ofOperations settings operations).session.router.Offers answer) :
    ((ofOperations settings operations).session.router.entryOf
      answer).handlers ≠ [] := by
  have hdescribes := (describes_ofOperations settings operations).router
  cases answer with
  | found route =>
      obtain ⟨accepted, haccepted, hhandlers⟩ :=
        hdescribes.routes route.id route (hoffers route rfl)
      have hown := own_ne_nil settings operations haccepted
      simp [Router.entryOf, hhandlers, hown]
  | methodNotAllowed allow =>
      simp [Router.entryOf, hdescribes.methodNotAllowed]
  | notFound => simp [Router.entryOf, hdescribes.notFound]

end Run

/-- Some request to a router is answered with the chain, whatever was done with
the router before. -/
def Chain.Dispatched (chain : Chain ε σ) : Prop :=
  ∃ (settings : Settings) (operations : List (Operation ε σ)),
    Set.InjOn Handler.identity (Operation.allHandlers operations) ∧
      ∃ method target captures,
        let router := (Run.ofOperations settings operations).session.router
        let answer := (router.table.lookup method target captures).1
        (router.chainFor answer).1 = chain

theorem Chain.Dispatched.length_pos {chain : Chain ε σ}
    (hdispatched : chain.Dispatched) : 0 < chain.length := by
  obtain ⟨settings, operations, hidentity, method, target, captures, rfl⟩ :=
    hdispatched
  have hsound := Run.sound_ofOperations settings hidentity Set.Subset.rfl
  have hoffers := hsound.router.offers_lookup method target captures
  have hchain := (hsound.router.chainFor hidentity hoffers).1
  rw [Chain.length_eq, hchain, List.length_append]
  apply Nat.add_pos_right
  rw [List.length_pos_iff]
  exact Run.entryOf_ne_nil settings operations hoffers

/-! ## The order of steps -/

namespace Chain

/-- Of a chain of stepwise handlers, the first steps are entered, in order and
each once, as many as the cursor counts in the end, which is at least one if
there is a step.  Once the run is halted none is entered, unless a handler
takes halting back. -/
theorem enteredSteps_observe (chain : Chain ε σ)
    (hstepwise : ∀ handler ∈ chain.handlers, handler.Stepwise)
    (context : Context ε σ) (outside : σ) :
    let observed := chain.observe context.exchange outside
    let result := context.run outside chain
    let notes := observed.outside.notes
    observed.Shows result ∧
      enteredSteps notes = List.range result.context.cursor ∧
      result.context.cursor ≤ chain.length ∧
      (0 < chain.length ∨ chain.Dispatched → 1 ≤ result.context.cursor) ∧
      ((∀ handler ∈ chain.handlers, handler.KeepsHalted) ∨ StaysHalted notes →
        EntersNoneOnceHalted notes) := by
  intro observed result notes
  have hshows : observed.Shows result := context.observe_shows outside chain
  rw [← hshows.cursor]
  rcases Nat.eq_zero_or_pos chain.length with hzero | hpos
  · obtain ⟨hnotes, hcursor⟩ :=
      observe_of_length_eq_zero hzero context.exchange outside
    have hnone : ¬ (0 < chain.length ∨ chain.Dispatched) := by
      intro hsome
      have hpos := hsome.elim id Dispatched.length_pos
      omega
    simp only [observed, notes, hnotes, hcursor]
    exact ⟨hshows, rfl, Nat.zero_le _, fun hsome => absurd hsome hnone,
      fun _ => .nil⟩
  · obtain ⟨active, scope, hcourse⟩ :=
      course_observe hstepwise hpos context.exchange outside
    refine ⟨hshows, hcourse.enteredSteps_eq, hcourse.cursor_le,
      fun _ => hcourse.cursor_pos, ?_⟩
    intro hhalting
    rcases hhalting with hkeeps | hstays
    · obtain ⟨_, _, hkept⟩ :=
        course_observe hkeeps hpos context.exchange outside
      exact hcourse.entersNoneOnceHalted hkept.staysHalted.1
    · exact hcourse.entersNoneOnceHalted hstays

/-- The first step calls twice for the next one, which does as `gate` says. -/
def gated (gate : Script Unit Unit Unit) : Chain Unit Unit :=
  .compile ⟨[]⟩
    [.ofScript (.custom 0) none (do Script.next; Script.next),
      .ofScript (.custom 1) none gate]
    [.ofScript (.custom 2) none (pure ())]

theorem within_gated {gate : Script Unit Unit Unit}
    {Moves : Scope Unit Unit → Scope Unit Unit → Prop}
    (hrefl : ∀ scope, Moves scope scope)
    (hgate : (Handler.ofScript (.custom 1) none gate).Within Moves) :
    ∀ handler ∈ (gated gate).handlers, handler.Within Moves := by
  rw [gated, handlers_compile]
  refine List.forall_mem_cons.mpr ⟨?_, List.forall_mem_cons.mpr ⟨hgate,
    List.forall_mem_singleton.mpr fun _ scope => hrefl scope⟩⟩
  intro cursor scope
  exact ⟨hrefl scope, fun _ back => ⟨hrefl back, fun _ last => hrefl last⟩⟩

/-- A gate that refuses and calls all the same. -/
def refusal : Script Unit Unit Unit := do
  Script.modify (·.fail (.notFound "/"))
  Script.next

theorem enteredSteps_observe_refusal :
    (∀ handler ∈ (gated refusal).handlers, handler.Stepwise) ∧
      enteredSteps ((gated refusal).observe .blank ()).outside.notes = [0, 1] ∧
      EntersNoneOnceHalted ((gated refusal).observe .blank ()).outside.notes := by
  have hstepwise : ∀ handler ∈ (gated refusal).handlers, handler.Stepwise :=
    within_gated (fun _ => trivial) fun _ _ => ⟨trivial, fun _ _ => trivial⟩
  have hkeeps : ∀ handler ∈ (gated refusal).handlers, handler.KeepsHalted :=
    within_gated (fun _ => id) fun _ _ => ⟨fun _ => Or.inl rfl, fun _ _ => id⟩
  obtain ⟨_, hentered, _, _, hhalting⟩ :=
    enteredSteps_observe (gated refusal) hstepwise .blank ()
  have hcursor :
      (Context.blank.run () (gated refusal)).context.cursor = 2 := by rfl
  rw [hcursor] at hentered
  exact ⟨hstepwise, hentered, hhalting (Or.inl hkeeps)⟩

end Chain
end Dispatch
