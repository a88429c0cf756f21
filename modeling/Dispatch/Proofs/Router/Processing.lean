import Dispatch.Proofs.Router.Finishing
import Dispatch.Proofs.Router.Serving
import Mathlib.Tactic

/-!
# What comes of a request

Processing a request loads a pooled context, selects a chain and serves it.  So
what comes of the request is what the router makes of the run of that chain over
that context: the router that serves differs from the given one in its chains
and its pools, and neither is asked for after the run.  A dispatch leaves the
state outside as it was left then, and answers with the response or the panic.
-/

namespace Dispatch

variable {ε σ : Type}

/-- A response, unless a panic ended the run. -/
def Context.Result.answer (result : Context.Result ε σ) :
    Except String Response :=
  match result.panic with
  | some message => .error message
  | none => .ok result.context.exchange.takeResponse.1

namespace Router

/-- A router that has handed out a context. -/
def acquired (router : Router ε σ) : Router ε σ :=
  { router with
    pools := { router.pools with
      contexts := router.pools.contexts.acquire.2 } }

/-- The context in which a request is served. -/
def loaded (router : Router ε σ) (request : Request) : Context ε σ :=
  let context := router.pools.contexts.acquire.1
  let found := router.table.lookup request.method request.path
    context.exchange.captures
  { context with
    exchange := prepare found.1
      { context.exchange.load request with captures := found.2 } }

def answerTo (router : Router ε σ) (request : Request) : Lookup (Entry ε σ) :=
  (router.table.lookup request.method request.path
    router.pools.contexts.acquire.1.exchange.captures).1

/-- The chain that serves a request. -/
def chainOf (router : Router ε σ) (request : Request) : Chain ε σ :=
  (router.acquired.chainFor (router.answerTo request)).1

/-- What comes of the chain of a request. -/
def ran (router : Router ε σ) (request : Request) (outside : σ) :
    Context.Result ε σ :=
  (router.loaded request).run outside (router.chainOf request)

/-- The exchange that the chain of a request leaves. -/
def made (router : Router ε σ) (request : Request) (outside : σ) : Exchange ε :=
  (router.ran request outside).context.exchange

/-- What comes of a request in the end. -/
def ended (router : Router ε σ) (request : Request) (outside : σ) :
    Context.Result ε σ :=
  (router.process request outside).report.result

theorem process_result (router : Router ε σ) (request : Request)
    (outside : σ) :
    (router.process request outside).report.result =
      ((router.acquired.chainFor (router.answerTo request)).2.1.serve
        (router.loaded request) outside
        (router.acquired.chainFor (router.answerTo request)).1).result :=
  rfl

/-- What is done after a run depends on what is settled only. -/
theorem finish_of_settled {a b : Router ε σ} (hsettled : a.settled = b.settled)
    (context : Context ε σ) (outside : σ) :
    a.finish context outside = b.finish context outside := by
  have hhandler := congrArg Router.errorHandler hsettled
  have hsettings := congrArg Router.settings hsettled
  exact a.finish_congr context outside hhandler hsettings

theorem completed_of_settled {a b : Router ε σ}
    (hsettled : a.settled = b.settled) (ran : Context.Result ε σ) :
    a.completed ran = b.completed ran := by
  unfold completed
  rw [finish_of_settled hsettled]

theorem ended_eq (router : Router ε σ) (request : Request) (outside : σ) :
    router.ended request outside =
      router.completed (router.ran request outside) := by
  have hsettled : (router.acquired.chainFor
      (router.answerTo request)).2.1.settled = router.settled :=
    settled_chainFor router.acquired (router.answerTo request)
  unfold ended
  rw [process_result, serve_result, completed_of_settled hsettled]
  rfl

/-! ## Concluding -/

theorem Processed.conclude_result (processed : Processed ε σ)
    (take : Exchange ε → Response × Exchange ε) :
    (processed.conclude take).result =
      match processed.report.result.panic with
      | some message => .error message
      | none => .ok (take processed.report.result.context.exchange).1 := by
  unfold conclude
  dsimp only
  cases processed.report.result.panic with
  | none => rfl
  | some message => rfl

/-- What is concluded is what came of the run, whichever way the response is
taken. -/
theorem Processed.conclude_eq (processed : Processed ε σ)
    (take : Exchange ε → Response × Exchange ε)
    (htake : ∀ exchange, (take exchange).1 = exchange.takeResponse.1) :
    (processed.conclude take).outside = processed.report.result.outside ∧
      (processed.conclude take).result = processed.report.result.answer := by
  constructor
  · unfold conclude
    dsimp only
    cases processed.report.result.panic with
    | none => rfl
    | some message => rfl
  · rw [conclude_result, htake]
    rfl

/-- Dispatching the request runs the chain over the context.  What comes of it
is what the router makes of that run, also if the caller keeps the response. -/
structure Runs (router : Router ε σ) (request : Request)
    (context : Context ε σ) (chain : Chain ε σ) (outside : σ) : Prop where
  processed : (router.process request outside).report.result =
    router.completed (context.run outside chain)
  dispatched : (router.dispatch request outside).outside =
      (router.completed (context.run outside chain)).outside ∧
    (router.dispatch request outside).result =
      (router.completed (context.run outside chain)).answer
  dispatchedInto : ∀ kept,
    (router.dispatchInto request outside kept).1.outside =
        (router.completed (context.run outside chain)).outside ∧
      (router.dispatchInto request outside kept).1.result =
        (router.completed (context.run outside chain)).answer

theorem runs_chainOf (router : Router ε σ) (request : Request) (outside : σ) :
    router.Runs request (router.loaded request) (router.chainOf request)
      outside := by
  have hended : (router.process request outside).report.result =
      router.completed (router.ran request outside) :=
    router.ended_eq request outside
  have hdispatched := (router.process request outside).conclude_eq
    Exchange.takeResponse fun _ => rfl
  rw [hended] at hdispatched
  refine ⟨hended, hdispatched, ?_⟩
  intro kept
  have hinto := (router.process request outside).conclude_eq
    (·.takeResponseInto kept) fun _ => rfl
  rw [hended] at hinto
  exact hinto

end Router
end Dispatch
