import Dispatch.Router.Serve
import Mathlib.Tactic

/-!
# After the chain

What is done after a chain has returned depends on the exchange that it made.
If that is halted, the error handler is performed once, with the failure that
the exchange raises, over an exchange on which none is recorded.  Otherwise
nothing is performed.  In either case the body of an answer to HEAD is dropped
last, unless the error handler panicked.
-/

namespace Dispatch

variable {ε σ : Type}

namespace Exchange

/-- The failure to be handled of a halted exchange: the recorded one, or else
that of its status. -/
def raised (exchange : Exchange ε) : Failure :=
  exchange.failure.getD (.ofStatus exchange.status)

/-- The exchange without a recorded failure. -/
def cleared (exchange : Exchange ε) : Exchange ε :=
  { exchange with failure := none }

end Exchange

/-- A result of which the body is dropped for HEAD, unless a panic ended it. -/
def Context.Result.stripped (result : Context.Result ε σ) (settings : Settings) :
    Context.Result ε σ :=
  if result.panic.isSome then result
  else
    { result with
      context := result.context.modify (Router.stripBody settings) }

section

variable (result : Context.Result ε σ) (settings : Settings)

theorem Context.Result.outside_stripped :
    (result.stripped settings).outside = result.outside := by
  unfold stripped
  split_ifs <;> rfl

theorem Context.Result.panic_stripped :
    (result.stripped settings).panic = result.panic := by
  unfold stripped
  split_ifs <;> rfl

theorem Context.Result.stripped_of_returned (hreturned : result.panic = none) :
    (result.stripped settings).context.exchange =
      Router.stripBody settings result.context.exchange := by
  unfold stripped
  rw [hreturned]
  rfl

end

namespace Router

theorem pendingFailure_of_halted {exchange : Exchange ε}
    (hhalted : exchange.Halted) :
    pendingFailure exchange = (some exchange.raised, exchange.cleared) := by
  unfold pendingFailure Exchange.takeFailure Exchange.raised Exchange.cleared
  cases hfailure : exchange.failure with
  | some failure => rfl
  | none =>
      have hstatus : exchange.status.IsError := by
        simpa [Exchange.Halted, hfailure] using hhalted
      exact if_pos hstatus

theorem pendingFailure_of_not_halted {exchange : Exchange ε}
    (hgoing : ¬ exchange.Halted) : (pendingFailure exchange).1 = none := by
  simp only [Exchange.Halted, not_or, Option.not_isSome_iff_eq_none] at hgoing
  obtain ⟨hfailure, hstatus⟩ := hgoing
  unfold pendingFailure Exchange.takeFailure
  rw [hfailure]
  exact congrArg Prod.fst (if_neg hstatus)

variable (router : Router ε σ) (context : Context ε σ) (outside : σ)

theorem finish_of_halted (hhalted : context.exchange.Halted) :
    (router.finish context outside).result =
      (Context.perform { context with exchange := context.exchange.cleared }
        outside (router.errorHandler context.exchange.raised)).stripped
          router.settings := by
  unfold finish Context.Result.stripped
  rw [pendingFailure_of_halted hhalted]
  dsimp only
  split_ifs <;> rfl

theorem finish_of_not_halted (hgoing : ¬ context.exchange.Halted) :
    (router.finish context outside).result =
      Context.Result.stripped { context, outside, panic := none }
        router.settings := by
  have hnone := pendingFailure_of_not_halted hgoing
  unfold finish
  cases hpending : pendingFailure context.exchange with
  | mk failure left =>
      rw [hpending] at hnone
      obtain rfl : failure = none := hnone
      rfl

/-- What is done after a chain depends on the error handler and the settings. -/
theorem finish_congr {other : Router ε σ}
    (hhandler : router.errorHandler = other.errorHandler)
    (hsettings : router.settings = other.settings) :
    router.finish context outside = other.finish context outside := by
  unfold finish
  rw [hhandler, hsettings]

theorem serve_of_panicked {chain : Chain ε σ} {message : String}
    (hpanic : (context.run outside chain).panic = some message) :
    (router.serve context outside chain).result =
      context.run outside chain := by
  unfold serve
  simp [hpanic]

theorem serve_of_returned {chain : Chain ε σ}
    (hpanic : (context.run outside chain).panic = none) :
    (router.serve context outside chain).result =
      (router.finish (context.run outside chain).context
        (context.run outside chain).outside).result := by
  unfold serve
  simp only [hpanic, Option.isSome_none, Bool.false_eq_true, if_false]
  split_ifs <;> rfl

/-- What serving makes of a run.  One that panicked is left as it ended, and any
other is finished. -/
def completed (ran : Context.Result ε σ) : Context.Result ε σ :=
  if ran.panic.isSome then ran
  else (router.finish ran.context ran.outside).result

theorem completed_of_returned {ran : Context.Result ε σ}
    (hreturned : ran.panic = none) :
    router.completed ran = (router.finish ran.context ran.outside).result := by
  unfold completed
  rw [hreturned]
  rfl

/-- Serving runs the chain. -/
theorem serve_result (chain : Chain ε σ) :
    (router.serve context outside chain).result =
      router.completed (context.run outside chain) := by
  cases hpanic : (context.run outside chain).panic with
  | some message =>
      rw [router.serve_of_panicked context outside hpanic, completed, hpanic]
      rfl
  | none =>
      rw [router.serve_of_returned context outside hpanic,
        router.completed_of_returned hpanic]

end Router
end Dispatch
