import Dispatch.Proofs.Chain.Closed
import Dispatch.Proofs.Router.Finishing
import Dispatch.Proofs.Router.Isolation
import Dispatch.Proofs.Text.Utf8
import Mathlib

/-!
# When errors are handled

Handlers record failures, take them back and replace them, in any order and
while other steps wait for them.  What counts is the exchange that the chain
leaves when all its steps have returned.  If that is halted, the error handler
is performed once; otherwise the response is left as it is.

That a failure is the last one recorded is said with a log outside of the
exchange.  If each move of a handler logs what it does to the recorded failure,
the log of the whole run tells which one is left.  The invocations of an error
handler are counted in the same way.
-/

namespace Dispatch

variable {ε σ α : Type}

/-! ## Logs -/

/-- A move that leaves a log as it is. -/
def Leaves (log : σ → List α) (start scope : Scope ε σ) : Prop :=
  log scope.outside = log start.outside

theorem isRule_leaves (log : σ → List α) :
    IsRule (Leaves log : Scope ε σ → Scope ε σ → Prop) where
  refl := fun _ => rfl
  trans := fun hfirst hsecond => hsecond.trans hfirst

/-- What is done to the recorded failure. -/
inductive FailureCall where
  | fail (failure : Failure)
  /-- The failure is taken, or the exchange is reset. -/
  | take

namespace FailureCall

/-- The failure that is recorded after some calls: if there was one, that of
the last call. -/
def after (before : Option Failure) (calls : List FailureCall) :
    Option Failure :=
  match calls.getLast? with
  | none => before
  | some (.fail failure) => some failure
  | some .take => none

theorem after_after (before : Option Failure) (first second : List FailureCall) :
    after (after before first) second = after before (first ++ second) := by
  unfold after
  rw [List.getLast?_append]
  cases second.getLast? with
  | none => rfl
  | some call => cases call <;> rfl

end FailureCall

/-- A move that adds to a log what it does to the recorded failure. -/
def Logged (log : σ → List FailureCall) (start scope : Scope ε σ) : Prop :=
  ∃ calls, log scope.outside = log start.outside ++ calls ∧
    scope.exchange.failure = FailureCall.after start.exchange.failure calls

theorem isRule_logged (log : σ → List FailureCall) :
    IsRule (Logged log : Scope ε σ → Scope ε σ → Prop) where
  refl := fun _ => ⟨[], (List.append_nil _).symm, rfl⟩
  trans := by
    rintro first second third ⟨before, hbefore, hsecond⟩
      ⟨after, hafter, hthird⟩
    refine ⟨before ++ after, ?_, ?_⟩
    · rw [hafter, hbefore, List.append_assoc]
    · rw [hthird, hsecond, FailureCall.after_after]

/-- An error handler that first notes which failure it is given, and on which
exchange. -/
def ErrorHandler.noting (note : Failure → Exchange ε → σ → σ)
    (handler : ErrorHandler ε σ) : ErrorHandler ε σ :=
  fun failure => do
    let exchange ← Script.exchange
    Script.modifyOutside (note failure exchange)
    handler failure

/-! ## Envelopes -/

theorem Envelope.toJson_ne_empty (envelope : Envelope) :
    envelope.toJson ≠ "" := by
  unfold toJson
  intro hempty
  obtain ⟨_, hend⟩ := String.append_eq_empty_iff.mp hempty
  exact absurd hend (by decide)

theorem Text.utf8_ne_nil {text : String} (hne : text ≠ "") :
    Text.utf8 text ≠ [] := by
  intro hnil
  apply hne
  rw [← Text.ofUtf8Lossy_utf8 text, hnil]
  rfl

namespace Exchange

@[simp] theorem status_respond (exchange : Exchange ε) (status : Status)
    (contentType : HeaderValue) (body : Bytes) :
    (exchange.respond status contentType body).status = status := rfl

@[simp] theorem responseBody_respond (exchange : Exchange ε) (status : Status)
    (contentType : HeaderValue) (body : Bytes) :
    (exchange.respond status contentType body).responseBody = body := rfl

/-- A body that a handler wrote is kept under an error status of its own. -/
def KeepsBody (exchange : Exchange ε) : Prop :=
  exchange.responseBody ≠ [] ∧
    ∃ message, exchange.raised = .http exchange.status message

theorem status_raised (exchange : Exchange ε) :
    exchange.raised.status =
      (exchange.failure.map Failure.status).getD exchange.status := by
  unfold raised
  cases exchange.failure <;> rfl

/-- The exchange on which its own failure is shown. -/
def shown (exchange : Exchange ε) : Exchange ε :=
  exchange.cleared.showFailure exchange.raised

theorem shown_of_keepsBody {exchange : Exchange ε} (hkeeps : exchange.KeepsBody) :
    exchange.shown = exchange.cleared := by
  obtain ⟨hbody, message, hraised⟩ := hkeeps
  unfold shown showFailure
  rw [hraised]
  exact if_pos ⟨rfl, hbody⟩

theorem shown_of_not_keepsBody {exchange : Exchange ε}
    (hreplaced : ¬ exchange.KeepsBody) :
    exchange.shown = exchange.cleared.respond exchange.raised.status .json
      (Text.utf8 (Envelope.ofFailure exchange.raised).toJson) := by
  unfold shown showFailure
  cases hraised : exchange.raised with
  | http status message =>
      apply if_neg
      rintro ⟨rfl, hbody⟩
      exact hreplaced ⟨hbody, message, hraised⟩
  | _ => rfl

theorem request_shown (exchange : Exchange ε) :
    exchange.shown.request = exchange.request := by
  by_cases hkeeps : exchange.KeepsBody
  · rw [shown_of_keepsBody hkeeps]
    rfl
  · rw [shown_of_not_keepsBody hkeeps]
    rfl

/-- A failure is shown under its status, and with some body. -/
theorem shown_spec (exchange : Exchange ε) :
    exchange.shown.status = exchange.raised.status ∧
      exchange.shown.responseBody ≠ [] := by
  by_cases hkeeps : exchange.KeepsBody
  · rw [shown_of_keepsBody hkeeps]
    obtain ⟨hbody, message, hraised⟩ := hkeeps
    rw [hraised]
    exact ⟨rfl, hbody⟩
  · have hbody := Text.utf8_ne_nil
      (Envelope.ofFailure exchange.raised).toJson_ne_empty
    rw [shown_of_not_keepsBody hkeeps, status_respond, responseBody_respond]
    exact ⟨rfl, hbody⟩

end Exchange

/-! ## What is done with the errors of a request -/

namespace Router

/-- How the errors of a request are handled whose chain has returned. -/
structure HandlesErrors (router : Router ε σ) (request : Request)
    (outside : σ) : Prop where
  /-- By then, each step that was entered has returned. -/
  closed : Closed ((router.chainOf request).observe
    (router.loaded request).exchange outside).outside.notes
  /-- The failure that is recorded then was recorded last, and not taken. -/
  recorded : ∀ log : σ → List FailureCall,
    (∀ handler ∈ (router.chainOf request).handlers,
      ObeyingBody (Logged log) handler.body) →
    ∃ calls, log (router.ran request outside).outside = log outside ++ calls ∧
      (router.made request outside).failure = FailureCall.after none calls
  /-- The error handler is given that failure, or that of the status, and finds
  none recorded. -/
  handled : (router.made request outside).Halted →
    router.ended request outside =
      (Context.perform
        { (router.ran request outside).context with
          exchange := (router.made request outside).cleared }
        (router.ran request outside).outside
        (router.errorHandler (router.made request outside).raised)).stripped
          router.settings
  /-- The response is left as the chain made it. -/
  unhandled : ¬ (router.made request outside).Halted →
    router.ended request outside =
      (router.ran request outside).stripped router.settings ∧
    (router.dispatch request outside).result =
      .ok (stripBody router.settings
        (router.made request outside)).takeResponse.1
  /-- An error handler that notes its invocations notes one, or none. -/
  noted : ∀ (log : σ → List (Failure × Exchange ε))
      (note : Failure → Exchange ε → σ → σ) (handler : ErrorHandler ε σ),
    router.errorHandler = .noting note handler →
    (∀ failure exchange outside, log (note failure exchange outside) =
      log outside ++ [(failure, exchange)]) →
    (∀ handler ∈ (router.chainOf request).handlers,
      ObeyingBody (Leaves log) handler.body) →
    (∀ failure, ObeyingBody (Leaves log) (handler failure).program) →
    log (router.ended request outside).outside =
      log outside ++
        if (router.made request outside).Halted then
          [((router.made request outside).raised,
            (router.made request outside).cleared)]
        else []
  /-- The first error handler shows the failure, unless a body is kept, on an
  exchange of the same request. -/
  shown : router.errorHandler = .showing → ∃ shown : Exchange ε,
    (router.dispatch request outside).result =
        .ok (stripBody router.settings shown).takeResponse.1 ∧
      shown.request = (router.made request outside).request ∧
      shown.status =
        ((router.made request outside).failure.map Failure.status).getD
          (router.made request outside).status ∧
      ((router.made request outside).Halted → shown.responseBody ≠ [] ∧
        ((router.made request outside).KeepsBody →
          shown.responseBody = (router.made request outside).responseBody) ∧
        (¬ (router.made request outside).KeepsBody →
          shown.responseBody = Text.utf8
            (Envelope.ofFailure (router.made request outside).raised).toJson))

section

variable {router : Router ε σ} {request : Request} {outside : σ}

theorem failure_prepare (answer : Lookup (Entry ε σ)) (exchange : Exchange ε) :
    (prepare answer exchange).failure = exchange.failure := by
  cases answer with
  | found route => rfl
  | notFound => rfl
  | methodNotAllowed allow =>
      unfold prepare
      dsimp only
      cases HeaderValue.ofText? allow.headerValue <;> rfl

/-- A request begins without a recorded failure. -/
theorem failure_loaded (hclean : router.pools.contexts.Clean)
    (request : Request) : (router.loaded request).exchange.failure = none := by
  have hexchange := hclean.acquire.1.exchange
  unfold loaded
  dsimp only
  rw [failure_prepare]
  generalize router.pools.contexts.acquire.1.exchange = exchange at hexchange
  cases hexchange with
  | mk _ => rfl

theorem ended_of_returned (hreturned : (router.ran request outside).panic = none) :
    router.ended request outside =
      (router.finish (router.ran request outside).context
        (router.ran request outside).outside).result :=
  (router.ended_eq request outside).trans
    (router.completed_of_returned hreturned)

theorem ended_of_halted (hreturned : (router.ran request outside).panic = none)
    (hhalted : (router.made request outside).Halted) :
    router.ended request outside =
      (Context.perform
        { (router.ran request outside).context with
          exchange := (router.made request outside).cleared }
        (router.ran request outside).outside
        (router.errorHandler (router.made request outside).raised)).stripped
          router.settings := by
  rw [ended_of_returned hreturned]
  exact router.finish_of_halted _ _ hhalted

theorem ended_of_not_halted
    (hreturned : (router.ran request outside).panic = none)
    (hgoing : ¬ (router.made request outside).Halted) :
    router.ended request outside =
      (router.ran request outside).stripped router.settings := by
  have hran : Context.Result.mk (router.ran request outside).context
      (router.ran request outside).outside none =
        router.ran request outside := by
    rw [← hreturned]
  rw [ended_of_returned hreturned, router.finish_of_not_halted _ _ hgoing, hran]

/-- The response to a request that ended without a panic. -/
theorem dispatch_of_stripped {result : Context.Result ε σ}
    (hended : router.ended request outside = result.stripped router.settings)
    (hreturned : result.panic = none) :
    (router.dispatch request outside).result =
      .ok (stripBody router.settings
        result.context.exchange).takeResponse.1 := by
  have hconclude := Processed.conclude_result (router.process request outside)
    Exchange.takeResponse
  have hpanic : (router.process request outside).report.result.panic = none := by
    rw [← hreturned, ← result.panic_stripped router.settings, ← hended]
    rfl
  rw [hpanic] at hconclude
  rw [← result.stripped_of_returned router.settings hreturned, ← hended]
  exact hconclude

theorem log_ended (hreturned : (router.ran request outside).panic = none)
    {log : σ → List (Failure × Exchange ε)}
    {note : Failure → Exchange ε → σ → σ} {handler : ErrorHandler ε σ}
    (hhandler : router.errorHandler = .noting note handler)
    (hnote : ∀ failure exchange outside, log (note failure exchange outside) =
      log outside ++ [(failure, exchange)])
    (hchain : ∀ handler ∈ (router.chainOf request).handlers,
      ObeyingBody (Leaves log) handler.body)
    (hleaves : ∀ failure, ObeyingBody (Leaves log) (handler failure).program) :
    log (router.ended request outside).outside =
      log outside ++
        if (router.made request outside).Halted then
          [((router.made request outside).raised,
            (router.made request outside).cleared)]
        else [] := by
  obtain ⟨hran, hpending⟩ := Context.obeys_run (isRule_leaves log) hchain
    (router.loaded request) outside
  have hlog : log (router.ran request outside).outside = log outside := hran
  split_ifs with hhalted
  · rw [ended_of_halted hreturned hhalted, Context.Result.outside_stripped,
      hhandler]
    -- the note is written before the handler begins
    have hperformed := Context.obeys_exec (isRule_leaves log)
      (hleaves (router.made request outside).raised)
      { (router.ran request outside).context with
        exchange := (router.made request outside).cleared }
      (note (router.made request outside).raised
        (router.made request outside).cleared
        (router.ran request outside).outside) hpending
    have hnoted := hnote (router.made request outside).raised
      (router.made request outside).cleared
      (router.ran request outside).outside
    rw [hlog] at hnoted
    exact hperformed.trans hnoted
  · rw [ended_of_not_halted hreturned hhalted,
      Context.Result.outside_stripped, hlog, List.append_nil]

theorem handlesErrors (hclean : router.pools.contexts.Clean)
    (hreturned : (router.ran request outside).panic = none) :
    router.HandlesErrors request outside where
  closed := by
    have hshows := (router.loaded request).observe_shows outside
      (router.chainOf request)
    exact Chain.closed_observe _ _ _ (hshows.panic.trans hreturned)
  recorded := by
    intro log hobeys
    obtain ⟨⟨calls, hlog, hfailure⟩, _⟩ := Context.obeys_run
      (isRule_logged log) hobeys (router.loaded request) outside
    dsimp only at hlog hfailure
    rw [failure_loaded hclean] at hfailure
    exact ⟨calls, hlog, hfailure⟩
  handled := ended_of_halted hreturned
  unhandled := by
    intro hgoing
    have hended := ended_of_not_halted hreturned hgoing
    exact ⟨hended, dispatch_of_stripped hended hreturned⟩
  noted := by
    intro log note handler hhandler hnote hchain hleaves
    exact log_ended hreturned hhandler hnote hchain hleaves
  shown := by
    intro hhandler
    by_cases hhalted : (router.made request outside).Halted
    · have hended := ended_of_halted hreturned hhalted
      rw [hhandler] at hended
      obtain ⟨hstatus, hbody⟩ := (router.made request outside).shown_spec
      refine ⟨(router.made request outside).shown,
        dispatch_of_stripped hended rfl,
        (router.made request outside).request_shown, ?_,
        fun _ => ⟨hbody, ?_, ?_⟩⟩
      · rw [hstatus, Exchange.status_raised]
      · intro hkeeps
        rw [Exchange.shown_of_keepsBody hkeeps]
        rfl
      · intro hreplaced
        rw [Exchange.shown_of_not_keepsBody hreplaced,
          Exchange.responseBody_respond]
    · have hended := ended_of_not_halted hreturned hhalted
      have hfailure : (router.made request outside).failure = none := by
        simp only [Exchange.Halted, not_or,
          Option.not_isSome_iff_eq_none] at hhalted
        exact hhalted.1
      refine ⟨router.made request outside,
        dispatch_of_stripped hended hreturned, rfl, ?_,
        fun habsurd => absurd habsurd hhalted⟩
      rw [hfailure]
      rfl

end

end Router

/-- Whatever handlers do, if the chain of a request returns, the error handler
is invoked once if an error is recorded by then or the status is one, and not
at all otherwise. -/
theorem Run.handlesErrors_dispatch (settings : Settings)
    (operations : List (Operation ε σ)) (request : Request) (outside : σ)
    (hreturned : ((ofOperations settings operations).session.router.ran
      request outside).panic = none) :
    (ofOperations settings operations).session.router.HandlesErrors request
      outside :=
  Router.handlesErrors (pristine_ofOperations settings operations).contexts
    hreturned

namespace Run

def diskFailure : Failure := .ofCause { text := "disk" }

def failing : Handler Unit (List FailureCall) :=
  .ofScript (.custom 0) none do
    Script.modify (·.fail diskFailure)
    Script.modifyOutside (· ++ [.fail diskFailure])

/-- Takes the failures of the steps inside of it. -/
def forgiving : Handler Unit (List FailureCall) :=
  .ofScript (.custom 1) none do
    Script.next
    Script.modify (·.takeFailure.2)
    Script.modifyOutside (· ++ [.take])

theorem logged_failing : ObeyingBody (Logged id) failing.body :=
  fun _ _ => ⟨[.fail diskFailure], rfl, rfl⟩

theorem logged_forgiving : ObeyingBody (Logged id) forgiving.body :=
  fun _ scope => ⟨(isRule_logged id).refl scope, fun _ _ => ⟨[.take], rfl, rfl⟩⟩

def forgivingRouter : Router Unit (List FailureCall) :=
  (ofOperations {} [.useMiddleware [forgiving],
    .register (some .get) "/job" [failing]]).session.router

/-- Handlers that log their calls, and a chain that returns. -/
theorem handlesErrors_forgivingRouter :
    (forgivingRouter.ran { method := .get, target := "/job" } []).panic = none ∧
      (∀ handler ∈
        (forgivingRouter.chainOf { method := .get, target := "/job" }).handlers,
        ObeyingBody (Logged id) handler.body) ∧
      forgivingRouter.HandlesErrors { method := .get, target := "/job" } [] := by
  have hreturned : (forgivingRouter.ran
      { method := .get, target := "/job" } []).panic = none := by
    cbv
  have hhandlers : (forgivingRouter.chainOf
      { method := .get, target := "/job" }).handlers =
        [forgiving, failing] := by
    cbv
  have hlogged : ∀ handler ∈ [forgiving, failing],
      ObeyingBody (Logged id) handler.body := by
    simp only [List.forall_mem_cons]
    exact ⟨logged_forgiving, logged_failing, List.forall_mem_nil _⟩
  exact ⟨hreturned, hhandlers ▸ hlogged, handlesErrors_dispatch {} _
    { method := .get, target := "/job" } [] hreturned⟩

end Run

end Dispatch
