import Dispatch.Proofs.Router.Chains
import Dispatch.Proofs.Router.Discreet
import Dispatch.Proofs.Router.Processing
import Mathlib

/-!
# Requests are isolated from each other

Visits leave the settled router as it is, and by soundness the chain of a
request is fixed by what is settled.  So a discreet router that has served
requests and the same router before them start a request on alike contexts,
with chains of the same handlers.  If the handlers are public, the two runs
stay alike up to the response.
-/

namespace Dispatch

variable {ε σ : Type}

/-! ## Runs over a context -/

namespace Context

structure Alike (a b : Context ε σ) : Prop where
  exchange : a.exchange.Alike b.exchange
  cursor : a.cursor = b.cursor
  pending : a.pending.Alike b.pending

structure Result.Alike (a b : Result ε σ) : Prop where
  context : a.context.Alike b.context
  panic : a.panic = b.panic

section

variable {a b : Context ε σ}

theorem Clean.alike (ha : a.Clean) (hb : b.Clean) : a.Alike b where
  exchange := ha.exchange.symm.trans hb.exchange
  cursor := ha.cursor.trans hb.cursor.symm
  pending := by
    rw [ha.pending, hb.pending]
    exact .exhausted

theorem Alike.exec (halike : a.Alike b) (outside other : σ)
    {body twin : Nat → Scope ε σ → Program ε σ}
    (hbody : ∀ cursor s t, s.Alike t →
      (body cursor s).Alike (twin cursor t)) :
    (a.exec outside body).Alike (b.exec other twin) := by
  have hscope : Scope.Alike ⟨a.exchange, outside⟩ ⟨b.exchange, other⟩ :=
    ⟨halike.exchange⟩
  have hended :=
    (hbody a.cursor _ _ hscope).exec a.cursor halike.pending
  unfold Context.exec resultOf
  rw [← halike.cursor]
  exact ⟨⟨hended.outcome.scope.exchange, hended.outcome.cursor,
    hended.pending⟩, hended.outcome.panic⟩

theorem Alike.run (halike : a.Alike b) (outside other : σ)
    {first second : Chain ε σ} (hhandlers : first.handlers = second.handlers)
    (hpublic : ∀ handler ∈ first.handlers, handler.Public) :
    (a.run outside first).Alike (b.run other second) := by
  apply halike.exec
  intro cursor s t hscope
  exact Chain.alike_run hhandlers hpublic cursor hscope

theorem Alike.modify (halike : a.Alike b)
    {change : Exchange ε → Exchange ε}
    (hchange : ∀ a b : Exchange ε, a.Alike b → (change a).Alike (change b)) :
    (a.modify change).Alike (b.modify change) where
  exchange := hchange _ _ halike.exchange
  cursor := halike.cursor
  pending := halike.pending

end

end Context

/-! ## Serving -/

theorem Exchange.Alike.raised {a b : Exchange ε} (halike : a.Alike b) :
    a.raised = b.raised := by
  cases halike with
  | mk _ => rfl

theorem Exchange.Alike.cleared {a b : Exchange ε} (halike : a.Alike b) :
    a.cleared.Alike b.cleared := by
  cases halike with
  | mk hagrees => exact .mk hagrees

namespace Router

theorem alike_stripBody (settings : Settings) (a b : Exchange ε)
    (halike : a.Alike b) :
    (stripBody settings a).Alike (stripBody settings b) := by
  cases halike with
  | mk hagrees =>
      unfold stripBody
      dsimp only
      split_ifs
      · exact .mk hagrees
      · exact .mk hagrees

theorem alike_stripped {a b : Context.Result ε σ} (halike : a.Alike b)
    (settings : Settings) : (a.stripped settings).Alike (b.stripped settings) := by
  unfold Context.Result.stripped
  rw [← halike.panic]
  split_ifs
  · exact halike
  · exact ⟨halike.context.modify (alike_stripBody settings), rfl⟩

theorem prepare_eq_of_bare {answer twin : Lookup (Entry ε σ)}
    (hbare : answer.bare = twin.bare) (exchange : Exchange ε) :
    prepare answer exchange = prepare twin exchange := by
  rcases Lookup.cases_of_bare hbare with
    ⟨route, other, rfl, rfl, _⟩ | ⟨allow, rfl, rfl⟩ | ⟨rfl, rfl⟩
  · rfl
  · rfl
  · rfl

theorem alike_prepare {answer twin : Lookup (Entry ε σ)}
    (hbare : answer.bare = twin.bare) {a b : Exchange ε} (halike : a.Alike b) :
    (prepare answer a).Alike (prepare twin b) := by
  rw [← prepare_eq_of_bare hbare b]
  cases halike with
  | mk hagrees =>
      cases answer with
      | found route => exact .mk hagrees
      | notFound => exact .mk hagrees
      | methodNotAllowed allow =>
          simp only [prepare]
          cases HeaderValue.ofText? allow.headerValue with
          | none => exact .mk hagrees
          | some value => exact .mk hagrees

section

variable {used fresh : Router ε σ} {a b : Context ε σ}

theorem alike_finish (hsettled : used.settled = fresh.settled)
    (herror : used.errorHandler.Public) (halike : a.Alike b)
    (outside other : σ) :
    (used.finish a outside).result.Alike (fresh.finish b other).result := by
  have hhalted := halike.exchange.halted_iff
  rw [← finish_of_settled hsettled b other]
  by_cases hleft : a.exchange.Halted
  · have hcleared : Context.Alike { a with exchange := a.exchange.cleared }
        { b with exchange := b.exchange.cleared } :=
      ⟨halike.exchange.cleared, halike.cursor, halike.pending⟩
    rw [used.finish_of_halted a outside hleft,
      used.finish_of_halted b other (hhalted.mp hleft),
      ← halike.exchange.raised]
    exact alike_stripped (hcleared.exec outside other (herror _)) used.settings
  · rw [used.finish_of_not_halted a outside hleft,
      used.finish_of_not_halted b other (hhalted.not.mp hleft)]
    have hreturned : Context.Result.Alike { context := a, outside, panic := none }
        { context := b, outside := other, panic := none } := ⟨halike, rfl⟩
    exact alike_stripped hreturned used.settings

theorem alike_serve (hsettled : used.settled = fresh.settled)
    (herror : used.errorHandler.Public) {first second : Chain ε σ}
    (hhandlers : first.handlers = second.handlers)
    (hpublic : ∀ handler ∈ first.handlers, handler.Public)
    (halike : a.Alike b) (outside other : σ) :
    (used.serve a outside first).result.Alike
      (fresh.serve b other second).result := by
  have hran := halike.run outside other hhandlers hpublic
  have hfinished := alike_finish hsettled herror hran.context
    (a.run outside first).outside (b.run other second).outside
  rw [serve_result, serve_result, completed, completed, ← hran.panic]
  split_ifs
  · exact hran
  · exact hfinished

/-! ### From lookup to response -/

theorem entryOf_handlers {answer other : Lookup (Entry ε σ)}
    (hsettled : used.settled = fresh.settled) (hbare : answer.bare = other.bare)
    (hused : used.Offers answer) (hfresh : fresh.Offers other) :
    (used.entryOf answer).handlers = (fresh.entryOf other).handlers := by
  rcases Lookup.cases_of_bare hbare with
    ⟨route, twin, rfl, rfl, hid, _⟩ | ⟨allow, rfl, rfl⟩ | ⟨rfl, rfl⟩
  · obtain ⟨same, hsame, _, hhandlers⟩ :=
      handlers_of_settled hsettled (hused route rfl)
    rw [hid, hfresh twin rfl] at hsame
    obtain rfl := Option.some.inj hsame
    exact hhandlers.symm
  · exact congrArg (·.methodNotAllowed.handlers) hsettled
  · exact congrArg (·.notFound.handlers) hsettled

theorem Sound.known_of_chainFor {known : Set (Handler ε σ)}
    (hidentity : Set.InjOn Handler.identity known) (hsound : used.Sound known)
    {answer : Lookup (Entry ε σ)} (hoffers : used.Offers answer) :
    ∀ handler ∈ (used.chainFor answer).1.handlers, handler ∈ known := by
  intro handler hmem
  rw [(hsound.chainFor hidentity hoffers).1] at hmem
  rcases List.mem_append.mp hmem with hmiddleware | hentry
  · exact hsound.middleware.known handler hmiddleware
  · exact (hsound.entryOf hoffers).lists.known handler hentry

theorem alike_answer {known : Set (Handler ε σ)}
    (hidentity : Set.InjOn Handler.identity known)
    (hpublic : ∀ handler ∈ known, handler.Public)
    (herror : used.errorHandler.Public) (hused : used.Sound known)
    (hfresh : fresh.Sound known) (hsettled : used.settled = fresh.settled)
    {answer twin : Lookup (Entry ε σ)} (hbare : answer.bare = twin.bare)
    (husedOffers : used.Offers answer) (hfreshOffers : fresh.Offers twin)
    (halike : a.Alike b) (outside other : σ) :
    ((used.chainFor answer).2.1.serve a outside
        (used.chainFor answer).1).result.Alike
      ((fresh.chainFor twin).2.1.serve b other
        (fresh.chainFor twin).1).result := by
  have hmiddleware := congrArg Router.middleware hsettled
  change used.middleware = fresh.middleware at hmiddleware
  -- either chain may be kept, cached or new: soundness names its handlers
  have hentries := entryOf_handlers hsettled hbare husedOffers hfreshOffers
  have hhandlers : (used.chainFor answer).1.handlers =
      (fresh.chainFor twin).1.handlers := by
    rw [(hused.chainFor hidentity husedOffers).1,
      (hfresh.chainFor hidentity hfreshOffers).1, hmiddleware, hentries]
  have hsettledAfter : (used.chainFor answer).2.1.settled =
      (fresh.chainFor twin).2.1.settled := by
    rw [settled_chainFor, settled_chainFor, hsettled]
  have hkept := congrArg Router.errorHandler (settled_chainFor used answer)
  change (used.chainFor answer).2.1.errorHandler = used.errorHandler at hkept
  apply alike_serve hsettledAfter
  · rw [hkept]
    exact herror
  · exact hhandlers
  · intro handler hmem
    apply hpublic
    exact hused.known_of_chainFor hidentity husedOffers handler hmem
  · exact halike

theorem alike_loaded {known : Set (Handler ε σ)}
    (husedClean : used.pools.contexts.Clean)
    (hfreshClean : fresh.pools.contexts.Clean) (hfresh : fresh.Sound known)
    (hsettled : used.settled = fresh.settled) (request : Request) :
    (used.answerTo request).bare = (fresh.answerTo request).bare ∧
      (used.loaded request).Alike (fresh.loaded request) := by
  have hcontext := husedClean.acquire.1.alike hfreshClean.acquire.1
  have hcounted := hfreshClean.acquire.1.exchange.captures.symm.counted
  -- the tables differ in kept chains, and the two stores in dead slots
  let left := used.pools.contexts.acquire.1.exchange.captures
  let right := fresh.pools.contexts.acquire.1.exchange.captures
  have hshape := (sameShape_of_settled hsettled).lookup request.method
    request.path left
  have hlookup :
      (fresh.table.lookup request.method request.path left).1 =
          (fresh.table.lookup request.method request.path right).1 ∧
        (fresh.table.lookup request.method request.path left).2.Agrees
          (fresh.table.lookup request.method request.path right).2 :=
    hfresh.table.lookup_agrees hcounted hcontext.exchange.captures
  have hbare : (used.answerTo request).bare =
      (fresh.answerTo request).bare :=
    hshape.1.trans (congrArg Lookup.bare hlookup.1)
  have hagrees := hlookup.2
  rw [← hshape.2] at hagrees
  have hrequested := hcontext.exchange.load request
  have hprepared := alike_prepare hbare (hrequested.withCaptures hagrees)
  exact ⟨hbare, hprepared, hcontext.cursor, hcontext.pending⟩

theorem alike_process {known : Set (Handler ε σ)}
    (hidentity : Set.InjOn Handler.identity known)
    (hpublic : ∀ handler ∈ known, handler.Public)
    (husedDiscreet : used.Discreet) (hfreshDiscreet : fresh.Discreet)
    (hused : used.Sound known) (hfresh : fresh.Sound known)
    (hsettled : used.settled = fresh.settled) (request : Request)
    (outside other : σ) :
    (used.process request outside).report.result.Alike
      (fresh.process request other).report.result := by
  obtain ⟨hbare, hloaded⟩ :=
    alike_loaded husedDiscreet.contexts hfreshDiscreet.contexts hfresh hsettled
      request
  have husedNow : used.acquired.Sound known := hused.withPools _
  have hfreshNow : fresh.acquired.Sound known := hfresh.withPools _
  have herrorNow : used.acquired.errorHandler.Public :=
    husedDiscreet.errorHandler
  have hsettledNow : used.acquired.settled = fresh.acquired.settled := hsettled
  have husedOffers : used.acquired.Offers (used.answerTo request) :=
    husedNow.offers_lookup _ _ _
  have hfreshOffers : fresh.acquired.Offers (fresh.answerTo request) :=
    hfreshNow.offers_lookup _ _ _
  rw [process_result, process_result]
  exact alike_answer hidentity hpublic herrorNow husedNow hfreshNow
    hsettledNow hbare husedOffers hfreshOffers hloaded outside other

theorem Processed.result_of_alike {processed other : Processed ε σ}
    (halike : processed.report.result.Alike other.report.result)
    {take : Exchange ε → Response × Exchange ε}
    (htake : ∀ exchange, (take exchange).1 = exchange.takeResponse.1) :
    (processed.conclude take).result =
      (other.conclude Exchange.takeResponse).result := by
  have hresponse := halike.context.exchange.takeResponse
  rw [conclude_result, conclude_result, htake, hresponse, halike.panic]

theorem dispatch_of_alike {request : Request} {outside other : σ}
    (hprocessed : (used.process request outside).report.result.Alike
      (fresh.process request other).report.result) (kept : Response) :
    let alone := (fresh.dispatch request other).result
    (used.dispatch request outside).result = alone ∧
      (used.dispatchInto request outside kept).1.result = alone ∧
      (used.dispatchInto request outside kept).2 =
        alone.toOption.getD kept := by
  have hdispatch : ((used.process request outside).conclude
      Exchange.takeResponse).result =
        ((fresh.process request other).conclude
          Exchange.takeResponse).result :=
    Processed.result_of_alike hprocessed fun _ => rfl
  have hinto : ((used.process request outside).conclude
      (·.takeResponseInto kept)).result =
        ((fresh.process request other).conclude
          Exchange.takeResponse).result :=
    Processed.result_of_alike hprocessed fun _ => rfl
  intro alone
  rw [dispatch, dispatchInto]
  exact ⟨hdispatch, hinto, congrArg (·.toOption.getD kept) hinto⟩

end

end Router

/-! ## Isolation -/

/-- Requests before it leave a request alike. -/
theorem Run.alike_process_visits (settings : Settings)
    (operations : List (Operation ε σ))
    (hidentity : Set.InjOn Handler.identity (Operation.allHandlers operations))
    (hpublic : ∀ operation ∈ operations, operation.Public)
    (visits : List (Visit σ)) (request : Request) (outside other : σ) :
    let router := (ofOperations settings operations).session.router
    ((visits.foldl Router.visit router).process
        request outside).report.result.Alike
      (router.process request other).report.result := by
  intro router
  have hfresh : router.Sound (Operation.allHandlers operations) :=
    (sound_ofOperations settings hidentity Set.Subset.rfl).router
  have hdiscreet : router.Discreet := discreet_ofOperations settings hpublic
  exact Router.alike_process hidentity
    (Operation.public_of_allHandlers hpublic) (hdiscreet.visits visits)
    hdiscreet (Router.Sound.visits hidentity hfresh visits) hfresh
    (router.settled_visits visits) request outside other

/-- What comes of a request is what would have come of it without the requests
before it, whatever these were and however they ended.  A response that the
caller keeps becomes the same one, unless a handler panics, and then it stays
as it is. -/
theorem Run.dispatch_visits (settings : Settings)
    (operations : List (Operation ε σ))
    (hidentity : Set.InjOn Handler.identity (Operation.allHandlers operations))
    (hpublic : ∀ operation ∈ operations, operation.Public)
    (visits : List (Visit σ)) (request : Request) (outside other : σ)
    (kept : Response) :
    let router := (ofOperations settings operations).session.router
    let used := visits.foldl Router.visit router
    let alone := (router.dispatch request other).result
    (used.dispatch request outside).result = alone ∧
      (used.dispatchInto request outside kept).1.result = alone ∧
      (used.dispatchInto request outside kept).2 =
        alone.toOption.getD kept := by
  intro router used alone
  have hprocessed := alike_process_visits settings operations hidentity hpublic
    visits request outside other
  exact Router.dispatch_of_alike hprocessed kept

namespace Run

def echo : Handler Unit Unit :=
  .ofScript (.custom 0) none (.modify fun exchange =>
    match exchange.captures.get "id" with
    | .ok (some value) => exchange.write (Text.utf8 value)
    | _ => exchange)

theorem public_echo : echo.Public := by
  apply Handler.public_ofScript
  apply Script.public_modify
  intro a b halike
  cases halike with
  | mk hagrees =>
      dsimp only
      rw [← hagrees.get "id"]
      split
      · exact .mk hagrees
      · exact .mk hagrees

def breakDown : Handler Unit Unit :=
  .ofScript (.custom 1) none (.panic "broken")

def passOn : Handler Unit Unit :=
  .ofScript (.custom 2) none .next

/-- A router of which one handler and the error handler panic. -/
def fragileOperations : List (Operation Unit Unit) :=
  [.useMiddleware [passOn],
    .register (some .get) "/users/:id" [echo],
    .register (some .get) "/broken" [breakDown],
    .setErrorHandler fun failure => .panic failure.message]

def fragileVisits : List (Visit Unit) :=
  [.dispatch { method := .get, target := "/users/7" } (),
    .dispatch { method := .get, target := "/broken" } (),
    .dispatchInto { method := .get, target := "/missing" } () {},
    .resolve .get "/users/8"]

def fragileRouter : Router Unit Unit :=
  (ofOperations {} fragileOperations).session.router

theorem injOn_allHandlers_fragileOperations :
    Set.InjOn Handler.identity (Operation.allHandlers fragileOperations) := by
  let named : HandlerIdentity → Handler Unit Unit
    | .notFound => .notFound
    | .methodNotAllowed => .methodNotAllowed
    | .custom 0 => echo
    | .custom 1 => breakDown
    | .custom _ => passOn
  have hnamed : ∀ handler ∈ fragileOperations.flatMap Operation.handlers,
      named handler.identity = handler := by
    have hhandlers : fragileOperations.flatMap Operation.handlers =
        [passOn, echo, breakDown] := rfl
    rw [hhandlers]
    simp only [List.forall_mem_cons]
    exact ⟨rfl, rfl, rfl, List.forall_mem_nil _⟩
  exact Operation.injOn_allHandlers rfl rfl hnamed

theorem public_fragileOperations :
    ∀ operation ∈ fragileOperations, operation.Public := by
  have hpassOn : passOn.Public :=
    Handler.public_ofScript Script.public_next (.custom 2) none
  have hbreakDown : breakDown.Public :=
    Handler.public_ofScript (Script.public_panic "broken") (.custom 1) none
  unfold fragileOperations
  simp only [List.forall_mem_cons]
  refine ⟨.of_singleton rfl hpassOn, .of_singleton rfl public_echo,
    .of_singleton rfl hbreakDown, ⟨?_, ?_⟩, List.forall_mem_nil _⟩
  · exact List.forall_mem_nil _
  · intro handler hset
    obtain rfl := Operation.setErrorHandler.inj hset
    intro failure
    exact Script.public_panic failure.message

theorem dispatch_visits_fragileOperations :
    Set.InjOn Handler.identity (Operation.allHandlers fragileOperations) ∧
      (∀ operation ∈ fragileOperations, operation.Public) ∧
      ((fragileVisits.foldl Router.visit fragileRouter).dispatch
          { method := .get, target := "/users/42" } ()).result =
        .ok { body := Text.utf8 "42" } := by
  have hvisits := dispatch_visits {} fragileOperations
    injOn_allHandlers_fragileOperations public_fragileOperations fragileVisits
    { method := .get, target := "/users/42" } () () {}
  have halone : (fragileRouter.dispatch
      { method := .get, target := "/users/42" } ()).result =
        .ok { body := Text.utf8 "42" } := by
    cbv
  exact ⟨injOn_allHandlers_fragileOperations, public_fragileOperations,
    hvisits.1.trans halone⟩

end Run
end Dispatch
