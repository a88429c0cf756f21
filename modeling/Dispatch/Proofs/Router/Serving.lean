import Dispatch.Proofs.RouteTable.Values
import Dispatch.Router.Serve
import Mathlib.Tactic

/-!
# What serving leaves of a router

Serving or resolving a request compiles chains and moves contexts in and out
of the pools.  `Router.settled` leaves out just these, so that it names what a
visit cannot change: the routes with their handlers, the middleware, the
handlers for unmatched requests and failures, and the settings.
-/

namespace Dispatch

variable {ε σ : Type}

/-- A request that is served or resolved. -/
inductive Visit (σ : Type) where
  | dispatch (request : Request) (outside : σ)
  | dispatchInto (request : Request) (outside : σ) (kept : Response)
  | resolve (method : Method) (target : String)

/-- The request that is served, if one is. -/
def Visit.request? : Visit σ → Option Request
  | .dispatch request _ | .dispatchInto request _ _ => some request
  | .resolve .. => none

namespace Router

def visit (router : Router ε σ) : Visit σ → Router ε σ
  | .dispatch request outside => (router.dispatch request outside).router
  | .dispatchInto request outside kept =>
    (router.dispatchInto request outside kept).1.router
  | .resolve method target => (router.resolve method target).router

/-- A router without its compiled chains, and with fresh pools. -/
def settled (router : Router ε σ) : Router ε σ :=
  { router.forgetChains with pools := .ofLimits router.settings.poolLimits }

/-! ## Chains -/

theorem settled_pin (router : Router ε σ) (answer : Lookup (Entry ε σ))
    (chain : Chain ε σ) : (router.pin answer chain).settled = router.settled := by
  cases answer with
  | found route =>
      unfold pin settled forgetChains
      dsimp only
      rw [RouteTable.mapValues_modify]
      intro entry
      rfl
  | methodNotAllowed allow => rfl
  | notFound => rfl

theorem settled_chainFor (router : Router ε σ) (answer : Lookup (Entry ε σ)) :
    (router.chainFor answer).2.1.settled = router.settled := by
  unfold chainFor
  dsimp only
  cases (router.entryOf answer).chain with
  | some chain => rfl
  | none =>
      dsimp only
      rw [settled_pin]
      rfl

/-! ## Visits -/

theorem settled_process (router : Router ε σ) (request : Request) (outside : σ) :
    (router.process request outside).router.settled = router.settled := by
  unfold process
  dsimp only
  rw [settled_chainFor]
  rfl

theorem settled_release (router : Router ε σ) (context : Context ε σ) :
    (router.release context).settled = router.settled := rfl

/-- However a request ends, some context goes back to the pool. -/
theorem Processed.exists_release (processed : Processed ε σ)
    (take : Exchange ε → Response × Exchange ε) :
    ∃ context, (processed.conclude take).router =
      processed.router.release context := by
  unfold conclude
  dsimp only
  split
  · exact ⟨_, rfl⟩
  · exact ⟨_, rfl⟩

/-- A request is processed and a context given back, or a store for captures is
lent and given back. -/
theorem visit_cases (router : Router ε σ) (visit : Visit σ) :
    (∃ request outside context, visit.request? = some request ∧
      router.visit visit =
        (router.process request outside).router.release context) ∨
    visit.request? = none ∧ ∃ store, router.visit visit =
      { router with pools := { router.pools with
          captures := router.pools.captures.acquire.2.release store } } := by
  cases visit with
  | dispatch request outside =>
      obtain ⟨context, hrouter⟩ :=
        (router.process request outside).exists_release Exchange.takeResponse
      exact Or.inl ⟨request, outside, context, rfl, hrouter⟩
  | dispatchInto request outside kept =>
      obtain ⟨context, hrouter⟩ :=
        (router.process request outside).exists_release
          (·.takeResponseInto kept)
      exact Or.inl ⟨request, outside, context, rfl, hrouter⟩
  | resolve method target => exact Or.inr ⟨rfl, _, rfl⟩

theorem settled_visit (router : Router ε σ) (visit : Visit σ) :
    (router.visit visit).settled = router.settled := by
  rcases router.visit_cases visit with
    ⟨request, outside, context, _, hvisit⟩ | ⟨_, store, hvisit⟩
  · rw [hvisit, settled_release, settled_process]
  · rw [hvisit]
    rfl

theorem settled_visits (router : Router ε σ) (visits : List (Visit σ)) :
    (visits.foldl visit router).settled = router.settled := by
  induction visits generalizing router with
  | nil => rfl
  | cons first rest ih =>
      rw [List.foldl_cons, ih]
      exact settled_visit router first

/-! ## What settled routers have in common -/

section

variable {a b : Router ε σ}

theorem sameShape_settled (router : Router ε σ) :
    router.settled.table.SameShape router.table :=
  RouteTable.sameShape_mapValues router.table Entry.forget

theorem sameShape_of_settled (hsettled : a.settled = b.settled) :
    a.table.SameShape b.table := by
  have ha := sameShape_settled a
  have hb := sameShape_settled b
  rw [hsettled] at ha
  exact ha.symm.trans hb

/-- Routers that settle alike have the same handlers at each route. -/
theorem handlers_of_settled (hsettled : a.settled = b.settled) {id : RouteId}
    {route : Route (Entry ε σ)} (hroute : a.table.routes[id]? = some route) :
    ∃ other, b.table.routes[id]? = some other ∧ other.bare = route.bare ∧
      other.value.handlers = route.value.handlers := by
  have hforget : a.settled.table.routes[id]? = b.settled.table.routes[id]? := by
    rw [hsettled]
  unfold settled forgetChains RouteTable.mapValues at hforget
  dsimp only at hforget
  rw [Array.getElem?_map, Array.getElem?_map, hroute, Option.map_some] at hforget
  obtain ⟨other, hother, hsame⟩ := Option.map_eq_some_iff.mp hforget.symm
  obtain ⟨hid, hpattern, hvalue⟩ := Route.mk.inj hsame
  have hhandlers := congrArg Entry.handlers hvalue
  refine ⟨other, hother, ?_, hhandlers⟩
  unfold Route.bare
  rw [hid, hpattern]

end

end Router
end Dispatch
