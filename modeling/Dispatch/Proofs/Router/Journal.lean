import Dispatch.Proofs.Router.Chains
import Mathlib

/-!
# The chain of a request, read in the journal

The journal of a session knows the handlers of its router: the middleware, the
handlers for unmatched requests, and for each route what it was accepted with.
Visits and chains are not noted, since they leave the settled router as it is.

Together with the soundness of the router this names the chain of every
request.
-/

namespace Dispatch

variable {ε σ : Type}

namespace Journal

theorem inForce_cons (own : List (Handler ε σ))
    (outer : List (List (Handler ε σ))) :
    inForce (own :: outer) = inForce outer ++ own := by
  unfold inForce
  rw [List.reverse_cons, List.flatten_append, List.flatten_singleton]

/-- Each open group has the middleware of those around it before its own. -/
inductive Nested : List (RouteGroup ε σ) → List (List (Handler ε σ)) → Prop where
  | none : Nested [] []
  | inside {group : RouteGroup ε σ} {groups : List (RouteGroup ε σ)}
      {own : List (Handler ε σ)} {outer : List (List (Handler ε σ))}
      (houter : Nested groups outer)
      (hmiddleware : group.middleware = inForce (own :: outer)) :
      Nested (group :: groups) (own :: outer)

structure DescribesRouter (journal : Journal ε σ) (router : Router ε σ) :
    Prop where
  middleware : router.middleware = journal.middleware
  notFound : router.notFound.handlers = [journal.notFound]
  methodNotAllowed :
    router.methodNotAllowed.handlers = [journal.methodNotAllowed]
  routes : ∀ (id : RouteId) (route : Route (Entry ε σ)),
    router.table.routes[id]? = some route →
      ∃ accepted, journal.routes id = some accepted ∧
        route.value.handlers = accepted.inherited ++ accepted.own

structure Describes (journal : Journal ε σ) (session : Session ε σ) : Prop where
  router : journal.DescribesRouter session.router
  groups : Nested session.groups journal.groups

section

variable {journal : Journal ε σ} {router other : Router ε σ}
  {session : Session ε σ} {groups : List (RouteGroup ε σ)}
  {noted : List (List (Handler ε σ))}

/-! ## Groups -/

theorem Nested.tail (hnested : Nested groups noted) :
    Nested groups.tail noted.tail := by
  cases hnested with
  | none => exact .none
  | inside houter _ => exact houter

theorem Nested.useInGroup (hnested : Nested groups noted)
    (handlers : List (Handler ε σ)) :
    Nested (groups.modifyHead (·.useMiddleware handlers))
      (noted.modifyHead (· ++ handlers)) := by
  cases hnested with
  | none => exact .none
  | @inside group _ own outer houter hmiddleware =>
      apply Nested.inside houter
      change group.middleware ++ handlers = _
      rw [hmiddleware, inForce_cons, inForce_cons, List.append_assoc]

theorem Describes.inherited (hdescribes : journal.Describes session) :
    session.inherited = inForce journal.groups := by
  have hnested := hdescribes.groups
  unfold Session.inherited
  generalize session.groups = groups, journal.groups = noted at hnested ⊢
  cases hnested with
  | none => rfl
  | inside _ hmiddleware => exact hmiddleware

theorem Describes.openGroup (hdescribes : journal.Describes session)
    (base : String) :
    Nested (session.openGroup base :: session.groups) ([] :: journal.groups) := by
  apply Nested.inside hdescribes.groups
  rw [Session.openGroup_middleware, hdescribes.inherited, inForce_cons,
    List.append_nil]

/-! ## Routers -/

/-- Routers that settle alike are described alike. -/
theorem DescribesRouter.of_settled (hdescribes : journal.DescribesRouter router)
    (hsettled : other.settled = router.settled) :
    journal.DescribesRouter other where
  middleware := by
    have hsame := congrArg Router.middleware hsettled
    exact hsame.trans hdescribes.middleware
  notFound := by
    have hsame := congrArg (·.notFound.handlers) hsettled
    exact hsame.trans hdescribes.notFound
  methodNotAllowed := by
    have hsame := congrArg (·.methodNotAllowed.handlers) hsettled
    exact hsame.trans hdescribes.methodNotAllowed
  routes := by
    intro id route hroute
    obtain ⟨old, hold, _, hhandlers⟩ :=
      Router.handlers_of_settled hsettled hroute
    rw [← hhandlers]
    exact hdescribes.routes id old hold

theorem DescribesRouter.withRegistry
    (hdescribes : journal.DescribesRouter router)
    (registry : HandlerRegistry ε σ) :
    journal.DescribesRouter { router with registry } :=
  { hdescribes with }

theorem DescribesRouter.push (hdescribes : journal.DescribesRouter router)
    (pattern : Pattern) {entry : Entry ε σ} {accepted : Accepted ε σ}
    (hentry : entry.handlers = accepted.inherited ++ accepted.own) :
    DescribesRouter
      { journal with
        routes := Function.update journal.routes router.table.routes.size
          accepted }
      { router with table := router.table.push pattern entry } where
  middleware := hdescribes.middleware
  notFound := hdescribes.notFound
  methodNotAllowed := hdescribes.methodNotAllowed
  routes := by
    intro id route hroute
    dsimp only at hroute ⊢
    rw [RouteTable.push_routes, Array.getElem?_push] at hroute
    split_ifs at hroute with hid
    · obtain rfl := Option.some.inj hroute
      refine ⟨accepted, ?_, hentry⟩
      rw [hid, Function.update_self]
    · obtain ⟨old, hold, hhandlers⟩ := hdescribes.routes id route hroute
      refine ⟨old, ?_, hhandlers⟩
      rw [Function.update_of_ne hid]
      exact hold

theorem DescribesRouter.useMiddleware
    (hdescribes : journal.DescribesRouter router)
    (handlers : List (Handler ε σ)) :
    DescribesRouter
      { journal with middleware := journal.middleware ++ handlers }
      (router.useMiddleware handlers).1 := by
  rw [Router.useMiddleware_eq]
  exact {
    middleware := congrArg (· ++ handlers) hdescribes.middleware
    notFound := hdescribes.notFound
    methodNotAllowed := hdescribes.methodNotAllowed
    routes := by
      intro id route hroute
      have hmapped : (router.table.routes.map fun route =>
          { route with value := route.value.forget })[id]? = some route := hroute
      rw [Array.getElem?_map] at hmapped
      obtain ⟨old, hold, rfl⟩ := Option.map_eq_some_iff.mp hmapped
      exact hdescribes.routes id old hold
  }

/-! ## Operations -/

theorem Describes.register (hdescribes : journal.Describes session)
    (method : Option Method) (template : String)
    (handlers : List (Handler ε σ)) :
    (journal.note session (.register method template handlers)).Describes
      (session.apply (.register method template handlers)) := by
  have hinherited := hdescribes.inherited
  unfold note Session.apply
  dsimp only
  rcases session.register_eq method template handlers with
    ⟨error, hrefused⟩ | ⟨full, hregistered⟩
  · rw [hrefused]
    exact hdescribes
  · rw [hregistered]
    rcases session.router.register_cases method full
        (session.inherited ++ handlers) with
      ⟨error, hresult, hsame | hnew⟩ | ⟨pattern, _, hresult, hrouter⟩
    · rw [hresult, hsame]
      exact hdescribes
    · rw [hresult, hnew]
      exact ⟨hdescribes.router.withRegistry _, hdescribes.groups⟩
    · let accepted : Accepted ε σ := ⟨inForce journal.groups, handlers⟩
      have hnumbered := hdescribes.router.withRegistry
        (Entry.register (session.inherited ++ handlers)
          session.router.registry).2
      have hentry : (Entry.register (session.inherited ++ handlers)
          session.router.registry).1.handlers =
            accepted.inherited ++ accepted.own :=
        congrArg (· ++ handlers) hinherited
      rw [hresult, hrouter]
      exact ⟨hnumbered.push pattern hentry, hdescribes.groups⟩

theorem Describes.note (hdescribes : journal.Describes session)
    (operation : Operation ε σ) :
    (journal.note session operation).Describes (session.apply operation) := by
  cases operation with
  | openGroup base =>
      exact ⟨{ hdescribes.router with }, hdescribes.openGroup base⟩
  | closeGroup =>
      exact ⟨{ hdescribes.router with }, hdescribes.groups.tail⟩
  | useInGroup handlers =>
      exact ⟨{ hdescribes.router with }, hdescribes.groups.useInGroup handlers⟩
  | register method template handlers =>
      exact hdescribes.register method template handlers
  | useMiddleware handlers =>
      exact ⟨hdescribes.router.useMiddleware handlers, hdescribes.groups⟩
  | setNotFound handler =>
      exact ⟨{ hdescribes.router with notFound := rfl }, hdescribes.groups⟩
  | setMethodNotAllowed handler =>
      exact ⟨{ hdescribes.router with methodNotAllowed := rfl },
        hdescribes.groups⟩
  | setErrorHandler handler =>
      exact ⟨{ hdescribes.router with }, hdescribes.groups⟩
  | visit visit =>
      have hsettled := session.router.settled_visit visit
      exact ⟨hdescribes.router.of_settled hsettled, hdescribes.groups⟩

end

end Journal

namespace Run

theorem describes_ofOperations (settings : Settings)
    (operations : List (Operation ε σ)) :
    (ofOperations settings operations).journal.Describes
      (ofOperations settings operations).session := by
  induction operations using List.reverseRecOn with
  | nil =>
      refine ⟨⟨rfl, rfl, rfl, ?_⟩, .none⟩
      intro id route hroute
      have hnone : (#[] : Array (Route (Entry ε σ)))[id]? = some route := hroute
      simp at hnone
  | append_singleton operations operation ih =>
      rw [ofOperations_concat]
      exact ih.note operation

/-- Whatever was done with a router before, the chain of a request is the whole
global middleware, and then, for a route, the middleware of the groups that it
was registered in and its own handlers, or else the current handler for such
requests. -/
theorem chainFor_ofOperations (settings : Settings)
    (operations : List (Operation ε σ))
    (hidentity : Set.InjOn Handler.identity (Operation.allHandlers operations))
    (method : Method) (target : String) (captures : Captures) :
    let run := ofOperations settings operations
    let answer := (run.session.router.table.lookup method target captures).1
    let chain := (run.session.router.chainFor answer).1
    (∀ route, answer = .found route →
        ∃ accepted, run.journal.routes route.id = some accepted ∧
          chain.handlers =
            run.journal.middleware ++ accepted.inherited ++ accepted.own) ∧
      (∀ allow, answer = .methodNotAllowed allow →
        chain.handlers =
          run.journal.middleware ++ [run.journal.methodNotAllowed]) ∧
      (answer = .notFound →
        chain.handlers = run.journal.middleware ++ [run.journal.notFound]) := by
  intro run answer chain
  have hsound : run.session.Sound (Operation.allHandlers operations) :=
    sound_ofOperations settings hidentity Set.Subset.rfl
  have hdescribes : run.journal.Describes run.session :=
    describes_ofOperations settings operations
  have hoffers : run.session.router.Offers answer :=
    hsound.router.offers_lookup method target captures
  have hchain : chain.handlers = run.session.router.middleware ++
      (run.session.router.entryOf answer).handlers :=
    (hsound.router.chainFor hidentity hoffers).1
  rw [hdescribes.router.middleware] at hchain
  refine ⟨?_, ?_, ?_⟩
  · intro route hfound
    obtain ⟨accepted, haccepted, hhandlers⟩ :=
      hdescribes.router.routes route.id route (hoffers route hfound)
    refine ⟨accepted, haccepted, ?_⟩
    rw [hchain, hfound, Router.entryOf, hhandlers, List.append_assoc]
  · intro allow hrefused
    rw [hchain, hrefused, Router.entryOf, hdescribes.router.methodNotAllowed]
  · intro hmissed
    rw [hchain, hmissed, Router.entryOf, hdescribes.router.notFound]

/-- A handler that only hands over. -/
def relay (key : Nat) : Handler Unit Unit :=
  .ofScript (.custom key) none .next

/-- Middleware is added before a group is opened, in it, and after a request
has had its chain compiled. -/
def groupOperations : List (Operation Unit Unit) :=
  [.useMiddleware [relay 0], .openGroup "/api", .useInGroup [relay 1],
    .register (some .get) "/users/:id" [relay 2], .closeGroup,
    .visit (.dispatch { method := .get, target := "/api/users/7" } ()),
    .useMiddleware [relay 3]]

theorem injOn_allHandlers_groupOperations :
    Set.InjOn Handler.identity (Operation.allHandlers groupOperations) := by
  let named : HandlerIdentity → Handler Unit Unit
    | .notFound => .notFound
    | .methodNotAllowed => .methodNotAllowed
    | .custom key => relay key
  have hnamed : ∀ handler ∈ groupOperations.flatMap Operation.handlers,
      named handler.identity = handler := by
    have hrelays : groupOperations.flatMap Operation.handlers =
        [0, 1, 2, 3].map relay := rfl
    rw [hrelays, List.forall_mem_map]
    intro key _
    rfl
  exact Operation.injOn_allHandlers rfl rfl hnamed

def groupRouter : Router Unit Unit :=
  (ofOperations {} groupOperations).session.router

theorem chainFor_ofOperations_groupOperations :
    Set.InjOn Handler.identity (Operation.allHandlers groupOperations) ∧
      ∃ route, (groupRouter.table.lookup .get "/api/users/7" .empty).1 =
          .found route ∧
        (groupRouter.chainFor (.found route)).1.handlers =
          [relay 0, relay 3, relay 1, relay 2] := by
  have hserved := (chainFor_ofOperations {} groupOperations
    injOn_allHandlers_groupOperations .get "/api/users/7" .empty).1
  have hid : (groupRouter.table.lookup .get "/api/users/7"
      .empty).1.route?.map Route.id = some 0 := by
    cbv
  have hmiddleware : (ofOperations {} groupOperations).journal.middleware =
      [relay 0, relay 3] := by
    cbv
  have hroutes : (ofOperations {} groupOperations).journal.routes 0 =
      some ⟨[relay 1], [relay 2]⟩ := by
    cbv
  obtain ⟨route, hroute, hzero⟩ := Option.map_eq_some_iff.mp hid
  have hfound := Lookup.route?_eq_some.mp hroute
  obtain ⟨accepted, haccepted, hchain⟩ := hserved route hfound
  rw [hzero, hroutes] at haccepted
  obtain rfl := Option.some.inj haccepted
  rw [hmiddleware] at hchain
  refine ⟨injOn_allHandlers_groupOperations, route, hfound, ?_⟩
  rw [← hfound]
  exact hchain

end Run
end Dispatch
