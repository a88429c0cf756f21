import Dispatch.Proofs.Router.Twins
import Mathlib.Tactic

/-!
# A refused registration leaves no trace

What a session shows is what its operations give back, its routes, and the size
and the counts of its chain cache.  Twin sessions show the same, and they stay
twins under every operation.

A registration that is refused may leave its handlers numbered, so that later
handlers get other numbers than they would have got.  That makes the session a
twin of the one before, and nothing else happens to it.
-/

namespace Dispatch

variable {ε σ : Type}

/-! ## What a session shows -/

/-- What an operation gives back. -/
inductive Reply (σ : Type) where
  | silent
  | registered (result : Except RegistrationError RouteId)
  | dispatched (result : Except String Response) (outside : σ)
  /-- The response that the caller keeps is given back as well. -/
  | dispatchedInto (result : Except String Response) (outside : σ)
      (kept : Response)
  | resolved (resolution : Router.Resolution)

/-- What can be asked of a router at any time. -/
structure View where
  /-- Numbers and patterns in the order of registration. -/
  routes : List (Route Unit)
  chains : Nat
  hits : Nat
  misses : Nat

namespace Router

def view (router : Router ε σ) : View where
  routes := router.table.routes.toList.map Route.bare
  chains := router.chains.size
  hits := router.chains.hits
  misses := router.chains.misses

def reply (router : Router ε σ) : Visit σ → Reply σ
  | .dispatch request outside =>
    let dispatched := router.dispatch request outside
    .dispatched dispatched.result dispatched.outside
  | .dispatchInto request outside kept =>
    let (dispatched, response) := router.dispatchInto request outside kept
    .dispatchedInto dispatched.result dispatched.outside response
  | .resolve method target => .resolved (router.resolve method target).resolution

end Router

namespace Session

def reply (session : Session ε σ) : Operation ε σ → Reply σ
  | .register method template handlers =>
    .registered (session.register method template handlers).result
  | .visit visit => session.router.reply visit
  | .openGroup _ | .closeGroup | .useInGroup _ | .useMiddleware _
  | .setNotFound _ | .setMethodNotAllowed _ | .setErrorHandler _ => .silent

/-- What is seen while operations are applied: the reply to each, and the view
after it. -/
def observe (session : Session ε σ) :
    List (Operation ε σ) → List (Reply σ × View)
  | [] => []
  | operation :: rest =>
    let next := session.apply operation
    (session.reply operation, next.router.view) :: next.observe rest

end Session

/-! ## Twin routers -/

namespace Router

section

variable {a b : Router ε σ}

theorem Twin.view (htwin : a.Twin b) : a.view = b.view := by
  have hroutes := congrArg Array.toList htwin.table.shape.routes
  rw [Array.toList_map, Array.toList_map] at hroutes
  unfold Router.view ChainCache.size
  rw [hroutes, htwin.chains.chains.length_eq, htwin.chains.hits,
    htwin.chains.misses]

theorem Twin.visit (htwin : a.Twin b) (visit : Visit σ) :
    a.reply visit = b.reply visit ∧ (a.visit visit).Twin (b.visit visit) := by
  cases visit with
  | dispatch request outside =>
      obtain ⟨hreport, hrouter⟩ := htwin.process request outside
      obtain ⟨hresult, houtside, hlater⟩ :=
        hrouter.conclude hreport Exchange.takeResponse
      unfold Router.reply Router.visit Router.dispatch
      dsimp only
      rw [hresult, houtside]
      exact ⟨rfl, hlater⟩
  | dispatchInto request outside kept =>
      obtain ⟨hreport, hrouter⟩ := htwin.process request outside
      obtain ⟨hresult, houtside, hlater⟩ :=
        hrouter.conclude hreport (·.takeResponseInto kept)
      unfold Router.reply Router.visit Router.dispatchInto
      dsimp only
      rw [hresult, houtside]
      exact ⟨rfl, hlater⟩
  | resolve method target =>
      obtain ⟨hresolution, hlater⟩ := htwin.resolve method target
      exact ⟨congrArg Reply.resolved hresolution, hlater⟩

end

end Router

/-! ## Twin sessions -/

namespace Session

structure Twin (a b : Session ε σ) : Prop where
  router : a.router.Twin b.router
  groups : a.groups = b.groups

section

variable {a b : Session ε σ}

theorem Twin.register (htwin : a.Twin b) (method : Option Method)
    (template : String) (handlers : List (Handler ε σ)) :
    (a.register method template handlers).result =
        (b.register method template handlers).result ∧
      (a.register method template handlers).router.Twin
        (b.register method template handlers).router := by
  unfold Session.register
  rw [htwin.groups]
  cases b.groups with
  | nil => exact htwin.router.register method template handlers
  | cons group outer =>
      dsimp only
      unfold RouteGroup.register
      dsimp only
      split_ifs with hempty
      · exact ⟨rfl, htwin.router⟩
      · exact htwin.router.register method _ _

/-- Twin sessions reply alike, and stay twins. -/
theorem Twin.apply (htwin : a.Twin b) (operation : Operation ε σ) :
    a.reply operation = b.reply operation ∧
      (a.apply operation).Twin (b.apply operation) := by
  have hopen : ∀ base, a.openGroup base = b.openGroup base := by
    intro base
    unfold Session.openGroup
    rw [htwin.groups]
  cases operation with
  | openGroup base =>
      refine ⟨rfl, htwin.router, ?_⟩
      exact congrArg₂ List.cons (hopen base) htwin.groups
  | closeGroup => exact ⟨rfl, htwin.router, congrArg List.tail htwin.groups⟩
  | useInGroup handlers =>
      exact ⟨rfl, htwin.router, congrArg (List.modifyHead _) htwin.groups⟩
  | register method template handlers =>
      obtain ⟨hresult, hrouter⟩ := htwin.register method template handlers
      exact ⟨congrArg Reply.registered hresult, hrouter, htwin.groups⟩
  | useMiddleware handlers =>
      exact ⟨rfl, htwin.router.useMiddleware handlers, htwin.groups⟩
  | setNotFound handler =>
      exact ⟨rfl, htwin.router.setNotFound handler, htwin.groups⟩
  | setMethodNotAllowed handler =>
      exact ⟨rfl, htwin.router.setMethodNotAllowed handler, htwin.groups⟩
  | setErrorHandler handler =>
      exact ⟨rfl, htwin.router.setErrorHandler handler, htwin.groups⟩
  | visit visit =>
      obtain ⟨hreply, hrouter⟩ := htwin.router.visit visit
      exact ⟨hreply, hrouter, htwin.groups⟩

theorem Twin.observe (htwin : a.Twin b) (operations : List (Operation ε σ)) :
    a.observe operations = b.observe operations := by
  induction operations generalizing a b with
  | nil => rfl
  | cons operation rest ih =>
      obtain ⟨hreply, hnext⟩ := htwin.apply operation
      unfold Session.observe
      dsimp only
      rw [hreply, hnext.router.view, ih hnext]

/-- The refused handlers are numbered in one of the two sessions only. -/
theorem Twin.refused (htwin : a.Twin b) {method : Option Method}
    {template : String} {handlers : List (Handler ε σ)}
    {error : RegistrationError}
    (hrefused : (a.register method template handlers).result = .error error) :
    (a.apply (.register method template handlers)).Twin b := by
  refine ⟨?_, htwin.groups⟩
  change (a.register method template handlers).router.Twin b.router
  rcases a.register_eq method template handlers with
    ⟨_, hempty⟩ | ⟨full, hregister⟩
  · rw [hempty]
    exact htwin.router
  · rw [hregister] at hrefused ⊢
    -- the pattern is refused before the handlers are numbered, the route after
    rcases a.router.register_cases method full (a.inherited ++ handlers) with
      ⟨_, _, hsame | hnumbered⟩ | ⟨_, _, haccepted, _⟩
    · rw [hsame]
      exact htwin.router
    · rw [hnumbered]
      exact htwin.router.registeringLeft _
    · rw [haccepted] at hrefused
      contradiction

end

end Session

/-! ## Sessions from their operations -/

namespace Run

/-- A session is a twin of itself: its numbers stand for handlers. -/
theorem twin_ofOperations (settings : Settings)
    (operations : List (Operation ε σ)) :
    (ofOperations settings operations).session.Twin
      (ofOperations settings operations).session := by
  induction operations using List.reverseRecOn with
  | nil => exact ⟨Router.twin_ofSettings settings, rfl⟩
  | append_singleton operations operation ih =>
      rw [ofOperations_concat]
      exact (ih.apply operation).2

/-- Whatever a session has gone through, and whatever is done with it later: a
registration that is refused, for whatever reason, on the router or through a
group, changes nothing that is seen of it from then on. -/
theorem observe_refused (settings : Settings)
    (operations : List (Operation ε σ)) {method : Option Method}
    {template : String} {handlers : List (Handler ε σ)}
    {error : RegistrationError} :
    let session := (ofOperations settings operations).session
    (session.register method template handlers).result = .error error →
      let refused := session.apply (.register method template handlers)
      refused.router.view = session.router.view ∧
        ∀ later, refused.observe later = session.observe later := by
  intro session hrefused refused
  have htwin : refused.Twin session :=
    (twin_ofOperations settings operations).refused hrefused
  exact ⟨htwin.router.view, htwin.observe⟩

def stranger : Handler Unit Unit :=
  .ofScript (.custom 3) (some "stranger") (.panic "never run")

def latecomer : Handler Unit Unit :=
  .ofScript (.custom 4) none (.modify (·.write (Text.utf8 "late")))

def usersOperations : List (Operation Unit Unit) :=
  fragileOperations ++ [.openGroup "users", .useInGroup [passOn]]

def laterOperations : List (Operation Unit Unit) :=
  [.register none "all/:kind" [latecomer],
    .visit (.dispatch { method := .post, target := "/users/all/new" } ()),
    .register (some .get) ":other" [latecomer],
    .useMiddleware [latecomer],
    .visit (.dispatch { method := .get, target := "/users/7" } ())]

/-- The stranger takes the number that the latecomer would have got. -/
theorem observe_refused_usersOperations :
    let session := (ofOperations {} usersOperations).session
    (session.register (some .get) ":name" [stranger]).result =
        .error (.route (.conflict "GET /users/:name" "GET /users/:id")) ∧
      (session.apply (.register (some .get) ":name" [stranger])).observe
          laterOperations =
        session.observe laterOperations := by
  intro session
  have hrefused : (session.register (some .get) ":name" [stranger]).result =
      .error (.route (.conflict "GET /users/:name" "GET /users/:id")) := by
    cbv
  exact ⟨hrefused,
    (observe_refused {} usersOperations hrefused).2 laterOperations⟩

end Run
end Dispatch
