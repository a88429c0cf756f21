import Dispatch.Proofs.Chain
import Dispatch.Proofs.Registry
import Dispatch.Proofs.Router.Session
import Mathlib.Tactic

/-!
# No chain is stale

A chain may be kept with its entry, found in the cache under an equal key, or
compiled afresh.  `Router.Sound` holds the three together: numbers stand for
handlers, a cached chain consists of the handlers of its key, and a chain kept
with an entry is that of the middleware and the handlers of the entry.  New
middleware keeps it true by making every chain void.

A sound router serves an answer by its middleware and the handlers of the
entry.  Which handlers those are is read in the journal of the session.
-/

namespace Dispatch

variable {ε σ : Type} {known : Set (Handler ε σ)}

/-! ## Entries -/

namespace Entry

structure Sound (entry : Entry ε σ) (registry : HandlerRegistry ε σ)
    (known : Set (Handler ε σ)) (middleware : List (Handler ε σ)) : Prop where
  lists : registry.Lists known entry.handlers entry.ids
  chain : ∀ chain, entry.chain = some chain →
    chain.handlers = middleware ++ entry.handlers

section

variable {entry : Entry ε σ} {registry later : HandlerRegistry ε σ}
  {middleware handlers : List (Handler ε σ)}

theorem Sound.extend (hsound : entry.Sound registry known middleware)
    (hextends : later.Extends registry) :
    entry.Sound later known middleware where
  lists := hsound.lists.extend hextends
  chain := hsound.chain

/-- Without a chain, an entry suits any middleware. -/
theorem Sound.forget (hsound : entry.Sound registry known middleware)
    (others : List (Handler ε σ)) :
    entry.forget.Sound registry known others where
  lists := hsound.lists
  chain := by
    intro chain hchain
    contradiction

theorem Sound.keep (hsound : entry.Sound registry known middleware)
    {chain : Chain ε σ}
    (hchain : chain.handlers = middleware ++ entry.handlers) :
    Sound { entry with chain := some chain } registry known middleware where
  lists := hsound.lists
  chain := by
    intro kept hkept
    have hsame : chain = kept := Option.some.inj hkept
    rw [← hsame]
    exact hchain

theorem sound_register (registry : HandlerRegistry ε σ)
    (hknown : ∀ handler ∈ handlers, handler ∈ known)
    (middleware : List (Handler ε σ)) :
    (register handlers registry).1.Sound (register handlers registry).2 known
      middleware where
  lists := HandlerRegistry.lists_registerAll registry hknown
  chain := by
    intro chain hchain
    contradiction

end

end Entry

/-! ## Routers -/

namespace Router

structure Sound (router : Router ε σ) (known : Set (Handler ε σ)) : Prop where
  registry : router.registry.Sound
  table : router.table.Consistent
  middleware : router.registry.Lists known router.middleware router.middlewareIds
  routes : ∀ route ∈ router.table.routes,
    route.value.Sound router.registry known router.middleware
  notFound : router.notFound.Sound router.registry known router.middleware
  methodNotAllowed :
    router.methodNotAllowed.Sound router.registry known router.middleware
  chains : router.chains.Holds fun key chain =>
    router.registry.Lists known chain.handlers key.ids

section

variable {router : Router ε σ} {later : HandlerRegistry ε σ}
  {handlers : List (Handler ε σ)} {handler : Handler ε σ}

theorem Sound.withPools (hsound : router.Sound known) (pools : Pools ε σ) :
    Sound { router with pools } known :=
  { hsound with }

theorem Sound.withRegistry (hsound : router.Sound known) (hlater : later.Sound)
    (hextends : later.Extends router.registry) :
    Sound { router with registry := later } known where
  registry := hlater
  table := hsound.table
  middleware := hsound.middleware.extend hextends
  routes := fun route hmem => (hsound.routes route hmem).extend hextends
  notFound := hsound.notFound.extend hextends
  methodNotAllowed := hsound.methodNotAllowed.extend hextends
  chains := hsound.chains.mono fun _ _ hlists => hlists.extend hextends

theorem Sound.registering (hsound : router.Sound known)
    (handlers : List (Handler ε σ)) :
    Sound { router with
      registry := (Entry.register handlers router.registry).2 } known := by
  apply hsound.withRegistry
  · exact hsound.registry.registerAll handlers
  · exact HandlerRegistry.extends_registerAll router.registry handlers

/-! ### Registration -/

theorem Sound.register (hsound : router.Sound known) (method : Option Method)
    (template : String) (hknown : ∀ handler ∈ handlers, handler ∈ known) :
    (router.register method template handlers).router.Sound known := by
  have hnumbered := hsound.registering handlers
  rcases router.register_cases method template handlers with
    ⟨_, _, hsame | hnew⟩ | ⟨pattern, hcompiled, _, hrouter⟩
  · rw [hsame]
    exact hsound
  · rw [hnew]
    exact hnumbered
  · have hentry := Entry.sound_register router.registry hknown router.middleware
    rw [hrouter]
    exact { hnumbered with
      table := hnumbered.table.push hcompiled
      routes := by
        intro route hmem
        rcases RouteTable.mem_push.mp hmem with hold | hlast
        · exact hnumbered.routes route hold
        · rw [hlast]
          exact hentry
    }

theorem Sound.setNotFound (hsound : router.Sound known)
    (hknown : handler ∈ known) : (router.setNotFound handler).Sound known := by
  have hnumbered := hsound.registering [handler]
  have hentry := Entry.sound_register router.registry
    (List.forall_mem_singleton.mpr hknown) router.middleware
  exact { hnumbered with notFound := hentry }

theorem Sound.setMethodNotAllowed (hsound : router.Sound known)
    (hknown : handler ∈ known) :
    (router.setMethodNotAllowed handler).Sound known := by
  have hnumbered := hsound.registering [handler]
  have hentry := Entry.sound_register router.registry
    (List.forall_mem_singleton.mpr hknown) router.middleware
  exact { hnumbered with methodNotAllowed := hentry }

theorem Sound.setErrorHandler (hsound : router.Sound known)
    (errorHandler : ErrorHandler ε σ) :
    (router.setErrorHandler errorHandler).Sound known :=
  { hsound with }

/-! ### Middleware -/

/-- A router with more middleware, before its chains are made void. -/
def withMiddleware (router : Router ε σ) (handlers : List (Handler ε σ)) :
    Router ε σ :=
  { router with
    registry := (router.registry.registerAll handlers).2
    middleware := router.middleware ++ handlers
    middlewareIds :=
      router.middlewareIds ++ (router.registry.registerAll handlers).1 }

theorem withMiddleware_cons (router : Router ε σ) (handler : Handler ε σ)
    (rest : List (Handler ε σ)) :
    (router.addMiddleware handler).1.withMiddleware rest =
      router.withMiddleware (handler :: rest) := by
  have hids : router.middlewareIds ++
        (router.registry.registerAll (handler :: rest)).1 =
      (router.middlewareIds ++ [(router.registry.register handler).1]) ++
        ((router.registry.register handler).2.registerAll rest).1 :=
    List.append_cons _ _ _
  unfold withMiddleware
  rw [hids, List.append_cons router.middleware]
  rfl

theorem foldl_addMiddleware (router : Router ε σ)
    (handlers : List (Handler ε σ)) (events : List Event) :
    (handlers.foldl (fun (router, events) handler =>
        let (router, event) := router.addMiddleware handler
        (router, events ++ [event])) (router, events)).1 =
      router.withMiddleware handlers := by
  induction handlers generalizing router events with
  | nil =>
      unfold withMiddleware HandlerRegistry.registerAll
      rw [List.append_nil, List.append_nil]
      rfl
  | cons handler rest ih =>
      rw [List.foldl_cons, ← withMiddleware_cons]
      exact ih _ _

theorem useMiddleware_eq (router : Router ε σ) (handlers : List (Handler ε σ)) :
    (router.useMiddleware handlers).1 =
      (router.withMiddleware handlers).forgetChains := by
  rw [← foldl_addMiddleware router handlers []]
  rfl

theorem Sound.useMiddleware (hsound : router.Sound known)
    (hknown : ∀ handler ∈ handlers, handler ∈ known) :
    (router.useMiddleware handlers).1.Sound known := by
  have hnumbered := hsound.registering handlers
  rw [useMiddleware_eq]
  exact {
    registry := hnumbered.registry
    table :=
      (RouteTable.sameShape_mapValues router.table Entry.forget).consistent
        hsound.table
    middleware := hnumbered.middleware.append
      (HandlerRegistry.lists_registerAll router.registry hknown)
    routes := by
      intro route hmem
      obtain ⟨old, hold, rfl⟩ := Array.mem_map.mp hmem
      exact (hnumbered.routes old hold).forget _
    notFound := hnumbered.notFound.forget _
    methodNotAllowed := hnumbered.methodNotAllowed.forget _
    chains := ChainCache.holds_empty _
  }

theorem sound_ofSettings (settings : Settings)
    (hnotFound : .notFound ∈ known)
    (hmethodNotAllowed : .methodNotAllowed ∈ known) :
    (ofSettings settings : Router ε σ).Sound known := by
  let first : HandlerRegistry ε σ :=
    (Entry.register [.notFound] HandlerRegistry.empty).2
  have hfirst : first.Sound :=
    HandlerRegistry.sound_empty.registerAll [.notFound]
  have hnotFoundEntry := Entry.sound_register HandlerRegistry.empty
    (List.forall_mem_singleton.mpr hnotFound) []
  have hrefusalEntry := Entry.sound_register first
    (List.forall_mem_singleton.mpr hmethodNotAllowed) []
  have hextends := HandlerRegistry.extends_registerAll first
    [.methodNotAllowed]
  exact {
    registry := hfirst.registerAll [.methodNotAllowed]
    table := RouteTable.consistent_empty _ _
    middleware := ⟨rfl, List.forall_mem_nil _⟩
    routes := by
      intro route hmem
      exact absurd hmem (Array.not_mem_empty route)
    notFound := hnotFoundEntry.extend hextends
    methodNotAllowed := hrefusalEntry
    chains := ChainCache.holds_empty _
  }

/-! ### Serving -/

/-- A route that is answered stands in the table. -/
def Offers (router : Router ε σ) (answer : Lookup (Entry ε σ)) : Prop :=
  ∀ route, answer = .found route →
    router.table.routes[route.id]? = some route

theorem offers_lookup (htable : router.table.Consistent) (method : Method)
    (target : String) (captures : Captures) :
    router.Offers (router.table.lookup method target captures).1 := by
  intro route hfound
  have hroute := (htable.lookup_eq_found_iff.mp hfound).1
  exact htable.getElem?_id hroute

theorem Sound.offers_lookup (hsound : router.Sound known) (method : Method)
    (target : String) (captures : Captures) :
    router.Offers (router.table.lookup method target captures).1 :=
  Router.offers_lookup hsound.table method target captures

variable {answer : Lookup (Entry ε σ)}

theorem Sound.entryOf (hsound : router.Sound known)
    (hoffers : router.Offers answer) :
    (router.entryOf answer).Sound router.registry known router.middleware := by
  cases answer with
  | found route =>
      have hroute := Array.mem_of_getElem? (hoffers route rfl)
      exact hsound.routes route hroute
  | methodNotAllowed allow => exact hsound.methodNotAllowed
  | notFound => exact hsound.notFound

theorem Sound.pin (hsound : router.Sound known) (hoffers : router.Offers answer)
    {chain : Chain ε σ}
    (hchain : chain.handlers =
      router.middleware ++ (router.entryOf answer).handlers) :
    (router.pin answer chain).Sound known := by
  have hkept := (hsound.entryOf hoffers).keep hchain
  cases answer with
  | found route =>
      let keep : Entry ε σ → Entry ε σ :=
        fun entry => { entry with chain := some chain }
      have hshape := RouteTable.sameShape_modify router.table route.id keep
      exact { hsound with
        table := hshape.consistent hsound.table
        routes := by
          intro changed hmem
          obtain ⟨place, hplace⟩ := Array.mem_iff_getElem?.mp hmem
          have hmodify :=
            RouteTable.getElem?_modify router.table route.id place keep
          have hchanged := hmodify.symm.trans hplace
          obtain ⟨old, hold, rfl⟩ := Option.map_eq_some_iff.mp hchanged
          split_ifs with hid
          · -- the place of the route holds the route that was answered
            rw [← hid, hoffers route rfl] at hold
            obtain rfl := Option.some.inj hold
            exact hkept
          · exact hsound.routes old (Array.mem_of_getElem? hold)
      }
  | methodNotAllowed allow => exact { hsound with methodNotAllowed := hkept }
  | notFound => exact { hsound with notFound := hkept }

/-- Kept, cached or new, the chain of an answer is the middleware and the
handlers of the entry. -/
theorem Sound.chainFor (hidentity : Set.InjOn Handler.identity known)
    (hsound : router.Sound known) (hoffers : router.Offers answer) :
    (router.chainFor answer).1.handlers =
        router.middleware ++ (router.entryOf answer).handlers ∧
      (router.chainFor answer).2.1.Sound known := by
  have hentry := hsound.entryOf hoffers
  unfold Router.chainFor
  dsimp only
  cases hkept : (router.entryOf answer).chain with
  | some chain => exact ⟨hentry.chain chain hkept, hsound⟩
  | none =>
      have hkey : router.registry.Lists known
          (router.middleware ++ (router.entryOf answer).handlers)
          (router.keyOf (router.entryOf answer)).ids :=
        hsound.middleware.append hentry.lists
      have hcompiled : router.registry.Lists known
          (Chain.compile (router.keyOf (router.entryOf answer)) router.middleware
            (router.entryOf answer).handlers).handlers
          (router.keyOf (router.entryOf answer)).ids := by
        rw [Chain.handlers_compile]
        exact hkey
      obtain ⟨hgot, hcache⟩ := hsound.chains.getOrBuild hcompiled
      have hhandlers := hgot.unique hidentity hsound.registry hkey
      have hcached : Sound { router with
          chains := (router.chains.getOrBuild
            (router.keyOf (router.entryOf answer)) fun cache =>
              (.compile (router.keyOf (router.entryOf answer))
                router.middleware (router.entryOf answer).handlers,
                cache)).cache } known :=
        { hsound with chains := hcache }
      exact ⟨hhandlers, hcached.pin hoffers hhandlers⟩

theorem Sound.process (hidentity : Set.InjOn Handler.identity known)
    (hsound : router.Sound known) (request : Request) (outside : σ) :
    (router.process request outside).router.Sound known := by
  unfold Router.process
  dsimp only
  have hacquired := hsound.withPools
    { router.pools with contexts := router.pools.contexts.acquire.2 }
  exact (hacquired.chainFor hidentity (hacquired.offers_lookup _ _ _)).2

theorem Sound.visit (hidentity : Set.InjOn Handler.identity known)
    (hsound : router.Sound known) (visit : Visit σ) :
    (router.visit visit).Sound known := by
  rcases router.visit_cases visit with
    ⟨request, outside, context, _, hvisit⟩ | ⟨_, store, hvisit⟩
  · rw [hvisit]
    exact (hsound.process hidentity request outside).withPools _
  · rw [hvisit]
    exact hsound.withPools _

theorem Sound.visits (hidentity : Set.InjOn Handler.identity known)
    (hsound : router.Sound known) (visits : List (Visit σ)) :
    (visits.foldl Router.visit router).Sound known := by
  induction visits generalizing router with
  | nil => exact hsound
  | cons first rest ih =>
      rw [List.foldl_cons]
      exact ih (hsound.visit hidentity first)

end

end Router

/-! ## Sessions -/

namespace Session

structure Sound (session : Session ε σ) (known : Set (Handler ε σ)) : Prop where
  router : session.router.Sound known
  groups : ∀ group ∈ session.groups, ∀ handler ∈ group.middleware,
    handler ∈ known

section

variable {session : Session ε σ} {handlers : List (Handler ε σ)}

theorem Sound.inherited (hsound : session.Sound known) :
    ∀ handler ∈ session.inherited, handler ∈ known := by
  unfold Session.inherited
  cases hgroups : session.groups with
  | nil => exact List.forall_mem_nil _
  | cons group outer =>
      apply hsound.groups group
      rw [hgroups]
      exact List.mem_cons_self

theorem openGroup_middleware (session : Session ε σ) (base : String) :
    (session.openGroup base).middleware = session.inherited := by
  unfold openGroup Session.inherited
  cases session.groups <;> rfl

theorem Sound.register (hsound : session.Sound known) (method : Option Method)
    (template : String) (hknown : ∀ handler ∈ handlers, handler ∈ known) :
    (session.register method template handlers).router.Sound known := by
  rcases session.register_eq method template handlers with
    ⟨_, hrefused⟩ | ⟨full, hregistered⟩
  · rw [hrefused]
    exact hsound.router
  · rw [hregistered]
    apply hsound.router.register
    intro handler hmem
    rcases List.mem_append.mp hmem with hinherited | hown
    · exact hsound.inherited handler hinherited
    · exact hknown handler hown

theorem Sound.useInGroup (hsound : session.Sound known)
    (hknown : ∀ handler ∈ handlers, handler ∈ known) :
    (session.apply (.useInGroup handlers)).Sound known where
  router := hsound.router
  groups := by
    have hgroups := hsound.groups
    unfold Session.apply
    dsimp only
    cases hopen : session.groups with
    | nil => exact List.forall_mem_nil _
    | cons inner outer =>
        rw [hopen] at hgroups
        rw [List.modifyHead_cons, List.forall_mem_cons]
        obtain ⟨hinner, houter⟩ := List.forall_mem_cons.mp hgroups
        refine ⟨?_, houter⟩
        intro handler hmem
        rcases List.mem_append.mp hmem with hold | hnew
        · exact hinner handler hold
        · exact hknown handler hnew

theorem Sound.apply (hidentity : Set.InjOn Handler.identity known)
    (hsound : session.Sound known) (operation : Operation ε σ)
    (hknown : ∀ handler ∈ operation.handlers, handler ∈ known) :
    (session.apply operation).Sound known := by
  cases operation with
  | openGroup base =>
      have hgroups : (session.apply (.openGroup base)).groups =
          session.openGroup base :: session.groups := rfl
      refine ⟨hsound.router, ?_⟩
      rw [hgroups, List.forall_mem_cons, openGroup_middleware]
      exact ⟨hsound.inherited, hsound.groups⟩
  | closeGroup =>
      refine ⟨hsound.router, ?_⟩
      intro group hmem
      exact hsound.groups group (List.mem_of_mem_tail hmem)
  | useInGroup handlers => exact hsound.useInGroup hknown
  | register method template handlers =>
      exact ⟨hsound.register method template hknown, hsound.groups⟩
  | useMiddleware handlers =>
      exact ⟨hsound.router.useMiddleware hknown, hsound.groups⟩
  | setNotFound handler =>
      have hhandler := List.forall_mem_singleton.mp hknown
      exact ⟨hsound.router.setNotFound hhandler, hsound.groups⟩
  | setMethodNotAllowed handler =>
      have hhandler := List.forall_mem_singleton.mp hknown
      exact ⟨hsound.router.setMethodNotAllowed hhandler, hsound.groups⟩
  | setErrorHandler handler =>
      exact ⟨hsound.router.setErrorHandler handler, hsound.groups⟩
  | visit visit => exact ⟨hsound.router.visit hidentity visit, hsound.groups⟩

end

end Session

theorem Run.sound_ofOperations (settings : Settings)
    {operations : List (Operation ε σ)}
    (hidentity : Set.InjOn Handler.identity known)
    (hknown : Operation.allHandlers operations ⊆ known) :
    (Run.ofOperations settings operations).session.Sound known := by
  induction operations using List.reverseRecOn with
  | nil =>
      refine ⟨Router.sound_ofSettings settings ?_ ?_, List.forall_mem_nil _⟩
      · exact hknown (Or.inl rfl)
      · exact hknown (Or.inr (Or.inl rfl))
  | append_singleton operations operation ih =>
      rw [Run.ofOperations_concat]
      apply Session.Sound.apply hidentity
      · apply ih
        intro handler hmem
        apply hknown
        rcases hmem with hfirst | hsecond | ⟨other, hother, hhandler⟩
        · exact Or.inl hfirst
        · exact Or.inr (Or.inl hsecond)
        · exact Or.inr (Or.inr ⟨other, List.mem_append_left _ hother, hhandler⟩)
      · intro handler hmem
        apply hknown
        exact Or.inr (Or.inr ⟨operation, List.mem_append_right _
          List.mem_cons_self, hmem⟩)

end Dispatch
