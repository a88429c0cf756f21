import Dispatch.Proofs.Router.Isolation
import Mathlib.Tactic

/-!
# Routers that differ in the numbers of their handlers

The number of a handler depends on what was registered before it, also if that
was refused.  Numbers are compared with each other and nothing else is done with
them, so it matters only which of them are equal.

Two routers are twins if they agree in all but the numbers, and the numbers of
one rename those of the other.  The chains in their caches correspond one by
one, so one cache has a chain whenever the other has.  What is done to both
leaves them twins, and they answer alike.
-/

namespace Dispatch

variable {ε σ : Type}

/-- Chains that may differ in their keys. -/
def Chain.SameHandlers (first second : Chain ε σ) : Prop :=
  first.handlers = second.handlers

theorem cases_of_rel {α β : Type} {R : α → β → Prop} {left : Option α}
    {right : Option β} (hrel : Option.Rel R left right) :
    left = none ∧ right = none ∨
      ∃ x y, left = some x ∧ right = some y ∧ R x y := by
  cases hrel with
  | none => exact Or.inl ⟨rfl, rfl⟩
  | some hvalues => exact Or.inr ⟨_, _, rfl, rfl, hvalues⟩

/-! ## Chain caches -/

namespace ChainCache

/-- The chains correspond one by one under renamed keys. -/
structure Twin (left right : HandlerRegistry ε σ)
    (a b : ChainCache (Chain ε σ)) : Prop where
  chains : List.Forall₂ (fun entry other =>
    left.Renames right entry.1.ids other.1.ids ∧
      entry.2.SameHandlers other.2) a.chains b.chains
  hits : a.hits = b.hits
  misses : a.misses = b.misses

section

variable {left right leftLater rightLater : HandlerRegistry ε σ}
  {a b : ChainCache (Chain ε σ)} {key other : ChainKey}

theorem twin_empty (left right : HandlerRegistry ε σ) :
    Twin left right .empty .empty :=
  ⟨.nil, rfl, rfl⟩

theorem Twin.extend (htwin : Twin left right a b)
    (hleft : leftLater.Extends left) (hright : rightLater.Extends right) :
    Twin leftLater rightLater a b where
  chains := htwin.chains.imp fun _ _ hentry =>
    ⟨hentry.1.extend hleft hright, hentry.2⟩
  hits := htwin.hits
  misses := htwin.misses

theorem Twin.get? (htwin : Twin left right a b) (hleft : left.Sound)
    (hright : right.Sound) (hkey : left.Renames right key.ids other.ids) :
    Option.Rel Chain.SameHandlers (a.get? key) (b.get? other) := by
  obtain ⟨hchains, _, _⟩ := htwin
  unfold ChainCache.get?
  generalize a.chains = chains at hchains ⊢
  generalize b.chains = others at hchains ⊢
  induction hchains with
  | nil => exact .none
  | @cons entry twin rest twins hentry hrest ih =>
      obtain ⟨⟨ids⟩, chain⟩ := entry
      obtain ⟨⟨twinIds⟩, twinChain⟩ := twin
      -- both searches stop at this entry, or both go on
      have hequal := hkey.eq_iff hleft hright hentry.1
      by_cases hids : key.ids = ids
      · obtain rfl : key = ⟨ids⟩ := congrArg ChainKey.mk hids
        obtain rfl : other = ⟨twinIds⟩ :=
          congrArg ChainKey.mk (hequal.mp hids)
        rw [List.lookup_cons_self, List.lookup_cons_self]
        exact .some hentry.2
      · have hne : key ≠ ⟨ids⟩ := fun h => hids (congrArg ChainKey.ids h)
        have hneTwin : other ≠ ⟨twinIds⟩ := fun h =>
          hids (hequal.mpr (congrArg ChainKey.ids h))
        rw [KeyedList.lookup_cons_of_ne hne,
          KeyedList.lookup_cons_of_ne hneTwin]
        exact ih

/-- Both caches answer, or both have to build. -/
theorem Twin.getOrBuild (htwin : Twin left right a b) (hleft : left.Sound)
    (hright : right.Sound) (hkey : left.Renames right key.ids other.ids)
    {chain twin : Chain ε σ} (hchain : chain.SameHandlers twin) :
    (a.getOrBuild key fun cache => (chain, cache)).chain.SameHandlers
        (b.getOrBuild other fun cache => (twin, cache)).chain ∧
      Twin left right (a.getOrBuild key fun cache => (chain, cache)).cache
        (b.getOrBuild other fun cache => (twin, cache)).cache := by
  unfold ChainCache.getOrBuild
  rcases cases_of_rel (htwin.get? hleft hright hkey) with
    ⟨habsent, habsentTwin⟩ | ⟨present, found, hpresent, hfound, hsame⟩
  · have hcounted : ChainCache.get?
        { a with misses := a.misses + 1 } key = none := habsent
    have hcountedTwin : ChainCache.get?
        { b with misses := b.misses + 1 } other = none := habsentTwin
    rw [habsent, habsentTwin]
    dsimp only
    unfold ChainCache.putIfAbsent
    rw [hcounted, hcountedTwin]
    exact ⟨hchain, List.rel_append htwin.chains (.cons ⟨hkey, hchain⟩ .nil),
      htwin.hits, congrArg Nat.succ htwin.misses⟩
  · rw [hpresent, hfound]
    exact ⟨hsame, htwin.chains, congrArg Nat.succ htwin.hits, htwin.misses⟩

end

end ChainCache

/-! ## Entries -/

namespace Entry

structure Twin (left right : HandlerRegistry ε σ) (a b : Entry ε σ) : Prop where
  handlers : a.handlers = b.handlers
  ids : left.Renames right a.ids b.ids
  chain : Option.Rel Chain.SameHandlers a.chain b.chain

section

variable {left right leftLater rightLater : HandlerRegistry ε σ}
  {a b : Entry ε σ}

theorem Twin.extend (htwin : a.Twin left right b)
    (hleft : leftLater.Extends left) (hright : rightLater.Extends right) :
    a.Twin leftLater rightLater b where
  handlers := htwin.handlers
  ids := htwin.ids.extend hleft hright
  chain := htwin.chain

theorem Twin.forget (htwin : a.Twin left right b) :
    a.forget.Twin left right b.forget where
  handlers := htwin.handlers
  ids := htwin.ids
  chain := .none

theorem Twin.keep (htwin : a.Twin left right b) {chain twin : Chain ε σ}
    (hchain : chain.SameHandlers twin) :
    Twin left right { a with chain := some chain }
      { b with chain := some twin } where
  handlers := htwin.handlers
  ids := htwin.ids
  chain := .some hchain

theorem twin_register (left right : HandlerRegistry ε σ)
    (handlers : List (Handler ε σ)) :
    (register handlers left).1.Twin (register handlers left).2
      (register handlers right).2 (register handlers right).1 where
  handlers := rfl
  ids := HandlerRegistry.renames_registerAll left right handlers
  chain := .none

end

end Entry

/-! ## Routers -/

namespace Router

structure Twin (a b : Router ε σ) : Prop where
  left : a.registry.Sound
  right : b.registry.Sound
  table : a.table.Related (Entry.Twin a.registry b.registry) b.table
  middleware : a.middleware = b.middleware
  middlewareIds :
    a.registry.Renames b.registry a.middlewareIds b.middlewareIds
  chains : a.chains.Twin a.registry b.registry b.chains
  notFound : a.notFound.Twin a.registry b.registry b.notFound
  methodNotAllowed :
    a.methodNotAllowed.Twin a.registry b.registry b.methodNotAllowed
  errorHandler : a.errorHandler = b.errorHandler
  pools : a.pools = b.pools
  settings : a.settings = b.settings

section

variable {a b : Router ε σ} {left right : HandlerRegistry ε σ}

/-- More handlers may become known to each of the two. -/
theorem Twin.withRegistries (htwin : a.Twin b) (hleft : left.Sound)
    (hright : right.Sound) (hextends : left.Extends a.registry)
    (hextendsTwin : right.Extends b.registry) :
    Twin { a with registry := left } { b with registry := right } where
  left := hleft
  right := hright
  table := htwin.table.imp fun _ _ hentry => hentry.extend hextends hextendsTwin
  middleware := htwin.middleware
  middlewareIds := htwin.middlewareIds.extend hextends hextendsTwin
  chains := htwin.chains.extend hextends hextendsTwin
  notFound := htwin.notFound.extend hextends hextendsTwin
  methodNotAllowed := htwin.methodNotAllowed.extend hextends hextendsTwin
  errorHandler := htwin.errorHandler
  pools := htwin.pools
  settings := htwin.settings

theorem Twin.registering (htwin : a.Twin b) (handlers : List (Handler ε σ)) :
    Twin { a with registry := (Entry.register handlers a.registry).2 }
      { b with registry := (Entry.register handlers b.registry).2 } :=
  htwin.withRegistries (htwin.left.registerAll handlers)
    (htwin.right.registerAll handlers)
    (HandlerRegistry.extends_registerAll a.registry handlers)
    (HandlerRegistry.extends_registerAll b.registry handlers)

/-- A router whose registration was refused is still a twin. -/
theorem Twin.registeringLeft (htwin : a.Twin b)
    (handlers : List (Handler ε σ)) :
    Twin { a with registry := (Entry.register handlers a.registry).2 } b :=
  htwin.withRegistries (htwin.left.registerAll handlers) htwin.right
    (HandlerRegistry.extends_registerAll a.registry handlers) (.refl b.registry)

theorem Twin.withPools (htwin : a.Twin b) {pools others : Pools ε σ}
    (hpools : pools = others) :
    Twin { a with pools } { b with pools := others } :=
  { htwin with pools := hpools }

theorem twin_ofSettings (settings : Settings) :
    (ofSettings settings : Router ε σ).Twin (ofSettings settings) := by
  let first : HandlerRegistry ε σ :=
    (Entry.register [.notFound] HandlerRegistry.empty).2
  have hregistry : HandlerRegistry.Sound
      (first.registerAll [.methodNotAllowed]).2 :=
    (HandlerRegistry.sound_empty.registerAll [.notFound]).registerAll _
  have hextends := HandlerRegistry.extends_registerAll first
    [.methodNotAllowed]
  have hnotFound :=
    Entry.twin_register (.empty : HandlerRegistry ε σ) .empty [.notFound]
  have hrefusal := Entry.twin_register first first [.methodNotAllowed]
  exact {
    left := hregistry
    right := hregistry
    table := ⟨⟨rfl, rfl, rfl, rfl, rfl⟩, by
      intro id route other hroute
      contradiction⟩
    middleware := rfl
    middlewareIds := HandlerRegistry.renames_nil _ _
    chains := ChainCache.twin_empty _ _
    notFound := hnotFound.extend hextends hextends
    methodNotAllowed := hrefusal
    errorHandler := rfl
    pools := rfl
    settings := rfl
  }

/-! ### Registration -/

theorem Twin.register (htwin : a.Twin b) (method : Option Method)
    (template : String) (handlers : List (Handler ε σ)) :
    (a.register method template handlers).result =
        (b.register method template handlers).result ∧
      (a.register method template handlers).router.Twin
        (b.register method template handlers).router := by
  have hnumbered := htwin.registering handlers
  unfold Router.register
  split_ifs with hempty
  · exact ⟨rfl, htwin⟩
  · cases Pattern.compile template method with
    | error error => exact ⟨rfl, htwin⟩
    | ok pattern =>
        have hentry := Entry.twin_register a.registry b.registry handlers
        dsimp only
        rcases htwin.table.shape.insert_cases pattern
            (Entry.register handlers a.registry).1
            (Entry.register handlers b.registry).1 with
          ⟨error, hleft, hright⟩ | ⟨hleft, hright⟩
        · rw [hleft, hright]
          exact ⟨rfl, hnumbered⟩
        · rw [hleft, hright]
          exact ⟨rfl,
            { hnumbered with table := hnumbered.table.push pattern hentry }⟩

theorem Twin.useMiddleware (htwin : a.Twin b) (handlers : List (Handler ε σ)) :
    (a.useMiddleware handlers).1.Twin (b.useMiddleware handlers).1 := by
  have hnumbered := htwin.registering handlers
  rw [useMiddleware_eq, useMiddleware_eq]
  exact { hnumbered with
    table := hnumbered.table.mapValues fun _ _ hentry => hentry.forget
    middleware := congrArg (· ++ handlers) htwin.middleware
    middlewareIds := hnumbered.middlewareIds.append
      (HandlerRegistry.renames_registerAll a.registry b.registry handlers)
    chains := ChainCache.twin_empty _ _
    notFound := hnumbered.notFound.forget
    methodNotAllowed := hnumbered.methodNotAllowed.forget
  }

theorem Twin.setNotFound (htwin : a.Twin b) (handler : Handler ε σ) :
    (a.setNotFound handler).Twin (b.setNotFound handler) :=
  { htwin.registering [handler] with
    notFound := Entry.twin_register a.registry b.registry [handler] }

theorem Twin.setMethodNotAllowed (htwin : a.Twin b) (handler : Handler ε σ) :
    (a.setMethodNotAllowed handler).Twin (b.setMethodNotAllowed handler) :=
  { htwin.registering [handler] with
    methodNotAllowed := Entry.twin_register a.registry b.registry [handler] }

theorem Twin.setErrorHandler (htwin : a.Twin b)
    (errorHandler : ErrorHandler ε σ) :
    (a.setErrorHandler errorHandler).Twin (b.setErrorHandler errorHandler) :=
  { htwin with errorHandler := rfl }

/-! ### Serving -/

theorem Twin.entryOf_lookup (htwin : a.Twin b) (method : Method)
    (target : String) (captures : Captures) :
    Entry.Twin a.registry b.registry
      (a.entryOf (a.table.lookup method target captures).1)
      (b.entryOf (b.table.lookup method target captures).1) := by
  have hbare := (htwin.table.shape.lookup method target captures).1
  rcases Lookup.cases_of_bare hbare with
    ⟨route, other, hleft, hright, _⟩ | ⟨allow, hleft, hright⟩ |
      ⟨hleft, hright⟩
  · rw [hleft, hright]
    exact htwin.table.found hleft hright
  · rw [hleft, hright]
    exact htwin.methodNotAllowed
  · rw [hleft, hright]
    exact htwin.notFound

section

variable {answer other : Lookup (Entry ε σ)}

theorem Twin.pin (htwin : a.Twin b) (hbare : answer.bare = other.bare)
    {chain twin : Chain ε σ} (hchain : chain.SameHandlers twin) :
    (a.pin answer chain).Twin (b.pin other twin) := by
  rcases Lookup.cases_of_bare hbare with
    ⟨route, same, rfl, rfl, hid, _⟩ | ⟨allow, rfl, rfl⟩ | ⟨rfl, rfl⟩
  · unfold Router.pin
    dsimp only
    rw [← hid]
    exact { htwin with
      table := htwin.table.modify route.id fun _ _ hentry =>
        hentry.keep hchain }
  · exact { htwin with
      methodNotAllowed := htwin.methodNotAllowed.keep hchain }
  · exact { htwin with notFound := htwin.notFound.keep hchain }

/-- Both routers have kept a chain, or both find one in the cache, or both
compile one. -/
theorem Twin.chainFor (htwin : a.Twin b) (hbare : answer.bare = other.bare)
    (hentry : Entry.Twin a.registry b.registry (a.entryOf answer)
      (b.entryOf other)) :
    (a.chainFor answer).1.SameHandlers (b.chainFor other).1 ∧
      (a.chainFor answer).2.1.Twin (b.chainFor other).2.1 := by
  unfold Router.chainFor
  dsimp only
  rcases cases_of_rel hentry.chain with
    ⟨hleft, hright⟩ | ⟨chain, twin, hleft, hright, hsame⟩
  · rw [hleft, hright]
    have hkey : a.registry.Renames b.registry
        (a.keyOf (a.entryOf answer)).ids (b.keyOf (b.entryOf other)).ids :=
      htwin.middlewareIds.append hentry.ids
    have hcompiled : Chain.SameHandlers
        (.compile (a.keyOf (a.entryOf answer)) a.middleware
          (a.entryOf answer).handlers)
        (.compile (b.keyOf (b.entryOf other)) b.middleware
          (b.entryOf other).handlers) := by
      unfold Chain.SameHandlers
      rw [Chain.handlers_compile, Chain.handlers_compile,
        htwin.middleware, hentry.handlers]
    obtain ⟨hchain, hcache⟩ :=
      htwin.chains.getOrBuild htwin.left htwin.right hkey hcompiled
    have hcached : Twin
        { a with chains := (a.chains.getOrBuild
          (a.keyOf (a.entryOf answer)) fun cache =>
            (.compile (a.keyOf (a.entryOf answer)) a.middleware
              (a.entryOf answer).handlers, cache)).cache }
        { b with chains := (b.chains.getOrBuild
          (b.keyOf (b.entryOf other)) fun cache =>
            (.compile (b.keyOf (b.entryOf other)) b.middleware
              (b.entryOf other).handlers, cache)).cache } :=
      { htwin with chains := hcache }
    exact ⟨hchain, hcached.pin hbare hchain⟩
  · rw [hleft, hright]
    exact ⟨hsame, htwin⟩

end

theorem Twin.serve (htwin : a.Twin b) (context : Context ε σ) (outside : σ)
    {first second : Chain ε σ} (hhandlers : first.SameHandlers second) :
    a.serve context outside first = b.serve context outside second := by
  unfold Router.serve Router.finish
  rw [context.run_of_handlers outside hhandlers, htwin.errorHandler,
    htwin.settings]

theorem Twin.acquired (htwin : a.Twin b) : a.acquired.Twin b.acquired := by
  apply htwin.withPools
  rw [htwin.pools]

theorem Twin.answerTo (htwin : a.Twin b) (request : Request) :
    (a.answerTo request).bare = (b.answerTo request).bare := by
  unfold Router.answerTo
  rw [htwin.pools]
  exact (htwin.table.shape.lookup _ _ _).1

theorem Twin.loaded (htwin : a.Twin b) (request : Request) :
    a.loaded request = b.loaded request := by
  have hlookup := htwin.table.shape.lookup request.method request.path
    b.pools.contexts.acquire.1.exchange.captures
  unfold Router.loaded
  dsimp only
  rw [htwin.pools, hlookup.2, prepare_eq_of_bare hlookup.1]

theorem Twin.process (htwin : a.Twin b) (request : Request) (outside : σ) :
    (a.process request outside).report.result =
        (b.process request outside).report.result ∧
      (a.process request outside).router.Twin
        (b.process request outside).router := by
  have hentry : Entry.Twin a.registry b.registry
      (a.acquired.entryOf (a.answerTo request))
      (b.acquired.entryOf (b.answerTo request)) := by
    unfold Router.answerTo
    rw [htwin.pools]
    exact htwin.acquired.entryOf_lookup _ _ _
  obtain ⟨hchain, hrouter⟩ :=
    htwin.acquired.chainFor (htwin.answerTo request) hentry
  refine ⟨?_, hrouter⟩
  rw [process_result, process_result, htwin.loaded request,
    hrouter.serve _ outside hchain]

theorem Twin.conclude {processed other : Processed ε σ}
    (hrouter : processed.router.Twin other.router)
    (hresult : processed.report.result = other.report.result)
    (take : Exchange ε → Response × Exchange ε) :
    (processed.conclude take).result = (other.conclude take).result ∧
      (processed.conclude take).outside = (other.conclude take).outside ∧
      (processed.conclude take).router.Twin (other.conclude take).router := by
  have hreleased : ∀ context : Context ε σ,
      (processed.router.release context).Twin (other.router.release context) := by
    intro context
    apply hrouter.withPools
    rw [hrouter.pools]
  unfold Processed.conclude
  rw [hresult]
  dsimp only
  split
  · exact ⟨rfl, rfl, hreleased _⟩
  · exact ⟨rfl, rfl, hreleased _⟩

theorem Twin.resolve (htwin : a.Twin b) (method : Method) (target : String) :
    (a.resolve method target).resolution =
        (b.resolve method target).resolution ∧
      (a.resolve method target).router.Twin
        (b.resolve method target).router := by
  have hlookup := htwin.table.shape.lookup method target
    b.pools.captures.acquire.1
  unfold Router.resolve
  dsimp only
  rw [htwin.pools, hlookup.2]
  refine ⟨?_, htwin.withPools rfl⟩
  rcases Lookup.cases_of_bare hlookup.1 with
    ⟨route, other, hleft, hright, _, hpattern⟩ | ⟨allow, hleft, hright⟩ |
      ⟨hleft, hright⟩
  · rw [hleft, hright]
    dsimp only
    rw [hpattern]
  · rw [hleft, hright]
  · rw [hleft, hright]

end

end Router
end Dispatch
