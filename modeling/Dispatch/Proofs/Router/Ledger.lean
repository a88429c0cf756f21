import Dispatch.Proofs.Chain.Ledger
import Dispatch.Proofs.Router.Isolation
import Mathlib.Tactic

/-!
# Chains are compiled once

A ledger is kept beside a session.  It has a line for each request that was
served since the last change of the global middleware.  The places in it are the
routes and the handlers for unmatched requests; a handler that was replaced is
another place than the one that came after it.

Each route, and each of the two handlers, is the keeper of its chain, and the
router serves a request by fetching at a keeper.  Registration and replacement
bring in new keepers without a chain, at places that were not there before, and
new middleware closes the ledger and empties all keepers with the cache.  So the
ledger tallies after any operations, and the counts of the cache can be read in
it.
-/

namespace Dispatch

variable {ε σ : Type}

/-- What requests are served at.  Handlers for unmatched requests are told apart
by the number of those before them. -/
inductive Place where
  | route (id : RouteId)
  | notFound (replaced : Nat)
  | methodNotAllowed (replaced : Nat)
  deriving DecidableEq

/-! ## Ledgers -/

structure Ledger (ε σ : Type) where
  notFoundReplaced : Nat := 0
  methodNotAllowedReplaced : Nat := 0
  servings : List (Serving Place (Chain ε σ)) := []

namespace Ledger

def placeOf (ledger : Ledger ε σ) : Lookup (Entry ε σ) → Place
  | .found route => .route route.id
  | .methodNotAllowed _ => .methodNotAllowed ledger.methodNotAllowedReplaced
  | .notFound => .notFound ledger.notFoundReplaced

/-- The line for an answer that is about to be served.  A chain that is compiled
is reported. -/
def line (ledger : Ledger ε σ) (router : Router ε σ)
    (answer : Lookup (Entry ε σ)) : Serving Place (Chain ε σ) :=
  let got := router.chainFor answer
  { place := ledger.placeOf answer
    key := router.keyOf (router.entryOf answer)
    chain := got.1
    built := !got.2.2.isEmpty }

def enter (ledger : Ledger ε σ) (serving : Serving Place (Chain ε σ)) :
    Ledger ε σ :=
  { ledger with servings := ledger.servings ++ [serving] }

/-- Notes an operation that is about to be applied to a router. -/
def note (ledger : Ledger ε σ) (router : Router ε σ) :
    Operation ε σ → Ledger ε σ
  | .useMiddleware _ => { ledger with servings := [] }
  | .setNotFound _ =>
    { ledger with notFoundReplaced := ledger.notFoundReplaced + 1 }
  | .setMethodNotAllowed _ =>
    { ledger with
      methodNotAllowedReplaced := ledger.methodNotAllowedReplaced + 1 }
  | .visit visit =>
    match visit.request? with
    | some request =>
      ledger.enter (ledger.line router.acquired (router.answerTo request))
    | none => ledger
  | .openGroup _ | .closeGroup | .useInGroup _ | .register .. |
    .setErrorHandler _ => ledger

end Ledger

/-- A session with its ledger. -/
structure Account (ε σ : Type) where
  session : Session ε σ
  ledger : Ledger ε σ := {}

namespace Account

def apply (account : Account ε σ) (operation : Operation ε σ) : Account ε σ :=
  { session := account.session.apply operation
    ledger := account.ledger.note account.session.router operation }

def ofOperations (settings : Settings) (operations : List (Operation ε σ)) :
    Account ε σ :=
  operations.foldl apply { session := .ofSettings settings }

theorem ofOperations_concat (settings : Settings)
    (operations : List (Operation ε σ)) (operation : Operation ε σ) :
    ofOperations settings (operations ++ [operation]) =
      (ofOperations settings operations).apply operation := by
  simp [ofOperations]

/-- The session is the one without a ledger. -/
theorem session_ofOperations (settings : Settings)
    (operations : List (Operation ε σ)) :
    (ofOperations settings operations).session =
      (Run.ofOperations settings operations).session := by
  induction operations using List.reverseRecOn with
  | nil => rfl
  | append_singleton operations operation ih =>
      rw [ofOperations_concat, Run.ofOperations_concat]
      exact congrArg (·.apply operation) ih

end Account

/-! ## Routers as keepers -/

namespace Router

def keeperOf (router : Router ε σ) (entry : Entry ε σ) : Keeper (Chain ε σ) :=
  { key := router.keyOf entry, chain := entry.chain }

/-- What an answer is served with, kept, found or compiled. -/
def fetched (router : Router ε σ) (answer : Lookup (Entry ε σ)) :
    ChainCache.Answer (Chain ε σ) :=
  let entry := router.entryOf answer
  (router.keeperOf entry).fetch router.chains
    (.compile (router.keyOf entry) router.middleware entry.handlers)

variable {router : Router ε σ} {answer : Lookup (Entry ε σ)}

theorem chainFor_eq_fetched (router : Router ε σ)
    (answer : Lookup (Entry ε σ)) :
    (router.chainFor answer).1 = (router.fetched answer).chain ∧
      (router.chainFor answer).2.1.chains = (router.fetched answer).cache ∧
      (!(router.chainFor answer).2.2.isEmpty) =
        (router.fetched answer).built := by
  unfold chainFor fetched Keeper.fetch keeperOf
  dsimp only
  cases (router.entryOf answer).chain with
  | some chain => exact ⟨rfl, rfl, rfl⟩
  | none =>
      dsimp only
      refine ⟨rfl, ?_, ?_⟩
      · cases answer <;> rfl
      · split_ifs with hbuilt
        · exact hbuilt.symm
        · exact (Bool.eq_false_iff.mpr hbuilt).symm

theorem chainFor_of_kept {chain : Chain ε σ}
    (hkept : (router.entryOf answer).chain = some chain) :
    (router.chainFor answer).2.1 = router ∧
      (router.fetched answer).chain = chain := by
  unfold chainFor fetched Keeper.fetch keeperOf
  dsimp only
  rw [hkept]
  exact ⟨rfl, rfl⟩

theorem chainFor_of_none (hnone : (router.entryOf answer).chain = none) :
    (router.chainFor answer).2.1 =
      { router with chains := (router.fetched answer).cache }.pin answer
        (router.fetched answer).chain := by
  unfold chainFor fetched Keeper.fetch keeperOf
  dsimp only
  rw [hnone]

end Router

namespace Ledger

def keepers (ledger : Ledger ε σ) (router : Router ε σ) :
    Place → Option (Keeper (Chain ε σ))
  | .route id =>
    router.table.routes[id]?.map fun route => router.keeperOf route.value
  | .notFound replaced =>
    if replaced = ledger.notFoundReplaced then
      some (router.keeperOf router.notFound)
    else none
  | .methodNotAllowed replaced =>
    if replaced = ledger.methodNotAllowedReplaced then
      some (router.keeperOf router.methodNotAllowed)
    else none

/-- The places that there have been so far. -/
def Knows (ledger : Ledger ε σ) (router : Router ε σ) : Place → Prop
  | .route id => id < router.table.routes.size
  | .notFound replaced => replaced ≤ ledger.notFoundReplaced
  | .methodNotAllowed replaced => replaced ≤ ledger.methodNotAllowedReplaced

structure Sound (ledger : Ledger ε σ) (router : Router ε σ) : Prop where
  table : router.table.Consistent
  known : ∀ serving ∈ ledger.servings, ledger.Knows router serving.place
  tallies : Tallies ledger.servings (ledger.keepers router) router.chains

section

variable {ledger : Ledger ε σ} {router : Router ε σ}
  {answer : Lookup (Entry ε σ)}

theorem keepers_route_eq_some {id : RouteId} {keeper : Keeper (Chain ε σ)} :
    ledger.keepers router (.route id) = some keeper ↔
      ∃ route, router.table.routes[id]? = some route ∧
        router.keeperOf route.value = keeper :=
  Option.map_eq_some_iff

theorem keepers_notFound_eq_some {replaced : Nat}
    {keeper : Keeper (Chain ε σ)} :
    ledger.keepers router (.notFound replaced) = some keeper ↔
      replaced = ledger.notFoundReplaced ∧
        router.keeperOf router.notFound = keeper := by
  simp [keepers]

theorem keepers_methodNotAllowed_eq_some {replaced : Nat}
    {keeper : Keeper (Chain ε σ)} :
    ledger.keepers router (.methodNotAllowed replaced) = some keeper ↔
      replaced = ledger.methodNotAllowedReplaced ∧
        router.keeperOf router.methodNotAllowed = keeper := by
  simp [keepers]

/-- Nothing was served yet at a place that is new. -/
theorem Sound.replace (hsound : ledger.Sound router) {later : Ledger ε σ}
    {changed : Router ε σ} (hservings : later.servings = ledger.servings)
    (hchains : changed.chains = router.chains)
    (htable : changed.table.Consistent)
    (hknows : ∀ place, ledger.Knows router place → later.Knows changed place)
    (hkeepers : ∀ place keeper, later.keepers changed place = some keeper →
      ledger.keepers router place = some keeper ∨
        ¬ ledger.Knows router place ∧ keeper.chain = none) :
    later.Sound changed where
  table := htable
  known := by
    rw [hservings]
    exact fun serving hmem => hknows _ (hsound.known serving hmem)
  tallies := by
    rw [hservings, hchains]
    apply hsound.tallies.replace
    intro place keeper hkeeper
    rcases hkeepers place keeper hkeeper with hold | ⟨hnew, hnone⟩
    · exact Or.inl hold
    · refine Or.inr ⟨?_, hnone⟩
      intro hmem
      obtain ⟨serving, hserving, rfl⟩ := List.mem_map.mp hmem
      exact hnew (hsound.known serving hserving)

theorem Sound.withPools (hsound : ledger.Sound router) (pools : Pools ε σ) :
    ledger.Sound { router with pools } :=
  ⟨hsound.table, hsound.known, hsound.tallies⟩

/-! ### Registration -/

theorem Sound.push (hsound : ledger.Sound router) {pattern : Pattern}
    (hcompiled : pattern.Compiled) (registry : HandlerRegistry ε σ)
    {entry : Entry ε σ} (hnone : entry.chain = none) :
    ledger.Sound
      { router with registry, table := router.table.push pattern entry } := by
  refine hsound.replace rfl rfl (hsound.table.push hcompiled) ?_ ?_
  · rintro (id | replaced | replaced) hknown
    · change id < (router.table.push pattern entry).routes.size
      rw [RouteTable.push_routes, Array.size_push]
      exact Nat.lt_succ_of_lt hknown
    · exact hknown
    · exact hknown
  · rintro (id | replaced | replaced) keeper hkeeper
    · obtain ⟨route, hroute, rfl⟩ := keepers_route_eq_some.mp hkeeper
      rw [RouteTable.push_routes, Array.getElem?_push] at hroute
      split_ifs at hroute with hid
      · obtain rfl := Option.some.inj hroute
        exact Or.inr ⟨hid.not_lt, hnone⟩
      · exact Or.inl (keepers_route_eq_some.mpr ⟨route, hroute, rfl⟩)
    · exact Or.inl hkeeper
    · exact Or.inl hkeeper

theorem Sound.register (hsound : ledger.Sound router) (method : Option Method)
    (template : String) (handlers : List (Handler ε σ)) :
    ledger.Sound (router.register method template handlers).router := by
  rcases router.register_cases method template handlers with
    ⟨_, _, hsame | hnew⟩ | ⟨pattern, hcompiled, _, hrouter⟩
  · rw [hsame]
    exact hsound
  · rw [hnew]
    exact ⟨hsound.table, hsound.known, hsound.tallies⟩
  · rw [hrouter]
    exact hsound.push hcompiled _ rfl

theorem Sound.setNotFound (hsound : ledger.Sound router)
    (handler : Handler ε σ) :
    Sound { ledger with notFoundReplaced := ledger.notFoundReplaced + 1 }
      (router.setNotFound handler) := by
  refine hsound.replace rfl rfl hsound.table ?_ ?_
  · rintro (id | replaced | replaced) hknown
    · exact hknown
    · exact Nat.le_succ_of_le hknown
    · exact hknown
  · rintro (id | replaced | replaced) keeper hkeeper
    · exact Or.inl hkeeper
    · obtain ⟨rfl, rfl⟩ := keepers_notFound_eq_some.mp hkeeper
      exact Or.inr ⟨Nat.not_succ_le_self _, rfl⟩
    · exact Or.inl hkeeper

theorem Sound.setMethodNotAllowed (hsound : ledger.Sound router)
    (handler : Handler ε σ) :
    Sound { ledger with
        methodNotAllowedReplaced := ledger.methodNotAllowedReplaced + 1 }
      (router.setMethodNotAllowed handler) := by
  refine hsound.replace rfl rfl hsound.table ?_ ?_
  · rintro (id | replaced | replaced) hknown
    · exact hknown
    · exact hknown
    · exact Nat.le_succ_of_le hknown
  · rintro (id | replaced | replaced) keeper hkeeper
    · exact Or.inl hkeeper
    · exact Or.inl hkeeper
    · obtain ⟨rfl, rfl⟩ := keepers_methodNotAllowed_eq_some.mp hkeeper
      exact Or.inr ⟨Nat.not_succ_le_self _, rfl⟩

/-- New middleware empties all keepers. -/
theorem Sound.useMiddleware (hsound : ledger.Sound router)
    (handlers : List (Handler ε σ)) :
    Sound { ledger with servings := [] } (router.useMiddleware handlers).1 := by
  rw [Router.useMiddleware_eq]
  refine ⟨?_, List.forall_mem_nil _, ?_⟩
  · exact (RouteTable.sameShape_mapValues router.table Entry.forget).consistent
      hsound.table
  · apply Tallies.of_nil
    rintro (id | replaced | replaced) keeper hkeeper
    · obtain ⟨route, hroute, rfl⟩ := keepers_route_eq_some.mp hkeeper
      obtain ⟨old, _, rfl⟩ := Array.mem_map.mp (Array.mem_of_getElem? hroute)
      rfl
    · obtain ⟨rfl, rfl⟩ := keepers_notFound_eq_some.mp hkeeper
      rfl
    · obtain ⟨rfl, rfl⟩ := keepers_methodNotAllowed_eq_some.mp hkeeper
      rfl

/-! ### Serving -/

/-- An answer is served at the keeper that its place has. -/
theorem keepers_placeOf (ledger : Ledger ε σ) (hoffers : router.Offers answer) :
    ledger.keepers router (ledger.placeOf answer) =
      some (router.keeperOf (router.entryOf answer)) := by
  cases answer with
  | found route =>
      exact keepers_route_eq_some.mpr ⟨route, hoffers route rfl, rfl⟩
  | methodNotAllowed allow => exact if_pos rfl
  | notFound => exact if_pos rfl

theorem keepers_pin (ledger : Ledger ε σ) (hoffers : router.Offers answer)
    (chain : Chain ε σ) :
    ledger.keepers (router.pin answer chain) =
      Function.update (ledger.keepers router) (ledger.placeOf answer)
        (some ((router.keeperOf (router.entryOf answer)).keep chain)) := by
  funext place
  rw [Function.update_apply]
  split_ifs with hplace
  · rw [hplace]
    cases answer with
    | found route =>
        unfold keepers Router.pin placeOf
        dsimp only
        rw [RouteTable.getElem?_modify, hoffers route rfl]
        simp only [Option.map_some, if_true]
        rfl
    | methodNotAllowed allow => exact if_pos rfl
    | notFound => exact if_pos rfl
  · -- nothing changes at another place
    cases answer with
    | found route =>
        cases place with
        | route id =>
            have hid : route.id ≠ id := by
              rintro rfl
              exact hplace rfl
            unfold keepers Router.pin
            dsimp only
            rw [RouteTable.getElem?_modify, Option.map_map]
            simp only [Function.comp_def, if_neg hid]
            rfl
        | notFound replaced => rfl
        | methodNotAllowed replaced => rfl
    | methodNotAllowed allow =>
        cases place with
        | route id => rfl
        | notFound replaced => rfl
        | methodNotAllowed replaced =>
            have hbefore : replaced ≠ ledger.methodNotAllowedReplaced := by
              rintro rfl
              exact hplace rfl
            exact (if_neg hbefore).trans (if_neg hbefore).symm
    | notFound =>
        cases place with
        | route id => rfl
        | notFound replaced =>
            have hbefore : replaced ≠ ledger.notFoundReplaced := by
              rintro rfl
              exact hplace rfl
            exact (if_neg hbefore).trans (if_neg hbefore).symm
        | methodNotAllowed replaced => rfl

theorem keepers_chainFor (ledger : Ledger ε σ)
    (hoffers : router.Offers answer) :
    ledger.keepers (router.chainFor answer).2.1 =
      Function.update (ledger.keepers router) (ledger.placeOf answer)
        (some ((router.keeperOf (router.entryOf answer)).keep
          (router.fetched answer).chain)) := by
  cases hkept : (router.entryOf answer).chain with
  | some chain =>
      -- the chain is kept where it already was
      obtain ⟨hrouter, hchain⟩ := Router.chainFor_of_kept hkept
      have hkeeper : (router.keeperOf (router.entryOf answer)).keep chain =
          router.keeperOf (router.entryOf answer) := by
        unfold Keeper.keep Router.keeperOf
        rw [hkept]
      rw [hrouter, hchain, hkeeper, ← keepers_placeOf ledger hoffers,
        Function.update_eq_self]
  | none =>
      have hoffersCached : Router.Offers
          { router with chains := (router.fetched answer).cache } answer :=
        hoffers
      rw [Router.chainFor_of_none hkept]
      exact keepers_pin ledger hoffersCached _

theorem knows_chainFor (ledger : Ledger ε σ) (router : Router ε σ)
    (answer : Lookup (Entry ε σ)) (place : Place) :
    ledger.Knows (router.chainFor answer).2.1 place ↔
      ledger.Knows router place := by
  have hshape := Router.sameShape_of_settled
    (Router.settled_chainFor router answer)
  cases place with
  | route id =>
      unfold Knows
      rw [hshape.size]
  | notFound replaced => rfl
  | methodNotAllowed replaced => rfl

theorem Sound.known_placeOf (hsound : ledger.Sound router)
    (hoffers : router.Offers answer) :
    ledger.Knows router (ledger.placeOf answer) := by
  cases answer with
  | found route =>
      exact hsound.table.id_lt_size (Array.mem_of_getElem? (hoffers route rfl))
  | methodNotAllowed allow => exact Nat.le_refl _
  | notFound => exact Nat.le_refl _

theorem Sound.chainFor (hsound : ledger.Sound router)
    (hoffers : router.Offers answer) :
    (ledger.enter (ledger.line router answer)).Sound
      (router.chainFor answer).2.1 := by
  obtain ⟨hchain, hchains, hbuilt⟩ := router.chainFor_eq_fetched answer
  have hline : ledger.line router answer =
      .ofAnswer (ledger.placeOf answer) (router.keeperOf (router.entryOf answer))
        (router.fetched answer) := by
    unfold line Serving.ofAnswer
    dsimp only
    rw [hchain, hbuilt]
    rfl
  have hshape := Router.sameShape_of_settled
    (Router.settled_chainFor router answer)
  refine ⟨hshape.consistent hsound.table, ?_, ?_⟩
  · intro serving hmem
    have hknown : ledger.Knows router serving.place := by
      rcases List.mem_append.mp hmem with hbefore | hlast
      · exact hsound.known serving hbefore
      · obtain rfl := List.mem_singleton.mp hlast
        exact hsound.known_placeOf hoffers
    exact (knows_chainFor ledger router answer serving.place).mpr hknown
  · have htallies := hsound.tallies.fetch (keepers_placeOf ledger hoffers)
      (.compile (router.keyOf (router.entryOf answer)) router.middleware
        (router.entryOf answer).handlers)
    rw [hline, hchains]
    change Tallies _ (ledger.keepers (router.chainFor answer).2.1) _
    rw [keepers_chainFor ledger hoffers]
    exact htallies

theorem Sound.visit (hsound : ledger.Sound router) (visit : Visit σ) :
    (ledger.note router (.visit visit)).Sound (router.visit visit) := by
  unfold note
  dsimp only
  rcases router.visit_cases visit with
    ⟨request, outside, context, hrequest, hvisit⟩ | ⟨hnone, store, hvisit⟩
  · have hacquired : ledger.Sound router.acquired := hsound.withPools _
    have hserved : (ledger.enter (ledger.line router.acquired
        (router.answerTo request))).Sound
          (router.process request outside).router :=
      hacquired.chainFor (Router.offers_lookup hsound.table _ _ _)
    rw [hrequest, hvisit]
    exact hserved.withPools _
  · rw [hnone, hvisit]
    exact hsound.withPools _

end

theorem sound_ofSettings (settings : Settings) :
    (({} : Ledger ε σ)).Sound (Router.ofSettings settings) where
  table := RouteTable.consistent_empty _ _
  known := List.forall_mem_nil _
  tallies := by
    apply Tallies.of_nil
    rintro (id | replaced | replaced) keeper hkeeper
    · obtain ⟨route, hroute, _⟩ := keepers_route_eq_some.mp hkeeper
      exact absurd hroute (by simp [Router.ofSettings])
    · obtain ⟨_, rfl⟩ := keepers_notFound_eq_some.mp hkeeper
      rfl
    · obtain ⟨_, rfl⟩ := keepers_methodNotAllowed_eq_some.mp hkeeper
      rfl

end Ledger

/-! ## Sessions -/

namespace Account

theorem sound_apply {account : Account ε σ}
    (hsound : account.ledger.Sound account.session.router)
    (operation : Operation ε σ) :
    (account.apply operation).ledger.Sound
      (account.apply operation).session.router := by
  cases operation with
  | openGroup base => exact hsound
  | closeGroup => exact hsound
  | useInGroup handlers => exact hsound
  | register method template handlers =>
      change account.ledger.Sound
        (account.session.register method template handlers).router
      rcases account.session.register_eq method template handlers with
        ⟨_, hrefused⟩ | ⟨full, hregistered⟩
      · rw [hrefused]
        exact hsound
      · rw [hregistered]
        exact hsound.register method full _
  | useMiddleware handlers => exact hsound.useMiddleware handlers
  | setNotFound handler => exact hsound.setNotFound handler
  | setMethodNotAllowed handler => exact hsound.setMethodNotAllowed handler
  | setErrorHandler handler =>
      exact ⟨hsound.table, hsound.known, hsound.tallies⟩
  | visit visit => exact hsound.visit visit

theorem sound_ofOperations (settings : Settings)
    (operations : List (Operation ε σ)) :
    (ofOperations settings operations).ledger.Sound
      (ofOperations settings operations).session.router := by
  induction operations using List.reverseRecOn with
  | nil => exact Ledger.sound_ofSettings settings
  | append_singleton operations operation ih =>
      rw [ofOperations_concat]
      exact sound_apply ih operation

/-- However a router came about, its cache has compiled one chain for each list
of participants at which a request was served since the middleware last changed,
and has been asked once by each entry that served one.  Entries with one list
share the chain that the cache has for it. -/
theorem compiled_once (settings : Settings)
    (operations : List (Operation ε σ)) :
    let account := ofOperations settings operations
    let cache := account.session.router.chains
    let servings := account.ledger.servings
    let keys := (servings.map Serving.key).toFinset
    let places := (servings.map Serving.place).toFinset
    cache.misses = cache.size ∧ cache.misses = keys.card ∧
      cache.hits + cache.misses = places.card ∧
      ∀ first ∈ servings, ∀ second ∈ servings, first.key = second.key →
        first.chain = second.chain ∧
          cache.get? first.key = some first.chain ∧
          ((servings.filter Serving.built).map Serving.key).count first.key =
            1 := by
  intro account cache servings keys places
  have htallies := (sound_ofOperations settings operations).tallies
  refine ⟨htallies.misses, htallies.misses_eq_card, htallies.accesses, ?_⟩
  intro first hfirst second hsecond hkey
  have hcached := htallies.cached first hfirst
  have hshared := htallies.cached second hsecond
  rw [← hkey, hcached] at hshared
  exact ⟨Option.some.inj hshared, hcached, htallies.count_built hfirst⟩

def answering : Handler Unit Unit :=
  .ofScript (.custom 0) none (.modify (·.write (Text.utf8 "ok")))

/-- Two routes with one handler, which takes over what is not found as well. -/
def sharingOperations : List (Operation Unit Unit) :=
  let get (target : String) : Operation Unit Unit :=
    .visit (.dispatch { method := .get, target } ())
  [.register (some .get) "/a" [answering],
    .register (some .get) "/b" [answering], get "/a", get "/b", get "/a",
    get "/c", .setNotFound answering, get "/c"]

/-- Four entries served by two chains. -/
theorem compiled_once_sharingOperations :
    let cache := (ofOperations {} sharingOperations).session.router.chains
    cache.size = 2 ∧ cache.misses = 2 ∧ cache.hits = 2 := by
  intro cache
  obtain ⟨hsize, hmisses, haccesses, _⟩ := compiled_once {} sharingOperations
  have hkeys : ((ofOperations {} sharingOperations).ledger.servings.map
      Serving.key).toFinset.card = 2 := by
    decide +kernel
  have hplaces : ((ofOperations {} sharingOperations).ledger.servings.map
      Serving.place).toFinset.card = 4 := by
    decide +kernel
  have htwo : cache.misses = 2 := hmisses.trans hkeys
  have hfour : cache.hits + cache.misses = 4 := haccesses.trans hplaces
  have htwoHits : cache.hits = 2 := by omega
  exact ⟨hsize.symm.trans htwo, htwo, htwoHits⟩

end Account
end Dispatch
