import Dispatch.Proofs.Chain.Order
import Dispatch.Proofs.Headers
import Dispatch.Proofs.Router.Isolation
import Mathlib.Tactic

/-!
# Resolving foretells dispatch

Resolving looks a request up by its whole target, in a store of its own pool.
Dispatch looks it up by the path that it has cut off, in the store of a pooled
context, and selects a chain before it runs one.  Both pools are pristine, so
the two stores agree, and a path is not cut again.

`Router.Starts` names what a dispatch begins with: the handlers of the chain that
it runs, and the exchange that the first of them is entered with.
-/

namespace Dispatch

variable {ε σ : Type}

/-! ## Requests cut at the question mark -/

namespace Request

theorem toList_target (request : Request) :
    request.target.toList = request.path.toList ++
      request.query?.elim [] fun query => '?' :: query.toList := by
  conv_lhs => rw [← Target.append_splitTarget request.target.toList]
  unfold path query? queryOfTarget? Path.ofTarget
  cases (splitTarget request.target.toList).2 <;> simp

theorem question_not_mem_path (request : Request) :
    '?' ∉ request.path.toList := by
  rw [path, Target.toList_ofTarget]
  exact Target.question_not_mem_path request.target

end Request

/-! ## What a dispatch starts with -/

/-- The exchange shows the request, cut at the first question mark. -/
structure Exchange.Shows (exchange : Exchange ε) (sent : Request) : Prop where
  request : exchange.request = sent
  path : '?' ∉ exchange.request.path.toList
  target : sent.target.toList = exchange.request.path.toList ++
    exchange.request.query?.elim [] fun query => '?' :: query.toList

namespace Router

/-- Dispatching the request runs a chain of these handlers over a context with
this exchange.  The run is that of the first handler, which finds the exchange as
it is, with the rest of the chain pending. -/
def Starts (router : Router ε σ) (request : Request)
    (handlers : List (Handler ε σ)) (exchange : Exchange ε) : Prop :=
  ∃ (context : Context ε σ) (chain : Chain ε σ) (first : Handler ε σ)
    (rest : List (Handler ε σ)),
    context.exchange = exchange ∧ chain.handlers = handlers ∧
      handlers = first :: rest ∧
      ∀ outside, router.Runs request context chain outside ∧
        context.run outside chain =
          Context.resultOf ((first.body 1 { exchange, outside }).exec 1
            (.rest chain.length chain.invoke 1))

section

variable {router : Router ε σ} {request : Request}

theorem starts_of_handlers {handlers : List (Handler ε σ)}
    (hchain : (router.chainOf request).handlers = handlers)
    (hne : handlers ≠ []) :
    router.Starts request handlers (router.loaded request).exchange := by
  obtain ⟨first, rest, hhandlers⟩ := List.exists_cons_of_ne_nil hne
  have hlength : 0 < (router.chainOf request).length := by
    rw [Chain.length_eq, hchain, hhandlers]
    exact Nat.zero_lt_succ _
  have hfirst : (router.chainOf request).handlers[0]? = some first := by
    rw [hchain, hhandlers]
    rfl
  refine ⟨router.loaded request, router.chainOf request, first, rest, rfl,
    hchain, hhandlers, ?_⟩
  intro outside
  refine ⟨router.runs_chainOf request outside, ?_⟩
  rw [Context.run_eq, Pending.next_rest_of_lt hlength
    fun hentered => absurd hentered (Nat.lt_irrefl 0), Chain.invoke_eq, hfirst]

theorem prepare_request (answer : Lookup (Entry ε σ)) (exchange : Exchange ε) :
    (prepare answer exchange).request = exchange.request := by
  cases answer with
  | found route => rfl
  | notFound => rfl
  | methodNotAllowed allow =>
      simp only [prepare]
      cases HeaderValue.ofText? allow.headerValue <;> rfl

theorem prepare_captures (answer : Lookup (Entry ε σ)) (exchange : Exchange ε) :
    (prepare answer exchange).captures = exchange.captures := by
  cases answer with
  | found route => rfl
  | notFound => rfl
  | methodNotAllowed allow =>
      simp only [prepare]
      cases HeaderValue.ofText? allow.headerValue <;> rfl

/-- A lookup by the path of a request is one by its target. -/
theorem lookup_path (table : RouteTable (Entry ε σ)) (request : Request)
    (captures : Captures) :
    table.lookup request.method request.path captures =
      table.lookup request.method request.target captures := by
  unfold RouteTable.lookup
  rw [Request.path, Target.ofTarget_text]

/-- What is looked up when a request is resolved. -/
def foreseen (router : Router ε σ) (request : Request) :
    Lookup (Entry ε σ) × Captures :=
  router.table.lookup request.method request.target
    router.pools.captures.acquire.1

theorem answerTo_eq (router : Router ε σ) (request : Request) :
    router.answerTo request = (router.foreseen request).1 := by
  unfold answerTo foreseen
  rw [lookup_path, RouteTable.lookup_fst, RouteTable.lookup_fst]

/-! ### The loaded context -/

theorem loaded_shows (router : Router ε σ) (request : Request) :
    (router.loaded request).exchange.Shows request := by
  have hrequest : (router.loaded request).exchange.request = request :=
    prepare_request _ _
  constructor
  · exact hrequest
  · rw [hrequest]
    exact request.question_not_mem_path
  · rw [hrequest]
    exact request.toList_target

/-- The stores of the two pools agree after the lookup, as they do before. -/
theorem loaded_captures_agrees {known : Set (Handler ε σ)}
    (hsound : router.Sound known) (hpristine : router.Pristine)
    (request : Request) :
    (router.loaded request).exchange.captures.Agrees
      (router.foreseen request).2 := by
  have hstore := hpristine.captures.acquire.1
  have hcontext := hpristine.contexts.acquire.1.exchange.captures
  -- either store agrees with the empty one, whatever its dead slots hold
  have hlooked : (router.table.lookup request.method request.target
      router.pools.contexts.acquire.1.exchange.captures).2.Agrees
        (router.foreseen request).2 :=
    (hsound.table.lookup_agrees hstore.counted
      (hcontext.symm.trans hstore.symm)).2
  unfold loaded
  rw [prepare_captures, lookup_path]
  exact hlooked

/-- A refused request finds the allow list, and in the header too. -/
theorem loaded_of_refused (hclean : router.pools.contexts.Clean)
    {allow : AllowList}
    (hrefused : router.answerTo request = .methodNotAllowed allow) :
    (router.loaded request).exchange.allow = allow ∧
      ((router.loaded request).exchange.responseHeaders.values .allow).map
        HeaderValue.text? = [some allow.headerValue] := by
  have hheaders :
      Headers.empty = router.pools.contexts.acquire.1.exchange.responseHeaders :=
    congrArg Response.headers hclean.acquire.1.exchange.takeResponse
  obtain ⟨value, hvalue, htext⟩ :=
    HeaderValue.exists_ofText? allow.isVisible_headerValue
  unfold answerTo at hrefused
  unfold loaded
  dsimp only
  rw [hrefused]
  simp [prepare, hvalue, Exchange.setHeader, Exchange.load, ← hheaders,
    Headers.values_set_empty, htext]

/-! ### What is resolved -/

theorem found_of_resolve {pattern : Pattern} {captures : Captures}
    (hmatched : (router.resolve request.method request.target).resolution =
      .matched pattern captures) :
    ∃ route, (router.foreseen request).1 = .found route ∧
      route.pattern = pattern ∧ (router.foreseen request).2 = captures := by
  unfold resolve at hmatched
  dsimp only at hmatched
  split at hmatched
  · next route hfound =>
      obtain ⟨hpattern, hcaptures⟩ := Resolution.matched.inj hmatched
      exact ⟨route, hfound, hpattern, hcaptures⟩
  · contradiction
  · contradiction

theorem refused_of_resolve {allow : AllowList}
    (hrefused : (router.resolve request.method request.target).resolution =
      .methodNotAllowed allow) :
    (router.foreseen request).1 = .methodNotAllowed allow := by
  unfold resolve at hrefused
  dsimp only at hrefused
  split at hrefused
  · contradiction
  · next found hfound =>
      rw [Resolution.methodNotAllowed.inj hrefused] at hfound
      exact hfound
  · contradiction

theorem missed_of_resolve
    (hmissed : (router.resolve request.method request.target).resolution =
      .notFound) : (router.foreseen request).1 = .notFound := by
  unfold resolve at hmissed
  dsimp only at hmissed
  split at hmissed
  · contradiction
  · contradiction
  · next hfound => exact hfound

/-- What is captured in resolving can be read, and is nothing without a
route. -/
theorem foreseen_captures {known : Set (Handler ε σ)}
    (hsound : router.Sound known) (hpristine : router.Pristine)
    (request : Request) :
    ∃ params, (router.foreseen request).2.entries = .ok params ∧
      ((router.foreseen request).1.route? = none → params = []) := by
  have hstore := hpristine.captures.acquire.1
  have hnone : router.pools.captures.acquire.1.entries = .ok [] :=
    hstore.entries
  cases hanswer : (router.foreseen request).1.route? with
  | none =>
      have hkept := hsound.table.lookup_snd_of_refused hstore.counted hanswer
      exact ⟨[], hkept.entries.trans hnone, fun _ => rfl⟩
  | some route =>
      have hfound := Lookup.route?_eq_some.mp hanswer
      have hadded := hsound.table.lookup_snd_of_found hstore.counted hfound
      have hentries := hadded.entries.trans
        (Captures.entries_setAll hstore.counted hnone _)
      exact ⟨_, hentries, fun hmissed => by contradiction⟩

end

end Router

/-! ## Resolving -/

namespace Run

/-- Whatever was done with a router before, a dispatch starts with the whole
global middleware and the handlers of the entry that it looks up. -/
theorem starts_answer (settings : Settings)
    (operations : List (Operation ε σ))
    (hidentity : Set.InjOn Handler.identity (Operation.allHandlers operations))
    (request : Request) :
    let run := ofOperations settings operations
    let router := run.session.router
    router.Offers (router.answerTo request) ∧
      router.Starts request (run.journal.middleware ++
        (router.entryOf (router.answerTo request)).handlers)
        (router.loaded request).exchange := by
  intro run router
  have hsound : router.Sound (Operation.allHandlers operations) :=
    (sound_ofOperations settings hidentity Set.Subset.rfl).router
  have hmiddleware : router.middleware = run.journal.middleware :=
    (describes_ofOperations settings operations).router.middleware
  have hoffers : router.Offers (router.answerTo request) :=
    hsound.offers_lookup _ _ _
  have hacquired : router.acquired.Sound (Operation.allHandlers operations) :=
    hsound.withPools _
  have hchain : (router.acquired.chainFor
      (router.answerTo request)).1.handlers =
        router.middleware ++ (router.entryOf (router.answerTo request)).handlers :=
    (hacquired.chainFor hidentity hoffers).1
  -- a chain without steps would end before any handler saw the exchange
  have hentry := entryOf_ne_nil settings operations hoffers
  rw [hmiddleware] at hchain
  exact ⟨hoffers, Router.starts_of_handlers hchain
    (List.append_ne_nil_of_right_ne_nil _ hentry)⟩

/-- Whatever was done with a router before, a dispatch starts as resolving
foretells.  If a route is resolved, its chain runs, and its first step finds the
captures that were resolved.  If the method is refused, the chain for such
requests runs, and finds the allow list, which its header spells.  If nothing is
found, the chain for such requests runs, without captures.  In each case the
request is cut at its first question mark. -/
theorem starts_as_resolved (settings : Settings)
    (operations : List (Operation ε σ))
    (hidentity : Set.InjOn Handler.identity (Operation.allHandlers operations))
    (request : Request) :
    let run := ofOperations settings operations
    let router := run.session.router
    let resolution :=
      (router.resolve request.method request.target).resolution
    (∀ pattern captures, resolution = .matched pattern captures →
        ∃ route accepted exchange params,
          (∀ store, (router.table.lookup request.method request.target
            store).1 = .found route) ∧
          route.pattern = pattern ∧
          run.journal.routes route.id = some accepted ∧
          router.Starts request
            (run.journal.middleware ++ accepted.inherited ++ accepted.own)
            exchange ∧
          exchange.Shows request ∧
          captures.entries = .ok params ∧
          exchange.captures.entries = .ok params) ∧
      (∀ allow, resolution = .methodNotAllowed allow →
        ∃ exchange,
          router.Starts request
            (run.journal.middleware ++ [run.journal.methodNotAllowed])
            exchange ∧
          exchange.Shows request ∧ exchange.allow = allow ∧
          (exchange.responseHeaders.values .allow).map HeaderValue.text? =
            [some allow.headerValue]) ∧
      (resolution = .notFound →
        ∃ exchange,
          router.Starts request
            (run.journal.middleware ++ [run.journal.notFound]) exchange ∧
          exchange.Shows request ∧ exchange.captures.entries = .ok []) := by
  intro run router resolution
  have hsound : router.Sound (Operation.allHandlers operations) :=
    (sound_ofOperations settings hidentity Set.Subset.rfl).router
  have hdescribes : run.journal.DescribesRouter router :=
    (describes_ofOperations settings operations).router
  have hpristine : router.Pristine := pristine_ofOperations settings operations
  obtain ⟨hoffers, hstarts⟩ : router.Offers (router.answerTo request) ∧
      router.Starts request (run.journal.middleware ++
        (router.entryOf (router.answerTo request)).handlers) _ :=
    starts_answer settings operations hidentity request
  have hshows := router.loaded_shows request
  have hagrees := Router.loaded_captures_agrees hsound hpristine request
  obtain ⟨params, hparams, hmissed⟩ :=
    Router.foreseen_captures hsound hpristine request
  have hentries := hagrees.entries.trans hparams
  refine ⟨?_, ?_, ?_⟩
  · intro pattern captures hmatched
    obtain ⟨route, hfound, hpattern, hcaptures⟩ :=
      Router.found_of_resolve hmatched
    have hanswer := (router.answerTo_eq request).trans hfound
    obtain ⟨accepted, haccepted, hhandlers⟩ :=
      hdescribes.routes route.id route (hoffers route hanswer)
    rw [hanswer, Router.entryOf, hhandlers, ← List.append_assoc] at hstarts
    refine ⟨route, accepted, _, params, ?_, hpattern, haccepted, hstarts,
      hshows, hcaptures ▸ hparams, hentries⟩
    intro store
    rw [Router.foreseen, RouteTable.lookup_fst] at hfound
    rw [RouteTable.lookup_fst, hfound]
  · intro allow hresolved
    have hrefused := (router.answerTo_eq request).trans
      (Router.refused_of_resolve hresolved)
    obtain ⟨hallow, hheader⟩ :=
      Router.loaded_of_refused hpristine.contexts hrefused
    rw [hrefused, Router.entryOf, hdescribes.methodNotAllowed] at hstarts
    exact ⟨_, hstarts, hshows, hallow, hheader⟩
  · intro hresolved
    have hforeseen := Router.missed_of_resolve hresolved
    rw [router.answerTo_eq, hforeseen, Router.entryOf, hdescribes.notFound]
      at hstarts
    rw [hmissed (congrArg Lookup.route? hforeseen)] at hentries
    exact ⟨_, hstarts, hshows, hentries⟩

def queriedUser : Request := { method := .get, target := "/api/users/7?x=1" }

theorem starts_as_resolved_queriedUser :
    Set.InjOn Handler.identity (Operation.allHandlers groupOperations) ∧
      ∃ exchange,
        groupRouter.Starts queriedUser [relay 0, relay 3, relay 1, relay 2]
          exchange ∧
        exchange.request.path = "/api/users/7" ∧
        exchange.request.query? = some "x=1" ∧
        exchange.captures.entries = .ok [("id", "7")] := by
  have hmatched := (starts_as_resolved {} groupOperations
    injOn_allHandlers_groupOperations queriedUser).1
  have hresolved :
      (match (groupRouter.resolve .get "/api/users/7?x=1").resolution with
        | .matched _ captures => some captures.entries
        | _ => none) = some (.ok [("id", "7")]) := by
    cbv
  have hid : (groupRouter.table.lookup .get "/api/users/7?x=1"
      .empty).1.route?.map Route.id = some 0 := by
    cbv
  have hmiddleware : (ofOperations {} groupOperations).journal.middleware =
      [relay 0, relay 3] := by
    cbv
  have hroutes : (ofOperations {} groupOperations).journal.routes 0 =
      some ⟨[relay 1], [relay 2]⟩ := by
    cbv
  have hpath : queriedUser.path = "/api/users/7" := by decide
  have hquery : queriedUser.query? = some "x=1" := by decide
  split at hresolved
  · next pattern captures hresolution =>
      obtain ⟨route, accepted, exchange, params, hlookup, _, haccepted, hstarts,
        hshows, hparams, hentries⟩ := hmatched pattern captures hresolution
      have hfound : (groupRouter.table.lookup .get "/api/users/7?x=1"
          .empty).1 = .found route := hlookup .empty
      rw [hfound] at hid
      rw [Option.some.inj hid, hroutes] at haccepted
      obtain rfl := Option.some.inj haccepted
      rw [hmiddleware] at hstarts
      have hcaptured := (hentries.trans hparams.symm).trans
        (Option.some.inj hresolved)
      exact ⟨injOn_allHandlers_groupOperations, exchange, hstarts,
        hshows.request ▸ hpath, hshows.request ▸ hquery, hcaptured⟩
  · simp at hresolved

end Run
end Dispatch
