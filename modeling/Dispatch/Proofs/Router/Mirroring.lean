import Dispatch.Proofs.Program.Related
import Dispatch.Proofs.Router.Finishing
import Dispatch.Proofs.Router.Isolation
import Mathlib

/-!
# HEAD mirrors GET

Without a route for HEAD, a HEAD request is looked up as a GET request.  So the
two are served by the same chain, over exchanges that differ in the method
only.  Handlers that are blind to the method, and to the state outside, keep it
at that, and so does the error handler.  The body of the answer to HEAD is
dropped after all of them have seen it.

Blindness is a relation between two runs.  It leaves no room for a reset or for
loading another request, since both make the methods equal.
-/

namespace Dispatch

variable {ε σ : Type}

/-! ## Exchanges for HEAD and for GET -/

/-- An exchange as it is for a HEAD request. -/
def Exchange.asHead (exchange : Exchange ε) : Exchange ε :=
  { exchange with request := { exchange.request with method := .head } }

/-- The same exchange for a HEAD request and for a GET request. -/
structure Exchange.HeadOf (head get : Exchange ε) : Prop where
  asked : get.request.method = .get
  same : head = get.asHead

theorem Exchange.HeadOf.response {head get : Exchange ε}
    (hexchange : head.HeadOf get) :
    head.status = get.status ∧ head.responseHeaders = get.responseHeaders ∧
      head.responseBody = get.responseBody := by
  rw [hexchange.same]
  exact ⟨rfl, rfl, rfl⟩

/-- The same failure is to be handled. -/
theorem Exchange.HeadOf.raised {head get : Exchange ε}
    (hexchange : head.HeadOf get) : head.raised = get.raised := by
  rw [hexchange.same]
  rfl

theorem Exchange.HeadOf.cleared {head get : Exchange ε}
    (hexchange : head.HeadOf get) : head.cleared.HeadOf get.cleared := by
  obtain ⟨hasked, rfl⟩ := hexchange
  exact ⟨hasked, rfl⟩

/-- The state outside does not count. -/
structure Scope.HeadOf (head get : Scope ε σ) : Prop where
  exchange : head.exchange.HeadOf get.exchange

theorem haltTogether_headOf :
    HaltTogether (Scope.HeadOf : Scope ε σ → Scope ε σ → Prop) := by
  rintro head get ⟨_, hsame⟩
  rw [hsame]
  exact Iff.rfl

/-! ## Blind handlers -/

/-- A body that reads neither the method of its request nor the state outside,
and that keeps its request. -/
def MethodBlind (body : Nat → Scope ε σ → Program ε σ) : Prop :=
  RelatedBody Scope.HeadOf body

def Handler.MethodBlind (handler : Handler ε σ) : Prop :=
  Dispatch.MethodBlind handler.body

def ErrorHandler.MethodBlind (handler : ErrorHandler ε σ) : Prop :=
  ∀ failure, Dispatch.MethodBlind (handler failure).program

/-- The handlers that an operation brings in are blind. -/
structure Operation.MethodBlind (operation : Operation ε σ) : Prop where
  handlers : ∀ handler ∈ operation.handlers, handler.MethodBlind
  errorHandler : ∀ handler, operation = .setErrorHandler handler →
    handler.MethodBlind

theorem Script.methodBlind_modify {change : Exchange ε → Exchange ε}
    (hchange : ∀ head get : Exchange ε, head.HeadOf get →
      (change head).HeadOf (change get)) :
    MethodBlind (program (modify change : Script ε σ Unit)) := by
  apply Script.related_modify
  intro head get hscope
  exact ⟨hchange _ _ hscope.exchange⟩

theorem Handler.methodBlind_ofScript {script : Script ε σ Unit}
    (hscript : Dispatch.MethodBlind script.program) (identity : HandlerIdentity)
    (label : Option String) : (ofScript identity label script).MethodBlind :=
  hscript

theorem Handler.methodBlind_notFound :
    (notFound : Handler ε σ).MethodBlind := by
  apply methodBlind_ofScript
  apply Script.methodBlind_modify
  rintro _ get ⟨hasked, rfl⟩
  exact ⟨hasked, rfl⟩

theorem Handler.methodBlind_methodNotAllowed :
    (methodNotAllowed : Handler ε σ).MethodBlind := by
  apply methodBlind_ofScript
  apply Script.methodBlind_modify
  rintro _ get ⟨hasked, rfl⟩
  exact ⟨hasked, rfl⟩

theorem Exchange.HeadOf.respond {head get : Exchange ε}
    (hexchange : head.HeadOf get) (status : Status) (contentType : HeaderValue)
    (body : Bytes) :
    (head.respond status contentType body).HeadOf
      (get.respond status contentType body) := by
  obtain ⟨hasked, rfl⟩ := hexchange
  exact ⟨hasked, rfl⟩

/-- A failure is shown in the same way, or the body that a handler wrote stays
for both. -/
theorem Exchange.HeadOf.showFailure {head get : Exchange ε}
    (hexchange : head.HeadOf get) (failure : Failure) :
    (head.showFailure failure).HeadOf (get.showFailure failure) := by
  have hshown := hexchange.respond failure.status .json
    (Text.utf8 (Envelope.ofFailure failure).toJson)
  obtain ⟨hstatus, _, hbody⟩ := hexchange.response
  unfold Exchange.showFailure
  cases failure with
  | http status message =>
      simp only [hstatus, hbody]
      split_ifs
      · exact hexchange
      · exact hshown
  | _ => exact hshown

theorem ErrorHandler.methodBlind_showing :
    (showing : ErrorHandler ε σ).MethodBlind := by
  intro failure
  apply Script.methodBlind_modify
  intro head get hexchange
  exact hexchange.showFailure failure

theorem Operation.methodBlind_of_allHandlers
    {operations : List (Operation ε σ)}
    (hblind : ∀ operation ∈ operations, operation.MethodBlind) :
    ∀ handler ∈ allHandlers operations, handler.MethodBlind := by
  intro handler hmem
  rcases hmem with hfirst | hsecond | ⟨operation, hoperation, hhandler⟩
  · rw [hfirst]
    exact Handler.methodBlind_notFound
  · rw [hsecond]
    exact Handler.methodBlind_methodNotAllowed
  · exact (hblind operation hoperation).handlers handler hhandler

/-! ## Lookup -/

namespace RouteTable

theorem find_empty (path : Path) (decode : Bool) :
    MethodRoutes.empty.find path decode = .ofOption none := by
  have hroot : Trie.find path.Trailing decode path.pieces .empty =
      .ofOption none := by
    unfold Trie.find
    cases path.pieces with
    | nil => simp [Trie.empty]
    | cons piece rest => rfl
  exact hroot

variable {α : Type} {table : RouteTable α}

/-- Without a route for HEAD, the routes for GET are searched. -/
theorem Consistent.lookup_head (hconsistent : table.Consistent)
    (hnone : ∀ route ∈ table.routes, route.pattern.method ≠ some .head)
    (target : String) (captures : Captures) :
    table.lookup .head target captures = table.lookup .get target captures := by
  have hinsertions : table.insertions (some .head) = [] := by
    unfold insertions
    rw [List.map_eq_nil_iff, List.filter_eq_nil_iff]
    intro route hmem
    simpa using hnone route (Array.mem_toList_iff.mp hmem)
  have hfamily : table.family (some .head) = .empty := by
    rw [hconsistent.families, hinsertions]
    rfl
  have hsearch : ∀ path decode,
      Search.firstOf ((table.groups .head).map (·.find path decode)) =
        Search.firstOf ((table.groups .get).map (·.find path decode)) := by
    intro path decode
    have hget : Method.get ≠ .head := by decide
    cases hroutes : table.routesOf? .head with
    | none => simp [groups, hroutes, hget]
    | some routes =>
        have hempty : routes = .empty := by
          simpa [family, hroutes] using hfamily
        have hgroups : table.groups .head = .empty :: table.groups .get := by
          simp [groups, hroutes, hempty, hget]
        rw [hgroups, List.map_cons, find_empty]
        rfl
  unfold lookup
  simp only [hsearch]

end RouteTable

/-! ## Serving -/

/-- A response to HEAD has no body, and otherwise that of the response to GET.
A handler that panics does so for both. -/
def Mirrors : Except String Response → Except String Response → Prop
  | .ok head, .ok get =>
    head.status = get.status ∧ head.headers = get.headers ∧ head.body = []
  | .error message, .error other => message = other
  | _, _ => False

/-- Runs that end in responses of which the one mirrors the other. -/
structure Context.Result.Mirrors (head get : Result ε σ) : Prop where
  panic : head.panic = get.panic
  response : head.panic = none →
    head.context.exchange.status = get.context.exchange.status ∧
      head.context.exchange.responseHeaders =
        get.context.exchange.responseHeaders ∧
      head.context.exchange.responseBody = []

namespace Router

theorem headOf_prepare (answer : Lookup (Entry ε σ)) {head get : Exchange ε}
    (hexchange : head.HeadOf get) :
    (prepare answer head).HeadOf (prepare answer get) := by
  obtain ⟨hasked, rfl⟩ := hexchange
  cases answer with
  | found route => exact ⟨hasked, rfl⟩
  | notFound => exact ⟨hasked, rfl⟩
  | methodNotAllowed allow =>
      unfold prepare
      dsimp only
      cases HeaderValue.ofText? allow.headerValue with
      | none => exact ⟨hasked, rfl⟩
      | some value => exact ⟨hasked, rfl⟩

/-- The body is dropped for HEAD only. -/
theorem stripBody_headOf {settings : Settings}
    (hstrip : settings.stripHeadBody = true) {head get : Exchange ε}
    (hexchange : head.HeadOf get) :
    stripBody settings head = { head with responseBody := [] } ∧
      stripBody settings get = get := by
  obtain ⟨hasked, rfl⟩ := hexchange
  have hget : ¬ (settings.stripHeadBody = true ∧ get.request.method = .head) := by
    rw [hasked]
    exact fun hhead => absurd hhead.2 (by decide)
  exact ⟨if_pos ⟨hstrip, rfl⟩, if_neg hget⟩

section

variable {router : Router ε σ} {head get : Context.Result ε σ}

theorem mirrors_stripped {settings : Settings}
    (hstrip : settings.stripHeadBody = true)
    (hrelated : head.Related Scope.HeadOf get) :
    (head.stripped settings).Mirrors (get.stripped settings) := by
  have hpanic := hrelated.panic
  have hexchange := hrelated.scope.exchange
  unfold Context.Result.stripped
  simp only [← hpanic]
  split_ifs with hpanicked
  · refine ⟨hpanic, ?_⟩
    intro hnone
    simp [hnone] at hpanicked
  · refine ⟨rfl, ?_⟩
    intro _
    obtain ⟨hhead, hget⟩ := stripBody_headOf hstrip hexchange
    obtain ⟨hstatus, hheaders, _⟩ := hexchange.response
    dsimp only [Context.modify] at *
    rw [hhead, hget]
    exact ⟨hstatus, hheaders, rfl⟩

theorem mirrors_finish (hstrip : router.settings.stripHeadBody = true)
    (herror : router.errorHandler.MethodBlind)
    (hrelated : head.Related Scope.HeadOf get) (hreturned : get.panic = none) :
    (router.finish head.context head.outside).result.Mirrors
      (router.finish get.context get.outside).result := by
  have hexchange : head.context.exchange.HeadOf get.context.exchange :=
    hrelated.scope.exchange
  have hhalted : head.context.exchange.Halted ↔ get.context.exchange.Halted :=
    haltTogether_headOf _ _ hrelated.scope
  by_cases hget : get.context.exchange.Halted
  · have hcleared : Scope.HeadOf
        ⟨head.context.exchange.cleared, head.outside⟩
        ⟨get.context.exchange.cleared, get.outside⟩ := ⟨hexchange.cleared⟩
    rw [router.finish_of_halted _ _ (hhalted.mpr hget),
      router.finish_of_halted _ _ hget, hexchange.raised]
    apply mirrors_stripped hstrip
    exact Context.exec_related
      (a := { head.context with exchange := head.context.exchange.cleared })
      (b := { get.context with exchange := get.context.exchange.cleared })
      haltTogether_headOf hcleared hrelated.cursor hrelated.pending (herror _)
  · have hleft : Context.Result.mk head.context head.outside none = head := by
      rw [← hrelated.panic.trans hreturned]
    have hright : Context.Result.mk get.context get.outside none = get := by
      rw [← hreturned]
    rw [router.finish_of_not_halted _ _ (hhalted.not.mpr hget),
      router.finish_of_not_halted _ _ hget, hleft, hright]
    exact mirrors_stripped hstrip hrelated

theorem mirrors_serve (hstrip : router.settings.stripHeadBody = true)
    (herror : router.errorHandler.MethodBlind) {chain : Chain ε σ}
    (hblind : ∀ handler ∈ chain.handlers, handler.MethodBlind)
    {a b : Context ε σ} (hexchange : a.exchange.HeadOf b.exchange)
    (outside beside : σ) :
    (router.serve a outside chain).result.Mirrors
      (router.serve b beside chain).result := by
  have hran : (a.run outside chain).Related Scope.HeadOf
      (b.run beside chain) := by
    apply Context.run_related haltTogether_headOf ⟨hexchange⟩ rfl
    intro index _ cursor head get hscope
    exact Chain.related_invoke hblind index cursor hscope
  cases hpanic : (b.run beside chain).panic with
  | none =>
      rw [router.serve_of_returned _ _ (hran.panic.trans hpanic),
        router.serve_of_returned _ _ hpanic]
      exact mirrors_finish hstrip herror hran hpanic
  | some message =>
      rw [router.serve_of_panicked _ _ (hran.panic.trans hpanic),
        router.serve_of_panicked _ _ hpanic]
      refine ⟨hran.panic, ?_⟩
      intro hnone
      simp [hran.panic, hpanic] at hnone

theorem mirrors_process {known : Set (Handler ε σ)}
    (hidentity : Set.InjOn Handler.identity known)
    (hblind : ∀ handler ∈ known, handler.MethodBlind)
    (herror : router.errorHandler.MethodBlind) (hsound : router.Sound known)
    (hstrip : router.settings.stripHeadBody = true)
    (hnone : ∀ route ∈ router.table.routes,
      route.pattern.method ≠ some .head)
    (request : Request) (outside beside : σ) :
    (router.process { request with method := .head } outside).report.result.Mirrors
      (router.process { request with method := .get } beside).report.result := by
  have hlookup := hsound.table.lookup_head hnone request.path
    router.pools.contexts.acquire.1.exchange.captures
  have hanswer : router.answerTo { request with method := .head } =
      router.answerTo { request with method := .get } :=
    congrArg Prod.fst hlookup
  have hloaded :
      (router.loaded { request with method := .head }).exchange.HeadOf
        (router.loaded { request with method := .get }).exchange := by
    have hpath : ∀ method : Method,
        Request.path { request with method } = request.path := fun _ => rfl
    unfold loaded
    simp only [hpath, hlookup]
    exact headOf_prepare _ ⟨rfl, rfl⟩
  have hsoundNow : router.acquired.Sound known := hsound.withPools _
  have hoffers : router.acquired.Offers
      (router.answerTo { request with method := .get }) :=
    hsoundNow.offers_lookup _ _ _
  have hknown := hsoundNow.known_of_chainFor hidentity hoffers
  have hsettled := settled_chainFor router.acquired
    (router.answerTo { request with method := .get })
  have hsettings := congrArg Router.settings hsettled
  have hhandler := congrArg Router.errorHandler hsettled
  rw [process_result, process_result, hanswer]
  apply mirrors_serve
  · exact (congrArg Settings.stripHeadBody hsettings).trans hstrip
  · exact hhandler ▸ herror
  · intro handler hmem
    exact hblind handler (hknown handler hmem)
  · exact hloaded

end

theorem mirrors_conclude {processed other : Processed ε σ}
    (hmirrors : processed.report.result.Mirrors other.report.result) :
    Mirrors (processed.conclude Exchange.takeResponse).result
      (other.conclude Exchange.takeResponse).result := by
  have hpanic := hmirrors.panic
  rw [Processed.conclude_result, Processed.conclude_result, ← hpanic]
  cases hended : processed.report.result.panic with
  | none => exact hmirrors.response hended
  | some message => exact rfl

end Router

/-! ## HEAD and GET -/

/-- If a router has no route for HEAD, and bodies are stripped, the response to
a HEAD request is that to the same GET request without its body, if handlers
are blind to the method.  It does not matter which requests the router served
before either of them, if what is left of these cannot be seen. -/
theorem Run.mirrors_dispatch (settings : Settings)
    (operations : List (Operation ε σ))
    (hidentity : Set.InjOn Handler.identity (Operation.allHandlers operations))
    (hblind : ∀ operation ∈ operations, operation.MethodBlind)
    (hstrip : (ofOperations settings
      operations).session.router.settings.stripHeadBody = true)
    (hnone : ∀ route ∈
        (ofOperations settings operations).session.router.table.routes,
      route.pattern.method ≠ some .head)
    (request : Request) (outside beside : σ) :
    let router := (ofOperations settings operations).session.router
    let asked : Request := { request with method := .head }
    let twin : Request := { request with method := .get }
    Mirrors (router.dispatch asked outside).result
        (router.dispatch twin beside).result ∧
      ((∀ operation ∈ operations, operation.Public) →
        ∀ before after : List (Visit σ),
          Mirrors
            ((before.foldl Router.visit router).dispatch asked outside).result
            ((after.foldl Router.visit router).dispatch twin beside).result) := by
  intro router asked twin
  have hsound : router.Sound (Operation.allHandlers operations) :=
    (sound_ofOperations settings hidentity Set.Subset.rfl).router
  have herror : router.errorHandler.MethodBlind := by
    rcases errorHandler_ofOperations settings operations with hfirst | hset
    · rw [hfirst]
      exact ErrorHandler.methodBlind_showing
    · exact (hblind _ hset).errorHandler _ rfl
  have hmirrors : Mirrors (router.dispatch asked outside).result
      (router.dispatch twin beside).result :=
    Router.mirrors_conclude (Router.mirrors_process hidentity
      (Operation.methodBlind_of_allHandlers hblind) herror hsound hstrip hnone
      request outside beside)
  refine ⟨hmirrors, ?_⟩
  intro hpublic before after
  have halone : ∀ (visits : List (Visit σ)) (request : Request) (outside : σ),
      ((visits.foldl Router.visit router).dispatch request outside).result =
        (router.dispatch request outside).result := by
    intro visits request outside
    have halike := alike_process_visits settings operations hidentity hpublic
      visits request outside outside
    exact (Router.dispatch_of_alike halike {}).1
  rw [halone, halone]
  exact hmirrors

namespace Run

theorem methodBlind_echo : echo.MethodBlind := by
  apply Handler.methodBlind_ofScript
  apply Script.methodBlind_modify
  rintro _ get ⟨hasked, rfl⟩
  have hcaptures : get.asHead.captures = get.captures := rfl
  simp only [hcaptures]
  split
  · exact ⟨hasked, rfl⟩
  · exact ⟨hasked, rfl⟩

theorem methodBlind_fragileOperations :
    ∀ operation ∈ fragileOperations, operation.MethodBlind := by
  have hpassOn : passOn.MethodBlind := Script.related_next
  have hbreakDown : breakDown.MethodBlind := Script.related_panic "broken"
  have herror : ErrorHandler.MethodBlind (ε := Unit) (σ := Unit)
      fun failure => .panic failure.message :=
    fun failure => Script.related_panic failure.message
  unfold fragileOperations
  simp only [List.forall_mem_cons]
  refine ⟨⟨?_, ?_⟩, ⟨?_, ?_⟩, ⟨?_, ?_⟩, ⟨?_, ?_⟩, List.forall_mem_nil _⟩
  · exact List.forall_mem_singleton.mpr hpassOn
  · simp
  · exact List.forall_mem_singleton.mpr methodBlind_echo
  · simp
  · exact List.forall_mem_singleton.mpr hbreakDown
  · simp
  · exact List.forall_mem_nil _
  · rintro handler hset
    obtain rfl := Operation.setErrorHandler.inj hset
    exact herror

theorem mirrors_dispatch_fragileOperations :
    Set.InjOn Handler.identity (Operation.allHandlers fragileOperations) ∧
      (∀ operation ∈ fragileOperations, operation.MethodBlind) ∧
      fragileRouter.settings.stripHeadBody = true ∧
      (∀ route ∈ fragileRouter.table.routes,
        route.pattern.method ≠ some .head) ∧
      Mirrors
        (fragileRouter.dispatch
          { method := .head, target := "/users/42" } ()).result
        (fragileRouter.dispatch
          { method := .get, target := "/users/42" } ()).result := by
  have hnone : ∀ route ∈ fragileRouter.table.routes,
      route.pattern.method ≠ some .head := by
    have hmethods : fragileRouter.table.routes.map (·.pattern.method) =
        #[some .get, some .get] := by cbv
    intro route hmem
    have hmethod := Array.mem_map_of_mem (f := (·.pattern.method)) hmem
    rw [hmethods] at hmethod
    have hget : route.pattern.method = some .get := by simpa using hmethod
    rw [hget]
    decide
  have hstrip : fragileRouter.settings.stripHeadBody = true := by cbv
  have hmirrors := mirrors_dispatch {} fragileOperations
    injOn_allHandlers_fragileOperations methodBlind_fragileOperations hstrip hnone
    { method := .get, target := "/users/42" } () ()
  exact ⟨injOn_allHandlers_fragileOperations, methodBlind_fragileOperations,
    hstrip, hnone, hmirrors.1⟩

example : (fragileRouter.dispatch
    { method := .head, target := "/users/42" } ()).result = .ok {} := by
  cbv

end Run

end Dispatch
