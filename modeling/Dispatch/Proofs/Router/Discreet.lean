import Dispatch.Proofs.Program
import Dispatch.Proofs.Router.Chains
import Mathlib.Tactic

/-!
# Discreet routers

A context that a pool hands out is clean: nothing that a body can see tells it
from a new one.  A store of captures that a pool hands out is blank.  Pools of
which both hold are pristine.  Registrations leave the pools alone, and what
comes back from a request, or from a panic, is reset, so the pools of every
router are pristine.

A router is discreet if its pool keeps clean contexts only, and its error
handler is public.  Every router is discreet that was given public error
handlers only.
-/

namespace Dispatch

variable {ε σ : Type}

/-! ## Clean contexts -/

structure Context.Clean (context : Context ε σ) : Prop where
  exchange : Exchange.blank.Alike context.exchange
  cursor : context.cursor = 0
  pending : context.pending = .exhausted

namespace Context

theorem clean_blank : (blank : Context ε σ).Clean where
  exchange := .refl .blank
  cursor := rfl
  pending := rfl

theorem clean_reset (context : Context ε σ) : context.reset.Clean where
  exchange := .reset .blank context.exchange
  cursor := rfl
  pending := rfl

end Context

/-- A pool from which only clean contexts come. -/
structure Pool.Clean (pool : Pool (Context ε σ)) : Prop where
  make : pool.make.Clean
  idle : ∀ context ∈ pool.idle, context.Clean

namespace Pool

variable {pool : Pool (Context ε σ)}

theorem Clean.acquire (hclean : pool.Clean) :
    pool.acquire.1.Clean ∧ pool.acquire.2.Clean := by
  unfold Pool.acquire
  cases hidle : pool.idle with
  | nil =>
      exact ⟨hclean.make, hclean.make, List.forall_mem_nil _⟩
  | cons context rest =>
      have hcontexts := hclean.idle
      rw [hidle, List.forall_mem_cons] at hcontexts
      exact ⟨hcontexts.1, hclean.make, hcontexts.2⟩

theorem Clean.release (hclean : pool.Clean) (context : Context ε σ) :
    (pool.release context).Clean := by
  unfold Pool.release
  split_ifs
  · exact ⟨hclean.make, hclean.idle⟩
  · refine ⟨hclean.make, ?_⟩
    rw [List.forall_mem_cons]
    exact ⟨context.clean_reset, hclean.idle⟩

end Pool

/-! ## Blank stores -/

/-- A pool from which only stores come that read as empty. -/
def Pool.Blank (pool : Pool Captures) : Prop :=
  ∀ store ∈ pool.make :: pool.idle, store.Agrees .empty

namespace Pool

variable {pool : Pool Captures}

theorem Blank.acquire (hblank : pool.Blank) :
    pool.acquire.1.Agrees .empty ∧ pool.acquire.2.Blank := by
  unfold Blank at *
  unfold Pool.acquire
  cases hidle : pool.idle <;> simp_all

theorem Blank.release (hblank : pool.Blank) (store : Captures) :
    (pool.release store).Blank := by
  unfold Blank at *
  unfold Pool.release
  split_ifs
  · exact hblank
  · have hreset : store.reset.Agrees .empty := .reset store .empty
    simp_all [Recycle.recycle]

end Pool

/-! ## What a router is given -/

def ErrorHandler.Public (handler : ErrorHandler ε σ) : Prop :=
  ∀ failure, PublicBody (handler failure).program

/-- The handlers that an operation brings in are public. -/
structure Operation.Public (operation : Operation ε σ) : Prop where
  handlers : ∀ handler ∈ operation.handlers, handler.Public
  errorHandler : ∀ handler, operation = .setErrorHandler handler →
    handler.Public

theorem Operation.Public.of_singleton {operation : Operation ε σ}
    {handler : Handler ε σ} (hhandlers : operation.handlers = [handler])
    (hpublic : handler.Public) : operation.Public where
  handlers := by
    rw [hhandlers]
    exact List.forall_mem_singleton.mpr hpublic
  errorHandler := by
    intro errorHandler hset
    rw [hset] at hhandlers
    contradiction

theorem Handler.public_ofScript {script : Script ε σ Unit}
    (hscript : PublicBody script.program) (identity : HandlerIdentity)
    (label : Option String) : (ofScript identity label script).Public := hscript

theorem Handler.public_notFound : (notFound : Handler ε σ).Public := by
  apply public_ofScript
  apply Script.public_modify
  intro a b halike
  cases halike with
  | mk hagrees => exact .mk hagrees

theorem Handler.public_methodNotAllowed :
    (methodNotAllowed : Handler ε σ).Public := by
  apply public_ofScript
  apply Script.public_modify
  intro a b halike
  cases halike with
  | mk hagrees => exact .mk hagrees

theorem Exchange.Alike.respond {a b : Exchange ε} (halike : a.Alike b)
    (status : Status) (contentType : HeaderValue) (body : Bytes) :
    (a.respond status contentType body).Alike
      (b.respond status contentType body) := by
  cases halike with
  | mk hagrees => exact .mk hagrees

theorem Exchange.Alike.showFailure {a b : Exchange ε} (halike : a.Alike b)
    (failure : Failure) :
    (a.showFailure failure).Alike (b.showFailure failure) := by
  have hshown := halike.respond failure.status .json
    (Text.utf8 (Envelope.ofFailure failure).toJson)
  unfold Exchange.showFailure
  cases failure with
  | http status message =>
      cases halike with
      | mk hagrees =>
          dsimp only
          split_ifs
          · exact .mk hagrees
          · exact hshown
  | _ => exact hshown

theorem ErrorHandler.public_showing : (showing : ErrorHandler ε σ).Public := by
  intro failure
  apply Script.public_modify
  intro a b halike
  exact halike.showFailure failure

theorem Operation.public_of_allHandlers {operations : List (Operation ε σ)}
    (hpublic : ∀ operation ∈ operations, operation.Public) :
    ∀ handler ∈ allHandlers operations, handler.Public := by
  intro handler hmem
  rcases hmem with hfirst | hsecond | ⟨operation, hoperation, hhandler⟩
  · rw [hfirst]
    exact Handler.public_notFound
  · rw [hsecond]
    exact Handler.public_methodNotAllowed
  · exact (hpublic operation hoperation).handlers handler hhandler

/-! ## Pristine pools -/

structure Router.Pristine (router : Router ε σ) : Prop where
  contexts : router.pools.contexts.Clean
  captures : router.pools.captures.Blank

namespace Router

section

variable {router : Router ε σ}

theorem pools_chainFor (router : Router ε σ) (answer : Lookup (Entry ε σ)) :
    (router.chainFor answer).2.1.pools = router.pools := by
  unfold chainFor pin
  dsimp only
  cases (router.entryOf answer).chain with
  | some chain => rfl
  | none => cases answer <;> rfl

theorem clean_process (hclean : router.pools.contexts.Clean) (request : Request)
    (outside : σ) :
    (router.process request outside).router.pools.contexts.Clean := by
  unfold process
  dsimp only
  rw [pools_chainFor]
  exact hclean.acquire.2

theorem clean_visit (hclean : router.pools.contexts.Clean) (visit : Visit σ) :
    (router.visit visit).pools.contexts.Clean := by
  rcases router.visit_cases visit with
    ⟨request, outside, context, _, hvisit⟩ | ⟨_, store, hvisit⟩
  · rw [hvisit]
    exact (clean_process hclean request outside).release context
  · rw [hvisit]
    exact hclean

/-- Serving leaves the stores for lookups without a context alone. -/
theorem captures_process (router : Router ε σ) (request : Request)
    (outside : σ) :
    (router.process request outside).router.pools.captures =
      router.pools.captures := by
  unfold process
  dsimp only
  rw [pools_chainFor]

theorem Pristine.visit (hpristine : router.Pristine) (visit : Visit σ) :
    (router.visit visit).Pristine where
  contexts := clean_visit hpristine.contexts visit
  captures := by
    have hblank := hpristine.captures
    rcases router.visit_cases visit with
      ⟨request, outside, context, _, hvisit⟩ | ⟨_, store, hvisit⟩
    · rw [← captures_process router request outside] at hblank
      rw [hvisit]
      exact hblank
    · rw [hvisit]
      exact hblank.acquire.2.release store

/-- A registration leaves the pools and the error handler alone. -/
theorem kept_register (router : Router ε σ) (method : Option Method)
    (template : String) (handlers : List (Handler ε σ)) :
    (router.register method template handlers).router.pools = router.pools ∧
      (router.register method template handlers).router.errorHandler =
        router.errorHandler := by
  rcases router.register_cases method template handlers with
    ⟨_, _, hsame | hnew⟩ | ⟨_, _, _, hrouter⟩
  · rw [hsame]
    exact ⟨rfl, rfl⟩
  · rw [hnew]
    exact ⟨rfl, rfl⟩
  · rw [hrouter]
    exact ⟨rfl, rfl⟩

end

end Router

namespace Session

variable {session : Session ε σ}

theorem kept_register (session : Session ε σ) (method : Option Method)
    (template : String) (handlers : List (Handler ε σ)) :
    (session.register method template handlers).router.pools =
        session.router.pools ∧
      (session.register method template handlers).router.errorHandler =
        session.router.errorHandler := by
  rcases session.register_eq method template handlers with
    ⟨_, hrefused⟩ | ⟨full, hregistered⟩
  · rw [hrefused]
    exact ⟨rfl, rfl⟩
  · rw [hregistered]
    exact session.router.kept_register method full _

theorem pristine_apply (hpristine : session.router.Pristine)
    (operation : Operation ε σ) :
    (session.apply operation).router.Pristine := by
  obtain ⟨hcontexts, hcaptures⟩ := hpristine
  cases operation with
  | openGroup base => exact ⟨hcontexts, hcaptures⟩
  | closeGroup => exact ⟨hcontexts, hcaptures⟩
  | useInGroup handlers => exact ⟨hcontexts, hcaptures⟩
  | register method template handlers =>
      obtain ⟨hpools, _⟩ := session.kept_register method template handlers
      exact ⟨hpools ▸ hcontexts, hpools ▸ hcaptures⟩
  | useMiddleware handlers =>
      unfold Session.apply
      dsimp only
      rw [Router.useMiddleware_eq]
      exact ⟨hcontexts, hcaptures⟩
  | setNotFound handler => exact ⟨hcontexts, hcaptures⟩
  | setMethodNotAllowed handler => exact ⟨hcontexts, hcaptures⟩
  | setErrorHandler handler => exact ⟨hcontexts, hcaptures⟩
  | visit visit => exact Router.Pristine.visit ⟨hcontexts, hcaptures⟩ visit

end Session

theorem Run.pristine_ofOperations (settings : Settings)
    (operations : List (Operation ε σ)) :
    (ofOperations settings operations).session.router.Pristine := by
  induction operations using List.reverseRecOn with
  | nil =>
      refine ⟨⟨Context.clean_blank, List.forall_mem_nil _⟩, ?_⟩
      exact List.forall_mem_singleton.mpr (.refl .empty)
  | append_singleton operations operation ih =>
      rw [ofOperations_concat]
      exact Session.pristine_apply ih operation

/-! ## Discreet routers -/

structure Router.Discreet (router : Router ε σ) : Prop where
  contexts : router.pools.contexts.Clean
  errorHandler : router.errorHandler.Public

namespace Router

variable {router : Router ε σ}

theorem errorHandler_visit (router : Router ε σ) (visit : Visit σ) :
    (router.visit visit).errorHandler = router.errorHandler := by
  have hkept := congrArg Router.errorHandler (router.settled_visit visit)
  exact hkept

theorem Discreet.visit (hdiscreet : router.Discreet) (visit : Visit σ) :
    (router.visit visit).Discreet where
  contexts := clean_visit hdiscreet.contexts visit
  errorHandler := by
    rw [errorHandler_visit]
    exact hdiscreet.errorHandler

theorem Discreet.visits (hdiscreet : router.Discreet) (visits : List (Visit σ)) :
    (visits.foldl Router.visit router).Discreet := by
  induction visits generalizing router with
  | nil => exact hdiscreet
  | cons first rest ih =>
      rw [List.foldl_cons]
      exact ih (hdiscreet.visit first)

end Router

theorem Session.errorHandler_apply (session : Session ε σ)
    (operation : Operation ε σ) :
    (session.apply operation).router.errorHandler =
        session.router.errorHandler ∨
      operation =
        .setErrorHandler (session.apply operation).router.errorHandler := by
  cases operation with
  | register method template handlers =>
      exact Or.inl (session.kept_register method template handlers).2
  | useMiddleware handlers =>
      unfold Session.apply
      dsimp only
      rw [Router.useMiddleware_eq]
      exact Or.inl rfl
  | setErrorHandler handler => exact Or.inr rfl
  | visit visit => exact Or.inl (session.router.errorHandler_visit visit)
  | _ => exact Or.inl rfl

/-- The error handler is the first one, or one that was set. -/
theorem Run.errorHandler_ofOperations (settings : Settings)
    (operations : List (Operation ε σ)) :
    (ofOperations settings operations).session.router.errorHandler = .showing ∨
      .setErrorHandler
          (ofOperations settings operations).session.router.errorHandler ∈
        operations := by
  induction operations using List.reverseRecOn with
  | nil => exact Or.inl rfl
  | append_singleton operations operation ih =>
      rw [ofOperations_concat]
      rcases Session.errorHandler_apply
          (ofOperations settings operations).session operation with
        hkept | hset
      · unfold Run.apply
        dsimp only
        rw [hkept]
        exact ih.imp_right (List.mem_append_left _)
      · exact Or.inr (List.mem_append_right _ (List.mem_singleton.mpr hset.symm))

theorem Run.discreet_ofOperations (settings : Settings)
    {operations : List (Operation ε σ)}
    (hpublic : ∀ operation ∈ operations, operation.Public) :
    (ofOperations settings operations).session.router.Discreet where
  contexts := (pristine_ofOperations settings operations).contexts
  errorHandler := by
    rcases errorHandler_ofOperations settings operations with hfirst | hset
    · rw [hfirst]
      exact ErrorHandler.public_showing
    · exact (hpublic _ hset).errorHandler _ rfl

end Dispatch
