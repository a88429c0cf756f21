import Dispatch.Pool
import Dispatch.Proofs.Captures.Refinement
import Mathlib.Tactic

/-!
# Values on loan

Whoever holds a value of a pool does with it as it pleases, and gives it back
when its scope is left, be it at the end or because a panic unwinds it.

A value that was made is idle, on loan or given up: each call moves one value
from one of these places to another, which is all that the counters count.  A
value that comes back is reset, and a reset leaves no trace of what was done to
it.  It leaves no trace of how it was made either, so a value that is handed
out again reads as a new one only if new ones are made blank.
-/

namespace Dispatch

/-! ## What is shown of a value -/

/-- What the accessors of a store answer. -/
structure Captures.View where
  size : Nat
  isEmpty : Bool
  spilled : Prop
  entries : Except CaptureFault (List (String × String))
  get : String → Except CaptureFault (Option String)
  mark : Mark

namespace Captures

def view (captures : Captures) : View :=
  { size := captures.size
    isEmpty := captures.isEmpty
    spilled := captures.Spilled
    entries := captures.entries
    get := captures.get
    mark := captures.mark }

/-- What the accessors answer after any calls, unless one met a fault.  Marks
may have been taken of any store before. -/
def shown (captures : Captures) (marks : List Mark) (calls : List StoreCall) :
    Except CaptureFault View :=
  (calls.foldlM Marked.apply { captures, marks }).map (·.captures.view)

section

variable {a b : Captures}

theorem Agrees.view (hagrees : a.Agrees b) : a.view = b.view := by
  have hget : a.get = b.get := funext hagrees.get
  simp [Captures.view, Captures.isEmpty, Spilled, mark, hagrees.size,
    hagrees.entries, hagrees.buffer, hget]

theorem Agrees.rollback_fault (hagrees : a.Agrees b) (mark : Mark) :
    (a.rollback mark).2 = (b.rollback mark).2 := by
  unfold Captures.rollback
  rw [← hagrees.size, ← hagrees.buffer]
  split_ifs
  · rfl
  · cases Text.truncate? a.buffer mark.bytes <;> rfl

/-- A call meets the same fault in agreeing stores, or leaves agreeing ones. -/
theorem Agrees.apply (hagrees : a.Agrees b) (marks : List Mark)
    (call : StoreCall) :
    (∃ fault, Marked.apply ⟨a, marks⟩ call = .error fault ∧
      Marked.apply ⟨b, marks⟩ call = .error fault) ∨
    ∃ (c d : Captures) (more : List Mark),
      Marked.apply ⟨a, marks⟩ call = .ok ⟨c, more⟩ ∧
        Marked.apply ⟨b, marks⟩ call = .ok ⟨d, more⟩ ∧ c.Agrees d := by
  cases call with
  | set name value =>
      exact Or.inr ⟨_, _, marks, rfl, rfl, hagrees.set name value⟩
  | capture name raw decode =>
      exact Or.inr ⟨_, _, marks, rfl, rfl, hagrees.set name _⟩
  | reset => exact Or.inr ⟨_, _, marks, rfl, rfl, .reset a b⟩
  | mark =>
      have hmark : b.mark = a.mark := by
        rw [mark, mark, hagrees.size, hagrees.buffer]
      have hsecond : Marked.apply ⟨b, marks⟩ .mark =
          .ok ⟨b, marks ++ [a.mark]⟩ := by
        rw [← hmark]
        rfl
      exact Or.inr ⟨a, b, _, rfl, hsecond, hagrees⟩
  | rollback number =>
      simp only [Marked.apply]
      cases hnumber : marks[number]? with
      | none => exact Or.inr ⟨a, b, marks, rfl, rfl, hagrees⟩
      | some mark =>
          have hfault := hagrees.rollback_fault mark
          have hrest := hagrees.rollback mark
          dsimp only
          generalize a.rollback mark = first at hfault hrest ⊢
          generalize b.rollback mark = second at hfault hrest ⊢
          obtain ⟨c, fault⟩ := first
          obtain ⟨d, same⟩ := second
          obtain rfl : fault = same := hfault
          cases fault with
          | none => exact Or.inr ⟨c, d, marks, rfl, rfl, hrest⟩
          | some fault => exact Or.inl ⟨fault, rfl, rfl⟩

theorem Agrees.shown (hagrees : a.Agrees b) : a.shown = b.shown := by
  funext marks calls
  unfold Captures.shown
  induction calls generalizing a b marks with
  | nil => exact congrArg Except.ok hagrees.view
  | cons call rest ih =>
      rw [List.foldlM_cons, List.foldlM_cons]
      rcases hagrees.apply marks call with
        ⟨fault, hfirst, hsecond⟩ | ⟨c, d, more, hfirst, hsecond, hnext⟩
      · rw [hfirst, hsecond]
      · rw [hfirst, hsecond]
        exact ih hnext more

end

theorem shown_reset (a b : Captures) : a.reset.shown = b.reset.shown :=
  (Agrees.reset a b).shown

end Captures

/-- What the accessors of a context answer, and what is left of its chain. -/
structure Context.View (ε σ : Type) where
  request : Request
  captures : List Mark → List Captures.StoreCall →
    Except CaptureFault Captures.View
  status : Status
  responseHeaders : Headers
  responseBody : Bytes
  failure : Option Failure
  halted : Prop
  allow : AllowList
  attachment : Option ε
  cursor : Nat
  pending : Pending ε σ

namespace Context

variable {ε σ : Type}

def shown (context : Context ε σ) : View ε σ :=
  { request := context.exchange.request
    captures := context.exchange.captures.shown
    status := context.exchange.status
    responseHeaders := context.exchange.responseHeaders
    responseBody := context.exchange.responseBody
    failure := context.exchange.failure
    halted := context.exchange.Halted
    allow := context.exchange.allow
    attachment := context.exchange.attachment
    cursor := context.cursor
    pending := context.pending }

theorem shown_reset (a b : Context ε σ) : a.reset.shown = b.reset.shown := by
  have hcaptures := Captures.shown_reset a.exchange.captures b.exchange.captures
  simp [shown, reset, Exchange.reset, Exchange.Halted, hcaptures]

end Context

/-! ## Loans -/

/-- A pool with the values that it has on loan, in the order in which they were
handed out. -/
structure Lending (α : Type) where
  pool : Pool α
  held : List α := []

inductive Lending.Call (α : Type) where
  | acquire
  /-- The holders change their values, each as it likes: a value may be
  replaced, or exchanged for that of another holder. -/
  | use (change : List α → Nat → α → α)
  /-- Scopes are left, at their end or by a panic.  The values at these places
  go back, one after another. -/
  | leave (places : List Nat)

def Lending.Call.isAcquire {α : Type} : Lending.Call α → Bool
  | .acquire => true
  | .use _ | .leave _ => false

namespace Lending

variable {ε σ α : Type} [Recycle α]

/-- Gives back the value at a place, if there is one. -/
def giveBack (lending : Lending α) (place : Nat) : Lending α :=
  match lending.held[place]? with
  | some value =>
    { pool := lending.pool.release value, held := lending.held.eraseIdx place }
  | none => lending

def apply (lending : Lending α) : Call α → Lending α
  | .acquire =>
    let (value, pool) := lending.pool.acquire
    { pool, held := lending.held ++ [value] }
  | .use change =>
    { lending with held := lending.held.mapIdx (change lending.held) }
  | .leave places => places.foldl giveBack lending

def ofCalls (maxIdle : Nat) (make : α) (calls : List (Call α)) : Lending α :=
  calls.foldl apply { pool := { maxIdle, make } }

/-- The counters of a pool, of which so many values were acquired, agree with
what there is. -/
structure Balanced (lending : Lending α) (maxIdle acquired : Nat) : Prop where
  idle_le : lending.pool.idle.length ≤ maxIdle
  acquired_eq : lending.pool.created + lending.pool.reused = acquired
  created_eq : lending.pool.created =
    lending.pool.discarded + lending.pool.idle.length + lending.held.length

/-- The invariant of a pool that began empty: beside the counters, what its
idle values have become. -/
structure Sound (maxIdle : Nat) (make : α) (acquired : Nat)
    (lending : Lending α) : Prop where
  balanced : lending.Balanced maxIdle acquired
  maxIdle_eq : lending.pool.maxIdle = maxIdle
  make_eq : lending.pool.make = make
  idle : ∀ value ∈ lending.pool.idle, ∃ used, value = Recycle.recycle used

section

variable {maxIdle acquired : Nat} {make : α} {lending : Lending α}

theorem Sound.acquire (hsound : lending.Sound maxIdle make acquired) :
    (lending.apply .acquire).Sound maxIdle make (acquired + 1) := by
  obtain ⟨⟨hle, hacquired, hcreated⟩, hmax, hmake, hidle⟩ := hsound
  simp only [apply, Pool.acquire]
  cases hpool : lending.pool.idle with
  | nil =>
      simp only [hpool, List.length_nil] at hle hcreated hidle
      exact {
        balanced := by constructor <;> simp <;> omega
        maxIdle_eq := hmax
        make_eq := hmake
        idle := List.forall_mem_nil _ }
  | cons value rest =>
      simp only [hpool, List.length_cons] at hle hcreated
      rw [hpool, List.forall_mem_cons] at hidle
      exact {
        balanced := by constructor <;> simp <;> omega
        maxIdle_eq := hmax
        make_eq := hmake
        idle := hidle.2 }

theorem Sound.giveBack (hsound : lending.Sound maxIdle make acquired)
    (place : Nat) : (lending.giveBack place).Sound maxIdle make acquired := by
  unfold Lending.giveBack
  cases hvalue : lending.held[place]? with
  | none => exact hsound
  | some value =>
      obtain ⟨⟨hle, hacquired, hcreated⟩, hmax, hmake, hidle⟩ := hsound
      obtain ⟨hplace, _⟩ := List.getElem?_eq_some_iff.mp hvalue
      have hheld := List.length_eraseIdx_add_one hplace
      unfold Pool.release
      dsimp only
      split_ifs with hfull
      · exact {
          balanced := by constructor <;> dsimp only <;> omega
          maxIdle_eq := hmax
          make_eq := hmake
          idle := hidle }
      · unfold Pool.IsFull at hfull
        exact {
          balanced := by constructor <;> simp <;> omega
          maxIdle_eq := hmax
          make_eq := hmake
          idle := List.forall_mem_cons.mpr ⟨⟨value, rfl⟩, hidle⟩ }

theorem Sound.leave (hsound : lending.Sound maxIdle make acquired)
    (places : List Nat) :
    (lending.apply (.leave places)).Sound maxIdle make acquired := by
  unfold Lending.apply
  induction places generalizing lending with
  | nil => exact hsound
  | cons place rest ih => exact ih (hsound.giveBack place)

theorem Sound.use (hsound : lending.Sound maxIdle make acquired)
    (change : List α → Nat → α → α) :
    (lending.apply (.use change)).Sound maxIdle make acquired := by
  obtain ⟨⟨hle, hacquired, hcreated⟩, hmax, hmake, hidle⟩ := hsound
  refine ⟨⟨hle, hacquired, ?_⟩, hmax, hmake, hidle⟩
  simpa [Lending.apply] using hcreated

theorem Sound.apply (hsound : lending.Sound maxIdle make acquired)
    (call : Call α) :
    (lending.apply call).Sound maxIdle make
      (acquired + if call.isAcquire then 1 else 0) := by
  cases call with
  | acquire => exact hsound.acquire
  | use change => exact hsound.use change
  | leave places => exact hsound.leave places

theorem sound_ofCalls (maxIdle : Nat) (make : α) (calls : List (Call α)) :
    (ofCalls maxIdle make calls).Sound maxIdle make
      (calls.countP Call.isAcquire) := by
  induction calls using List.reverseRecOn with
  | nil =>
      refine ⟨⟨Nat.zero_le _, rfl, rfl⟩, rfl, rfl, ?_⟩
      exact List.forall_mem_nil _
  | append_singleton calls call ih =>
      have hlast : ofCalls maxIdle make (calls ++ [call]) =
          (ofCalls maxIdle make calls).apply call := by
        simp [ofCalls]
      rw [hlast, List.countP_append, List.countP_singleton]
      exact ih.apply call

/-- What is handed out was made now, or was reset when it came back. -/
theorem Sound.handedOut (hsound : lending.Sound maxIdle make acquired) :
    (lending.pool.idle = [] → lending.pool.acquire.1 = make) ∧
      (lending.pool.idle ≠ [] →
        ∃ used, lending.pool.acquire.1 = Recycle.recycle used) := by
  unfold Pool.acquire
  cases hpool : lending.pool.idle with
  | nil => exact ⟨fun _ => hsound.make_eq, fun hsome => absurd rfl hsome⟩
  | cons value rest =>
      have hidle := hsound.idle
      rw [hpool, List.forall_mem_cons] at hidle
      exact ⟨fun hnone => by contradiction, fun _ => hidle.1⟩

end

/-- What a pool hands out shows what a new value shows, if it was made now, and
else what a new value shows once it is reset. -/
structure HandsOut {β : Type} (lending : Lending α) (shown : α → β)
    (make : α) : Prop where
  made : lending.pool.idle = [] → shown lending.pool.acquire.1 = shown make
  reused : lending.pool.idle ≠ [] →
    shown lending.pool.acquire.1 = shown (Recycle.recycle make)

theorem handsOut_ofCalls {β : Type} {shown : α → β}
    (hreset : ∀ a b : α,
      shown (Recycle.recycle a) = shown (Recycle.recycle b))
    (maxIdle : Nat) (make : α) (calls : List (Call α)) :
    (ofCalls maxIdle make calls).HandsOut shown make where
  made := by
    intro hnone
    rw [(sound_ofCalls maxIdle make calls).handedOut.1 hnone]
  reused := by
    intro hsome
    obtain ⟨used, hused⟩ := (sound_ofCalls maxIdle make calls).handedOut.2 hsome
    rw [hused]
    exact hreset used make

/-- Whatever was acquired, used and given back, in whatever order and by
whatever way: the counters of the pool agree with what there is, and what it
hands out shows what a new value shows, if it was made now, and else what a new
value shows once it is reset.  For what a router's pools make, a reset changes
nothing. -/
theorem balanced_ofCalls (maxIdle : Nat) :
    (∀ (make : Context ε σ) (calls : List (Call (Context ε σ))),
      (ofCalls maxIdle make calls).Balanced maxIdle
          (calls.countP Call.isAcquire) ∧
        (ofCalls maxIdle make calls).HandsOut Context.shown make) ∧
    (∀ (make : Captures) (calls : List (Call Captures)),
      (ofCalls maxIdle make calls).Balanced maxIdle
          (calls.countP Call.isAcquire) ∧
        (ofCalls maxIdle make calls).HandsOut Captures.shown make) ∧
    ∀ limits : PoolLimits,
      let pools : Pools ε σ := .ofLimits limits
      (Recycle.recycle pools.contexts.make).shown = pools.contexts.make.shown ∧
        (Recycle.recycle pools.captures.make).shown =
          pools.captures.make.shown := by
  refine ⟨?_, ?_, ?_⟩
  · intro make calls
    exact ⟨(sound_ofCalls maxIdle make calls).balanced,
      handsOut_ofCalls Context.shown_reset maxIdle make calls⟩
  · intro make calls
    exact ⟨(sound_ofCalls maxIdle make calls).balanced,
      handsOut_ofCalls Captures.shown_reset maxIdle make calls⟩
  · intro limits pools
    exact ⟨rfl, rfl⟩

/-- A store that is made with an entry. -/
def madeStore : Captures := Captures.empty.set "factory" "made"

/-- The entry is there when the store is handed out for the first time, and
gone when it is handed out again. -/
theorem handedOut_ne_make_madeStore :
    (ofCalls 1 madeStore []).pool.acquire.1.shown = madeStore.shown ∧
      (ofCalls 1 madeStore [.acquire, .leave [0]]).pool.acquire.1.shown ≠
        madeStore.shown := by
  refine ⟨rfl, ?_⟩
  intro hshown
  have hview := congrFun (congrFun hshown []) []
  have hsize := congrArg Captures.View.size (Except.ok.inj hview)
  contradiction

end Lending
end Dispatch
