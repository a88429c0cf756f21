import Dispatch.Context
import Dispatch.Event

/-!
# Pools

A pool keeps values that are not in use, at most `maxIdle` of them.  It hands
out the one that came back last, or makes a new one.  A value that comes back
is reset first, and is given up if the pool is full.
-/

namespace Dispatch

/-- Values that can be cleared for their next use. -/
class Recycle (α : Type) where
  recycle : α → α

instance {ε σ : Type} : Recycle (Context ε σ) := ⟨Context.reset⟩
instance : Recycle Captures := ⟨Captures.reset⟩

/-- The counters have no bound here.  Counters of 64 bits agree with them until
one of them would reach `2 ^ 64`, where they begin again at zero. -/
structure Pool (α : Type) where
  /-- The value that came back last is first. -/
  idle : List α := []
  maxIdle : Nat
  /-- Every new value is this one.  A factory that makes different values is not
  described, nor one that panics, which leaves a value counted as created that
  was never handed out. -/
  make : α
  created : Nat := 0
  reused : Nat := 0
  discarded : Nat := 0

namespace Pool

variable {α : Type}

def acquire (pool : Pool α) : α × Pool α :=
  match pool.idle with
  | value :: rest =>
    (value, { pool with idle := rest, reused := pool.reused + 1 })
  | [] => (pool.make, { pool with created := pool.created + 1 })

def IsFull (pool : Pool α) : Prop := pool.maxIdle ≤ pool.idle.length

instance (pool : Pool α) : Decidable pool.IsFull :=
  inferInstanceAs (Decidable (_ ≤ _))

def release [Recycle α] (pool : Pool α) (value : α) : Pool α :=
  if pool.IsFull then { pool with discarded := pool.discarded + 1 }
  else { pool with idle := Recycle.recycle value :: pool.idle }

/-- What is reported when a value comes back. -/
def releaseEvents (pool : Pool α) : List Event :=
  if pool.IsFull then [.poolFull pool.maxIdle] else []

def describe (pool : Pool α) : String :=
  s!"Pool \x7b idle: {pool.idle.length}, max_idle: {pool.maxIdle}, " ++
    s!"stats: PoolStats \x7b created: {pool.created}, " ++
    s!"reused: {pool.reused}, discarded: {pool.discarded} \x7d, .. \x7d"

end Pool

structure PoolLimits where
  maxIdleContexts : Nat := 1024
  maxIdleCaptures : Nat := 256
  /-- Header maps above this capacity are not kept for later use. -/
  headerCapacityLimit : Nat := 64
  deriving DecidableEq

/-- The pools of a router: contexts for dispatch, and captures for lookups
without one. -/
structure Pools (ε σ : Type) where
  contexts : Pool (Context ε σ)
  captures : Pool Captures

namespace Pools

variable {ε σ : Type}

def ofLimits (limits : PoolLimits) : Pools ε σ :=
  { contexts := { maxIdle := limits.maxIdleContexts, make := .blank }
    captures := { maxIdle := limits.maxIdleCaptures, make := .empty } }

end Pools
end Dispatch
