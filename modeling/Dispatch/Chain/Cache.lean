import Dispatch.Chain

/-!
# The chain cache

Compiled chains are kept by key, so that equal lists of participants are
compiled once.  The cache counts the requests that it could answer and those
that it could not.  A chain that was put in while another was being built for
the same key is kept, and the new one is given up.
-/

namespace Dispatch

/-- The two counters have no bound here.  Counters of 64 bits agree with them
until one of them would reach `2 ^ 64`, where they begin again at zero. -/
structure ChainCache (α : Type) where
  chains : List (ChainKey × α) := []
  hits : Nat := 0
  misses : Nat := 0

namespace ChainCache

variable {α : Type}

def empty : ChainCache α := {}

def get? (cache : ChainCache α) (key : ChainKey) : Option α :=
  cache.chains.lookup key

def size (cache : ChainCache α) : Nat := cache.chains.length

/-- Puts a chain under a key that has none, and returns the one it now has. -/
def putIfAbsent (cache : ChainCache α) (key : ChainKey) (chain : α) :
    α × ChainCache α :=
  match cache.get? key with
  | some present => (present, cache)
  | none => (chain, { cache with chains := cache.chains ++ [(key, chain)] })

/-- What the cache answers, and whether something had to be built for it. -/
structure Answer (α : Type) where
  chain : α
  cache : ChainCache α
  built : Bool

/-- The chain of a key.  Building one may itself use the cache. -/
def getOrBuild (cache : ChainCache α) (key : ChainKey)
    (build : ChainCache α → α × ChainCache α) : Answer α :=
  match cache.get? key with
  | some chain =>
    { chain, cache := { cache with hits := cache.hits + 1 }, built := false }
  | none =>
    let (chain, cache) := build { cache with misses := cache.misses + 1 }
    let (chain, cache) := cache.putIfAbsent key chain
    { chain, cache, built := true }

end ChainCache
end Dispatch
