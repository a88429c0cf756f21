import Dispatch.Proofs.Chain
import Mathlib.Tactic

/-!
# A ledger of servings

Whoever serves from a chain keeps it, and asks the cache only while there is
none to keep.  So there are two layers: the keepers, one at each place that
serves, and the cache, with one chain for each key.

A ledger has one line for each serving: its place, the key there, the chain, and
whether that was built for it.  It tallies with the keepers and the cache if the
keepers at its places are those with a chain, if what it says was built is what
the cache has, and if the counts of the cache are those of its places.  It still
does after one more serving.  In a ledger that tallies each key was built once,
and all that was served under a key is what the cache has for it.
-/

namespace Dispatch

/-! ## Keepers -/

structure Keeper (α : Type) where
  key : ChainKey
  chain : Option α

namespace Keeper

variable {α : Type}

/-- What is served at a keeper.  It asks the cache if it has no chain. -/
def fetch (keeper : Keeper α) (cache : ChainCache α) (fresh : α) :
    ChainCache.Answer α :=
  match keeper.chain with
  | some chain => { chain, cache, built := false }
  | none => cache.getOrBuild keeper.key fun cache => (fresh, cache)

def keep (keeper : Keeper α) (chain : α) : Keeper α :=
  { keeper with chain := some chain }

/-- A chain is kept, found or built. -/
theorem fetch_cases (keeper : Keeper α) (cache : ChainCache α) (fresh : α) :
    (∃ chain, keeper.chain = some chain ∧
      keeper.fetch cache fresh = { chain, cache, built := false }) ∨
    (keeper.chain = none ∧ ∃ chain, cache.get? keeper.key = some chain ∧
      keeper.fetch cache fresh =
        { chain, cache := { cache with hits := cache.hits + 1 }
          built := false }) ∨
    keeper.chain = none ∧ cache.get? keeper.key = none ∧
      keeper.fetch cache fresh =
        { chain := fresh
          cache := { cache with
            chains := cache.chains ++ [(keeper.key, fresh)]
            misses := cache.misses + 1 }
          built := true } := by
  unfold fetch
  cases hkept : keeper.chain with
  | some chain => exact Or.inl ⟨chain, rfl, rfl⟩
  | none =>
      unfold ChainCache.getOrBuild
      cases hget : cache.get? keeper.key with
      | some chain => exact Or.inr (Or.inl ⟨rfl, chain, rfl, rfl⟩)
      | none =>
          have hcounted : ChainCache.get?
              { cache with misses := cache.misses + 1 } keeper.key = none :=
            hget
          refine Or.inr (Or.inr ⟨rfl, rfl, ?_⟩)
          dsimp only
          unfold ChainCache.putIfAbsent
          rw [hcounted]

end Keeper

/-! ## Ledgers -/

structure Serving (π α : Type) where
  place : π
  key : ChainKey
  chain : α
  built : Bool

namespace Serving

variable {π α : Type}

def ofAnswer (place : π) (keeper : Keeper α) (answer : ChainCache.Answer α) :
    Serving π α :=
  { place, key := keeper.key, chain := answer.chain, built := answer.built }

def entry (serving : Serving π α) : ChainKey × α := (serving.key, serving.chain)

end Serving

section

variable {π α : Type} [DecidableEq π]

/-- The ledger tallies with the keepers and the cache. -/
structure Tallies (servings : List (Serving π α))
    (keepers : π → Option (Keeper α)) (cache : ChainCache α) : Prop where
  /-- A keeper that has served, if it is still there, has its chain. -/
  kept : ∀ serving ∈ servings, ∀ keeper, keepers serving.place = some keeper →
    keeper.key = serving.key ∧ keeper.chain = some serving.chain
  unserved : ∀ place ∉ servings.map Serving.place, ∀ keeper,
    keepers place = some keeper → keeper.chain = none
  cached : ∀ serving ∈ servings, cache.get? serving.key = some serving.chain
  built : cache.chains = (servings.filter Serving.built).map Serving.entry
  nodup : (cache.chains.map Prod.fst).Nodup
  misses : cache.misses = cache.size
  accesses : cache.hits + cache.misses =
    (servings.map Serving.place).toFinset.card

namespace Tallies

variable {servings : List (Serving π α)} {keepers : π → Option (Keeper α)}
  {cache : ChainCache α} {place : π} {keeper : Keeper α}

theorem of_nil (hnone : ∀ place keeper, keepers place = some keeper →
    keeper.chain = none) :
    Tallies ([] : List (Serving π α)) keepers .empty where
  kept := List.forall_mem_nil _
  unserved := fun place _ => hnone place
  cached := List.forall_mem_nil _
  built := rfl
  nodup := List.nodup_nil
  misses := rfl
  accesses := rfl

/-- Keepers may go, and new ones may come where nothing was served. -/
theorem replace (htallies : Tallies servings keepers cache)
    {later : π → Option (Keeper α)}
    (hlater : ∀ place keeper, later place = some keeper →
      keepers place = some keeper ∨
        place ∉ servings.map Serving.place ∧ keeper.chain = none) :
    Tallies servings later cache :=
  { htallies with
    kept := by
      intro serving hmem keeper hkeeper
      rcases hlater serving.place keeper hkeeper with hold | ⟨hplace, _⟩
      · exact htallies.kept serving hmem keeper hold
      · exact absurd (List.mem_map_of_mem hmem) hplace
    unserved := by
      intro place hplace keeper hkeeper
      rcases hlater place keeper hkeeper with hold | ⟨_, hnone⟩
      · exact htallies.unserved place hplace keeper hold
      · exact hnone }

theorem mem_place_iff (htallies : Tallies servings keepers cache)
    (hkeeper : keepers place = some keeper) :
    place ∈ servings.map Serving.place ↔ keeper.chain.isSome = true := by
  constructor
  · intro hmem
    obtain ⟨serving, hserving, rfl⟩ := List.mem_map.mp hmem
    rw [(htallies.kept serving hserving keeper hkeeper).2]
    rfl
  · intro hsome
    by_contra hplace
    rw [htallies.unserved place hplace keeper hkeeper] at hsome
    contradiction

/-- A chain that is kept is in the cache. -/
theorem get?_of_kept (htallies : Tallies servings keepers cache)
    (hkeeper : keepers place = some keeper) {chain : α}
    (hchain : keeper.chain = some chain) :
    cache.get? keeper.key = some chain := by
  have hserved : place ∈ servings.map Serving.place := by
    rw [htallies.mem_place_iff hkeeper, hchain]
    rfl
  obtain ⟨serving, hserving, rfl⟩ := List.mem_map.mp hserved
  obtain ⟨hkey, hsame⟩ := htallies.kept serving hserving keeper hkeeper
  rw [hkey, htallies.cached serving hserving, ← hsame, hchain]

/-! ## One more serving -/

/-- What an answer has to do for the ledger to tally. -/
theorem serve (htallies : Tallies servings keepers cache)
    (hkeeper : keepers place = some keeper) {answer : ChainCache.Answer α}
    (hkept : ∀ chain, keeper.chain = some chain → answer.chain = chain)
    (hold : ∀ key chain, cache.get? key = some chain →
      answer.cache.get? key = some chain)
    (hget : answer.cache.get? keeper.key = some answer.chain)
    (hchains : answer.cache.chains = cache.chains ++
      if answer.built then [(keeper.key, answer.chain)] else [])
    (hnodup : (answer.cache.chains.map Prod.fst).Nodup)
    (hmisses : answer.cache.misses = answer.cache.size)
    (haccesses : answer.cache.hits + answer.cache.misses =
      cache.hits + cache.misses + if keeper.chain.isSome then 0 else 1) :
    Tallies (servings ++ [.ofAnswer place keeper answer])
      (Function.update keepers place (some (keeper.keep answer.chain)))
      answer.cache where
  kept := by
    intro serving hserving other hother
    rw [Function.update_apply] at hother
    split_ifs at hother with hplace
    · obtain rfl := Option.some.inj hother
      rcases List.mem_append.mp hserving with hbefore | hlast
      · rw [← hplace] at hkeeper
        obtain ⟨hkey, hchain⟩ :=
          htallies.kept serving hbefore keeper hkeeper
        exact ⟨hkey, congrArg some (hkept serving.chain hchain)⟩
      · obtain rfl := List.mem_singleton.mp hlast
        exact ⟨rfl, rfl⟩
    · rcases List.mem_append.mp hserving with hbefore | hlast
      · exact htallies.kept serving hbefore other hother
      · obtain rfl := List.mem_singleton.mp hlast
        exact absurd rfl hplace
  unserved := by
    intro other hunserved found hfound
    rw [List.map_append, List.mem_append, not_or] at hunserved
    have hplace : other ≠ place := by
      rintro rfl
      exact hunserved.2 (List.mem_singleton.mpr rfl)
    rw [Function.update_of_ne hplace] at hfound
    exact htallies.unserved other hunserved.1 found hfound
  cached := by
    intro serving hserving
    rcases List.mem_append.mp hserving with hbefore | hlast
    · exact hold _ _ (htallies.cached serving hbefore)
    · obtain rfl := List.mem_singleton.mp hlast
      exact hget
  built := by
    rw [hchains, htallies.built, List.filter_append, List.map_append]
    congr 1
    cases hbuilt : answer.built <;> simp [Serving.ofAnswer, Serving.entry, hbuilt]
  nodup := hnodup
  misses := hmisses
  accesses := by
    have hplaces : ((servings ++
        [Serving.ofAnswer place keeper answer]).map Serving.place).toFinset =
          insert place (servings.map Serving.place).toFinset := by
      ext other
      simp [Serving.ofAnswer]
    rw [haccesses, htallies.accesses, hplaces]
    split_ifs with hsome
    · rw [Finset.insert_eq_of_mem, Nat.add_zero]
      rwa [List.mem_toFinset, htallies.mem_place_iff hkeeper]
    · rw [Finset.card_insert_of_notMem]
      rwa [List.mem_toFinset, htallies.mem_place_iff hkeeper]

theorem fetch (htallies : Tallies servings keepers cache)
    (hkeeper : keepers place = some keeper) (fresh : α) :
    Tallies
      (servings ++ [.ofAnswer place keeper (keeper.fetch cache fresh)])
      (Function.update keepers place
        (some (keeper.keep (keeper.fetch cache fresh).chain)))
      (keeper.fetch cache fresh).cache := by
  rcases keeper.fetch_cases cache fresh with
    ⟨chain, hchain, hfetch⟩ | ⟨hnone, chain, hget, hfetch⟩ |
      ⟨hnone, hget, hfetch⟩
  · -- neither the keeper nor the cache changes
    have hget := htallies.get?_of_kept hkeeper hchain
    rw [hfetch]
    apply htallies.serve hkeeper
    · intro other hother
      exact Option.some.inj (hchain.symm.trans hother)
    · exact fun _ _ hfound => hfound
    · exact hget
    · exact (List.append_nil _).symm
    · exact htallies.nodup
    · exact htallies.misses
    · rw [hchain]
      rfl
  · rw [hfetch]
    apply htallies.serve hkeeper
    · intro other hother
      rw [hnone] at hother
      contradiction
    · exact fun _ _ hfound => hfound
    · exact hget
    · exact (List.append_nil _).symm
    · exact htallies.nodup
    · exact htallies.misses
    · rw [hnone]
      exact Nat.succ_add _ _
  · have hlookup : ∀ key,
        (cache.chains ++ [(keeper.key, fresh)]).lookup key =
          (cache.get? key).or ([(keeper.key, fresh)].lookup key) :=
      fun key => List.lookup_append
    have hkey : keeper.key ∉ cache.chains.map Prod.fst := by
      intro hmem
      obtain ⟨⟨key, chain⟩, hentry, rfl⟩ := List.mem_map.mp hmem
      have hfound := KeyedList.lookup_of_mem htallies.nodup hentry
      exact absurd (hget.symm.trans hfound) (by simp)
    rw [hfetch]
    apply htallies.serve hkeeper
    · intro other hother
      rw [hnone] at hother
      contradiction
    · intro key chain hfound
      exact (hlookup key).trans (by rw [hfound]; rfl)
    · exact (hlookup keeper.key).trans (by rw [hget]; simp)
    · rfl
    · rw [List.map_append, List.map_singleton, ← List.concat_eq_append]
      exact htallies.nodup.concat hkey
    · change cache.misses + 1 = (cache.chains ++ [_]).length
      rw [List.length_append, htallies.misses]
      rfl
    · rw [hnone]
      rfl

/-! ## What is read in a ledger -/

theorem toFinset_keys (htallies : Tallies servings keepers cache) :
    (cache.chains.map Prod.fst).toFinset =
      (servings.map Serving.key).toFinset := by
  ext key
  simp only [List.mem_toFinset]
  constructor
  · intro hmem
    rw [htallies.built, List.map_map] at hmem
    obtain ⟨serving, hserving, rfl⟩ := List.mem_map.mp hmem
    exact List.mem_map_of_mem (List.mem_of_mem_filter hserving)
  · intro hmem
    obtain ⟨serving, hserving, rfl⟩ := List.mem_map.mp hmem
    by_contra habsent
    have hlookup := htallies.cached serving hserving
    exact absurd (hlookup.symm.trans (KeyedList.lookup_eq_none habsent))
      (by simp)

theorem misses_eq_card (htallies : Tallies servings keepers cache) :
    cache.misses = (servings.map Serving.key).toFinset.card := by
  rw [htallies.misses, ← htallies.toFinset_keys,
    List.toFinset_card_of_nodup htallies.nodup, List.length_map]
  rfl

/-- Under each key a chain was built for one serving only. -/
theorem count_built (htallies : Tallies servings keepers cache)
    {serving : Serving π α} (hserving : serving ∈ servings) :
    ((servings.filter Serving.built).map Serving.key).count serving.key = 1 := by
  have hkeys : cache.chains.map Prod.fst =
      (servings.filter Serving.built).map Serving.key := by
    rw [htallies.built, List.map_map]
    rfl
  have hmem : serving.key ∈ cache.chains.map Prod.fst := by
    rw [← List.mem_toFinset, htallies.toFinset_keys, List.mem_toFinset]
    exact List.mem_map_of_mem hserving
  rw [← hkeys]
  exact List.count_eq_one_of_mem htallies.nodup hmem

end Tallies

end
end Dispatch
