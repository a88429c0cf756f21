import Dispatch.Chain.Cache
import Dispatch.Context
import Dispatch.KeyedList
import Mathlib.Tactic

/-!
# Chains as lists of handlers

Whatever layout a chain has, its steps are those of one list.  What is proved
of chains is said of that list.  What is left of a running chain depends only
on how many of its steps were entered.

A cache holds what was put into it: if all that is built for a key has some
property, so has all that is answered for it.
-/

namespace Dispatch

variable {ε σ : Type}

/-! ## Steps -/

namespace ChainSteps

def toList : ChainSteps ε σ → List (Handler ε σ)
  | .one a => [a]
  | .two a b => [a, b]
  | .three a b c => [a, b, c]
  | .four a b c d => [a, b, c, d]
  | .many handlers => handlers

theorem toList_ofList (handlers : List (Handler ε σ)) :
    (ofList handlers).toList = handlers := by
  unfold ofList
  split <;> rfl

theorem length_eq (steps : ChainSteps ε σ) :
    steps.length = steps.toList.length := by
  cases steps <;> rfl

theorem get?_eq (steps : ChainSteps ε σ) (index : Nat) :
    steps.get? index = steps.toList[index]? := by
  -- no layout but the list itself has a step past the fourth
  rcases index with _ | _ | _ | _ | index <;> cases steps <;> rfl

end ChainSteps

namespace Chain

/-- The participants in the order in which they run. -/
def handlers (chain : Chain ε σ) : List (Handler ε σ) := chain.steps.toList

theorem handlers_compile (key : ChainKey) (shared route : List (Handler ε σ)) :
    (compile key shared route).handlers = shared ++ route :=
  ChainSteps.toList_ofList (shared ++ route)

theorem length_eq (chain : Chain ε σ) :
    chain.length = chain.handlers.length :=
  chain.steps.length_eq

theorem invoke_eq (chain : Chain ε σ) (index cursor : Nat) (scope : Scope ε σ) :
    chain.invoke index cursor scope =
      match chain.handlers[index]? with
      | some handler => handler.body cursor scope
      | none => .done scope := by
  unfold invoke
  rw [chain.steps.get?_eq]
  rfl

end Chain

/-! ## Running -/

namespace Pending

/-- What is left of a chain of `length` steps when `entered` of them were
entered. -/
def rest (length : Nat) (step : Nat → Nat → Scope ε σ → Program ε σ)
    (entered : Nat) : Pending ε σ :=
  ofSteps ((List.range' entered (length - entered)).map
    fun index cursor scope rest => (step index cursor scope).exec cursor rest)

variable {length entered : Nat} {step : Nat → Nat → Scope ε σ → Program ε σ}

theorem rest_of_le (hle : length ≤ entered) :
    rest length step entered = .exhausted := by
  simp [rest, ofSteps, Nat.sub_eq_zero_of_le hle]

theorem rest_of_lt (hlt : entered < length) :
    rest length step entered = .ready fun cursor scope =>
      (step entered cursor scope).exec cursor
        (rest length step (entered + 1)) := by
  have hcount : length - entered = length - (entered + 1) + 1 := by omega
  rw [rest, hcount, List.range'_succ]
  rfl

theorem next_rest_of_lt {scope : Scope ε σ} (hlt : entered < length)
    (hgoing : 0 < entered → ¬ scope.exchange.Halted) :
    (rest length step entered).next entered scope =
      (step entered (entered + 1) scope).exec (entered + 1)
        (rest length step (entered + 1)) := by
  have henter : ¬ (0 < entered ∧ scope.exchange.Halted) :=
    fun hhalted => hgoing hhalted.1 hhalted.2
  rw [rest_of_lt hlt]
  exact if_neg henter

/-- A call does nothing once the chain is exhausted or halted. -/
theorem next_rest_of_idle {scope : Scope ε σ} (hpos : 0 < entered)
    (hidle : entered < length → scope.exchange.Halted) :
    (rest length step entered).next entered scope =
      ({ scope, cursor := entered }, rest length step entered) := by
  rcases Nat.lt_or_ge entered length with hlt | hle
  · rw [rest_of_lt hlt]
    exact if_pos ⟨hpos, hidle hlt⟩
  · rw [rest_of_le hle]
    rfl

end Pending

namespace Program

/-- Goes on where a part of a run ended, unless it panicked. -/
def after (ended : Outcome ε σ × Pending ε σ)
    (resume : Nat → Scope ε σ → Program ε σ) : Outcome ε σ × Pending ε σ :=
  match ended.1.panic with
  | some _ => ended
  | none => (resume ended.1.cursor ended.1.scope).exec ended.1.cursor ended.2

variable (scope : Scope ε σ) (resume : Nat → Scope ε σ → Program ε σ)
  (cursor : Nat) (pending : Pending ε σ)

theorem exec_next : (next scope resume).exec cursor pending =
    after (pending.next cursor scope) resume := rfl

theorem exec_run (length : Nat) (step : Nat → Nat → Scope ε σ → Program ε σ) :
    (run scope length step resume).exec cursor pending =
      after ((Pending.rest length step 0).next 0 scope) resume := by
  rw [Pending.rest, Nat.sub_zero, ← List.range_eq_range']
  rfl

/-- Nothing is left to do after a chain that was run from outside. -/
theorem after_done (ended : Outcome ε σ × Pending ε σ) :
    after ended (fun _ scope => .done scope) = ended := by
  obtain ⟨⟨scope, cursor, panic⟩, pending⟩ := ended
  cases panic <;> rfl

end Program

/-- A chain is run by entering its first step. -/
theorem Context.run_eq (context : Context ε σ) (outside : σ)
    (chain : Chain ε σ) :
    context.run outside chain =
      resultOf ((Pending.rest chain.length chain.invoke 0).next 0
        { exchange := context.exchange, outside }) := by
  have hexec := Program.exec_run { exchange := context.exchange, outside }
    (fun _ scope => .done scope) context.cursor context.pending chain.length
    chain.invoke
  rw [Program.after_done] at hexec
  rw [← hexec]
  rfl

/-- A run does not depend on the layout or the key of its chain. -/
theorem Context.run_of_handlers (context : Context ε σ) (outside : σ)
    {first second : Chain ε σ} (hhandlers : first.handlers = second.handlers) :
    context.run outside first = context.run outside second := by
  have hlength : first.length = second.length := by
    rw [Chain.length_eq, Chain.length_eq, hhandlers]
  have hinvoke : first.invoke = second.invoke := by
    funext index cursor scope
    rw [Chain.invoke_eq, Chain.invoke_eq, hhandlers]
  rw [Context.run_eq, Context.run_eq, hlength, hinvoke]

/-! ## The cache -/

namespace ChainCache

variable {α : Type} {cache : ChainCache α} {Good : ChainKey → α → Prop}

/-- Every chain in the cache is good for its key. -/
def Holds (cache : ChainCache α) (Good : ChainKey → α → Prop) : Prop :=
  ∀ key chain, cache.get? key = some chain → Good key chain

theorem holds_empty (Good : ChainKey → α → Prop) : empty.Holds Good := by
  intro key chain hget
  contradiction

theorem Holds.mono {Better : ChainKey → α → Prop} (hholds : cache.Holds Good)
    (himp : ∀ key chain, Good key chain → Better key chain) :
    cache.Holds Better := by
  intro key chain hget
  apply himp
  exact hholds key chain hget

theorem Holds.putIfAbsent (hholds : cache.Holds Good) {key : ChainKey}
    {chain : α} (hchain : Good key chain) :
    Good key (cache.putIfAbsent key chain).1 ∧
      (cache.putIfAbsent key chain).2.Holds Good := by
  unfold ChainCache.putIfAbsent
  cases hget : cache.get? key with
  | some present => exact ⟨hholds key present hget, hholds⟩
  | none =>
      refine ⟨hchain, ?_⟩
      intro other found hfound
      have hlookup : (cache.chains ++ [(key, chain)]).lookup other =
          some found := hfound
      rw [List.lookup_append, Option.or_eq_some_iff] at hlookup
      rcases hlookup with hold | ⟨_, hnew⟩
      · exact hholds other found hold
      · by_cases hsame : other = key
        · subst other
          rw [List.lookup_cons_self] at hnew
          obtain rfl := Option.some.inj hnew
          exact hchain
        · rw [KeyedList.lookup_cons_of_ne hsame] at hnew
          contradiction

/-- A builder that leaves the cache alone. -/
theorem Holds.getOrBuild (hholds : cache.Holds Good) {key : ChainKey}
    {chain : α} (hchain : Good key chain) :
    Good key (cache.getOrBuild key fun cache => (chain, cache)).chain ∧
      (cache.getOrBuild key fun cache => (chain, cache)).cache.Holds Good := by
  unfold ChainCache.getOrBuild
  cases hget : cache.get? key with
  | some present => exact ⟨hholds key present hget, hholds⟩
  | none =>
      have hcounted : ChainCache.Holds { cache with misses := cache.misses + 1 }
          Good := hholds
      exact hcounted.putIfAbsent hchain

end ChainCache
end Dispatch
