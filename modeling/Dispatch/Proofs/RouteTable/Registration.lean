import Dispatch.Proofs.MethodRoutes
import Mathlib.Tactic

/-!
# What registration keeps true of a table

A table is made by calls, each of which registers a route or is refused and
changes nothing.  A registered route goes to the end of the routes and into one
family, that of its method or the one for every method.  Each family is
therefore what the insertions of its own routes make, in the order of the
table, and this is all that lookup has to know of a table.
-/

namespace Dispatch
namespace RouteTable

variable {α : Type}

/-- A call that registers a route. -/
inductive Call (α : Type) where
  | add (method : Option Method) (template : String) (value : α)
  | insert (pattern : Pattern) (hcompiled : pattern.Compiled) (value : α)

def Call.result (table : RouteTable α) :
    Call α → Except InsertError (RouteTable α × RouteId)
  | .add method template value => table.add method template value
  | .insert pattern _ value => table.insert pattern value

def apply (table : RouteTable α) (call : Call α) : RouteTable α :=
  match call.result table with
  | .ok (next, _) => next
  | .error _ => table

def ofCalls (policy : ConflictPolicy) (decode : Bool) (calls : List (Call α)) :
    RouteTable α :=
  calls.foldl apply { policy, decode }

theorem ofCalls_concat (policy : ConflictPolicy) (decode : Bool)
    (calls : List (Call α)) (call : Call α) :
    ofCalls policy decode (calls ++ [call]) =
      (ofCalls policy decode calls).apply call := by
  simp [ofCalls]

section

variable {table : RouteTable α} {pattern : Pattern} {value : α}

/-! ## One call -/

theorem insert_ok {next : RouteTable α} {id : RouteId}
    (hinsert : table.insert pattern value = .ok (next, id)) :
    next = table.push pattern value ∧ id = table.routes.size ∧
      (table.policy = .strict → table.conflicting pattern = []) := by
  unfold insert at hinsert
  cases hpolicy : table.policy with
  | firstWins =>
      rw [hpolicy] at hinsert
      obtain ⟨rfl, rfl⟩ := Prod.mk.inj (Except.ok.inj hinsert)
      exact ⟨rfl, rfl, by simp⟩
  | strict =>
      cases hconflicting : table.conflicting pattern with
      | nil =>
          rw [hpolicy, hconflicting] at hinsert
          obtain ⟨rfl, rfl⟩ := Prod.mk.inj (Except.ok.inj hinsert)
          exact ⟨rfl, rfl, fun _ => rfl⟩
      | cons existing others =>
          rw [hpolicy, hconflicting] at hinsert
          contradiction

theorem add_ok {method : Option Method} {template : String}
    {next : RouteTable α} {id : RouteId}
    (hadd : table.add method template value = .ok (next, id)) :
    ∃ pattern, Pattern.compile template method = .ok pattern ∧
      table.insert pattern value = .ok (next, id) := by
  unfold add at hadd
  cases hcompile : Pattern.compile template method with
  | error error =>
      rw [hcompile] at hadd
      contradiction
  | ok pattern =>
      rw [hcompile] at hadd
      exact ⟨pattern, rfl, hadd⟩

/-- All that a call can do: nothing, or push one compiled pattern, which then
conflicts with no route if the policy is strict. -/
theorem apply_cases (table : RouteTable α) (call : Call α) :
    table.apply call = table ∨
      ∃ pattern value, pattern.Compiled ∧
        (table.policy = .strict → table.conflicting pattern = []) ∧
        table.apply call = table.push pattern value := by
  unfold apply
  cases hresult : call.result table with
  | error error => exact Or.inl rfl
  | ok result =>
      obtain ⟨next, id⟩ := result
      cases call with
      | add method template value =>
          obtain ⟨pattern, hcompile, hinsert⟩ := add_ok hresult
          obtain ⟨rfl, _, hstrict⟩ := insert_ok hinsert
          exact Or.inr ⟨pattern, value, ⟨template, method, hcompile⟩,
            hstrict, rfl⟩
      | insert pattern hcompiled value =>
          obtain ⟨rfl, _, hstrict⟩ := insert_ok hresult
          exact Or.inr ⟨pattern, value, hcompiled, hstrict, rfl⟩

@[simp] theorem push_policy : (table.push pattern value).policy = table.policy := by
  unfold push
  split <;> rfl

@[simp] theorem push_decode : (table.push pattern value).decode = table.decode := by
  unfold push
  split <;> rfl

theorem push_routes : (table.push pattern value).routes =
    table.routes.push ⟨table.routes.size, pattern, value⟩ := by
  unfold push
  split <;> rfl

theorem mem_push {route : Route α} :
    route ∈ (table.push pattern value).routes ↔
      route ∈ table.routes ∨ route = ⟨table.routes.size, pattern, value⟩ := by
  rw [push_routes, Array.mem_push]

/-! ## Families -/

/-- The routes of one method, or those for every method. -/
def family (table : RouteTable α) : Option Method → MethodRoutes
  | some method => (table.routesOf? method).getD .empty
  | none => table.anyMethod

def insertions (table : RouteTable α) (method : Option Method) :
    List (Pattern × RouteId) :=
  (table.routes.toList.filter (·.pattern.method = method)).map fun route =>
    (route.pattern, route.id)

theorem mem_insertions {method : Option Method} {entry : Pattern × RouteId} :
    entry ∈ table.insertions method ↔
      ∃ route ∈ table.routes, route.pattern.method = method ∧
        (route.pattern, route.id) = entry := by
  unfold insertions
  simp [and_assoc]

theorem family_push (method : Option Method) :
    (table.push pattern value).family method =
      if pattern.method = method then
        (table.family method).insert pattern table.routes.size
      else table.family method := by
  unfold push
  cases hpattern : pattern.method with
  | none =>
      cases method with
      | none => rfl
      | some method => rfl
  | some own =>
      cases method with
      | none => rfl
      | some method =>
          have hlookup := KeyedList.lookup_update own method MethodRoutes.empty
            (·.insert pattern table.routes.size) table.byMethod
          simp only [family, routesOf?, hlookup, Option.some.injEq]
          by_cases hmethod : own = method
          · simp [hmethod]
          · simp [hmethod, Ne.symm hmethod]

theorem insertions_push (method : Option Method) :
    (table.push pattern value).insertions method =
      if pattern.method = method then
        table.insertions method ++ [(pattern, table.routes.size)]
      else table.insertions method := by
  unfold insertions
  rw [push_routes, Array.toList_push, List.filter_append]
  by_cases hmethod : pattern.method = method
  · simp [hmethod]
  · simp [hmethod]

/-! ## The invariant -/

structure Consistent (table : RouteTable α) : Prop where
  numbered : ∀ (id : RouteId) (route : Route α),
    table.routes[id]? = some route → route.id = id
  compiled : ∀ route ∈ table.routes, route.pattern.Compiled
  families : ∀ method,
    table.family method = .ofInsertions (table.insertions method)
  methods : (table.byMethod.map Prod.fst).Nodup

theorem Consistent.push (hconsistent : table.Consistent)
    (hcompiled : pattern.Compiled) :
    (table.push pattern value).Consistent where
  numbered := by
    intro id route hroute
    rw [push_routes, Array.getElem?_push] at hroute
    split_ifs at hroute with hid
    · obtain rfl := Option.some.inj hroute
      exact hid.symm
    · exact hconsistent.numbered id route hroute
  compiled := by
    intro route hmem
    rcases mem_push.mp hmem with hold | rfl
    · exact hconsistent.compiled route hold
    · exact hcompiled
  families := by
    intro method
    rw [family_push, insertions_push]
    split_ifs with hmethod
    · rw [MethodRoutes.ofInsertions_concat, ← hconsistent.families method]
    · exact hconsistent.families method
  methods := by
    unfold RouteTable.push
    cases pattern.method with
    | none => exact hconsistent.methods
    | some method => exact KeyedList.nodup_keys_update hconsistent.methods

theorem Consistent.apply (hconsistent : table.Consistent) (call : Call α) :
    (table.apply call).Consistent := by
  rcases apply_cases table call with hsame | ⟨pattern, value, hcompiled, _, hpush⟩
  · rw [hsame]
    exact hconsistent
  · rw [hpush]
    exact hconsistent.push hcompiled

theorem consistent_empty (policy : ConflictPolicy) (decode : Bool) :
    Consistent (α := α) { policy, decode } where
  numbered := by simp
  compiled := by simp
  families := by
    intro method
    cases method <;> rfl
  methods := List.nodup_nil

theorem consistent_ofCalls (policy : ConflictPolicy) (decode : Bool)
    (calls : List (Call α)) : (ofCalls policy decode calls).Consistent := by
  induction calls using List.reverseRecOn with
  | nil => exact consistent_empty policy decode
  | append_singleton calls call ih =>
      rw [ofCalls_concat]
      exact ih.apply call

end

end RouteTable
end Dispatch
