import Dispatch.Proofs.AllowList
import Dispatch.Proofs.RouteTable.Lookup
import Mathlib.Tactic

/-!
# The methods that a lookup allows

A refused method is told the methods that serve the path.  Each family is
probed on its own, and HEAD is left out beside GET; the family for every method
needs no probe, since a route in it would have been found.
-/

namespace Dispatch
namespace RouteTable

variable {α : Type}

/-- Whether a request finds a route. -/
def Finds (table : RouteTable α) (method : Method) (target : String)
    (captures : Captures) : Prop :=
  ∃ route, (table.lookup method target captures).1 = .found route

section

variable {table : RouteTable α} {method : Method} {target : String}
  {captures : Captures}

theorem Consistent.finds_iff (hconsistent : table.Consistent) :
    table.Finds method target captures ↔
      ∃ route ∈ table.routes, route.pattern.Serves method target :=
  hconsistent.exists_found_iff

theorem Consistent.mem_serving_iff (hconsistent : table.Consistent) :
    method ∈ table.serving (Path.ofTarget target) ↔
      ∃ route ∈ table.routes,
        route.pattern.method = some method ∧ route.pattern.Accepts target := by
  have hfamily : method ∈ table.serving (Path.ofTarget target) ↔
      ((table.family (some method)).select (Path.ofTarget target)).isSome := by
    unfold serving family routesOf?
    simp only [List.mem_map, List.mem_filter, Prod.exists, exists_and_right,
      exists_eq_right]
    constructor
    · rintro ⟨routes, hmem, hselect⟩
      rw [KeyedList.lookup_of_mem hconsistent.methods hmem]
      exact hselect
    · intro hselect
      cases hlookup : table.byMethod.lookup method with
      | none =>
          rw [hlookup, Option.getD_none, MethodRoutes.select_empty] at hselect
          contradiction
      | some routes =>
          rw [hlookup] at hselect
          obtain ⟨before, after, hlist, _⟩ :=
            List.lookup_eq_some_iff.mp hlookup
          exact ⟨routes, by simp [hlist], hselect⟩
  rw [hfamily]
  constructor
  · intro hselect
    obtain ⟨claim, hclaim⟩ := Option.isSome_iff_exists.mp hselect
    obtain ⟨route, hroute, hmethod, _, htakes⟩ :=
      hconsistent.exists_route_of_select hclaim
    exact ⟨route, hroute, hmethod, accepts_iff.mpr htakes⟩
  · rintro ⟨route, hroute, hmethod, haccepts⟩
    rw [Option.isSome_iff_ne_none]
    intro hnone
    exact hconsistent.not_takes_of_select hnone hroute hmethod
      (accepts_iff.mp haccepts)

/-- If some method finds nothing, a method finds a route exactly if it has one
of its own, or GET has one that answers it. -/
theorem Consistent.finds_iff_serving (hconsistent : table.Consistent)
    (hrefused : ¬table.Finds method target captures) (other : Method)
    (store : Captures) :
    table.Finds other target store ↔
      other ∈ table.serving (Path.ofTarget target) ∨
        other = .head ∧ .get ∈ table.serving (Path.ofTarget target) := by
  rw [hconsistent.finds_iff] at hrefused ⊢
  rw [hconsistent.mem_serving_iff, hconsistent.mem_serving_iff]
  constructor
  · rintro ⟨route, hroute, hown | ⟨rfl, hget⟩ | hany, haccepts⟩
    · exact Or.inl ⟨route, hroute, hown, haccepts⟩
    · exact Or.inr ⟨rfl, route, hroute, hget, haccepts⟩
    · exact (hrefused
        ⟨route, hroute, Or.inr (Or.inr hany), haccepts⟩).elim
  · rintro (⟨route, hroute, hown, haccepts⟩ |
      ⟨rfl, route, hroute, hget, haccepts⟩)
    · exact ⟨route, hroute, Or.inl hown, haccepts⟩
    · exact ⟨route, hroute, Or.inr (Or.inl ⟨rfl, hget⟩), haccepts⟩

theorem not_finds_of_outcome {answer : Lookup α}
    (houtcome : table.outcome method (Path.ofTarget target) = answer)
    (hanswer : answer.route? = none) : ¬table.Finds method target captures := by
  rintro ⟨route, hfound⟩
  rw [lookup_fst, houtcome] at hfound
  rw [hfound] at hanswer
  contradiction

theorem outcome_eq_methodNotAllowed {path : Path} {allow : AllowList}
    (houtcome : table.outcome method path = .methodNotAllowed allow) :
    allow = .ofList (table.serving path) ∧ allow.methods ≠ [] := by
  unfold outcome at houtcome
  split at houtcome
  · contradiction
  · split_ifs at houtcome with hempty
    obtain rfl := Lookup.methodNotAllowed.inj houtcome
    exact ⟨rfl, hempty⟩

theorem outcome_eq_notFound_iff {path : Path} :
    table.outcome method path = .notFound ↔
      (table.answer method path).bind (table.routes[·.id]?) = none ∧
        (AllowList.ofList (table.serving path)).methods = [] := by
  unfold outcome
  split
  · next route hroute => simp [hroute]
  · next hnone =>
      split_ifs with hempty
      · simp [hnone, hempty]
      · simp [hempty]

theorem lookup_eq_notFound_iff :
    (table.lookup method target captures).1 = .notFound ↔
      ¬table.Finds method target captures ∧
        table.serving (Path.ofTarget target) = [] := by
  rw [lookup_fst]
  constructor
  · intro houtcome
    refine ⟨not_finds_of_outcome houtcome rfl, ?_⟩
    exact AllowList.methods_ofList_eq_nil_iff.mp (outcome_eq_notFound_iff.mp houtcome).2
  · rintro ⟨hrefused, hserving⟩
    refine outcome_eq_notFound_iff.mpr
      ⟨?_, AllowList.methods_ofList_eq_nil_iff.mpr hserving⟩
    rw [← route?_lookup table method target captures]
    cases hlookup : (table.lookup method target captures).1 with
    | found route => exact (hrefused ⟨route, hlookup⟩).elim
    | methodNotAllowed allow => rfl
    | notFound => rfl

end

/-- A refused method is told exactly the methods that find a route for the
path, less HEAD if GET is among them; it is not one of them, and there is at
least one.  If nothing is found, no method finds anything. -/
theorem allowed_ofCalls (policy : ConflictPolicy) (decode : Bool)
    (calls : List (Call α)) (method : Method) (target : String)
    (captures : Captures) :
    let table := ofCalls policy decode calls
    (∀ allow,
        (table.lookup method target captures).1 = .methodNotAllowed allow →
          allow.methods ≠ [] ∧ method ∉ allow.methods ∧
            ∀ other store, other ∈ allow.methods ↔
              table.Finds other target store ∧
                ¬(other = .head ∧ .get ∈ allow.methods)) ∧
      ((table.lookup method target captures).1 = .notFound →
        ∀ other store, (table.lookup other target store).1 = .notFound) := by
  intro table
  have hconsistent : table.Consistent := consistent_ofCalls policy decode calls
  refine ⟨?_, ?_⟩
  · intro allow hlookup
    rw [lookup_fst] at hlookup
    have hrefused : ¬table.Finds method target captures :=
      not_finds_of_outcome hlookup rfl
    obtain ⟨rfl, hne⟩ := outcome_eq_methodNotAllowed hlookup
    have hfinds := hconsistent.finds_iff_serving hrefused
    have hget : Method.get ∈ (AllowList.ofList
        (table.serving (Path.ofTarget target))).methods ↔
          .get ∈ table.serving (Path.ofTarget target) := by
      rw [AllowList.mem_ofList]
      exact and_iff_left fun heq => absurd heq (by decide)
    have hallowed : ∀ other store,
        other ∈ (AllowList.ofList
          (table.serving (Path.ofTarget target))).methods ↔
        table.Finds other target store ∧
          ¬(other = .head ∧ .get ∈ (AllowList.ofList
            (table.serving (Path.ofTarget target))).methods) := by
      intro other store
      rw [hget, hfinds other store, AllowList.mem_ofList]
      tauto
    refine ⟨hne, ?_, hallowed⟩
    intro hmem
    exact hrefused ((hallowed method captures).mp hmem).1
  · intro hlookup other store
    obtain ⟨hrefused, hserving⟩ := lookup_eq_notFound_iff.mp hlookup
    refine lookup_eq_notFound_iff.mpr ⟨?_, hserving⟩
    rw [hconsistent.finds_iff_serving hrefused, hserving]
    simp

end RouteTable
end Dispatch
