import Dispatch.Proofs.RouteTable.Values
import Mathlib.Tactic

/-!
# Tables that differ in their templates only

A route keeps the template that it was registered with, but only to show it.
Registration and lookup read the method and the segments.  So two spellings of
one pattern are refused or accepted together, and the tables that they lead to
have the same conflicts and find the same routes.
-/

namespace Dispatch

/-- A pattern without its template. -/
def Pattern.textless (pattern : Pattern) : Pattern :=
  { pattern with template := "" }

/-- A route without its template. -/
def Route.textless {α : Type} (route : Route α) : Route α :=
  { route with pattern := route.pattern.textless }

/-- Two spellings of one pattern. -/
theorem Pattern.textless_eq_iff {first second : Pattern} :
    first.textless = second.textless ↔
      first.method = second.method ∧ first.segments = second.segments := by
  simp [textless]

namespace RouteTable

variable {α : Type}

structure SameButTexts (a b : RouteTable α) : Prop where
  routes : a.routes.map Route.textless = b.routes.map Route.textless
  byMethod : a.byMethod = b.byMethod
  anyMethod : a.anyMethod = b.anyMethod
  policy : a.policy = b.policy
  decode : a.decode = b.decode

theorem SameButTexts.refl (table : RouteTable α) : table.SameButTexts table :=
  ⟨rfl, rfl, rfl, rfl, rfl⟩

namespace SameButTexts

variable {a b : RouteTable α} {first second : Pattern}

theorem lookup (hsame : a.SameButTexts b) (method : Method) (target : String)
    (captures : Captures) :
    (a.lookup method target captures).1.over Route.textless =
        (b.lookup method target captures).1.over Route.textless ∧
      (a.lookup method target captures).2 =
        (b.lookup method target captures).2 :=
  lookup_over hsame.routes hsame.byMethod hsame.anyMethod hsame.decode
    method target captures

theorem size (hsame : a.SameButTexts b) : a.routes.size = b.routes.size := by
  have hsize := congrArg Array.size hsame.routes
  rwa [Array.size_map, Array.size_map] at hsize

theorem conflicting (hsame : a.SameButTexts b)
    (hpatterns : first.textless = second.textless) :
    (a.conflicting first).map Route.textless =
      (b.conflicting second).map Route.textless := by
  have hsecond : ∀ route : Route α, second.Conflicts route.pattern ↔
      first.textless.Conflicts route.textless.pattern := by
    intro route
    rw [hpatterns]
    exact Iff.rfl
  exact conflicting_over hsame.routes (fun _ => Iff.rfl) hsecond

theorem push (hsame : a.SameButTexts b)
    (hpatterns : first.textless = second.textless) (value : α) :
    (a.push first value).SameButTexts (b.push second value) := by
  obtain ⟨hmethod, hsegments⟩ := Pattern.textless_eq_iff.mp hpatterns
  obtain ⟨hbyMethod, hanyMethod⟩ := push_families hsame.size hsame.byMethod
    hsame.anyMethod hmethod hsegments value value
  refine ⟨?_, hbyMethod, hanyMethod, ?_, ?_⟩
  · rw [push_routes, push_routes, Array.map_push, Array.map_push,
      hsame.routes, hsame.size]
    simp only [Route.textless, hpatterns]
  · rw [push_policy, push_policy, hsame.policy]
  · rw [push_decode, push_decode, hsame.decode]

/-- Two spellings are refused together, or accepted under one number. -/
theorem insert_cases (hsame : a.SameButTexts b)
    (hpatterns : first.textless = second.textless) (value : α) :
    (∃ error other, a.insert first value = .error error ∧
        b.insert second value = .error other ∧ error.kind = other.kind) ∨
      a.insert first value = .ok (a.push first value, a.routes.size) ∧
        b.insert second value = .ok (b.push second value, a.routes.size) := by
  rcases insert_over hsame.size hsame.policy (hsame.conflicting hpatterns)
    value value with ⟨existing, other, _, hfirst, hsecond⟩ | haccepted
  · exact Or.inl ⟨_, _, hfirst, hsecond, rfl⟩
  · exact Or.inr haccepted

end SameButTexts
end RouteTable
end Dispatch
