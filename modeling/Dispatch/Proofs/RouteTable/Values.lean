import Dispatch.Proofs.RouteTable.Captured
import Mathlib.Tactic

/-!
# Tables that differ in their values only

The value of a route has no part in registration or lookup.  Tables that agree
in all but the values answer alike, up to those values, and leave the same
captures.  They accept and refuse the same patterns, and if their values are
related route by route, they stay so.

What the argument needs of the values is that the routes agree without them.
It is made for any change of the routes that leaves the conflicts between them
as they are.
-/

namespace Dispatch

/-- A route without its value. -/
def Route.bare {α : Type} (route : Route α) : Route Unit :=
  { route with value := () }

/-- An answer without the value of its route. -/
def Lookup.bare {α : Type} : Lookup α → Lookup Unit
  | .found route => .found route.bare
  | .methodNotAllowed allow => .methodNotAllowed allow
  | .notFound => .notFound

/-- Answers that differ at most in the values of their routes. -/
theorem Lookup.cases_of_bare {α β : Type} {answer : Lookup α} {twin : Lookup β}
    (hbare : answer.bare = twin.bare) :
    (∃ route other, answer = .found route ∧ twin = .found other ∧
        route.id = other.id ∧ route.pattern = other.pattern) ∨
      (∃ allow, answer = .methodNotAllowed allow ∧
        twin = .methodNotAllowed allow) ∨
      answer = .notFound ∧ twin = .notFound := by
  cases answer with
  | found route =>
      cases twin with
      | found other =>
          obtain ⟨hid, hpattern, _⟩ := Route.mk.inj (Lookup.found.inj hbare)
          exact Or.inl ⟨route, other, rfl, rfl, hid, hpattern⟩
      | methodNotAllowed allow => contradiction
      | notFound => contradiction
  | methodNotAllowed allow =>
      cases twin with
      | found other => contradiction
      | methodNotAllowed same =>
          obtain rfl := Lookup.methodNotAllowed.inj hbare
          exact Or.inr (Or.inl ⟨allow, rfl, rfl⟩)
      | notFound => contradiction
  | notFound =>
      cases twin with
      | found other => contradiction
      | methodNotAllowed allow => contradiction
      | notFound => exact Or.inr (Or.inr ⟨rfl, rfl⟩)

/-- An answer with its route changed. -/
def Lookup.over {α β : Type} (change : Route α → Route β) :
    Lookup α → Lookup β
  | .found route => .found (change route)
  | .methodNotAllowed allow => .methodNotAllowed allow
  | .notFound => .notFound

theorem Lookup.over_bare {α : Type} (answer : Lookup α) :
    answer.over Route.bare = answer.bare := by
  cases answer <;> rfl

namespace RouteTable

variable {α β γ : Type}

/-! ## Routes that agree after a change -/

section

variable {a : RouteTable α} {b : RouteTable β} {first : Route α → Route γ}
  {second : Route β → Route γ}

/-- Such routes are found alike, up to that change. -/
theorem lookup_over
    (hroutes : a.routes.map first = b.routes.map second)
    (hbyMethod : a.byMethod = b.byMethod)
    (hanyMethod : a.anyMethod = b.anyMethod) (hdecode : a.decode = b.decode)
    (method : Method) (target : String) (captures : Captures) :
    (a.lookup method target captures).1.over first =
        (b.lookup method target captures).1.over second ∧
      (a.lookup method target captures).2 =
        (b.lookup method target captures).2 := by
  have hgroups : a.groups method = b.groups method := by
    unfold groups routesOf?
    rw [hbyMethod, hanyMethod]
  have hat : ∀ id : RouteId,
      a.routes[id]?.map first = b.routes[id]?.map second := by
    intro id
    rw [← Array.getElem?_map, ← Array.getElem?_map, hroutes]
  unfold RouteTable.lookup
  dsimp only
  rw [hgroups, hdecode, hbyMethod]
  cases Search.firstOf ((b.groups method).map
      (·.find (Path.ofTarget target) b.decode)) captures with
  | mk id after =>
      have hfound : (id.bind fun id => a.routes[id]?).map first =
          (id.bind fun id => b.routes[id]?).map second := by
        rw [Option.map_bind, Option.map_bind]
        cases id with
        | none => rfl
        | some id => exact hat id
      dsimp only
      cases hleft : id.bind fun id => a.routes[id]? with
      | some route =>
          rw [hleft, Option.map_some] at hfound
          obtain ⟨other, hright, hsame⟩ := Option.map_eq_some_iff.mp hfound.symm
          rw [hright]
          exact ⟨congrArg Lookup.found hsame.symm, rfl⟩
      | none =>
          rw [hleft, Option.map_none] at hfound
          rw [Option.map_eq_none_iff.mp hfound.symm]
          dsimp only
          split_ifs
          · exact ⟨rfl, rfl⟩
          · exact ⟨rfl, rfl⟩

variable {pattern twin : Pattern}

/-- Such routes conflict alike, if the change leaves the conflicts as they
are. -/
theorem conflicting_over {shown : Pattern}
    (hroutes : a.routes.map first = b.routes.map second)
    (hfirst : ∀ route, pattern.Conflicts route.pattern ↔
      shown.Conflicts (first route).pattern)
    (hsecond : ∀ route, twin.Conflicts route.pattern ↔
      shown.Conflicts (second route).pattern) :
    (a.conflicting pattern).map first = (b.conflicting twin).map second := by
  have hover : ∀ {δ : Type} (table : RouteTable δ) (change : Route δ → Route γ)
      (asked : Pattern), (∀ route, asked.Conflicts route.pattern ↔
        shown.Conflicts (change route).pattern) →
      (table.conflicting asked).map change =
        (table.routes.map change).toList.filter fun route =>
          shown.Conflicts route.pattern := by
    intro δ table change asked hchange
    unfold RouteTable.conflicting
    rw [Array.toList_map, List.filter_map]
    simp only [hchange, Function.comp_def]
  rw [hover a first pattern hfirst, hover b second twin hsecond, hroutes]

/-- Two patterns are refused because of such routes, or both are accepted. -/
theorem insert_over (hsize : a.routes.size = b.routes.size)
    (hpolicy : a.policy = b.policy)
    (hconflicting :
      (a.conflicting pattern).map first = (b.conflicting twin).map second)
    (x : α) (y : β) :
    (∃ existing other, first existing = second other ∧
        a.insert pattern x =
          .error (.conflict pattern.toText existing.pattern.toText) ∧
        b.insert twin y =
          .error (.conflict twin.toText other.pattern.toText)) ∨
      a.insert pattern x = .ok (a.push pattern x, a.routes.size) ∧
        b.insert twin y = .ok (b.push twin y, a.routes.size) := by
  unfold RouteTable.insert
  rw [hpolicy, hsize]
  cases b.policy with
  | firstWins => exact Or.inr ⟨rfl, rfl⟩
  | strict =>
      cases hleft : a.conflicting pattern with
      | nil =>
          rw [hleft, List.map_nil] at hconflicting
          rw [List.map_eq_nil_iff.mp hconflicting.symm]
          exact Or.inr ⟨rfl, rfl⟩
      | cons existing rest =>
          rw [hleft, List.map_cons] at hconflicting
          obtain ⟨other, others, hright, hsame, _⟩ :=
            List.map_eq_cons_iff.mp hconflicting.symm
          rw [hright]
          exact Or.inl ⟨existing, other, hsame.symm, rfl, rfl⟩

/-- The families after a registration depend on the method and the segments of
the pattern. -/
theorem push_families (hsize : a.routes.size = b.routes.size)
    (hbyMethod : a.byMethod = b.byMethod)
    (hanyMethod : a.anyMethod = b.anyMethod)
    (hmethod : pattern.method = twin.method)
    (hsegments : pattern.segments = twin.segments) (x : α) (y : β) :
    (a.push pattern x).byMethod = (b.push twin y).byMethod ∧
      (a.push pattern x).anyMethod = (b.push twin y).anyMethod := by
  obtain ⟨text, method, segments⟩ := pattern
  obtain ⟨other, _, _⟩ := twin
  obtain rfl := hmethod
  obtain rfl := hsegments
  unfold RouteTable.push
  rw [hbyMethod, hanyMethod, hsize]
  cases method with
  | none => exact ⟨rfl, rfl⟩
  | some method => exact ⟨rfl, rfl⟩

end

/-! ## Tables of one shape -/

structure SameShape (a : RouteTable α) (b : RouteTable β) : Prop where
  routes : a.routes.map Route.bare = b.routes.map Route.bare
  byMethod : a.byMethod = b.byMethod
  anyMethod : a.anyMethod = b.anyMethod
  policy : a.policy = b.policy
  decode : a.decode = b.decode

namespace SameShape

variable {a : RouteTable α} {b : RouteTable β} {c : RouteTable γ}

theorem symm (hshape : a.SameShape b) : b.SameShape a where
  routes := hshape.routes.symm
  byMethod := hshape.byMethod.symm
  anyMethod := hshape.anyMethod.symm
  policy := hshape.policy.symm
  decode := hshape.decode.symm

theorem trans (hfirst : a.SameShape b) (hsecond : b.SameShape c) :
    a.SameShape c where
  routes := hfirst.routes.trans hsecond.routes
  byMethod := hfirst.byMethod.trans hsecond.byMethod
  anyMethod := hfirst.anyMethod.trans hsecond.anyMethod
  policy := hfirst.policy.trans hsecond.policy
  decode := hfirst.decode.trans hsecond.decode

theorem getElem? (hshape : a.SameShape b) (id : RouteId) :
    a.routes[id]?.map Route.bare = b.routes[id]?.map Route.bare := by
  rw [← Array.getElem?_map, ← Array.getElem?_map, hshape.routes]

theorem exists_route (hshape : a.SameShape b) {id : RouteId} {route : Route α}
    (hroute : a.routes[id]? = some route) :
    ∃ other, b.routes[id]? = some other ∧ other.bare = route.bare := by
  have hbare := hshape.getElem? id
  rw [hroute, Option.map_some] at hbare
  exact Option.map_eq_some_iff.mp hbare.symm

/-- Answers and captures do not depend on the values. -/
theorem lookup (hshape : a.SameShape b) (method : Method) (target : String)
    (captures : Captures) :
    (a.lookup method target captures).1.bare =
        (b.lookup method target captures).1.bare ∧
      (a.lookup method target captures).2 =
        (b.lookup method target captures).2 := by
  simpa only [Lookup.over_bare] using lookup_over hshape.routes
    hshape.byMethod hshape.anyMethod hshape.decode method target captures

theorem family (hshape : a.SameShape b) (method : Option Method) :
    a.family method = b.family method := by
  unfold RouteTable.family routesOf?
  rw [hshape.byMethod, hshape.anyMethod]

/-- The values have no part in what was inserted. -/
theorem insertions (hshape : a.SameShape b) (method : Option Method) :
    a.insertions method = b.insertions method := by
  have hbare : ∀ {δ : Type} (table : RouteTable δ),
      table.insertions method =
        ((table.routes.map Route.bare).toList.filter
          (·.pattern.method = method)).map fun route =>
            (route.pattern, route.id) := by
    intro δ table
    unfold RouteTable.insertions
    rw [Array.toList_map, List.filter_map, List.map_map]
    rfl
  rw [hbare a, hbare b, hshape.routes]

theorem consistent (hshape : a.SameShape b) (hconsistent : b.Consistent) :
    a.Consistent where
  numbered := by
    intro id route hroute
    obtain ⟨other, hother, hbare⟩ := hshape.exists_route hroute
    have hid : other.id = route.id := congrArg Route.id hbare
    rw [← hid]
    exact hconsistent.numbered id other hother
  compiled := by
    intro route hmem
    obtain ⟨index, hindex⟩ := Array.mem_iff_getElem?.mp hmem
    obtain ⟨other, hother, hbare⟩ := hshape.exists_route hindex
    have hpattern : other.pattern = route.pattern :=
      congrArg Route.pattern hbare
    rw [← hpattern]
    exact hconsistent.compiled other (Array.mem_of_getElem? hother)
  families := by
    intro method
    rw [hshape.family, hshape.insertions]
    exact hconsistent.families method
  methods := by
    rw [hshape.byMethod]
    exact hconsistent.methods

theorem answer (hshape : a.SameShape b) (method : Method) (path : Path) :
    a.answer method path = b.answer method path := by
  unfold RouteTable.answer
  simp only [hshape.family]

theorem size (hshape : a.SameShape b) : a.routes.size = b.routes.size := by
  have hsize := congrArg Array.size hshape.routes
  rwa [Array.size_map, Array.size_map] at hsize

theorem conflicting (hshape : a.SameShape b) (pattern : Pattern) :
    (a.conflicting pattern).map Route.bare =
      (b.conflicting pattern).map Route.bare :=
  conflicting_over hshape.routes (fun _ => Iff.rfl) fun _ => Iff.rfl

theorem push (hshape : a.SameShape b) (pattern : Pattern) (x : α) (y : β) :
    (a.push pattern x).SameShape (b.push pattern y) where
  routes := by
    rw [push_routes, push_routes, Array.map_push, Array.map_push,
      hshape.routes, hshape.size]
    rfl
  byMethod := (push_families hshape.size hshape.byMethod hshape.anyMethod
    rfl rfl x y).1
  anyMethod := (push_families hshape.size hshape.byMethod hshape.anyMethod
    rfl rfl x y).2
  policy := by rw [push_policy, push_policy, hshape.policy]
  decode := by rw [push_decode, push_decode, hshape.decode]

/-- Both tables refuse a pattern for the same reason, or both accept it. -/
theorem insert_cases (hshape : a.SameShape b) (pattern : Pattern) (x : α)
    (y : β) :
    (∃ error, a.insert pattern x = .error error ∧
        b.insert pattern y = .error error) ∨
      a.insert pattern x = .ok (a.push pattern x, a.routes.size) ∧
        b.insert pattern y = .ok (b.push pattern y, a.routes.size) := by
  rcases insert_over hshape.size hshape.policy (hshape.conflicting pattern)
    x y with ⟨existing, other, hbare, hfirst, hsecond⟩ | haccepted
  · have hpattern : existing.pattern = other.pattern :=
      congrArg Route.pattern hbare
    rw [← hpattern] at hsecond
    exact Or.inl ⟨_, hfirst, hsecond⟩
  · exact Or.inr haccepted

end SameShape

/-! ## Changing values -/

theorem sameShape_mapValues (table : RouteTable α) (change : α → α) :
    (table.mapValues change).SameShape table where
  routes := by
    unfold mapValues
    rw [Array.map_map]
    rfl
  byMethod := rfl
  anyMethod := rfl
  policy := rfl
  decode := rfl

theorem getElem?_modify (table : RouteTable α) (id other : RouteId)
    (change : α → α) :
    (table.modify id change).routes[other]? =
      table.routes[other]?.map fun route =>
        if id = other then { route with value := change route.value }
        else route := by
  unfold modify
  dsimp only
  rw [Array.getElem?_modify]
  split_ifs
  · rfl
  · exact Option.map_id'.symm

theorem sameShape_modify (table : RouteTable α) (id : RouteId)
    (change : α → α) : (table.modify id change).SameShape table where
  routes := by
    apply Array.ext_getElem?
    intro other
    rw [Array.getElem?_map, Array.getElem?_map, getElem?_modify,
      Option.map_map]
    congr 1
    funext route
    rw [Function.comp_apply]
    split_ifs <;> rfl
  byMethod := rfl
  anyMethod := rfl
  policy := rfl
  decode := rfl

/-- A change of one value is undone by a change of all that forgets it. -/
theorem mapValues_modify (table : RouteTable α) (id : RouteId)
    {change forget : α → α}
    (hforget : ∀ value, forget (change value) = forget value) :
    (table.modify id change).mapValues forget = table.mapValues forget := by
  have hroutes : (table.modify id change).routes.map (fun route =>
        { route with value := forget route.value }) =
      table.routes.map fun route =>
        { route with value := forget route.value } := by
    apply Array.ext_getElem?
    intro other
    rw [Array.getElem?_map, Array.getElem?_map, getElem?_modify,
      Option.map_map]
    congr 1
    funext route
    rw [Function.comp_apply]
    split_ifs
    · rw [hforget]
    · rfl
  unfold mapValues
  rw [hroutes]
  rfl

/-! ## Related values -/

/-- Tables of one shape, with related values at each route. -/
structure Related (R : α → β → Prop) (a : RouteTable α) (b : RouteTable β) :
    Prop where
  shape : a.SameShape b
  values : ∀ (id : RouteId) (route : Route α) (other : Route β),
    a.routes[id]? = some route → b.routes[id]? = some other →
      R route.value other.value

namespace Related

variable {R : α → β → Prop} {a : RouteTable α} {b : RouteTable β}

theorem imp {S : α → β → Prop} (hrelated : a.Related R b)
    (himp : ∀ x y, R x y → S x y) : a.Related S b where
  shape := hrelated.shape
  values := by
    intro id route other hroute hother
    exact himp _ _ (hrelated.values id route other hroute hother)

theorem push (hrelated : a.Related R b) (pattern : Pattern) {x : α} {y : β}
    (hvalue : R x y) : (a.push pattern x).Related R (b.push pattern y) where
  shape := hrelated.shape.push pattern x y
  values := by
    intro id route other hroute hother
    rw [push_routes, Array.getElem?_push] at hroute hother
    rw [← hrelated.shape.size] at hother
    split_ifs at hroute hother with hlast
    · obtain rfl := Option.some.inj hroute
      obtain rfl := Option.some.inj hother
      exact hvalue
    · exact hrelated.values id route other hroute hother

theorem mapValues {S : α → β → Prop} {f : α → α} {g : β → β}
    (hrelated : a.Related R b) (hchange : ∀ x y, R x y → S (f x) (g y)) :
    (a.mapValues f).Related S (b.mapValues g) where
  shape := ((sameShape_mapValues a f).trans hrelated.shape).trans
    (sameShape_mapValues b g).symm
  values := by
    intro id route other hroute hother
    unfold RouteTable.mapValues at hroute hother
    rw [Array.getElem?_map] at hroute hother
    obtain ⟨old, hold, rfl⟩ := Option.map_eq_some_iff.mp hroute
    obtain ⟨twin, htwin, rfl⟩ := Option.map_eq_some_iff.mp hother
    exact hchange _ _ (hrelated.values id old twin hold htwin)

theorem modify {f : α → α} {g : β → β} (hrelated : a.Related R b)
    (id : RouteId) (hchange : ∀ x y, R x y → R (f x) (g y)) :
    (a.modify id f).Related R (b.modify id g) where
  shape := ((sameShape_modify a id f).trans hrelated.shape).trans
    (sameShape_modify b id g).symm
  values := by
    intro place route other hroute hother
    rw [getElem?_modify] at hroute hother
    obtain ⟨old, hold, rfl⟩ := Option.map_eq_some_iff.mp hroute
    obtain ⟨twin, htwin, rfl⟩ := Option.map_eq_some_iff.mp hother
    have hvalues := hrelated.values place old twin hold htwin
    split_ifs
    · exact hchange _ _ hvalues
    · exact hvalues

/-- Both tables find a route at the same place. -/
theorem found (hrelated : a.Related R b) {method : Method} {target : String}
    {captures store : Captures} {route : Route α} {other : Route β}
    (hroute : (a.lookup method target captures).1 = .found route)
    (hother : (b.lookup method target store).1 = .found other) :
    R route.value other.value := by
  rw [← Lookup.route?_eq_some, route?_lookup] at hroute hother
  rw [← hrelated.shape.answer] at hother
  obtain ⟨claim, hclaim, hleft⟩ := Option.bind_eq_some_iff.mp hroute
  rw [hclaim, Option.bind_some] at hother
  exact hrelated.values claim.id route other hleft hother

end Related

end RouteTable
end Dispatch
