import Dispatch.Proofs.RouteTable.Registration
import Mathlib.Tactic

/-!
# Lookup finds a route exactly if one serves the request

`RouteTable.answer` names what a lookup finds: the families are asked in order,
and each answers with a claim that takes the path, if it has one.  A claim
leads back to its route, since the ids in a family are places in the list of
routes.

The family of every method is always asked, and last.  Neither the captures
that a lookup starts from nor the decoding of captured values has a part in
its answer, which `RouteTable.outcome` names.
-/

namespace Dispatch

def Lookup.route? {α : Type} : Lookup α → Option (Route α)
  | .found route => some route
  | .methodNotAllowed _ | .notFound => none

theorem Lookup.route?_eq_some {α : Type} {answer : Lookup α} {route : Route α} :
    answer.route? = some route ↔ answer = .found route := by
  cases answer <;> simp [route?]

namespace RouteTable

variable {α : Type}

def lookupOrder (method : Method) : List (Option Method) :=
  [some method] ++ (if method = .head then [some .get] else []) ++ [none]

theorem mem_lookupOrder {method : Method} {pattern : Pattern} :
    pattern.method ∈ lookupOrder method ↔ pattern.AnswersMethod method := by
  unfold lookupOrder Pattern.AnswersMethod
  by_cases hhead : method = .head
  · simp [hhead]
  · simp [hhead]

def answer (table : RouteTable α) (method : Method) (path : Path) :
    Option Trie.Claim :=
  (lookupOrder method).findSome? fun group => (table.family group).select path

/-! ## The searches of a lookup -/

/-- A family without routes need not be there to be asked. -/
theorem findSome?_routesOf? (table : RouteTable α) (method : Method)
    (path : Path) :
    (table.routesOf? method).toList.findSome? (·.select path) =
      (table.family (some method)).select path := by
  have hfamily : table.family (some method) =
      (table.routesOf? method).getD .empty := rfl
  rw [hfamily]
  cases table.routesOf? method with
  | none =>
      rw [Option.getD_none, MethodRoutes.select_empty]
      rfl
  | some routes =>
      rw [Option.getD_some, Option.toList_some, List.findSome?_singleton]

theorem findSome?_groups (table : RouteTable α) (method : Method) (path : Path) :
    (table.groups method).findSome? (·.select path) =
      table.answer method path := by
  unfold groups answer lookupOrder
  rw [List.findSome?_append, List.findSome?_append, List.findSome?_append,
    List.findSome?_append, findSome?_routesOf?]
  split_ifs with hhead
  · rw [findSome?_routesOf?]
    simp only [List.findSome?_singleton]
    rfl
  · simp only [List.findSome?_singleton]
    rfl

theorem groups_answers (table : RouteTable α) (method : Method) (path : Path) :
    (Search.firstOf ((table.groups method).map (·.find path table.decode))).Answers
      ((table.answer method path).map Trie.Claim.id) := by
  have hsearch := Search.answers_firstOf_map (table.groups method)
    fun routes _ => routes.find_answers path table.decode
  rw [← findSome?_groups, List.map_findSome?]
  exact hsearch

/-! ## The answer of a lookup -/

/-- The methods with a family that has a route for the path. -/
def serving (table : RouteTable α) (path : Path) : List Method :=
  (table.byMethod.filter fun entry => (entry.2.select path).isSome).map Prod.fst

/-- The answer of a lookup as a function of what it depends on. -/
def outcome (table : RouteTable α) (method : Method) (path : Path) : Lookup α :=
  match (table.answer method path).bind (table.routes[·.id]?) with
  | some route => .found route
  | none =>
    if (AllowList.ofList (table.serving path)).methods = [] then .notFound
    else .methodNotAllowed (.ofList (table.serving path))

theorem allowedMethods_fst (path : Path)
    (families : List (Method × MethodRoutes)) (allow : AllowList)
    (captures : Captures) :
    (allowedMethods path families allow captures).1 =
      ((families.filter fun entry => (entry.2.select path).isSome).map
        Prod.fst).foldl AllowList.insert allow := by
  induction families generalizing allow captures with
  | nil => rfl
  | cons entry rest ih =>
      obtain ⟨method, routes⟩ := entry
      have hfind : (routes.find path false captures).1 =
          (routes.select path).map Trie.Claim.id :=
        routes.find_answers path false captures
      rw [allowedMethods, ih, hfind, Option.isSome_map]
      cases hselect : (routes.select path).isSome with
      | true => simp [hselect]
      | false => simp [hselect]

theorem lookup_fst (table : RouteTable α) (method : Method) (target : String)
    (captures : Captures) :
    (table.lookup method target captures).1 =
      table.outcome method (Path.ofTarget target) := by
  have hanswers := table.groups_answers method (Path.ofTarget target) captures
  have hallowed := allowedMethods_fst (Path.ofTarget target) table.byMethod
    .empty (Search.firstOf ((table.groups method).map
      (·.find (Path.ofTarget target) table.decode)) captures).2
  unfold lookup outcome
  dsimp only
  rw [hanswers, Option.bind_map, Function.comp_def]
  cases (table.answer method (Path.ofTarget target)).bind
      fun claim => table.routes[claim.id]? with
  | some route => rfl
  | none =>
      dsimp only
      rw [hallowed]
      unfold serving AllowList.ofList
      split_ifs <;> rfl

theorem route?_lookup (table : RouteTable α) (method : Method)
    (target : String) (captures : Captures) :
    (table.lookup method target captures).1.route? =
      (table.answer method (Path.ofTarget target)).bind fun claim =>
        table.routes[claim.id]? := by
  rw [lookup_fst]
  unfold outcome
  split
  · next route hroute => exact hroute.symm
  · next hnone =>
      rw [hnone]
      split_ifs <;> rfl

/-! ## Claims and routes -/

theorem accepts_iff {pattern : Pattern} {target : String} :
    pattern.Accepts target ↔
      Takes (Path.ofTarget target).Trailing pattern.segments
        (Path.ofTarget target).texts := by
  rw [Target.trailing_ofTarget, Target.texts_ofTarget]
  rfl

section

variable {table : RouteTable α} {method : Method} {path : Path}
  {claim : Trie.Claim} {route : Route α}

theorem Consistent.getElem?_id (hconsistent : table.Consistent)
    (hmem : route ∈ table.routes) : table.routes[route.id]? = some route := by
  obtain ⟨index, hindex⟩ := Array.mem_iff_getElem?.mp hmem
  rw [hconsistent.numbered index route hindex]
  exact hindex

theorem Consistent.id_lt_size (hconsistent : table.Consistent)
    (hmem : route ∈ table.routes) : route.id < table.routes.size :=
  (Array.getElem?_eq_some_iff.mp (hconsistent.getElem?_id hmem)).1

theorem Consistent.compiled_insertions (hconsistent : table.Consistent)
    (group : Option Method) :
    ∀ entry ∈ table.insertions group, entry.1.Compiled := by
  intro entry hmem
  obtain ⟨route, hroute, _, rfl⟩ := mem_insertions.mp hmem
  exact hconsistent.compiled route hroute

theorem Consistent.family_of_mem (hconsistent : table.Consistent)
    {routes : MethodRoutes} (hmem : (method, routes) ∈ table.byMethod) :
    table.family (some method) = routes := by
  have hlookup := KeyedList.lookup_of_mem hconsistent.methods hmem
  simp [family, routesOf?, hlookup]

theorem mem_claims_insertions {group : Option Method} :
    claim ∈ MethodRoutes.claims (table.insertions group) ↔
      ∃ route ∈ table.routes, route.pattern.method = group ∧
        claim = ⟨route.pattern.segments, route.id⟩ := by
  unfold MethodRoutes.claims
  rw [List.mem_map]
  constructor
  · rintro ⟨entry, hmem, rfl⟩
    obtain ⟨route, hroute, hgroup, rfl⟩ := mem_insertions.mp hmem
    exact ⟨route, hroute, hgroup, rfl⟩
  · rintro ⟨route, hroute, hgroup, rfl⟩
    exact ⟨_, mem_insertions.mpr ⟨route, hroute, hgroup, rfl⟩, rfl⟩

/-- A family selects the claim of one of its routes, which takes the path. -/
theorem Consistent.exists_route_of_select (hconsistent : table.Consistent)
    {group : Option Method}
    (hselect : (table.family group).select path = some claim) :
    ∃ route ∈ table.routes, route.pattern.method = group ∧
      claim = ⟨route.pattern.segments, route.id⟩ ∧
      Takes path.Trailing route.pattern.segments path.texts := by
  rw [hconsistent.families] at hselect
  obtain ⟨hfirst, htakes⟩ := MethodRoutes.select_sound
    (hconsistent.compiled_insertions group) hselect
  obtain ⟨route, hroute, hgroup, hclaim⟩ :=
    mem_claims_insertions.mp (Trie.mem_of_firstClaim? hfirst)
  obtain ⟨hsegments, hid⟩ := Trie.Claim.mk.inj hclaim
  rw [hsegments] at htakes
  exact ⟨route, hroute, hgroup, hclaim, htakes⟩

/-- A family fails only if none of its routes takes the path. -/
theorem Consistent.not_takes_of_select (hconsistent : table.Consistent)
    {group : Option Method}
    (hselect : (table.family group).select path = none)
    (hroute : route ∈ table.routes) (hgroup : route.pattern.method = group) :
    ¬Takes path.Trailing route.pattern.segments path.texts := by
  intro htakes
  have hmem := mem_claims_insertions.mpr ⟨route, hroute, hgroup, rfl⟩
  obtain ⟨winner, hwinner, _⟩ := MethodRoutes.select_least
    (hconsistent.compiled_insertions group) hmem htakes
  rw [hconsistent.families, hwinner] at hselect
  contradiction

/-- The answer is the claim of a route in the first family that has a route
for the path. -/
theorem Consistent.exists_route_of_answer (hconsistent : table.Consistent)
    (hanswer : table.answer method path = some claim) :
    ∃ route ∈ table.routes, claim = ⟨route.pattern.segments, route.id⟩ ∧
      Takes path.Trailing route.pattern.segments path.texts ∧
      (table.family route.pattern.method).select path = some claim ∧
      ∃ before after,
        lookupOrder method = before ++ route.pattern.method :: after ∧
        ∀ other ∈ table.routes, other.pattern.method ∈ before →
          ¬Takes path.Trailing other.pattern.segments path.texts := by
  obtain ⟨before, group, after, horder, hselect, hbefore⟩ :=
    List.findSome?_eq_some_iff.mp hanswer
  obtain ⟨route, hroute, hgroup, hclaim, htakes⟩ :=
    hconsistent.exists_route_of_select hselect
  refine ⟨route, hroute, hclaim, htakes, hgroup ▸ hselect, before, after,
    hgroup ▸ horder, ?_⟩
  intro other hother hmem
  exact hconsistent.not_takes_of_select (hbefore _ hmem) hother rfl

theorem Consistent.answer_isSome (hconsistent : table.Consistent)
    (hroute : route ∈ table.routes)
    (hmethod : route.pattern.AnswersMethod method)
    (htakes : Takes path.Trailing route.pattern.segments path.texts) :
    (table.answer method path).isSome := by
  unfold answer
  rw [List.findSome?_isSome_iff]
  refine ⟨route.pattern.method, mem_lookupOrder.mpr hmethod, ?_⟩
  rw [Option.isSome_iff_ne_none]
  intro hnone
  exact hconsistent.not_takes_of_select hnone hroute rfl htakes

/-! ## The routes that are found -/

theorem Consistent.lookup_eq_found_iff (hconsistent : table.Consistent)
    {target : String} {captures : Captures} :
    (table.lookup method target captures).1 = .found route ↔
      route ∈ table.routes ∧
        table.answer method (Path.ofTarget target) =
          some ⟨route.pattern.segments, route.id⟩ := by
  rw [← Lookup.route?_eq_some, route?_lookup, Option.bind_eq_some_iff]
  constructor
  · rintro ⟨claim, hanswer, hclaim⟩
    obtain ⟨other, hother, rfl, _⟩ := hconsistent.exists_route_of_answer hanswer
    have hsame := hconsistent.getElem?_id hother
    rw [hclaim] at hsame
    obtain rfl := Option.some.inj hsame
    exact ⟨hother, hanswer⟩
  · rintro ⟨hroute, hanswer⟩
    exact ⟨_, hanswer, hconsistent.getElem?_id hroute⟩

/-- A route that is found takes the path, its family selects it, and no family
before that one has a route for the path. -/
theorem Consistent.of_found (hconsistent : table.Consistent) {target : String}
    {captures : Captures}
    (hfound : (table.lookup method target captures).1 = .found route) :
    route ∈ table.routes ∧ route.pattern.Accepts target ∧
      (table.family route.pattern.method).select (Path.ofTarget target) =
        some ⟨route.pattern.segments, route.id⟩ ∧
      ∃ before after,
        lookupOrder method = before ++ route.pattern.method :: after ∧
        ∀ other ∈ table.routes, other.pattern.method ∈ before →
          ¬other.pattern.Accepts target := by
  obtain ⟨hroute, hanswer⟩ := hconsistent.lookup_eq_found_iff.mp hfound
  obtain ⟨other, hother, hclaim, htakes, hselect, before, after, horder, hbefore⟩ :=
    hconsistent.exists_route_of_answer hanswer
  -- the claim names its route, since ids are places
  have hsame : other = route := by
    have hid := (Trie.Claim.mk.inj hclaim).2
    have hget := hconsistent.getElem?_id hother
    rw [← hid, hconsistent.getElem?_id hroute] at hget
    exact (Option.some.inj hget).symm
  subst other
  refine ⟨hroute, accepts_iff.mpr htakes, hselect, before, after, horder, ?_⟩
  intro other hother hmethod haccepts
  exact hbefore other hother hmethod (accepts_iff.mp haccepts)

theorem Consistent.exists_found_iff (hconsistent : table.Consistent)
    {target : String} {captures : Captures} :
    (∃ route, (table.lookup method target captures).1 = .found route) ↔
      ∃ route ∈ table.routes, route.pattern.Serves method target := by
  constructor
  · rintro ⟨route, hfound⟩
    obtain ⟨hroute, haccepts, _, before, after, horder, _⟩ :=
      hconsistent.of_found hfound
    have hmem : route.pattern.method ∈ lookupOrder method := by simp [horder]
    exact ⟨route, hroute, mem_lookupOrder.mp hmem, haccepts⟩
  · rintro ⟨route, hroute, hmethod, haccepts⟩
    obtain ⟨claim, hanswer⟩ := Option.isSome_iff_exists.mp
      (hconsistent.answer_isSome hroute hmethod (accepts_iff.mp haccepts))
    obtain ⟨winner, hwinner, rfl, _⟩ :=
      hconsistent.exists_route_of_answer hanswer
    exact ⟨winner, hconsistent.lookup_eq_found_iff.mpr ⟨hwinner, hanswer⟩⟩

def Stores (id : RouteId) (table : RouteTable α) : Prop :=
  (∃ entry ∈ table.byMethod, MethodRoutes.Stores id entry.2) ∨
    MethodRoutes.Stores id table.anyMethod

theorem Consistent.lt_size_of_stores (hconsistent : table.Consistent)
    {id : RouteId} (hstores : table.Stores id) : id < table.routes.size := by
  obtain ⟨group, hgroup⟩ :
      ∃ group, MethodRoutes.Stores id (table.family group) := by
    rcases hstores with ⟨⟨method, routes⟩, hmem, hroutes⟩ | hany
    · refine ⟨some method, ?_⟩
      rw [hconsistent.family_of_mem hmem]
      exact hroutes
    · exact ⟨none, hany⟩
  rw [hconsistent.families] at hgroup
  obtain ⟨entry, hentry, rfl⟩ := hgroup.exists_insertion
  obtain ⟨route, hroute, _, rfl⟩ := mem_insertions.mp hentry
  exact hconsistent.id_lt_size hroute

end

/-- Whatever calls made the table, a route is found if and only if one serves
the request.  The route found takes the path, and no family that is asked
earlier has a route that does.  Tries and maps store places in the list of
routes only. -/
theorem lookup_ofCalls (policy : ConflictPolicy) (decode : Bool)
    (calls : List (Call α)) (method : Method) (target : String)
    (captures : Captures) :
    let table := ofCalls policy decode calls
    ((∃ route, (table.lookup method target captures).1 = .found route) ↔
        ∃ route ∈ table.routes, route.pattern.Serves method target) ∧
      (∀ route, (table.lookup method target captures).1 = .found route →
        route ∈ table.routes ∧ route.pattern.Accepts target ∧
          ∃ before after,
            lookupOrder method = before ++ route.pattern.method :: after ∧
            ∀ other ∈ table.routes, other.pattern.method ∈ before →
              ¬other.pattern.Accepts target) ∧
      ∀ id, table.Stores id → id < table.routes.size := by
  intro table
  have hconsistent : table.Consistent := consistent_ofCalls policy decode calls
  refine ⟨hconsistent.exists_found_iff, ?_,
    fun _ => hconsistent.lt_size_of_stores⟩
  intro route hfound
  obtain ⟨hroute, haccepts, _, hgroup⟩ := hconsistent.of_found hfound
  exact ⟨hroute, haccepts, hgroup⟩

end RouteTable
end Dispatch
