import Dispatch.Proofs.Comparison
import Dispatch.Proofs.RouteTable.Strict
import Dispatch.Proofs.Trie.Slots
import Mathlib.Tactic

/-!
# Which routes have a slot

A route claims the slot of its segments in the trie of its family.  It is
refused the slot exactly if the family already has a route of the same segments,
and otherwise it is the only route of that slot from then on, and the slot its
only one.  Strict tables refuse the route itself before, since routes of one
method with the same segments conflict.
-/

namespace Dispatch

/-- Patterns of one method with the same segments conflict. -/
theorem Pattern.conflicts_of_same {a b : Pattern} (hmethod : b.method = a.method)
    (hsegments : b.segments = a.segments) : a.Conflicts b := by
  have hcompare : a.compareTo b = a.compareTo a := by
    unfold compareTo
    rw [hmethod, hsegments]
  exact Or.inl (hcompare.trans (compareTo_self a))

namespace RouteTable

variable {α : Type}

section

variable {table : RouteTable α} {pattern : Pattern} {value : α}

theorem holder?_eq (table : RouteTable α) (pattern : Pattern) :
    table.holder? pattern =
      (table.family pattern.method).root.holder? pattern.segments := by
  unfold holder? family
  cases pattern.method with
  | none => rfl
  | some method =>
      dsimp only
      cases table.routesOf? method with
      | none => exact (Trie.holder?_empty pattern.segments).symm
      | some routes => rfl

theorem Consistent.root_family (hconsistent : table.Consistent)
    (group : Option Method) :
    (table.family group).root =
      .ofClaims (MethodRoutes.claims (table.insertions group)) := by
  rw [hconsistent.families, MethodRoutes.root_ofInsertions]

theorem Consistent.claims_wellPlaced (hconsistent : table.Consistent)
    (group : Option Method) :
    ∀ claim ∈ MethodRoutes.claims (table.insertions group),
      WellPlaced claim.segments :=
  MethodRoutes.claims_wellPlaced (hconsistent.compiled_insertions group)

theorem Consistent.holder?_eq_firstClaim? (hconsistent : table.Consistent)
    (hcompiled : pattern.Compiled) :
    table.holder? pattern = Trie.firstClaim? pattern.segments
      (MethodRoutes.claims (table.insertions pattern.method)) := by
  rw [holder?_eq, hconsistent.root_family,
    Trie.holder?_ofClaims (hconsistent.claims_wellPlaced _)
      hcompiled.wellPlaced]

/-- A slot is held if and only if a route of the family has its segments. -/
theorem Consistent.holder?_isSome_iff (hconsistent : table.Consistent)
    (hcompiled : pattern.Compiled) :
    (table.holder? pattern).isSome ↔
      ∃ route ∈ table.routes, route.pattern.method = pattern.method ∧
        route.pattern.segments = pattern.segments := by
  rw [hconsistent.holder?_eq_firstClaim? hcompiled]
  constructor
  · intro hsome
    obtain ⟨id, hfirst⟩ := Option.isSome_iff_exists.mp hsome
    obtain ⟨route, hroute, hmethod, hclaim⟩ :=
      mem_claims_insertions.mp (Trie.mem_of_firstClaim? hfirst)
    exact ⟨route, hroute, hmethod, (Trie.Claim.mk.inj hclaim).1.symm⟩
  · rintro ⟨route, hroute, hmethod, hsegments⟩
    have hmem := mem_claims_insertions.mpr ⟨route, hroute, hmethod, rfl⟩
    rw [← hsegments]
    exact Trie.firstClaim?_isSome hmem

theorem Consistent.enter_eq (hconsistent : table.Consistent)
    (pattern : Pattern) (id : RouteId) :
    (table.family pattern.method).root.enter id pattern.segments =
      ((table.family pattern.method).root.insert id pattern.segments,
        (table.holder? pattern).isNone) := by
  rw [holder?_eq, hconsistent.root_family, Trie.enter_ofClaims]

/-- Whoever is told that the slot is not free finds a route of the family with
the same segments. -/
theorem Consistent.enter_eq_false_iff (hconsistent : table.Consistent)
    (hcompiled : pattern.Compiled) (id : RouteId) :
    ((table.family pattern.method).root.enter id pattern.segments).2 = false ↔
      ∃ route ∈ table.routes, route.pattern.method = pattern.method ∧
        route.pattern.segments = pattern.segments := by
  rw [← hconsistent.holder?_isSome_iff hcompiled, hconsistent.enter_eq,
    Option.isNone_eq_false_iff]

/-- Only a slot that is held is left as it is. -/
theorem Consistent.insert_eq_self_iff (hconsistent : table.Consistent)
    (hcompiled : pattern.Compiled) (id : RouteId) :
    (table.family pattern.method).root.insert id pattern.segments =
        (table.family pattern.method).root ↔
      (table.holder? pattern).isSome := by
  rw [hconsistent.holder?_eq_firstClaim? hcompiled, hconsistent.root_family]
  exact Trie.insert_eq_self_iff (hconsistent.claims_wellPlaced _)
    hcompiled.wellPlaced id

theorem Consistent.holder?_eq_none (hconsistent : table.Consistent)
    (hcompiled : pattern.Compiled) (hfree : table.conflicting pattern = []) :
    table.holder? pattern = none := by
  rw [← Option.not_isSome_iff_eq_none, hconsistent.holder?_isSome_iff hcompiled]
  rintro ⟨route, hroute, hmethod, hsegments⟩
  have hmem : route ∈ table.conflicting pattern := by
    simpa [conflicting, hroute] using
      Pattern.conflicts_of_same hmethod hsegments
  rw [hfree] at hmem
  contradiction

/-! ## Later calls -/

def applyAll (table : RouteTable α) (calls : List (Call α)) : RouteTable α :=
  calls.foldl apply table

theorem Consistent.applyAll (hconsistent : table.Consistent)
    (calls : List (Call α)) : (table.applyAll calls).Consistent := by
  induction calls generalizing table with
  | nil => exact hconsistent
  | cons call rest ih => exact ih (hconsistent.apply call)

theorem exists_insertions_apply (table : RouteTable α) (call : Call α)
    (group : Option Method) :
    ∃ more, (table.apply call).insertions group =
        table.insertions group ++ more ∧
      (∀ entry ∈ more, entry.2 = table.routes.size) ∧
      table.routes.size ≤ (table.apply call).routes.size := by
  rcases apply_cases table call with hsame | ⟨pattern, value, _, _, hpush⟩
  · rw [hsame]
    exact ⟨[], (List.append_nil _).symm, by simp, le_rfl⟩
  · rw [hpush, insertions_push, push_routes, Array.size_push]
    split_ifs
    · exact ⟨[(pattern, table.routes.size)], rfl, by simp, Nat.le_succ _⟩
    · exact ⟨[], (List.append_nil _).symm, by simp, Nat.le_succ _⟩

/-- What comes later goes behind, with ids of its own. -/
theorem exists_insertions_applyAll (table : RouteTable α)
    (calls : List (Call α)) (group : Option Method) :
    ∃ more, (table.applyAll calls).insertions group =
        table.insertions group ++ more ∧
      ∀ entry ∈ more, table.routes.size ≤ entry.2 := by
  induction calls generalizing table with
  | nil => exact ⟨[], (List.append_nil _).symm, by simp⟩
  | cons call rest ih =>
      obtain ⟨first, hfirst, hown, hsize⟩ :=
        exists_insertions_apply table call group
      obtain ⟨later, hlater, hids⟩ := ih (table.apply call)
      refine ⟨first ++ later, ?_, ?_⟩
      · rw [← List.append_assoc, ← hfirst]
        exact hlater
      · intro entry hmem
        rcases List.mem_append.mp hmem with hmem | hmem
        · exact (hown entry hmem).ge
        · exact hsize.trans (hids entry hmem)

theorem Consistent.holdsAt_applyAll_push (hconsistent : table.Consistent)
    (hcompiled : pattern.Compiled) (value : α) (more : List (Call α))
    (group : Option Method) (segments : List Segment) :
    Trie.HoldsAt table.routes.size segments
        (((table.push pattern value).applyAll more).family group).root ↔
      table.holder? pattern = none ∧ group = pattern.method ∧
        segments = pattern.segments := by
  have hlater : ((table.push pattern value).applyAll more).Consistent :=
    (hconsistent.push hcompiled).applyAll more
  obtain ⟨later, hinsertions, hids⟩ :=
    exists_insertions_applyAll (table.push pattern value) more group
  have hbefore : ∀ claim ∈ MethodRoutes.claims (table.insertions group),
      claim.id ≠ table.routes.size := by
    intro claim hmem
    obtain ⟨route, hroute, _, rfl⟩ := mem_claims_insertions.mp hmem
    exact (hconsistent.id_lt_size hroute).ne
  have hafter : ∀ claim ∈ MethodRoutes.claims later,
      claim.id ≠ table.routes.size := by
    intro claim hmem
    obtain ⟨entry, hentry, rfl⟩ := List.mem_map.mp hmem
    have hid := hids entry hentry
    rw [push_routes, Array.size_push] at hid
    exact (Nat.lt_of_succ_le hid).ne'
  have hclaims : MethodRoutes.claims
      (((table.push pattern value).applyAll more).insertions group) =
        MethodRoutes.claims (table.insertions group) ++
          (if pattern.method = group then
            [⟨pattern.segments, table.routes.size⟩] else []) ++
          MethodRoutes.claims later := by
    rw [hinsertions, insertions_push]
    unfold MethodRoutes.claims
    split_ifs <;> simp
  rw [hlater.root_family,
    Trie.holdsAt_ofClaims_iff (hlater.claims_wellPlaced group), hclaims,
    Trie.firstClaim?_eq_own hbefore hafter]
  by_cases hgroup : pattern.method = group
  · subst hgroup
    rw [if_pos rfl, Trie.firstClaim?_singleton]
    by_cases hsegments : pattern.segments = segments
    · subst hsegments
      simp [hconsistent.holder?_eq_firstClaim? hcompiled]
    · simp [hsegments, Ne.symm hsegments]
  · simp [hgroup, Ne.symm hgroup, Trie.firstClaim?]

end

/-- In the tries of a table that any calls made, literal children are sorted,
and no node has two parameters or two wildcards of one name.  An insertion
answers that the slot is not free exactly if a route of the same family has the
same segments, and only then the trie stays as it is.  A route that is inserted
has one slot from then on, that of its segments in the trie of its family, unless
it is refused that slot, and then it has none.  A strict table inserts no route
that would be refused its slot. -/
theorem slots_ofCalls (policy : ConflictPolicy) (decode : Bool)
    (calls : List (Call α)) :
    let table := ofCalls policy decode calls
    (∀ group node, Trie.NodeOf node (table.family group).root → node.Shaped) ∧
      (∀ (pattern : Pattern) (id : RouteId), pattern.Compiled →
        let root := (table.family pattern.method).root
        root.enter id pattern.segments =
            (root.insert id pattern.segments, (table.holder? pattern).isNone) ∧
          ((root.enter id pattern.segments).2 = false ↔
            ∃ route ∈ table.routes, route.pattern.method = pattern.method ∧
              route.pattern.segments = pattern.segments) ∧
          (root.insert id pattern.segments = root ↔
            (table.holder? pattern).isSome)) ∧
      ∀ (pattern : Pattern) (value : α) (next : RouteTable α) (id : RouteId),
        pattern.Compiled → table.insert pattern value = .ok (next, id) →
          (policy = .strict → table.holder? pattern = none) ∧
          ∀ (more : List (Call α)) (group : Option Method)
            (segments : List Segment),
            Trie.HoldsAt id segments ((next.applyAll more).family group).root ↔
              table.holder? pattern = none ∧ group = pattern.method ∧
                segments = pattern.segments := by
  intro table
  have hconsistent : table.Consistent := consistent_ofCalls policy decode calls
  refine ⟨?_, ?_, ?_⟩
  · intro group node hnode
    rw [hconsistent.root_family] at hnode
    exact hnode.shaped
  · intro pattern id hcompiled
    exact ⟨hconsistent.enter_eq pattern id,
      hconsistent.enter_eq_false_iff hcompiled id,
      hconsistent.insert_eq_self_iff hcompiled id⟩
  · intro pattern value next id hcompiled hinsert
    obtain ⟨rfl, rfl, hfree⟩ := insert_ok hinsert
    refine ⟨?_, hconsistent.holdsAt_applyAll_push hcompiled value⟩
    intro hstrict
    have hpolicy : table.policy = .strict :=
      (ofCalls_policy policy decode calls).trans hstrict
    exact hconsistent.holder?_eq_none hcompiled (hfree hpolicy)

end RouteTable
end Dispatch
