import Dispatch.Proofs.RouteTable.Ranking
import Mathlib.Tactic

/-!
# Equivalent routes

Two patterns are equivalent if they are for the same method and their segments
differ in names only.  Such patterns take the same paths, so that at most one of
the two routes is ever found.

It is not always the earlier one.  A search tries the names at one position in
the order in which they came, and a name may have come with a route that has
nothing else to do with the two.
-/

namespace Dispatch

/-! ## Paths of patterns that differ in names only -/

section

variable {left right : List Segment} {trailing : Prop} {pieces : List String}

theorem Takes.alike (htakes : Takes trailing left pieces)
    (halike : List.Forall₂ Segment.Alike left right) :
    Takes trailing right pieces := by
  induction htakes generalizing right with
  | done =>
      cases halike
      exact .done
  | literal htail ih =>
      obtain _ | ⟨hfirst, hrest⟩ := halike
      cases hfirst
      exact .literal (ih hrest)
  | param htail ih =>
      obtain _ | ⟨hfirst, hrest⟩ := halike
      cases hfirst
      exact .param (ih hrest)
  | wildcard hne =>
      obtain _ | ⟨hfirst, _ | _⟩ := halike
      cases hfirst
      exact .wildcard hne
  | endAnchor htrailing =>
      obtain _ | ⟨hfirst, _ | _⟩ := halike
      cases hfirst
      exact .endAnchor htrailing

/-- Segments that can take no piece have no names. -/
theorem Takes.eq_of_alike (htakes : Takes trailing left [])
    (halike : List.Forall₂ Segment.Alike left right) : left = right := by
  have hother := htakes.alike halike
  rw [takes_nil_pieces_iff] at htakes hother
  have hlength := halike.length_eq
  rcases htakes with rfl | ⟨rfl, _⟩
  · exact (List.length_eq_zero_iff.mp hlength.symm).symm
  · rcases hother with rfl | ⟨rfl, _⟩
    · contradiction
    · rfl

theorem alike_of_parted {shared leftRest rightRest : List Segment}
    {first second : Segment}
    (halike : List.Forall₂ Segment.Alike (shared ++ first :: leftRest)
      (shared ++ second :: rightRest)) : first.Alike second := by
  induction shared with
  | nil => exact (List.forall₂_cons.mp halike).1
  | cons segment shared ih => exact ih (List.forall₂_cons.mp halike).2

end

/-! ## Which of the two is found -/

namespace RouteTable

variable {α : Type} {table : RouteTable α} {route other : Route α}

/-- The two routes part below segments that they share, and the branch of the
first one came before that of the other. -/
def BranchedFirst (table : RouteTable α) (route other : Route α) : Prop :=
  ∃ shared first second routeRest otherRest, first ≠ second ∧
    route.pattern.segments = shared ++ first :: routeRest ∧
    other.pattern.segments = shared ++ second :: otherRest ∧
    table.ComesFirst route.pattern.method (shared ++ [first])
      (shared ++ [second])

theorem ComesFirst.ne {group : Option Method} {first second : List Segment}
    (hcomes : table.ComesFirst group first second) : first ≠ second := by
  rintro rfl
  exact hcomes.asymm hcomes

theorem Outranks.branchedFirst
    (houtranks : table.Outranks route.pattern.method route other)
    (halike : route.pattern.Alike other.pattern) (hlt : other.id < route.id) :
    table.BranchedFirst route other := by
  cases houtranks with
  | registration _ hid => exact (Nat.lt_asymm hlt hid).elim
  | slot hbefore =>
      have hsegments := halike.segments
      cases hbefore with
      | anchored hlonger =>
          have hlength := hsegments.length_eq
          rw [hlonger] at hlength
          simp at hlength
      | @parted shared first second routeRest otherRest hahead hroute hother =>
          rw [hroute, hother] at hsegments
          have hsame := alike_of_parted hsegments
          -- the kinds are the same, so it is the names that were compared
          have hcomes : table.ComesFirst route.pattern.method
              (shared ++ [first]) (shared ++ [second]) := by
            cases hahead with
            | literalParam => contradiction
            | literalWildcard => contradiction
            | paramWildcard => contradiction
            | params hcame => exact hcame
            | wildcards hcame => exact hcame
          refine ⟨shared, first, second, routeRest, otherRest, ?_, hroute,
            hother, hcomes⟩
          rintro rfl
          exact hcomes.ne rfl

theorem BranchedFirst.outranks (hbranched : table.BranchedFirst route other)
    (halike : route.pattern.Alike other.pattern) :
    table.Outranks route.pattern.method route other := by
  obtain ⟨shared, first, second, routeRest, otherRest, hne, hroute, hother,
    hcomes⟩ := hbranched
  have hsegments := halike.segments
  rw [hroute, hother] at hsegments
  have hahead : first.Ahead (table.ComesFirst route.pattern.method) shared
      second := by
    cases alike_of_parted hsegments with
    | literal text => exact (hne rfl).elim
    | param name other => exact .params hcomes
    | wildcard name other => exact .wildcards hcomes
    | endAnchor => exact (hne rfl).elim
  exact .slot (.parted shared hahead hroute hother)

/-- A route that is found outranks all others that are equivalent to it. -/
theorem Consistent.outranks_of_found (hconsistent : table.Consistent)
    {method : Method} {target : String} {captures : Captures}
    (hfound : (table.lookup method target captures).1 = .found route)
    (hother : other ∈ table.routes) (hne : other ≠ route)
    (halike : route.pattern.Alike other.pattern) :
    table.Outranks route.pattern.method route other := by
  obtain ⟨hroute, haccepts, hselect, _⟩ := hconsistent.of_found hfound
  by_cases hsame : route.pattern.segments = other.pattern.segments
  · exact .registration hsame (hconsistent.id_lt_of_select hroute hother
      halike.method.symm hsame hne hselect)
  · -- a path without pieces is taken by segments without names only
    have hpieces : Target.pieces target ≠ [] := by
      intro hnil
      unfold Pattern.Accepts at haccepts
      rw [hnil] at haccepts
      exact hsame (haccepts.eq_of_alike halike.segments)
    have hbest := (hconsistent.best_of_found hpieces hfound).2
    have htakes : other.pattern.Accepts target := haccepts.alike halike.segments
    exact hbest.outranks other ⟨hother, halike.method.symm, htakes⟩ hne

/-- Of two equivalent routes of a table that keeps both, one is never found.
That is the later one, unless its branch came first where the two part.  Then it
is the earlier one. -/
theorem not_found_of_equivalent (decode : Bool) (calls : List (Call α))
    {early late : Route α} :
    let table := ofCalls .firstWins decode calls
    early ∈ table.routes → late ∈ table.routes → early.id < late.id →
      early.pattern.compareTo late.pattern = .equivalent →
        (¬table.BranchedFirst late early → ∀ method target captures,
          (table.lookup method target captures).1 ≠ .found late) ∧
        (table.BranchedFirst late early → ∀ method target captures,
          (table.lookup method target captures).1 ≠ .found early) := by
  intro table hearly hlate hlt hequivalent
  have hconsistent : table.Consistent := consistent_ofCalls .firstWins decode calls
  have halike := Pattern.alike_of_compareTo hequivalent
  have hne : early ≠ late := by
    rintro rfl
    exact Nat.lt_irrefl _ hlt
  constructor
  · intro hunbranched method target captures hfound
    have houtranks :=
      hconsistent.outranks_of_found hfound hearly hne halike.symm
    exact hunbranched (houtranks.branchedFirst halike.symm hlt)
  · intro hbranched method target captures hfound
    have houtranks :=
      hconsistent.outranks_of_found hfound hlate hne.symm halike
    have hback := hbranched.outranks halike.symm
    rw [← halike.method] at hback
    exact houtranks.asymm hback

/-- The first route is not equivalent to the others, but it brings the name of
the last one. -/
def tieTable : RouteTable Nat :=
  ofCalls .firstWins true
    [.add (some .get) "/:a/y" 0, .add (some .get) "/:b/z" 1,
      .add (some .get) "/:a/z" 2]

def earlyTie : Route Nat :=
  ⟨1, ⟨"/:b/z", some .get, [.param "b", .literal "z"]⟩, 1⟩

def lateTie : Route Nat :=
  ⟨2, ⟨"/:a/z", some .get, [.param "a", .literal "z"]⟩, 2⟩

theorem earlyTie_mem : earlyTie ∈ tieTable.routes :=
  Array.mem_toList_iff.mp (by decide)

theorem lateTie_mem : lateTie ∈ tieTable.routes :=
  Array.mem_toList_iff.mp (by decide)

theorem not_found_of_equivalent_tieTable :
    (earlyTie ∈ tieTable.routes ∧ lateTie ∈ tieTable.routes ∧
      earlyTie.id < lateTie.id ∧
      earlyTie.pattern.compareTo lateTie.pattern = .equivalent ∧
      tieTable.BranchedFirst lateTie earlyTie) ∧
      ∀ method target captures,
        (tieTable.lookup method target captures).1 ≠ .found earlyTie := by
  have hlt : earlyTie.id < lateTie.id := by decide
  have hequivalent :
      earlyTie.pattern.compareTo lateTie.pattern = .equivalent := by
    decide
  have hcomes : tieTable.ComesFirst (some .get) [.param "a"] [.param "b"] := by
    refine ⟨⟨0, ⟨"/:a/y", some .get, [.param "a", .literal "y"]⟩, 0⟩,
      Array.mem_toList_iff.mp (by decide), rfl, by decide, ?_⟩
    intro late hlate _ hbegins
    have hall : ∀ route ∈ tieTable.routes.toList,
        [.param "b"] <+: route.pattern.segments → 0 < route.id := by
      decide
    exact hall late (Array.mem_toList_iff.mpr hlate) hbegins
  have hbranched : tieTable.BranchedFirst lateTie earlyTie :=
    ⟨[], .param "a", .param "b", [.literal "z"], [.literal "z"], by decide, rfl,
      rfl, hcomes⟩
  exact ⟨⟨earlyTie_mem, lateTie_mem, hlt, hequivalent, hbranched⟩,
    (not_found_of_equivalent true _ earlyTie_mem lateTie_mem hlt
      hequivalent).2 hbranched⟩

/-- The later of two equivalent routes is found. -/
theorem found_late_tieTable :
    earlyTie ∈ tieTable.routes ∧ lateTie ∈ tieTable.routes ∧
      earlyTie.id < lateTie.id ∧
      earlyTie.pattern.compareTo lateTie.pattern = .equivalent ∧
      (tieTable.lookup .get "/1/z" .empty).1 = .found lateTie := by
  have hconsistent : tieTable.Consistent := consistent_ofCalls .firstWins true _
  exact ⟨earlyTie_mem, lateTie_mem, by decide, by decide,
    hconsistent.lookup_eq_found_iff.mpr ⟨lateTie_mem, by decide⟩⟩

end RouteTable
end Dispatch
