import Dispatch.Proofs.Comparison
import Dispatch.Proofs.RouteTable.Strict
import Dispatch.Proofs.Trie.Names
import Mathlib.Tactic

/-!
# When a more specific route is not found

A more specific route that matches a request is found before a more general one,
whatever the order of registration, with one exception.  Two patterns that part
at parameters with different names are found in the order in which the names
came, even if the later one is more specific further on.

A pattern with a more specific method is in a family that is asked earlier, so
the two patterns can be taken to be in one trie.
-/

namespace Dispatch

/-! ## The order of the families -/

namespace RouteTable

theorem of_ofMethods_moreSpecific {own other : Option Method}
    (hspecific : Specificity.ofMethods own other = .moreSpecific) :
    own ≠ none ∧ other = none ∨ own = some .head ∧ other = some .get := by
  cases own with
  | none => cases other <;> contradiction
  | some own =>
      cases other with
      | none => exact Or.inl ⟨by simp, rfl⟩
      | some other =>
          unfold Specificity.ofMethods at hspecific
          dsimp only at hspecific
          split_ifs at hspecific with _ _ hhead
          obtain ⟨rfl, rfl⟩ := hhead
          exact Or.inr ⟨rfl, rfl⟩

/-- A family for fewer requests is asked earlier. -/
theorem mem_before_of_moreSpecific {method : Method} {own other : Option Method}
    {before after : List (Option Method)}
    (horder : lookupOrder method = before ++ other :: after)
    (hown : own ∈ lookupOrder method)
    (hspecific : Specificity.ofMethods own other = .moreSpecific) :
    own ∈ before := by
  have hne : Method.get ≠ .head := by decide
  rcases of_ofMethods_moreSpecific hspecific with
    ⟨hsome, rfl⟩ | ⟨rfl, rfl⟩
  · rcases List.eq_nil_or_concat after with rfl | ⟨others, last, rfl⟩
    · rw [horder] at hown
      simpa [hsome] using hown
    · -- the family for every method stands last only
      unfold lookupOrder at horder
      rw [List.concat_eq_append, ← List.cons_append,
        ← List.append_assoc] at horder
      have hinit := List.append_inj_left' horder rfl
      have hnone : none ∈ before ++ none :: others := by simp
      rw [← hinit] at hnone
      split_ifs at hnone <;> simp at hnone
  · have hhead : method = .head := by
      unfold lookupOrder at hown
      split_ifs at hown with hhead
      · exact hhead
      · simpa [eq_comm] using hown
    rw [hhead] at horder
    cases before with
    | nil =>
        have hfirst := (List.cons.inj horder).1
        exact (hne (Option.some.inj hfirst).symm).elim
    | cons first rest =>
        have hfirst := (List.cons.inj horder).1
        exact hfirst ▸ List.mem_cons_self

/-- A more specific pattern has a more specific method, or the same one and more
specific segments. -/
theorem compareTo_moreSpecific {a b : Pattern}
    (hspecific : a.compareTo b = .moreSpecific) :
    Specificity.ofMethods a.method b.method = .moreSpecific ∨
      a.method = b.method ∧
        Specificity.ofPaths a.segments b.segments = .moreSpecific := by
  unfold Pattern.compareTo at hspecific
  cases hmethods : Specificity.ofMethods a.method b.method with
  | equivalent =>
      rw [hmethods, Specificity.equivalent_combine] at hspecific
      exact Or.inr ⟨Specificity.eq_of_ofMethods_equivalent hmethods, hspecific⟩
  | moreSpecific => exact Or.inl rfl
  | moreGeneral =>
      rw [hmethods] at hspecific
      exact (Trie.moreGeneral_combine_ne _ hspecific).elim
  | overlaps =>
      rw [hmethods] at hspecific
      revert hspecific
      cases Specificity.ofPaths a.segments b.segments <;> simp [Specificity.combine]
  | disjoint =>
      rw [hmethods] at hspecific
      contradiction

variable {α : Type} {table : RouteTable α}

/-- Routes of one method begin with the first segments before any begin with the
second. -/
def ComesFirst (table : RouteTable α) (method : Option Method)
    (first second : List Segment) : Prop :=
  ∃ early ∈ table.routes, early.pattern.method = method ∧
    first <+: early.pattern.segments ∧
    ∀ late ∈ table.routes, late.pattern.method = method →
      second <+: late.pattern.segments → early.id < late.id

theorem comesFirst_iff_sooner {method : Option Method}
    {first second : List Segment} :
    table.ComesFirst method first second ↔
      Trie.Sooner first second
        (MethodRoutes.claims (table.insertions method)) := by
  constructor
  · rintro ⟨early, hearly, hmethod, hfirst, hall⟩
    refine ⟨_, mem_claims_insertions.mpr ⟨early, hearly, hmethod, rfl⟩,
      hfirst, ?_⟩
    intro claim hclaim hsecond
    obtain ⟨late, hlate, hmethod, rfl⟩ := mem_claims_insertions.mp hclaim
    exact hall late hlate hmethod hsecond
  · rintro ⟨claim, hclaim, hfirst, hall⟩
    obtain ⟨early, hearly, hmethod, rfl⟩ := mem_claims_insertions.mp hclaim
    refine ⟨early, hearly, hmethod, hfirst, ?_⟩
    intro late hlate hmethod hsecond
    exact hall _ (mem_claims_insertions.mpr ⟨late, hlate, hmethod, rfl⟩) hsecond

/-- Two patterns for one method part at two parameters, and the name in the
first pattern was the first to come below the segments that they share. -/
def PartedByName (table : RouteTable α) (first second : Pattern) : Prop :=
  first.method = second.method ∧
    ∃ common firstName secondName firstRest secondRest, firstName ≠ secondName ∧
      first.segments = common ++ .param firstName :: firstRest ∧
      second.segments = common ++ .param secondName :: secondRest ∧
      table.ComesFirst first.method (common ++ [.param firstName])
        (common ++ [.param secondName])

theorem Consistent.numbered_claims (hconsistent : table.Consistent)
    (method : Option Method) :
    Trie.Numbered (MethodRoutes.claims (table.insertions method)) := by
  have hroutes : table.routes.toList.Pairwise fun before after =>
      before.id < after.id := by
    rw [List.pairwise_iff_getElem]
    intro i j hi hj hlt
    have hfirst := hconsistent.numbered i table.routes.toList[i] (by simp)
    have hsecond := hconsistent.numbered j table.routes.toList[j] (by simp)
    rw [hfirst, hsecond]
    exact hlt
  unfold Trie.Numbered MethodRoutes.claims insertions
  rw [List.pairwise_map, List.pairwise_map]
  exact hroutes.filter _

theorem PartedByName.partAtNames {first second : Pattern}
    (hparted : table.PartedByName first second) :
    Trie.PartAtNames (MethodRoutes.claims (table.insertions first.method))
      first.segments second.segments := by
  obtain ⟨_, common, firstName, secondName, firstRest, secondRest, hne, hfirst,
    hsecond, hcomes⟩ := hparted
  exact ⟨common, firstName, secondName, firstRest, secondRest, hne, hfirst,
    hsecond, comesFirst_iff_sooner.mp hcomes⟩

/-- A route that is found is no more general than any other route for the
request, unless the two are parted by name. -/
theorem Consistent.partedByName (hconsistent : table.Consistent)
    {method : Method} {target : String} {captures : Captures}
    {found better : Route α}
    (hfound : (table.lookup method target captures).1 = .found found)
    (hbetter : better ∈ table.routes)
    (hserves : better.pattern.Serves method target)
    (hspecific : better.pattern.compareTo found.pattern = .moreSpecific) :
    table.PartedByName found.pattern better.pattern := by
  obtain ⟨hroute, _, hselect, before, after, horder, hbefore⟩ :=
    hconsistent.of_found hfound
  obtain ⟨hanswers, haccepts⟩ := hserves
  rcases compareTo_moreSpecific hspecific with hmethods | ⟨hmethod, hpaths⟩
  · -- the family of the more specific method would have been asked before
    have hearlier := mem_before_of_moreSpecific horder
      (mem_lookupOrder.mpr hanswers) hmethods
    exact (hbefore better hbetter hearlier haccepts).elim
  · have hmem := mem_claims_insertions.mpr ⟨better, hbetter, hmethod, rfl⟩
    obtain ⟨winner, hwinner, hleast⟩ := MethodRoutes.select_least
      (hconsistent.compiled_insertions found.pattern.method) hmem
      (accepts_iff.mp haccepts)
    rw [← hconsistent.families, hselect] at hwinner
    obtain rfl := Option.some.inj hwinner
    rcases hleast with hsame | hprecedes | ⟨hplain, hanchored⟩
    · dsimp only at hsame
      rw [hsame, Specificity.ofPaths_self] at hpaths
      contradiction
    · obtain ⟨common, first, second, left, right, hne, hleft, hright, hsooner⟩ :=
        hprecedes.partAtNames (hconsistent.compiled found hroute).wellPlaced
          (hconsistent.compiled better hbetter).wellPlaced
          (hconsistent.numbered_claims found.pattern.method) hpaths
      exact ⟨hmethod.symm, common, first, second, left, right, hne, hleft,
        hright, comesFirst_iff_sooner.mpr hsooner⟩
    · dsimp only at hplain hanchored
      rw [hplain, hanchored] at hpaths
      contradiction

/-- Of two routes for one request that are parted by name, the one with the
later name is not found. -/
theorem Consistent.not_found_of_partedByName (hconsistent : table.Consistent)
    {method : Method} {target : String} {captures : Captures}
    {first second : Route α} (hfirst : first ∈ table.routes)
    (haccepts : first.pattern.Accepts target)
    (hparted : table.PartedByName first.pattern second.pattern) :
    (table.lookup method target captures).1 ≠ .found second := by
  intro hfound
  obtain ⟨_, _, hselect, _⟩ := hconsistent.of_found hfound
  have hmem := mem_claims_insertions.mpr ⟨first, hfirst, hparted.1, rfl⟩
  obtain ⟨winner, hwinner, hleast⟩ := MethodRoutes.select_least
    (hconsistent.compiled_insertions second.pattern.method) hmem
    (accepts_iff.mp haccepts)
  rw [← hconsistent.families, hselect] at hwinner
  obtain rfl := Option.some.inj hwinner
  have hnames := hparted.partAtNames
  rw [hparted.1] at hnames
  have hnot := hnames.not_precedes
    (hconsistent.numbered_claims second.pattern.method)
  obtain ⟨common, firstName, secondName, _, _, hne, hleft, hright, _⟩ := hnames
  rcases hleast with hsame | hprecedes | ⟨_, hanchored⟩
  · dsimp only at hsame
    rw [hleft, hright] at hsame
    simp [Ne.symm hne] at hsame
  · exact hnot hprecedes
  · dsimp only at hanchored
    rw [hleft] at hanchored
    cases common <;> simp at hanchored

/-- In a strict table no route for a request is more specific than the one that
is found, unless the two are parted by name. -/
theorem not_moreSpecific_of_found (decode : Bool) (calls : List (Call α))
    {method : Method} {target : String} {captures : Captures}
    {found better : Route α}
    (hfound : ((ofCalls .strict decode calls).lookup method target captures).1 =
      .found found)
    (hbetter : better ∈ (ofCalls .strict decode calls).routes)
    (hmatches : (method, target) ∈ better.pattern.requests)
    (hunparted : ¬(ofCalls .strict decode calls).PartedByName found.pattern
      better.pattern) :
    better.pattern.compareTo found.pattern ≠ .moreSpecific := by
  have hconsistent := consistent_ofCalls .strict decode calls
  have hcompiled := hconsistent.compiled better hbetter
  have hserves := (Pattern.mem_requests_iff hcompiled).mp hmatches
  intro hspecific
  exact hunparted
    (hconsistent.partedByName hfound hbetter hserves hspecific)

def userTable : RouteTable Nat :=
  ofCalls .strict true
    [.add (some .get) "/users/:id" 0, .add (some .get) "/users/me" 1]

theorem not_moreSpecific_of_found_userTable :
    ((userTable.lookup .get "/users/me" .empty).1 = .found ⟨1, ownUser, 1⟩ ∧
      ⟨0, anyUser, 0⟩ ∈ userTable.routes ∧
      (Method.get, "/users/me") ∈ anyUser.requests ∧
      ¬userTable.PartedByName ownUser anyUser) ∧
      anyUser.compareTo ownUser ≠ .moreSpecific := by
  have hconsistent : userTable.Consistent := consistent_ofCalls .strict true _
  have hown : ⟨1, ownUser, 1⟩ ∈ userTable.routes :=
    Array.mem_toList_iff.mp (by decide)
  have hany : ⟨0, anyUser, 0⟩ ∈ userTable.routes :=
    Array.mem_toList_iff.mp (by decide)
  have hfound : (userTable.lookup .get "/users/me" .empty).1 =
      .found ⟨1, ownUser, 1⟩ :=
    hconsistent.lookup_eq_found_iff.mpr ⟨hown, by decide⟩
  have hpieces : Target.pieces "/users/me" = ["users", "me"] := by decide
  have haccepts : anyUser.Accepts "/users/me" := by
    unfold Pattern.Accepts
    rw [hpieces]
    exact .literal (.param .done)
  have hmatches : (Method.get, "/users/me") ∈ anyUser.requests :=
    (Pattern.mem_requests_iff (hconsistent.compiled _ hany)).mpr
      ⟨Or.inl rfl, haccepts⟩
  have hunparted : ¬userTable.PartedByName ownUser anyUser := by
    rintro ⟨_, common, first, _, rest, _, _, hsegments, _⟩
    have hparam : Segment.param first ∈ ownUser.segments := by
      simp [hsegments]
    simp [ownUser] at hparam
  exact ⟨⟨hfound, hany, hmatches, hunparted⟩,
    not_moreSpecific_of_found true _ hfound hany hmatches hunparted⟩

/-- Two names for the first piece.  The later one belongs to the more specific
pattern. -/
def partedTable : RouteTable Nat :=
  ofCalls .strict true
    [.add (some .get) "/:a/:x" 0, .add (some .get) "/:b/c" 1]

def earlierName : Pattern :=
  ⟨"/:a/:x", some .get, [.param "a", .param "x"]⟩

def laterName : Pattern :=
  ⟨"/:b/c", some .get, [.param "b", .literal "c"]⟩

/-- The more general route is found, since its name came first. -/
theorem found_moreGeneral_partedTable :
    (partedTable.lookup .get "/1/c" .empty).1 = .found ⟨0, earlierName, 0⟩ ∧
      ⟨1, laterName, 1⟩ ∈ partedTable.routes ∧
      (Method.get, "/1/c") ∈ laterName.requests ∧
      laterName.compareTo earlierName = .moreSpecific := by
  have hconsistent : partedTable.Consistent := consistent_ofCalls .strict true _
  have hearlier : ⟨0, earlierName, 0⟩ ∈ partedTable.routes :=
    Array.mem_toList_iff.mp (by decide)
  have hlater : ⟨1, laterName, 1⟩ ∈ partedTable.routes :=
    Array.mem_toList_iff.mp (by decide)
  have hfound : (partedTable.lookup .get "/1/c" .empty).1 =
      .found ⟨0, earlierName, 0⟩ :=
    hconsistent.lookup_eq_found_iff.mpr ⟨hearlier, by decide⟩
  have hpieces : Target.pieces "/1/c" = ["1", "c"] := by decide
  have haccepts : laterName.Accepts "/1/c" := by
    unfold Pattern.Accepts
    rw [hpieces]
    exact .param (.literal .done)
  have hmatches : (Method.get, "/1/c") ∈ laterName.requests :=
    (Pattern.mem_requests_iff (hconsistent.compiled _ hlater)).mpr
      ⟨Or.inl rfl, haccepts⟩
  exact ⟨hfound, hlater, hmatches, by decide⟩

end RouteTable
end Dispatch
