import Dispatch.Proofs.RouteTable.Precedence
import Mathlib.Tactic

/-!
# The ranking of the routes for a request

The routes of one method are ranked by their segments and by the order of
registration alone, without a trie in mind.  Two routes are compared at the
first segment in which they differ.  A literal goes before a parameter, and a
parameter before a wildcard.  Of two names the one goes first that came first
below the same segments.

Only the family that answers matters: the first of those asked that has a route
for the target.  A lookup finds the route that outranks all others of that
family which take the path.
-/

namespace Dispatch

/-! ## Which of two slots comes first -/

section

variable {Earlier : List Segment → List Segment → Prop}

/-- Of two segments that follow `shared`, which one is tried first.  `Earlier`
says which of two beginnings of a route was registered first. -/
inductive Segment.Ahead (Earlier : List Segment → List Segment → Prop)
    (shared : List Segment) : Segment → Segment → Prop where
  | literalParam {text name : String} :
      Ahead Earlier shared (.literal text) (.param name)
  | literalWildcard {text name : String} :
      Ahead Earlier shared (.literal text) (.wildcard name)
  | paramWildcard {first second : String} :
      Ahead Earlier shared (.param first) (.wildcard second)
  | params {first second : String}
      (hcame : Earlier (shared ++ [.param first]) (shared ++ [.param second])) :
      Ahead Earlier shared (.param first) (.param second)
  | wildcards {first second : String}
      (hcame : Earlier (shared ++ [.wildcard first])
        (shared ++ [.wildcard second])) :
      Ahead Earlier shared (.wildcard first) (.wildcard second)

inductive SlotBefore (Earlier : List Segment → List Segment → Prop)
    (left right : List Segment) : Prop where
  | parted (shared : List Segment) {first second : Segment}
      {leftRest rightRest : List Segment}
      (hahead : first.Ahead Earlier shared second)
      (hleft : left = shared ++ first :: leftRest)
      (hright : right = shared ++ second :: rightRest) :
      SlotBefore Earlier left right
  | anchored (hleft : left = right ++ [.endAnchor]) :
      SlotBefore Earlier left right

theorem Segment.Ahead.asymm {shared : List Segment} {first second : Segment}
    (hcame : ∀ a b, Earlier a b → ¬Earlier b a)
    (hahead : first.Ahead Earlier shared second) :
    ¬second.Ahead Earlier shared first := by
  intro hback
  cases hahead with
  | literalParam => contradiction
  | literalWildcard => contradiction
  | paramWildcard => contradiction
  | params hfirst =>
      cases hback with
      | params hsecond => exact hcame _ _ hfirst hsecond
  | wildcards hfirst =>
      cases hback with
      | wildcards hsecond => exact hcame _ _ hfirst hsecond

theorem Segment.Ahead.ne {shared : List Segment} {first second : Segment}
    (hcame : ∀ a b, Earlier a b → ¬Earlier b a)
    (hahead : first.Ahead Earlier shared second) : first ≠ second := by
  intro hsame
  subst second
  exact hahead.asymm hcame hahead

/-- Two lists part at one place only. -/
theorem parting_unique {shared other : List Segment}
    {first second first' second' : Segment}
    {leftRest rightRest leftRest' rightRest' : List Segment}
    (hne : first ≠ second) (hne' : first' ≠ second')
    (hleft : shared ++ first :: leftRest = other ++ first' :: leftRest')
    (hright : shared ++ second :: rightRest = other ++ second' :: rightRest') :
    shared = other ∧ first = first' ∧ second = second' := by
  induction shared generalizing other with
  | nil =>
      cases other with
      | nil =>
          exact ⟨rfl, (List.cons.inj hleft).1, (List.cons.inj hright).1⟩
      | cons head rest =>
          have hfirst : first = head := (List.cons.inj hleft).1
          have hsecond : second = head := (List.cons.inj hright).1
          exact (hne (hfirst.trans hsecond.symm)).elim
  | cons segment shared ih =>
      cases other with
      | nil =>
          have hfirst : segment = first' := (List.cons.inj hleft).1
          have hsecond : segment = second' := (List.cons.inj hright).1
          exact (hne' (hfirst.symm.trans hsecond)).elim
      | cons head rest =>
          obtain ⟨hhead, htailLeft⟩ := List.cons.inj hleft
          have htailRight := (List.cons.inj hright).2
          obtain ⟨hrest, hsame⟩ := ih htailLeft htailRight
          rw [hhead, hrest]
          exact ⟨rfl, hsame⟩

theorem SlotBefore.asymm {left right : List Segment}
    (hcame : ∀ a b, Earlier a b → ¬Earlier b a)
    (hbefore : SlotBefore Earlier left right) : ¬SlotBefore Earlier right left := by
  intro hback
  cases hbefore with
  | parted shared hahead hleft hright =>
      have hne := hahead.ne hcame
      cases hback with
      | parted other hback hright' hleft' =>
          have hne' := (hback.ne hcame).symm
          obtain ⟨rfl, rfl, rfl⟩ := parting_unique hne hne'
            (hleft.symm.trans hleft') (hright.symm.trans hright')
          exact hahead.asymm hcame hback
      | anchored hlonger =>
          rw [hright, hleft, List.append_assoc] at hlonger
          have hsame := List.append_cancel_left hlonger
          exact hne (List.cons.inj hsame).1.symm
  | anchored hleft =>
      cases hback with
      | parted other hback hright' hleft' =>
          rw [hleft', hright', List.append_assoc] at hleft
          have hsame := List.append_cancel_left hleft
          exact hback.ne hcame (List.cons.inj hsame).1.symm
      | anchored hlonger =>
          have hlength := congrArg List.length hlonger
          rw [hleft] at hlength
          simp at hlength

end

/-! ## The slots of a trie -/

namespace Trie

section

variable {claims : List Claim} {left right : List Segment}

theorem SlotBefore.descend {segment : Segment}
    (hbefore : SlotBefore (Sooner · · (under segment claims)) left right) :
    SlotBefore (Sooner · · claims) (segment :: left) (segment :: right) := by
  cases hbefore with
  | @parted shared first second leftRest rightRest hahead hleft hright =>
      subst left right
      have hahead : first.Ahead (Sooner · · claims) (segment :: shared) second := by
        cases hahead with
        | literalParam => exact .literalParam
        | literalWildcard => exact .literalWildcard
        | paramWildcard => exact .paramWildcard
        | params hcame => exact .params (sooner_under_iff.mp hcame)
        | wildcards hcame => exact .wildcards (sooner_under_iff.mp hcame)
      exact .parted (segment :: shared) hahead rfl rfl
  | anchored hleft => exact .anchored (congrArg (List.cons segment) hleft)

/-- The order in which a search takes the slots of a trie is that of the
segments and the registrations. -/
theorem Precedes.slotBefore (hprecedes : Precedes claims left right)
    (hnumbered : Numbered claims) : SlotBefore (Sooner · · claims) left right := by
  induction hprecedes with
  | literalParam => exact .parted [] .literalParam rfl rfl
  | literalWildcard => exact .parted [] .literalWildcard rfl rfl
  | paramWildcard => exact .parted [] .paramWildcard rfl rfl
  | params horder =>
      have hsooner := (horder.sooner hnumbered).2
      exact .parted [] (.params hsooner) rfl rfl
  | wildcards horder =>
      have hsooner := (horder.sooner hnumbered).2
      exact .parted [] (.wildcards hsooner) rfl rfl
  | endAnchor => exact .anchored rfl
  | descend hrest ih => exact SlotBefore.descend (ih (hnumbered.under _))

theorem firstClaim?_le {claim : Claim} {id : RouteId}
    (hnumbered : Numbered claims) (hmem : claim ∈ claims)
    (hfirst : firstClaim? claim.segments claims = some id) : id ≤ claim.id := by
  obtain ⟨first, hfind, rfl⟩ := Option.map_eq_some_iff.mp hfirst
  obtain ⟨_, before, after, hclaims, hnone⟩ :=
    List.find?_eq_some_iff_append.mp hfind
  rw [hclaims] at hmem hnumbered
  rcases List.mem_append.mp hmem with hbefore | hrest
  · have hother := hnone claim hbefore
    simp at hother
  · rcases List.mem_cons.mp hrest with hsame | hafter
    · rw [hsame]
    · have hlater := (List.pairwise_append.mp hnumbered).2.1
      exact (List.rel_of_pairwise_cons hlater hafter).le

end

end Trie

/-! ## The routes of the family that answers -/

namespace RouteTable

variable {α : Type} {table : RouteTable α}

/-- The routes of one family for a target. -/
structure Candidate (table : RouteTable α) (group : Option Method)
    (target : String) (route : Route α) : Prop where
  registered : route ∈ table.routes
  method : route.pattern.method = group
  accepts : route.pattern.Accepts target

/-- The first of the families asked that has a route for the target. -/
structure Answering (table : RouteTable α) (method : Method) (target : String)
    (group : Option Method) : Prop where
  candidate : ∃ route, table.Candidate group target route
  first : ∃ before after, lookupOrder method = before ++ group :: after ∧
    ∀ other ∈ before, ¬∃ route, table.Candidate other target route

/-- Of two routes of one family, which one is found if both take the path. -/
inductive Outranks (table : RouteTable α) (group : Option Method)
    (route other : Route α) : Prop where
  | slot (hbefore : SlotBefore (table.ComesFirst group)
      route.pattern.segments other.pattern.segments) :
      Outranks table group route other
  | registration (hsame : route.pattern.segments = other.pattern.segments)
      (hlt : route.id < other.id) : Outranks table group route other

/-- The least route of a family for a target. -/
structure Best (table : RouteTable α) (group : Option Method)
    (target : String) (route : Route α) : Prop where
  candidate : table.Candidate group target route
  outranks : ∀ other, table.Candidate group target other → other ≠ route →
    table.Outranks group route other

section

variable {group : Option Method} {target : String} {route other : Route α}

theorem comesFirst_eq_sooner (table : RouteTable α) (group : Option Method) :
    table.ComesFirst group =
      (Trie.Sooner · · (MethodRoutes.claims (table.insertions group))) := by
  funext first second
  exact propext comesFirst_iff_sooner

theorem ComesFirst.asymm {first second : List Segment}
    (hfirst : table.ComesFirst group first second) :
    ¬table.ComesFirst group second first := by
  rw [comesFirst_iff_sooner] at hfirst ⊢
  exact hfirst.asymm

theorem Outranks.asymm (houtranks : table.Outranks group route other) :
    ¬table.Outranks group other route := by
  have hslots : ∀ left right, SlotBefore (table.ComesFirst group) left right →
      ¬SlotBefore (table.ComesFirst group) right left := by
    intro left right
    apply SlotBefore.asymm
    intro first second
    exact ComesFirst.asymm
  have hirrefl : ∀ segments,
      ¬SlotBefore (table.ComesFirst group) segments segments := by
    intro segments hbefore
    exact hslots _ _ hbefore hbefore
  intro hback
  cases houtranks with
  | slot hbefore =>
      cases hback with
      | slot hafter => exact hslots _ _ hbefore hafter
      | registration hsame _ =>
          rw [hsame] at hbefore
          exact hirrefl _ hbefore
  | registration hsame hlt =>
      cases hback with
      | slot hafter =>
          rw [hsame] at hafter
          exact hirrefl _ hafter
      | registration _ hgt => exact Nat.lt_asymm hlt hgt

theorem Best.unique (hbest : table.Best group target route)
    (hother : table.Best group target other) : other = route := by
  by_contra hne
  have houtranks := hbest.outranks other hother.candidate hne
  have hback := hother.outranks route hbest.candidate (Ne.symm hne)
  exact houtranks.asymm hback

/-- Of the routes on one slot the first is selected. -/
theorem Consistent.id_lt_of_select (hconsistent : table.Consistent)
    {path : Path} (hroute : route ∈ table.routes) (hother : other ∈ table.routes)
    (hmethod : other.pattern.method = group)
    (hsame : route.pattern.segments = other.pattern.segments)
    (hne : other ≠ route)
    (hselect : (table.family group).select path =
      some ⟨route.pattern.segments, route.id⟩) :
    route.id < other.id := by
  have hmem := mem_claims_insertions.mpr ⟨other, hother, hmethod, rfl⟩
  rw [hconsistent.families] at hselect
  have hfirst := (MethodRoutes.select_sound
    (hconsistent.compiled_insertions group) hselect).1
  dsimp only at hfirst
  rw [hsame] at hfirst
  have hle := Trie.firstClaim?_le (hconsistent.numbered_claims group) hmem hfirst
  refine lt_of_le_of_ne hle ?_
  intro hid
  apply hne
  have hget := hconsistent.getElem?_id hother
  rw [← hid, hconsistent.getElem?_id hroute] at hget
  exact (Option.some.inj hget).symm

/-- What a family selects for a path with pieces is its best route. -/
theorem Consistent.best_of_select (hconsistent : table.Consistent)
    (hpieces : Target.pieces target ≠ [])
    (hroute : table.Candidate group target route)
    (hselect : (table.family group).select (Path.ofTarget target) =
      some ⟨route.pattern.segments, route.id⟩) :
    table.Best group target route := by
  refine ⟨hroute, ?_⟩
  intro other hother hne
  have hnumbered := hconsistent.numbered_claims group
  have hcompiled := hconsistent.compiled_insertions group
  have hmem := mem_claims_insertions.mpr
    ⟨other, hother.registered, hother.method, rfl⟩
  obtain ⟨winner, hwinner, hleast⟩ := MethodRoutes.select_least hcompiled hmem
    (accepts_iff.mp hother.accepts)
  rw [← hconsistent.families, hselect] at hwinner
  obtain rfl := Option.some.inj hwinner
  rcases hleast with hsame | hprecedes | ⟨_, hanchored⟩
  · exact .registration hsame (hconsistent.id_lt_of_select hroute.registered
      hother.registered hother.method hsame hne hselect)
  · apply Outranks.slot
    rw [comesFirst_eq_sooner]
    exact hprecedes.slotBefore hnumbered
  · -- a path with pieces does not end at the root
    have htakes := hother.accepts
    unfold Pattern.Accepts at htakes
    dsimp only at hanchored
    rw [hanchored, takes_endAnchor_iff] at htakes
    exact (hpieces htakes.2.1).elim

theorem Consistent.best_of_found (hconsistent : table.Consistent)
    {method : Method} {captures : Captures}
    (hpieces : Target.pieces target ≠ [])
    (hfound : (table.lookup method target captures).1 = .found route) :
    table.Answering method target route.pattern.method ∧
      table.Best route.pattern.method target route := by
  obtain ⟨hroute, haccepts, hselect, before, after, horder, hbefore⟩ :=
    hconsistent.of_found hfound
  have hcandidate : table.Candidate route.pattern.method target route :=
    ⟨hroute, rfl, haccepts⟩
  refine ⟨⟨⟨route, hcandidate⟩, before, after, horder, ?_⟩,
    hconsistent.best_of_select hpieces hcandidate hselect⟩
  intro group hgroup hserved
  obtain ⟨other, hother⟩ := hserved
  exact hbefore other hother.registered (hother.method ▸ hgroup) hother.accepts

end

theorem Answering.unique {method : Method} {target : String}
    {group other : Option Method} (hgroup : table.Answering method target group)
    (hother : table.Answering method target other) : group = other := by
  obtain ⟨before, after, horder, hnone⟩ := hgroup.first
  obtain ⟨before', after', horder', hnone'⟩ := hother.first
  rcases List.append_eq_append_iff.mp (horder.symm.trans horder') with
    ⟨between, hbetween, htail⟩ | ⟨between, hbetween, htail⟩
  · cases between with
    | nil => exact (List.cons.inj htail).1
    | cons head rest =>
        have hmem : group ∈ before' := by
          rw [hbetween, (List.cons.inj htail).1]
          simp
        exact (hnone' group hmem hgroup.candidate).elim
  · cases between with
    | nil => exact (List.cons.inj htail).1.symm
    | cons head rest =>
        have hmem : other ∈ before := by
          rw [hbetween, (List.cons.inj htail).1]
          simp
        exact (hnone other hmem hother.candidate).elim

/-- Whatever calls made the table, a request for a path with pieces finds the
best route of the family that answers it, and such a route exists if any route
serves the request. -/
theorem best_ofCalls (policy : ConflictPolicy) (decode : Bool)
    (calls : List (Call α)) (method : Method) (target : String)
    (captures : Captures) (hpieces : Target.pieces target ≠ []) :
    let table := ofCalls policy decode calls
    (∀ route, (table.lookup method target captures).1 = .found route ↔
        ∃ group, table.Answering method target group ∧
          table.Best group target route) ∧
      ((∃ group, table.Answering method target group) ↔
        ∃ route, (table.lookup method target captures).1 = .found route) := by
  intro table
  have hconsistent : table.Consistent := consistent_ofCalls policy decode calls
  have hanswered : ∀ group, table.Answering method target group →
      ∃ route, (table.lookup method target captures).1 = .found route := by
    intro group hgroup
    obtain ⟨route, hroute⟩ := hgroup.candidate
    obtain ⟨before, after, horder, _⟩ := hgroup.first
    apply hconsistent.exists_found_iff.mpr
    have hmem : route.pattern.method ∈ lookupOrder method := by
      rw [horder, hroute.method]
      simp
    exact ⟨route, hroute.registered, mem_lookupOrder.mp hmem, hroute.accepts⟩
  refine ⟨?_, ?_, ?_⟩
  · intro route
    constructor
    · intro hfound
      exact ⟨_, hconsistent.best_of_found hpieces hfound⟩
    · intro hwins
      obtain ⟨group, hgroup, hbest⟩ := hwins
      obtain ⟨winner, hwinner⟩ := hanswered group hgroup
      obtain ⟨hanswering, hbestWinner⟩ :=
        hconsistent.best_of_found hpieces hwinner
      rw [hanswering.unique hgroup] at hbestWinner
      rw [hwinner, hbest.unique hbestWinner]
  · intro hanswering
    obtain ⟨group, hgroup⟩ := hanswering
    exact hanswered group hgroup
  · intro hserved
    obtain ⟨route, hfound⟩ := hserved
    exact ⟨_, (hconsistent.best_of_found hpieces hfound).1⟩

/-- Three routes take the path.  The names of the first piece part the last two,
and the later one is no better for being more specific. -/
def nameTable : RouteTable Nat :=
  ofCalls .firstWins true
    [.add (some .get) "/*rest" 0, .add (some .get) "/:b/:x" 1,
      .add (some .get) "/:a/y" 2]

def earlierNameRoute : Route Nat :=
  ⟨1, ⟨"/:b/:x", some .get, [.param "b", .param "x"]⟩, 1⟩

theorem best_ofCalls_nameTable :
    Target.pieces "/1/y" ≠ [] ∧
      ∃ group, nameTable.Answering .head "/1/y" group ∧
        nameTable.Best group "/1/y" earlierNameRoute := by
  have hpieces : Target.pieces "/1/y" ≠ [] := by decide
  have hconsistent : nameTable.Consistent := consistent_ofCalls .firstWins true _
  have hroute : earlierNameRoute ∈ nameTable.routes :=
    Array.mem_toList_iff.mp (by decide)
  have hfound : (nameTable.lookup .head "/1/y" .empty).1 =
      .found earlierNameRoute :=
    hconsistent.lookup_eq_found_iff.mpr ⟨hroute, by decide⟩
  have hbest := best_ofCalls .firstWins true
    [.add (some .get) "/*rest" 0, .add (some .get) "/:b/:x" 1,
      .add (some .get) "/:a/y" 2] .head "/1/y" .empty hpieces
  exact ⟨hpieces, (hbest.1 earlierNameRoute).mp hfound⟩

end RouteTable
end Dispatch
