import Dispatch.Proofs.Trie.Selection
import Mathlib.Tactic

/-!
# The slots of a trie

A slot is reached by its segments.  No node has two children or two wildcards
of one name, and literal children are sorted, so segments lead to one slot only.
A slot holds the first claim on it.  Hence a route is refused its slot exactly
if an earlier one has the same segments, and then the insertion changes nothing.
-/

namespace Dispatch

namespace Trie

/-! ## Nodes -/

structure Shaped (node : Trie) : Prop where
  literals : (node.literals.map Prod.fst).Pairwise (· < ·)
  params : (node.params.map Prod.fst).Nodup
  wildcards : (node.wildcards.map Prod.fst).Nodup

/-- The node is the trie itself or stands somewhere below it. -/
inductive NodeOf (node : Trie) : Trie → Prop where
  | root : NodeOf node node
  | literal {trie child : Trie} {text : String}
      (hmem : (text, child) ∈ trie.literals) (hchild : NodeOf node child) :
      NodeOf node trie
  | param {trie child : Trie} {name : String}
      (hmem : (name, child) ∈ trie.params) (hchild : NodeOf node child) :
      NodeOf node trie

/-- A route is stored in the slot that some segments lead to. -/
inductive HoldsAt (id : RouteId) : List Segment → Trie → Prop where
  | route {trie : Trie} (hslot : trie.route = some id) : HoldsAt id [] trie
  | anchored {trie : Trie} (hslot : trie.anchored = some id) :
      HoldsAt id [.endAnchor] trie
  | literal {trie child : Trie} {text : String} {rest : List Segment}
      (hmem : (text, child) ∈ trie.literals) (hchild : HoldsAt id rest child) :
      HoldsAt id (.literal text :: rest) trie
  | param {trie child : Trie} {name : String} {rest : List Segment}
      (hmem : (name, child) ∈ trie.params) (hchild : HoldsAt id rest child) :
      HoldsAt id (.param name :: rest) trie
  | wildcard {trie : Trie} {name : String}
      (hmem : (name, id) ∈ trie.wildcards) : HoldsAt id [.wildcard name] trie

section

variable {claims : List Claim} {segments : List Segment} {id : RouteId}

theorem nodup_wildcards_ofClaims (claims : List Claim) :
    ((ofClaims claims).wildcards.map Prod.fst).Nodup := by
  induction claims using List.reverseRecOn with
  | nil => exact List.nodup_nil
  | append_singleton claims claim ih =>
      rw [ofClaims_concat]
      obtain ⟨segments, id⟩ := claim
      cases segments with
      | nil => exact ih
      | cons first rest =>
          cases first with
          | wildcard name => exact KeyedList.nodup_keys_claim ih
          | literal text => exact ih
          | param name => exact ih
          | endAnchor => exact ih

theorem shaped_ofClaims (claims : List Claim) : (ofClaims claims).Shaped where
  literals := sorted_literals_ofClaims claims
  params := nodup_params_ofClaims claims
  wildcards := nodup_wildcards_ofClaims claims

theorem eq_ofClaims_of_mem_literals {text : String} {child : Trie}
    (hmem : (text, child) ∈ (ofClaims claims).literals) :
    child = ofClaims (under (.literal text) claims) := by
  have hnodup : ((ofClaims claims).literals.map Prod.fst).Nodup :=
    (sorted_literals_ofClaims claims).imp ne_of_lt
  have hlookup := KeyedList.lookup_of_mem hnodup hmem
  rw [lookup_literals_ofClaims] at hlookup
  exact eq_ofClaims_of_child? hlookup

/-- What stands below a trie of claims is one itself. -/
theorem NodeOf.exists_claims {node trie : Trie} (hnode : NodeOf node trie)
    (htrie : ∃ claims, trie = ofClaims claims) :
    ∃ below, node = ofClaims below := by
  induction hnode with
  | root => exact htrie
  | literal hmem _ ih =>
      obtain ⟨claims, rfl⟩ := htrie
      exact ih ⟨_, eq_ofClaims_of_mem_literals hmem⟩
  | param hmem _ ih =>
      obtain ⟨claims, rfl⟩ := htrie
      exact ih ⟨_, eq_ofClaims_of_mem_params hmem⟩

theorem NodeOf.shaped {node : Trie} (hnode : NodeOf node (ofClaims claims)) :
    node.Shaped := by
  obtain ⟨below, rfl⟩ := hnode.exists_claims ⟨claims, rfl⟩
  exact shaped_ofClaims below

/-! ## What a slot holds -/

theorem holder?_empty (segments : List Segment) :
    holder? segments empty = none := by
  cases segments with
  | nil => rfl
  | cons segment rest => cases segment <;> rfl

theorem holder?_getD (segments : List Segment) (child : Option Trie) :
    holder? segments (child.getD empty) = child.bind (holder? segments) := by
  cases child with
  | none => exact holder?_empty segments
  | some child => rfl

theorem child?_bind_holder? (segment : Segment) (rest : List Segment)
    (claims : List Claim) :
    (child? segment claims).bind (holder? rest) =
      holder? rest (ofClaims (under segment claims)) := by
  rw [← holder?_getD, child?_getD]

theorem holder?_ofClaims
    (hplaced : ∀ claim ∈ claims, WellPlaced claim.segments)
    (hsegments : WellPlaced segments) :
    holder? segments (ofClaims claims) = firstClaim? segments claims := by
  induction segments generalizing claims with
  | nil => exact route_ofClaims claims
  | cons segment rest ih =>
      have hplacedUnder : ∀ claim ∈ under segment claims,
          WellPlaced claim.segments := under_wellPlaced hplaced
      have hbelow := ih hplacedUnder hsegments.tail
      rw [firstClaim?_under] at hbelow
      cases segment with
      | literal text =>
          rw [holder?, lookup_literals_ofClaims, child?_bind_holder?, hbelow]
      | param name =>
          rw [holder?, lookup_params_ofClaims, child?_bind_holder?, hbelow]
      | wildcard name =>
          obtain rfl := hsegments.2.1 trivial
          rw [holder?, lookup_wildcards_ofClaims,
            firstClaim?_of_isFinal (.wildcard name) trivial hplaced]
      | endAnchor =>
          obtain rfl := hsegments.2.1 trivial
          rw [holder?, anchored_ofClaims,
            firstClaim?_of_isFinal .endAnchor trivial hplaced]

theorem HoldsAt.firstClaim?_eq (hholds : HoldsAt id segments (ofClaims claims))
    (hplaced : ∀ claim ∈ claims, WellPlaced claim.segments) :
    firstClaim? segments claims = some id := by
  generalize htrie : ofClaims claims = trie at hholds
  induction hholds generalizing claims with
  | route hslot =>
      subst htrie
      rw [← route_ofClaims, hslot]
  | anchored hslot =>
      subst htrie
      rw [firstClaim?_of_isFinal .endAnchor trivial hplaced,
        ← anchored_ofClaims, hslot]
  | literal hmem _ ih =>
      subst htrie
      rw [← firstClaim?_under]
      exact ih (under_wellPlaced hplaced) (eq_ofClaims_of_mem_literals hmem).symm
  | param hmem _ ih =>
      subst htrie
      rw [← firstClaim?_under]
      exact ih (under_wellPlaced hplaced) (eq_ofClaims_of_mem_params hmem).symm
  | wildcard hmem =>
      subst htrie
      rw [firstClaim?_of_isFinal (.wildcard _) trivial hplaced,
        ← lookup_wildcards_ofClaims]
      exact KeyedList.lookup_of_mem (nodup_wildcards_ofClaims claims) hmem

theorem holdsAt_of_firstClaim?
    (hplaced : ∀ claim ∈ claims, WellPlaced claim.segments)
    (hfirst : firstClaim? segments claims = some id) :
    HoldsAt id segments (ofClaims claims) := by
  induction segments generalizing claims with
  | nil => exact .route (by rw [route_ofClaims, hfirst])
  | cons segment rest ih =>
      have hmem := mem_of_firstClaim? hfirst
      have hunder : ⟨rest, id⟩ ∈ under segment claims := mem_under.mpr hmem
      have hchild : child? segment claims =
          some (ofClaims (under segment claims)) :=
        child?_eq_some_of_mem hunder
      have hbelow : HoldsAt id rest (ofClaims (under segment claims)) :=
        ih (under_wellPlaced hplaced) (by rw [firstClaim?_under, hfirst])
      cases segment with
      | literal text =>
          rw [← lookup_literals_ofClaims] at hchild
          exact .literal (KeyedList.mem_of_lookup hchild) hbelow
      | param name =>
          rw [← lookup_params_ofClaims] at hchild
          exact .param (KeyedList.mem_of_lookup hchild) hbelow
      | wildcard name =>
          obtain rfl : rest = [] := (hplaced _ hmem).2.1 trivial
          rw [firstClaim?_of_isFinal (.wildcard name) trivial hplaced,
            ← lookup_wildcards_ofClaims] at hfirst
          exact .wildcard (KeyedList.mem_of_lookup hfirst)
      | endAnchor =>
          obtain rfl : rest = [] := (hplaced _ hmem).2.1 trivial
          rw [firstClaim?_of_isFinal .endAnchor trivial hplaced,
            ← anchored_ofClaims] at hfirst
          exact .anchored hfirst

/-- A slot holds the first claim on it. -/
theorem holdsAt_ofClaims_iff
    (hplaced : ∀ claim ∈ claims, WellPlaced claim.segments) :
    HoldsAt id segments (ofClaims claims) ↔
      firstClaim? segments claims = some id :=
  ⟨fun hholds => hholds.firstClaim?_eq hplaced, holdsAt_of_firstClaim? hplaced⟩

/-- A claim with an id of its own is first if and only if there is none before
it. -/
theorem firstClaim?_eq_own {before own after : List Claim}
    (hbefore : ∀ claim ∈ before, claim.id ≠ id)
    (hafter : ∀ claim ∈ after, claim.id ≠ id) :
    firstClaim? segments (before ++ own ++ after) = some id ↔
      firstClaim? segments before = none ∧
        firstClaim? segments own = some id := by
  have hother : ∀ claims : List Claim, (∀ claim ∈ claims, claim.id ≠ id) →
      firstClaim? segments claims ≠ some id := by
    intro claims hne hfirst
    exact hne _ (mem_of_firstClaim? hfirst) rfl
  rw [firstClaim?_append, firstClaim?_append]
  cases hearlier : firstClaim? segments before with
  | some first =>
      have hne : first ≠ id := by
        rintro rfl
        exact hother before hbefore hearlier
      simp [hne]
  | none =>
      cases firstClaim? segments own with
      | some first => simp
      | none => simp [hother after hafter]

/-! ## Insertions that answer -/

/-- Adds a route, and answers whether its slot was free. -/
def enter (id : RouteId) : List Segment → Trie → Trie × Bool
  | [], trie =>
    ({ trie with route := trie.route.or (some id) }, trie.route.isNone)
  | .literal text :: rest, trie =>
    let (child, free) :=
      enter id rest ((trie.literals.lookup text).getD empty)
    ({ trie with
        literals := updateSorted text (fun _ => child) trie.literals }, free)
  | .param name :: rest, trie =>
    let (child, free) := enter id rest ((trie.params.lookup name).getD empty)
    ({ trie with
        params := KeyedList.update name empty (fun _ => child) trie.params },
      free)
  | .wildcard name :: _, trie =>
    if (trie.wildcards.lookup name).isSome then (trie, false)
    else ({ trie with wildcards := trie.wildcards ++ [(name, id)] }, true)
  | .endAnchor :: _, trie =>
    ({ trie with anchored := trie.anchored.or (some id) },
      trie.anchored.isNone)

theorem updateSorted_congr {text : String} {change other : Trie → Trie}
    {list : List (String × Trie)}
    (hsorted : (list.map Prod.fst).Pairwise (· < ·))
    (hchange : change ((list.lookup text).getD empty) =
      other ((list.lookup text).getD empty)) :
    updateSorted text change list = updateSorted text other list := by
  induction list with
  | nil => exact congrArg (fun child => [(text, child)]) hchange
  | cons entry rest ih =>
      obtain ⟨first, child⟩ := entry
      rw [List.map_cons, List.pairwise_cons] at hsorted
      rw [updateSorted, updateSorted]
      split_ifs with hlt heq
      · rw [lookup_eq_none_of_lt hlt hsorted.1] at hchange
        rw [show change empty = other empty from hchange]
      · subst first
        rw [List.lookup_cons_self] at hchange
        rw [show change child = other child from hchange]
      · rw [KeyedList.lookup_cons_of_ne heq] at hchange
        rw [ih hsorted.2 hchange]

theorem mk_parts (trie : Trie) :
    (⟨trie.route, trie.anchored, trie.literals, trie.params,
      trie.wildcards⟩ : Trie) = trie := by
  cases trie
  rfl

/-- The answer is whether nobody holds the slot. -/
theorem enter_ofClaims (id : RouteId) (segments : List Segment)
    (claims : List Claim) :
    (ofClaims claims).enter id segments =
      ((ofClaims claims).insert id segments,
        (holder? segments (ofClaims claims)).isNone) := by
  induction segments generalizing claims with
  | nil => rfl
  | cons segment rest ih =>
      have hbelow := ih (under segment claims)
      cases segment with
      | literal text =>
          have hchild : ((ofClaims claims).literals.lookup text).getD empty =
              ofClaims (under (.literal text) claims) := by
            rw [lookup_literals_ofClaims, child?_getD]
          have hliterals : updateSorted text
                (fun _ => insert id rest (ofClaims (under (.literal text) claims)))
                (ofClaims claims).literals =
              updateSorted text (insert id rest) (ofClaims claims).literals :=
            updateSorted_congr (sorted_literals_ofClaims claims) (by rw [hchild])
          rw [enter, hchild, hbelow, insert, ← hliterals, holder?,
            ← holder?_getD, hchild]
      | param name =>
          have hchild : ((ofClaims claims).params.lookup name).getD empty =
              ofClaims (under (.param name) claims) := by
            rw [lookup_params_ofClaims, child?_getD]
          have hparams : KeyedList.update name empty
                (fun _ => insert id rest (ofClaims (under (.param name) claims)))
                (ofClaims claims).params =
              KeyedList.update name empty (insert id rest)
                (ofClaims claims).params :=
            KeyedList.update_congr (by rw [hchild])
          rw [enter, hchild, hbelow, insert, ← hparams, holder?,
            ← holder?_getD, hchild]
      | wildcard name =>
          rw [enter, insert, holder?, KeyedList.claim]
          cases (ofClaims claims).wildcards.lookup name with
          | none => rfl
          | some held => exact Prod.ext (mk_parts _).symm rfl
      | endAnchor => rfl

/-- Parameters of another name are another slot. -/
example :
    let trie := ofClaims [⟨[.literal "a", .param "x"], 0⟩]
    (trie.enter 1 [.literal "a", .param "x"]).2 = false ∧
      (trie.enter 1 [.literal "a", .param "y"]).2 = true := by
  decide

/-! ## Refused claims -/

theorem updateSorted_eq_self {text : String} {change : Trie → Trie}
    {list : List (String × Trie)} {child : Trie}
    (hsorted : (list.map Prod.fst).Pairwise (· < ·))
    (hlookup : list.lookup text = some child) (hchange : change child = child) :
    updateSorted text change list = list := by
  induction list with
  | nil => contradiction
  | cons entry rest ih =>
      obtain ⟨first, other⟩ := entry
      rw [List.map_cons, List.pairwise_cons] at hsorted
      rw [updateSorted]
      split_ifs with hlt heq
      · rw [lookup_eq_none_of_lt hlt hsorted.1] at hlookup
        contradiction
      · subst first
        rw [List.lookup_cons_self] at hlookup
        obtain rfl := Option.some.inj hlookup
        rw [hchange]
      · rw [KeyedList.lookup_cons_of_ne heq] at hlookup
        rw [ih hsorted.2 hlookup]

/-- A claim on a slot that is held changes nothing. -/
theorem insert_eq_self {holder : RouteId}
    (hfirst : firstClaim? segments claims = some holder) (id : RouteId) :
    (ofClaims claims).insert id segments = ofClaims claims := by
  induction segments generalizing claims with
  | nil =>
      have hroute : (ofClaims claims).route.or (some id) =
          (ofClaims claims).route := by
        rw [route_ofClaims, hfirst]
        rfl
      rw [insert, hroute]
      exact mk_parts _
  | cons segment rest ih =>
      have hmem : ⟨rest, holder⟩ ∈ under segment claims :=
        mem_under.mpr (mem_of_firstClaim? hfirst)
      have hchild := child?_eq_some_of_mem hmem
      have hhead : ((under segment claims).head?.map Claim.id).isSome := by
        rw [Option.isSome_map]
        exact List.isSome_head?.mpr (List.ne_nil_of_mem hmem)
      have hbelow : (ofClaims (under segment claims)).insert id rest =
          ofClaims (under segment claims) := by
        rw [← firstClaim?_under] at hfirst
        exact ih hfirst
      cases segment with
      | literal text =>
          rw [← lookup_literals_ofClaims] at hchild
          rw [insert, updateSorted_eq_self (sorted_literals_ofClaims claims)
            hchild hbelow]
          exact mk_parts _
      | param name =>
          rw [← lookup_params_ofClaims] at hchild
          rw [insert, KeyedList.update_eq_self hchild hbelow]
          exact mk_parts _
      | wildcard name =>
          rw [← lookup_wildcards_ofClaims] at hhead
          rw [insert, KeyedList.claim, if_pos hhead]
          exact mk_parts _
      | endAnchor =>
          have hanchored : (ofClaims claims).anchored.or (some id) =
              (ofClaims claims).anchored := by
            rw [← anchored_ofClaims] at hhead
            obtain ⟨held, hheld⟩ := Option.isSome_iff_exists.mp hhead
            rw [hheld]
            rfl
          rw [insert, hanchored]
          exact mk_parts _

theorem insert_eq_self_iff
    (hplaced : ∀ claim ∈ claims, WellPlaced claim.segments)
    (hsegments : WellPlaced segments) (id : RouteId) :
    (ofClaims claims).insert id segments = ofClaims claims ↔
      (firstClaim? segments claims).isSome := by
  constructor
  · intro hsame
    have hconcat : ofClaims (claims ++ [⟨segments, id⟩]) = ofClaims claims :=
      (ofClaims_concat claims ⟨segments, id⟩).trans hsame
    have hmore : ∀ claim ∈ claims ++ [⟨segments, id⟩],
        WellPlaced claim.segments := by
      simpa [or_imp, forall_and] using ⟨hplaced, hsegments⟩
    rw [← holder?_ofClaims hplaced hsegments, ← hconcat,
      holder?_ofClaims hmore hsegments, firstClaim?_concat]
    simp
  · intro hclaimed
    obtain ⟨holder, hfirst⟩ := Option.isSome_iff_exists.mp hclaimed
    exact insert_eq_self hfirst id

end

end Trie
end Dispatch
