import Dispatch.Proofs.Matching
import Dispatch.Trie
import Mathlib.Data.String.Basic
import Mathlib.Tactic

/-!
# A trie and the claims that made it

A trie is made by routes that claim the slots of their segments one after the
other.  Each part of its root can be read off the list of claims: the slots
hold the first claims on them, and the child below a segment is the trie of the
claims that go that way.  With this, what is proved of a trie is proved by
looking at claims, and no later argument has to follow an insertion.
-/

namespace Dispatch
namespace Trie

/-- A route that claims the slot of its segments. -/
structure Claim where
  segments : List Segment
  id : RouteId
  deriving DecidableEq

def ofClaims (claims : List Claim) : Trie :=
  claims.foldl (fun trie claim => trie.insert claim.id claim.segments) empty

@[simp] theorem ofClaims_nil : ofClaims [] = empty := rfl

theorem ofClaims_concat (claims : List Claim) (claim : Claim) :
    ofClaims (claims ++ [claim]) =
      (ofClaims claims).insert claim.id claim.segments := by
  simp [ofClaims]

/-- The claims that begin with a segment, less that segment. -/
def under (segment : Segment) (claims : List Claim) : List Claim :=
  claims.filterMap fun claim =>
    match claim.segments with
    | [] => none
    | first :: rest =>
      if first = segment then some { claim with segments := rest } else none

theorem mem_under {segment : Segment} {claims : List Claim} {claim : Claim} :
    claim ∈ under segment claims ↔
      ⟨segment :: claim.segments, claim.id⟩ ∈ claims := by
  unfold under
  rw [List.mem_filterMap]
  constructor
  · rintro ⟨whole, hmem, heq⟩
    obtain ⟨segments, id⟩ := whole
    cases segments with
    | nil => simp at heq
    | cons first rest =>
        dsimp only at heq
        split_ifs at heq with hfirst
        cases heq
        simpa [hfirst] using hmem
  · intro hmem
    exact ⟨_, hmem, by simp⟩

theorem under_append (segment : Segment) (before after : List Claim) :
    under segment (before ++ after) =
      under segment before ++ under segment after := by
  simp [under]

@[simp] theorem under_nil (segment : Segment) : under segment [] = [] := rfl

theorem under_singleton_cons (segment first : Segment) (rest : List Segment)
    (id : RouteId) :
    under segment [⟨first :: rest, id⟩] =
      if first = segment then [⟨rest, id⟩] else [] := by
  by_cases hfirst : first = segment
  · simp [under, hfirst]
  · simp [under, hfirst]

@[simp] theorem under_singleton_nil (segment : Segment) (id : RouteId) :
    under segment [⟨[], id⟩] = [] := rfl

theorem under_wellPlaced {segment : Segment} {claims : List Claim}
    (hplaced : ∀ claim ∈ claims, WellPlaced claim.segments) :
    ∀ claim ∈ under segment claims, WellPlaced claim.segments := by
  intro claim hmem
  exact (hplaced _ (mem_under.mp hmem)).tail

def firstClaim? (segments : List Segment) (claims : List Claim) :
    Option RouteId :=
  (claims.find? (·.segments = segments)).map Claim.id

theorem firstClaim?_append (segments : List Segment)
    (before after : List Claim) :
    firstClaim? segments (before ++ after) =
      (firstClaim? segments before).or (firstClaim? segments after) := by
  unfold firstClaim?
  rw [List.find?_append, Option.map_or]

theorem firstClaim?_singleton (segments : List Segment) (claim : Claim) :
    firstClaim? segments [claim] =
      if claim.segments = segments then some claim.id else none := by
  by_cases hsegments : claim.segments = segments
  · simp [firstClaim?, hsegments]
  · simp [firstClaim?, hsegments]

theorem firstClaim?_concat (segments : List Segment) (claims : List Claim)
    (claim : Claim) :
    firstClaim? segments (claims ++ [claim]) =
      (firstClaim? segments claims).or
        (if claim.segments = segments then some claim.id else none) := by
  rw [firstClaim?_append, firstClaim?_singleton]

theorem mem_of_firstClaim? {segments : List Segment} {claims : List Claim}
    {id : RouteId} (hfirst : firstClaim? segments claims = some id) :
    ⟨segments, id⟩ ∈ claims := by
  obtain ⟨claim, hfind, rfl⟩ := Option.map_eq_some_iff.mp hfirst
  have hsegments : claim.segments = segments := by
    simpa using List.find?_some hfind
  have hmem := List.mem_of_find?_eq_some hfind
  rwa [← hsegments]

theorem firstClaim?_isSome {claims : List Claim} {claim : Claim}
    (hmem : claim ∈ claims) :
    (firstClaim? claim.segments claims).isSome := by
  unfold firstClaim?
  rw [Option.isSome_map, List.find?_isSome]
  exact ⟨claim, hmem, by simp⟩

theorem firstClaim?_under (segment : Segment) (segments : List Segment)
    (claims : List Claim) :
    firstClaim? segments (under segment claims) =
      firstClaim? (segment :: segments) claims := by
  induction claims using List.reverseRecOn with
  | nil => rfl
  | append_singleton claims claim ih =>
      obtain ⟨whole, id⟩ := claim
      rw [under_append, firstClaim?_concat, ← ih]
      cases whole with
      | nil => simp
      | cons first rest =>
          rw [under_singleton_cons]
          by_cases hfirst : first = segment
          · simp [hfirst, firstClaim?_concat]
          · simp [hfirst]

/-- The child below a segment, if a claim goes that way. -/
def child? (segment : Segment) (claims : List Claim) : Option Trie :=
  if under segment claims = [] then none
  else some (ofClaims (under segment claims))

theorem child?_eq_some_of_mem {segment : Segment} {claims : List Claim}
    {claim : Claim} (hmem : claim ∈ under segment claims) :
    child? segment claims = some (ofClaims (under segment claims)) := by
  unfold child?
  rw [if_neg (List.ne_nil_of_mem hmem)]

theorem eq_ofClaims_of_child? {segment : Segment} {claims : List Claim}
    {child : Trie} (hchild : child? segment claims = some child) :
    child = ofClaims (under segment claims) := by
  unfold child? at hchild
  split_ifs at hchild
  exact (Option.some.inj hchild).symm

theorem child?_getD (segment : Segment) (claims : List Claim) :
    (child? segment claims).getD empty = ofClaims (under segment claims) := by
  unfold child?
  by_cases hnil : under segment claims = []
  · simp [hnil]
  · simp [hnil]

theorem child?_concat_nil (segment : Segment) (claims : List Claim)
    (id : RouteId) :
    child? segment (claims ++ [⟨[], id⟩]) = child? segment claims := by
  simp [child?, under_append]

theorem child?_concat_cons (segment first : Segment) (rest : List Segment)
    (claims : List Claim) (id : RouteId) :
    child? segment (claims ++ [⟨first :: rest, id⟩]) =
      if segment = first then
        some (((child? segment claims).getD empty).insert id rest)
      else child? segment claims := by
  rw [child?_getD]
  unfold child?
  rw [under_append, under_singleton_cons]
  by_cases hfirst : segment = first
  · subst first
    simp [ofClaims_concat]
  · simp [hfirst, Ne.symm hfirst]

/-! ## The slots of the root -/

theorem route_ofClaims (claims : List Claim) :
    (ofClaims claims).route = firstClaim? [] claims := by
  induction claims using List.reverseRecOn with
  | nil => rfl
  | append_singleton claims claim ih =>
      obtain ⟨segments, id⟩ := claim
      rw [ofClaims_concat, firstClaim?_concat, ← ih]
      cases segments with
      | nil => simp [insert]
      | cons first rest => cases first <;> simp [insert]

theorem anchored_ofClaims (claims : List Claim) :
    (ofClaims claims).anchored =
      (under .endAnchor claims).head?.map Claim.id := by
  induction claims using List.reverseRecOn with
  | nil => rfl
  | append_singleton claims claim ih =>
      obtain ⟨segments, id⟩ := claim
      rw [ofClaims_concat, under_append, List.head?_append, Option.map_or, ← ih]
      cases segments with
      | nil => simp [insert]
      | cons first rest => cases first <;> simp [insert, under_singleton_cons]

theorem lookup_wildcards_ofClaims (name : String) (claims : List Claim) :
    (ofClaims claims).wildcards.lookup name =
      (under (.wildcard name) claims).head?.map Claim.id := by
  induction claims using List.reverseRecOn with
  | nil => rfl
  | append_singleton claims claim ih =>
      obtain ⟨segments, id⟩ := claim
      rw [ofClaims_concat, under_append, List.head?_append, Option.map_or, ← ih]
      cases segments with
      | nil => simp [insert]
      | cons first rest =>
          cases first with
          | wildcard other =>
              simp only [insert, KeyedList.lookup_claim, under_singleton_cons]
              by_cases hname : name = other
              · simp [hname]
              · simp [hname, Ne.symm hname]
          | literal text => simp [insert, under_singleton_cons]
          | param other => simp [insert, under_singleton_cons]
          | endAnchor => simp [insert, under_singleton_cons]

/-! ## The children of the root -/

theorem keys_updateSorted (text : String) (change : Trie → Trie)
    (list : List (String × Trie)) (name : String) :
    name ∈ (updateSorted text change list).map Prod.fst ↔
      name = text ∨ name ∈ list.map Prod.fst := by
  induction list with
  | nil => simp [updateSorted]
  | cons entry rest ih =>
      obtain ⟨first, child⟩ := entry
      simp only [updateSorted]
      split_ifs with hlt heq
      · simp
      · subst first
        simp
      · simp only [List.map_cons, List.mem_cons, ih]
        tauto

theorem sorted_updateSorted {text : String} {change : Trie → Trie}
    {list : List (String × Trie)}
    (hsorted : (list.map Prod.fst).Pairwise (· < ·)) :
    ((updateSorted text change list).map Prod.fst).Pairwise (· < ·) := by
  induction list with
  | nil => simp [updateSorted]
  | cons entry rest ih =>
      obtain ⟨first, child⟩ := entry
      simp only [List.map_cons, List.pairwise_cons] at hsorted
      simp only [updateSorted]
      split_ifs with hlt heq
      · simp only [List.map_cons, List.pairwise_cons, List.mem_cons]
        refine ⟨?_, hsorted⟩
        rintro name (rfl | hname)
        · exact hlt
        · exact lt_trans hlt (hsorted.1 name hname)
      · simpa using hsorted
      · simp only [List.map_cons, List.pairwise_cons]
        refine ⟨?_, ih hsorted.2⟩
        intro name hname
        rcases (keys_updateSorted text change rest name).mp hname with rfl | hrest
        · exact lt_of_le_of_ne (not_lt.mp hlt) (Ne.symm heq)
        · exact hsorted.1 name hrest

theorem lookup_eq_none_of_lt {text first : String} {child : Trie}
    {rest : List (String × Trie)} (hlt : text < first)
    (hsorted : ∀ name ∈ rest.map Prod.fst, first < name) :
    ((first, child) :: rest).lookup text = none := by
  rw [List.lookup_eq_none_iff]
  intro entry hmem
  have htext : text < entry.1 := by
    rcases List.mem_cons.mp hmem with rfl | hrest
    · exact hlt
    · exact lt_trans hlt
        (hsorted entry.1 (List.mem_map.mpr ⟨entry, hrest, rfl⟩))
  exact bne_iff_ne.mpr (ne_of_lt htext)

theorem lookup_updateSorted {text : String} {change : Trie → Trie}
    {list : List (String × Trie)}
    (hsorted : (list.map Prod.fst).Pairwise (· < ·)) (other : String) :
    (updateSorted text change list).lookup other =
      if other = text then some (change ((list.lookup text).getD empty))
      else list.lookup other := by
  induction list with
  | nil =>
      by_cases hother : other = text
      · simp [updateSorted, hother]
      · simp [updateSorted, hother]
  | cons entry rest ih =>
      obtain ⟨first, child⟩ := entry
      rw [List.map_cons, List.pairwise_cons] at hsorted
      by_cases hother : other = text
      · subst other
        rw [if_pos rfl, updateSorted]
        split_ifs with hlt heq
        · rw [List.lookup_cons_self, lookup_eq_none_of_lt hlt hsorted.1]
          rfl
        · subst first
          rw [List.lookup_cons_self, List.lookup_cons_self]
          rfl
        · rw [KeyedList.lookup_cons_of_ne heq, KeyedList.lookup_cons_of_ne heq,
            ih hsorted.2, if_pos rfl]
      · rw [if_neg hother, updateSorted]
        split_ifs with hlt heq
        · rw [KeyedList.lookup_cons_of_ne hother]
        · subst first
          rw [KeyedList.lookup_cons_of_ne hother,
            KeyedList.lookup_cons_of_ne hother]
        · by_cases hfirst : other = first
          · subst first
            rw [List.lookup_cons_self, List.lookup_cons_self]
          · rw [KeyedList.lookup_cons_of_ne hfirst,
              KeyedList.lookup_cons_of_ne hfirst, ih hsorted.2, if_neg hother]

theorem sorted_literals_ofClaims (claims : List Claim) :
    ((ofClaims claims).literals.map Prod.fst).Pairwise (· < ·) := by
  induction claims using List.reverseRecOn with
  | nil => exact List.Pairwise.nil
  | append_singleton claims claim ih =>
      rw [ofClaims_concat]
      obtain ⟨segments, id⟩ := claim
      cases segments with
      | nil => exact ih
      | cons first rest =>
          cases first with
          | literal text => exact sorted_updateSorted ih
          | param name => exact ih
          | wildcard name => exact ih
          | endAnchor => exact ih

theorem lookup_literals_ofClaims (text : String) (claims : List Claim) :
    (ofClaims claims).literals.lookup text = child? (.literal text) claims := by
  induction claims using List.reverseRecOn with
  | nil => rfl
  | append_singleton claims claim ih =>
      rw [ofClaims_concat]
      obtain ⟨segments, id⟩ := claim
      cases segments with
      | nil => rw [child?_concat_nil, ← ih]; rfl
      | cons first rest =>
          rw [child?_concat_cons, ← ih]
          cases first with
          | literal other =>
              simp only [insert]
              rw [lookup_updateSorted (sorted_literals_ofClaims claims)]
              by_cases hother : text = other
              · subst other
                simp
              · simp [hother]
          | param name => simp [insert]
          | wildcard name => simp [insert]
          | endAnchor => simp [insert]

theorem nodup_params_ofClaims (claims : List Claim) :
    ((ofClaims claims).params.map Prod.fst).Nodup := by
  induction claims using List.reverseRecOn with
  | nil => exact List.nodup_nil
  | append_singleton claims claim ih =>
      rw [ofClaims_concat]
      obtain ⟨segments, id⟩ := claim
      cases segments with
      | nil => exact ih
      | cons first rest =>
          cases first with
          | param name => exact KeyedList.nodup_keys_update ih
          | literal text => exact ih
          | wildcard name => exact ih
          | endAnchor => exact ih

theorem lookup_params_ofClaims (name : String) (claims : List Claim) :
    (ofClaims claims).params.lookup name = child? (.param name) claims := by
  induction claims using List.reverseRecOn with
  | nil => rfl
  | append_singleton claims claim ih =>
      rw [ofClaims_concat]
      obtain ⟨segments, id⟩ := claim
      cases segments with
      | nil => rw [child?_concat_nil, ← ih]; rfl
      | cons first rest =>
          rw [child?_concat_cons, ← ih]
          cases first with
          | param other =>
              simp only [insert, KeyedList.lookup_update]
              by_cases hother : name = other
              · subst other
                simp
              · simp [hother]
          | literal text => simp [insert]
          | wildcard other => simp [insert]
          | endAnchor => simp [insert]

theorem eq_ofClaims_of_mem_params {claims : List Claim} {name : String}
    {child : Trie} (hmem : (name, child) ∈ (ofClaims claims).params) :
    child = ofClaims (under (.param name) claims) := by
  have hlookup :=
    KeyedList.lookup_of_mem (nodup_params_ofClaims claims) hmem
  rw [lookup_params_ofClaims] at hlookup
  exact eq_ofClaims_of_child? hlookup

/-! ## Stored routes -/

/-- A route is stored in some slot of a trie, at whatever depth. -/
inductive Stores (id : RouteId) : Trie → Prop where
  | route {trie : Trie} (hslot : trie.route = some id) : Stores id trie
  | anchored {trie : Trie} (hslot : trie.anchored = some id) : Stores id trie
  | literal {trie child : Trie} {text : String}
      (hmem : (text, child) ∈ trie.literals) (hchild : Stores id child) :
      Stores id trie
  | param {trie child : Trie} {name : String}
      (hmem : (name, child) ∈ trie.params) (hchild : Stores id child) :
      Stores id trie
  | wildcard {trie : Trie} {name : String}
      (hmem : (name, id) ∈ trie.wildcards) : Stores id trie

theorem stores_iff {id : RouteId} {trie : Trie} :
    Stores id trie ↔
      trie.route = some id ∨ trie.anchored = some id ∨
        (∃ text child, (text, child) ∈ trie.literals ∧ Stores id child) ∨
        (∃ name child, (name, child) ∈ trie.params ∧ Stores id child) ∨
        ∃ name, (name, id) ∈ trie.wildcards := by
  constructor
  · intro hstores
    cases hstores with
    | route hslot => exact Or.inl hslot
    | anchored hslot => exact Or.inr (Or.inl hslot)
    | literal hmem hchild =>
        exact Or.inr (Or.inr (Or.inl ⟨_, _, hmem, hchild⟩))
    | param hmem hchild =>
        exact Or.inr (Or.inr (Or.inr (Or.inl ⟨_, _, hmem, hchild⟩)))
    | wildcard hmem => exact Or.inr (Or.inr (Or.inr (Or.inr ⟨_, hmem⟩)))
  · rintro (hslot | hslot | ⟨text, child, hmem, hchild⟩ |
      ⟨name, child, hmem, hchild⟩ | ⟨name, hmem⟩)
    · exact .route hslot
    · exact .anchored hslot
    · exact .literal hmem hchild
    · exact .param hmem hchild
    · exact .wildcard hmem

theorem not_stores_empty (id : RouteId) : ¬Stores id empty := by
  rw [stores_iff]
  simp [empty]

theorem eq_or_eq_some_of_or {id new : RouteId} {slot : Option RouteId}
    (hslot : slot.or (some new) = some id) : id = new ∨ slot = some id := by
  cases slot with
  | none => exact Or.inl (Option.some.inj hslot).symm
  | some first => exact Or.inr hslot

theorem mem_of_mem_updateSorted {text name : String} {change : Trie → Trie}
    {list : List (String × Trie)} {child : Trie}
    (hmem : (name, child) ∈ updateSorted text change list) :
    (name, child) ∈ list ∨ child = change empty ∨
      ∃ old, (name, old) ∈ list ∧ child = change old := by
  induction list with
  | nil =>
      have heq : name = text ∧ child = change empty := by
        simpa [updateSorted] using hmem
      exact Or.inr (Or.inl heq.2)
  | cons entry rest ih =>
      obtain ⟨first, old⟩ := entry
      rw [updateSorted] at hmem
      split_ifs at hmem with hlt heq
      · rcases List.mem_cons.mp hmem with hnew | hold
        · exact Or.inr (Or.inl (Prod.mk.inj hnew).2)
        · exact Or.inl hold
      · rcases List.mem_cons.mp hmem with hnew | hrest
        · obtain ⟨rfl, rfl⟩ := Prod.mk.inj hnew
          exact Or.inr (Or.inr ⟨old, List.mem_cons_self, rfl⟩)
        · exact Or.inl (List.mem_cons_of_mem _ hrest)
      · rcases List.mem_cons.mp hmem with hfirst | hrest
        · exact Or.inl (hfirst ▸ List.mem_cons_self)
        · rcases ih hrest with hold | hempty | ⟨before, hbefore, hchild⟩
          · exact Or.inl (List.mem_cons_of_mem _ hold)
          · exact Or.inr (Or.inl hempty)
          · exact Or.inr (Or.inr
              ⟨before, List.mem_cons_of_mem _ hbefore, hchild⟩)

/-- An insertion stores no route but its own. -/
theorem Stores.of_insert {id new : RouteId} {segments : List Segment}
    {trie : Trie} (hstores : Stores id (trie.insert new segments)) :
    id = new ∨ Stores id trie := by
  induction segments generalizing trie with
  | nil =>
      rcases stores_iff.mp hstores with hroute | hother
      · exact (eq_or_eq_some_of_or hroute).imp_right .route
      · exact Or.inr (stores_iff.mpr (Or.inr hother))
  | cons segment rest ih =>
      have hfresh : Stores id (insert new rest empty) → id = new := fun h =>
        (ih h).resolve_right (not_stores_empty id)
      -- only the part that the segment belongs to has changed
      rcases stores_iff.mp hstores with hroute | hanchored |
        ⟨text, child, hmem, hchild⟩ | ⟨name, child, hmem, hchild⟩ | ⟨name, hmem⟩
      · have hold : trie.route = some id := by
          cases segment <;> exact hroute
        exact Or.inr (.route hold)
      · cases segment with
        | endAnchor =>
            exact (eq_or_eq_some_of_or hanchored).imp_right .anchored
        | literal text => exact Or.inr (.anchored hanchored)
        | param name => exact Or.inr (.anchored hanchored)
        | wildcard name => exact Or.inr (.anchored hanchored)
      · cases segment with
        | literal other =>
            rcases mem_of_mem_updateSorted hmem with
              hold | rfl | ⟨old, hold, rfl⟩
            · exact Or.inr (.literal hold hchild)
            · exact Or.inl (hfresh hchild)
            · exact (ih hchild).imp_right (.literal hold)
        | param name => exact Or.inr (.literal hmem hchild)
        | wildcard name => exact Or.inr (.literal hmem hchild)
        | endAnchor => exact Or.inr (.literal hmem hchild)
      · cases segment with
        | param other =>
            rcases KeyedList.mem_of_mem_update hmem with
              hold | rfl | ⟨old, hold, rfl⟩
            · exact Or.inr (.param hold hchild)
            · exact Or.inl (hfresh hchild)
            · exact (ih hchild).imp_right (.param hold)
        | literal text => exact Or.inr (.param hmem hchild)
        | wildcard other => exact Or.inr (.param hmem hchild)
        | endAnchor => exact Or.inr (.param hmem hchild)
      · cases segment with
        | wildcard other =>
            rcases KeyedList.mem_of_mem_claim hmem with hold | heq
            · exact Or.inr (.wildcard hold)
            · exact Or.inl (Prod.mk.inj heq).2
        | literal text => exact Or.inr (.wildcard hmem)
        | param other => exact Or.inr (.wildcard hmem)
        | endAnchor => exact Or.inr (.wildcard hmem)

theorem Stores.exists_claim {id : RouteId} {claims : List Claim}
    (hstores : Stores id (ofClaims claims)) :
    ∃ claim ∈ claims, claim.id = id := by
  induction claims using List.reverseRecOn with
  | nil => exact (not_stores_empty id hstores).elim
  | append_singleton claims claim ih =>
      rw [ofClaims_concat] at hstores
      rcases hstores.of_insert with rfl | hold
      · exact ⟨claim, by simp, rfl⟩
      · obtain ⟨other, hmem, hid⟩ := ih hold
        exact ⟨other, List.mem_append_left _ hmem, hid⟩

end Trie
end Dispatch
