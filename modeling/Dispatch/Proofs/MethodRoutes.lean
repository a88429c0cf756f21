import Dispatch.Proofs.LiteralMap
import Mathlib.Tactic

/-!
# What the routes of one method answer

`MethodRoutes.select` is the search without its captures, over the map and the
trie together.  What it selects was the first to claim its slot and takes the
path, and it fails only if no claim takes the path.

A path found in the map needs no search: its slot consists of literals, and
such a slot precedes all others that take the path.
-/

namespace Dispatch

/-! ## Slots of literals -/

theorem takes_literalSlot (texts : List String) (trailing : Bool) :
    Takes trailing (literalSlot texts trailing) texts := by
  induction texts with
  | nil =>
      cases trailing with
      | true => exact .endAnchor rfl
      | false => exact .done
  | cons text rest ih => exact .literal ih

theorem Path.takes_slot (path : Path) :
    Takes path.Trailing path.slot path.texts := by
  unfold slot
  split_ifs with hroot
  · obtain ⟨text⟩ := path
    obtain rfl : text = "/" := hroot
    have htexts : (Path.mk "/").texts = [] := by decide
    rw [htexts]
    exact .done
  · simpa using takes_literalSlot path.texts path.Trailing

namespace Trie

/-- A slot of literals that is claimed is selected for its own texts. -/
theorem select_literalSlot {claims : List Claim} {id : RouteId}
    {trailing : Bool} {texts : List String}
    (hplaced : ∀ claim ∈ claims, WellPlaced claim.segments)
    (hfirst : firstClaim? (literalSlot texts trailing) claims = some id) :
    select trailing texts (ofClaims claims) =
      some ⟨literalSlot texts trailing, id⟩ := by
  induction texts generalizing claims with
  | nil =>
      rw [select_nil_ofClaims hplaced]
      cases trailing with
      | false =>
          have hroute : firstClaim? [] claims = some id := hfirst
          simp [hroute, literalSlot]
      | true =>
          have hanchored : firstClaim? [.endAnchor] claims = some id := hfirst
          simp [hanchored, literalSlot]
  | cons text rest ih =>
      have hbelow : firstClaim? (literalSlot rest trailing)
          (under (.literal text) claims) = some id := by
        rw [firstClaim?_under]
        exact hfirst
      rw [select_cons_ofClaims, ih (under_wellPlaced hplaced) hbelow]
      rfl

/-- No slot that takes the path comes before the slot of its literals. -/
theorem precedes_of_takes {claims : List Claim} {segments : List Segment}
    {texts : List String} {trailing : Bool}
    (htakes : Takes trailing segments texts) :
    literalSlot texts trailing = segments ∨
      Precedes claims (literalSlot texts trailing) segments := by
  induction texts generalizing claims segments with
  | nil =>
      rcases takes_nil_pieces_iff.mp htakes with rfl | ⟨rfl, htrailing⟩
      · cases trailing with
        | true => exact Or.inr .endAnchor
        | false => exact Or.inl rfl
      · rw [htrailing]
        exact Or.inl rfl
  | cons text rest ih =>
      cases htakes with
      | literal htail =>
          rcases ih htail with hsame | hbefore
          · exact Or.inl (congrArg (List.cons _) hsame)
          · exact Or.inr (.descend hbefore)
      | param htail => exact Or.inr .literalParam
      | wildcard hne => exact Or.inr .literalWildcard

end Trie

/-! ## Selection -/

namespace MethodRoutes

def select (routes : MethodRoutes) (path : Path) : Option Trie.Claim :=
  match routes.literals.lookup path.text with
  | some id => some ⟨path.slot, id⟩
  | none => routes.root.select path.Trailing path.texts

theorem find_answers (routes : MethodRoutes) (path : Path) (decode : Bool) :
    (routes.find path decode).Answers
      ((routes.select path).map Trie.Claim.id) := by
  unfold find select
  cases routes.literals.lookup path.text with
  | some id => exact Search.answers_ofOption (some id)
  | none => exact Trie.find_answers path.Trailing decode path.pieces routes.root

theorem select_empty (path : Path) : empty.select path = none :=
  Trie.select_empty path.Trailing path.texts

section

variable {insertions : List (Pattern × RouteId)} {path : Path}
  {claim winner : Trie.Claim}

theorem select_sound (hcompiled : ∀ entry ∈ insertions, entry.1.Compiled)
    (hselect : (ofInsertions insertions).select path = some winner) :
    Trie.firstClaim? winner.segments (claims insertions) = some winner.id ∧
      Takes path.Trailing winner.segments path.texts := by
  unfold select at hselect
  split at hselect
  · next id hlookup =>
      obtain rfl := Option.some.inj hselect
      exact ⟨firstClaim?_of_lookup_literals hcompiled hlookup,
        path.takes_slot⟩
  · rw [root_ofInsertions] at hselect
    simpa using Trie.select_sound (claims_wellPlaced hcompiled) hselect

/-- Below the root the map selects what the trie would select. -/
theorem select_eq_root_select
    (hcompiled : ∀ entry ∈ insertions, entry.1.Compiled)
    (hne : path.texts ≠ []) :
    (ofInsertions insertions).select path =
      (ofInsertions insertions).root.select path.Trailing path.texts := by
  unfold select
  cases hlookup : (ofInsertions insertions).literals.lookup path.text with
  | none => rfl
  | some id =>
      have hroot : path.text ≠ "/" := by
        intro hroot
        obtain ⟨text⟩ := path
        obtain rfl : text = "/" := hroot
        exact hne (by decide)
      have hfirst := firstClaim?_of_lookup_literals hcompiled hlookup
      rw [Path.slot, if_neg hroot] at hfirst
      rw [Path.slot, if_neg hroot, root_ofInsertions,
        Trie.select_literalSlot (claims_wellPlaced hcompiled) hfirst]

/-- If a claim takes the path, its own slot is selected or one before it.
Only at the root can the plain slot be selected before the anchored one. -/
theorem select_least (hcompiled : ∀ entry ∈ insertions, entry.1.Compiled)
    (hmem : claim ∈ claims insertions)
    (htakes : Takes path.Trailing claim.segments path.texts) :
    ∃ winner, (ofInsertions insertions).select path = some winner ∧
      (winner.segments = claim.segments ∨
        Trie.Precedes (claims insertions) winner.segments claim.segments ∨
        winner.segments = [] ∧ claim.segments = [.endAnchor]) := by
  have htakes' : Takes (decide path.Trailing) claim.segments path.texts := by
    simpa using htakes
  unfold select
  cases hlookup : (ofInsertions insertions).literals.lookup path.text with
  | some id =>
      refine ⟨⟨path.slot, id⟩, rfl, ?_⟩
      unfold Path.slot
      split_ifs with hroot
      · obtain ⟨text⟩ := path
        obtain rfl : text = "/" := hroot
        have htexts : (Path.mk "/").texts = [] := by decide
        rw [htexts] at htakes
        rcases takes_nil_pieces_iff.mp htakes with hplain | ⟨hanchored, _⟩
        · exact Or.inl hplain.symm
        · exact Or.inr (Or.inr ⟨rfl, hanchored⟩)
      · exact (Trie.precedes_of_takes htakes').imp_right Or.inl
  | none =>
      obtain ⟨winner, hwinner, hleast⟩ :=
        Trie.select_least (claims_wellPlaced hcompiled) hmem htakes'
      rw [root_ofInsertions]
      exact ⟨winner, hwinner, hleast.imp_right Or.inl⟩

/-! ## Stored routes -/

def Stores (id : RouteId) (routes : MethodRoutes) : Prop :=
  Trie.Stores id routes.root ∨ ∃ text, (text, id) ∈ routes.literals

theorem Stores.exists_insertion {id : RouteId}
    (hstores : Stores id (ofInsertions insertions)) :
    ∃ entry ∈ insertions, entry.2 = id := by
  rcases hstores with htrie | ⟨text, hmem⟩
  · rw [root_ofInsertions] at htrie
    obtain ⟨claim, hclaim, rfl⟩ := htrie.exists_claim
    obtain ⟨entry, hentry, rfl⟩ := List.mem_map.mp hclaim
    exact ⟨entry, hentry, rfl⟩
  · induction insertions using List.reverseRecOn with
    | nil => simp [ofInsertions, empty] at hmem
    | append_singleton insertions entry ih =>
        obtain ⟨pattern, new⟩ := entry
        have hlast : (pattern, new) ∈ insertions ++ [(pattern, new)] := by
          simp
        rw [ofInsertions_concat] at hmem
        unfold insert at hmem
        have hcases : (text, id) ∈ (ofInsertions insertions).literals ∨
            id = new := by
          cases hstatic : pattern.staticPath? with
          | none =>
              rw [hstatic] at hmem
              exact Or.inl hmem
          | some normal =>
              rw [hstatic] at hmem
              exact (KeyedList.mem_of_mem_claim hmem).imp_right
                fun heq => (Prod.mk.inj heq).2
        rcases hcases with hold | rfl
        · obtain ⟨entry, hentry, hid⟩ := ih hold
          exact ⟨entry, List.mem_append_left _ hentry, hid⟩
        · exact ⟨_, hlast, rfl⟩

end

end MethodRoutes
end Dispatch
