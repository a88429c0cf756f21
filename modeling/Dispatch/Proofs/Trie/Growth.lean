import Dispatch.Proofs.MethodRoutes
import Mathlib.Tactic

/-!
# What one more claim can change

A claim that is added last can take a free slot, and nothing else.  It may open
branches that are searched before others, but a search that fails in a branch
goes on as if the branch were not there.  So what is selected for a path is what
was selected before, or it is the new claim.

The induction is on the pieces.  Of the children of a node the new claim changes
one at most, and it does not change the order in which they are tried.
-/

namespace Dispatch

/-- An answer is the one from before, or it is the new one. -/
def OnlyNew {α : Type} (new : α) (before after : Option α) : Prop :=
  after = before ∨ after = some new

namespace OnlyNew

variable {α β : Type} {new : α} {before after : Option α}

theorem refl (new : α) (answer : Option α) : OnlyNew new answer answer :=
  Or.inl rfl

theorem map (honly : OnlyNew new before after) (f : α → β) :
    OnlyNew (f new) (before.map f) (after.map f) := by
  rcases honly with rfl | rfl
  · exact refl _ _
  · exact Or.inr rfl

theorem or {second latest : Option α} (hfirst : OnlyNew new before after)
    (hsecond : OnlyNew new second latest) :
    OnlyNew new (before.or second) (after.or latest) := by
  rcases hfirst with rfl | rfl
  · cases after with
    | none => exact hsecond
    | some answer => exact refl _ _
  · exact Or.inr rfl

/-- If each of some answers is as before or new, so is the first of them. -/
theorem findSome? {list : List β} {f g : β → Option α}
    (honly : ∀ b ∈ list, OnlyNew new (f b) (g b)) :
    OnlyNew new (list.findSome? f) (list.findSome? g) := by
  have hcons : ∀ (h : β → Option α) (b : β) (rest : List β),
      (b :: rest).findSome? h = (h b).or (rest.findSome? h) := by
    intro h b rest
    rw [List.findSome?_cons]
    cases h b <;> rfl
  induction list with
  | nil => exact refl _ _
  | cons b rest ih =>
      have hrest := ih fun other hmem => honly other (List.mem_cons_of_mem b hmem)
      rw [hcons f, hcons g]
      exact (honly b List.mem_cons_self).or hrest

end OnlyNew

namespace Trie

section

variable {trailing : Bool} {piece : String} {pieces : List String}
  {claims : List Claim} {claim : Claim}

/-! ## The slots of a node -/

/-- The answers of a node for a path that ends there: the anchored slot, if the
path ends in a slash, and else the plain one. -/
theorem select_nil_eq_or
    (hplaced : ∀ claim ∈ claims, WellPlaced claim.segments) :
    select trailing [] (ofClaims claims) =
      (if trailing then (firstClaim? [.endAnchor] claims).map fun id =>
          ⟨[.endAnchor], id⟩
        else none).or
      ((firstClaim? [] claims).map fun id => ⟨[], id⟩) := by
  rw [select_nil_ofClaims hplaced]
  cases trailing with
  | false => rfl
  | true => cases firstClaim? [.endAnchor] claims <;> rfl

theorem onlyNew_firstClaim? (segments : List Segment) :
    OnlyNew claim
      ((firstClaim? segments claims).map fun id => ⟨segments, id⟩)
      ((firstClaim? segments (claims ++ [claim])).map fun id =>
        ⟨segments, id⟩) := by
  rw [firstClaim?_concat]
  cases firstClaim? segments claims with
  | some id => exact .refl _ _
  | none =>
      split_ifs with hsame
      · subst segments
        exact Or.inr rfl
      · exact .refl _ _

theorem onlyNew_select_nil
    (hplaced : ∀ other ∈ claims ++ [claim], WellPlaced other.segments) :
    OnlyNew claim (select trailing [] (ofClaims claims))
      (select trailing [] (ofClaims (claims ++ [claim]))) := by
  have hbefore : ∀ other ∈ claims, WellPlaced other.segments :=
    fun other hmem => hplaced other (List.mem_append_left _ hmem)
  rw [select_nil_eq_or hbefore, select_nil_eq_or hplaced]
  apply OnlyNew.or
  · split_ifs
    · exact onlyNew_firstClaim? [.endAnchor]
    · exact .refl _ _
  · exact onlyNew_firstClaim? []

/-! ## The children of a node -/

/-- Below a segment there is one more claim, or none. -/
theorem onlyNew_below (segment : Segment)
    (hbelow : ∀ rest : Claim, claim = rest.below segment →
      OnlyNew rest (select trailing pieces (ofClaims (under segment claims)))
        (select trailing pieces (ofClaims (under segment claims ++ [rest])))) :
    OnlyNew claim
      ((select trailing pieces (ofClaims (under segment claims))).map
        (Claim.below segment))
      ((select trailing pieces
        (ofClaims (under segment (claims ++ [claim])))).map
          (Claim.below segment)) := by
  obtain ⟨segments, id⟩ := claim
  rw [under_append]
  cases segments with
  | nil =>
      rw [under_singleton_nil, List.append_nil]
      exact .refl _ _
  | cons head rest =>
      rw [under_singleton_cons]
      split_ifs with hhead
      · subst head
        exact (hbelow ⟨rest, id⟩ rfl).map (Claim.below segment)
      · rw [List.append_nil]
        exact .refl _ _

/-- The parameter children are tried in the order from before.  A new one comes
last, and had no claims. -/
theorem selectParam_eq_findSome? (claim : Claim) :
    selectParam trailing pieces claims =
      ((ofClaims (claims ++ [claim])).params.map Prod.fst).findSome? fun name =>
        (select trailing pieces (ofClaims (under (.param name) claims))).map
          (Claim.below (.param name)) := by
  have hkeys : ∃ names, (ofClaims (claims ++ [claim])).params.map Prod.fst =
        (ofClaims claims).params.map Prod.fst ++ names ∧
      ∀ name ∈ names, under (.param name) claims = [] := by
    have hsame : ∃ names, (ofClaims claims).params.map Prod.fst =
          (ofClaims claims).params.map Prod.fst ++ names ∧
        ∀ name ∈ names, under (.param name) claims = [] :=
      ⟨[], (List.append_nil _).symm, List.forall_mem_nil _⟩
    obtain ⟨segments, id⟩ := claim
    rw [ofClaims_concat]
    cases segments with
    | nil => exact hsame
    | cons head rest =>
        cases head with
        | param name =>
            simp only [insert, KeyedList.keys_update]
            split_ifs with hname
            · exact hsame
            · exact ⟨[name], rfl, List.forall_mem_singleton.mpr
                (under_eq_nil_of_not_mem_params hname)⟩
        | literal text => exact hsame
        | wildcard name => exact hsame
        | endAnchor => exact hsame
  obtain ⟨names, hnames, hunused⟩ := hkeys
  have hnone : names.findSome? (fun name =>
      (select trailing pieces (ofClaims (under (.param name) claims))).map
        (Claim.below (.param name))) = none := by
    rw [List.findSome?_eq_none_iff]
    intro name hmem
    rw [hunused name hmem, ofClaims_nil, select_empty]
    rfl
  rw [hnames, List.findSome?_append, hnone, Option.or_none]
  rfl

theorem onlyNew_selectWildcard (hplaced : WellPlaced claim.segments) :
    OnlyNew claim (selectWildcard claims)
      (selectWildcard (claims ++ [claim])) := by
  obtain ⟨segments, id⟩ := claim
  unfold selectWildcard
  rw [ofClaims_concat]
  cases segments with
  | nil => exact .refl _ _
  | cons head rest =>
      cases head with
      | wildcard name =>
          obtain rfl := hplaced.2.1 trivial
          simp only [insert, KeyedList.claim]
          split_ifs
          · exact .refl _ _
          · cases (ofClaims claims).wildcards with
            | nil => exact Or.inr rfl
            | cons first others => exact .refl _ _
      | literal text => exact .refl _ _
      | param name => exact .refl _ _
      | endAnchor => exact .refl _ _

/-! ## The whole trie -/

/-- What is selected after one more claim was selected before, or is that
claim. -/
theorem onlyNew_select
    (hplaced : ∀ other ∈ claims ++ [claim], WellPlaced other.segments) :
    OnlyNew claim (select trailing pieces (ofClaims claims))
      (select trailing pieces (ofClaims (claims ++ [claim]))) := by
  induction pieces generalizing claims claim with
  | nil => exact onlyNew_select_nil hplaced
  | cons piece rest ih =>
      have hclaim : WellPlaced claim.segments := hplaced claim (by simp)
      have hbelow : ∀ (segment : Segment) (tail : Claim),
          claim = tail.below segment →
          OnlyNew tail (select trailing rest (ofClaims (under segment claims)))
            (select trailing rest
              (ofClaims (under segment claims ++ [tail]))) := by
        rintro segment tail rfl
        apply ih
        intro other hmem
        rcases List.mem_append.mp hmem with hold | hnew
        · exact (hplaced _ (List.mem_append_left _ (mem_under.mp hold))).tail
        · obtain rfl := List.mem_singleton.mp hnew
          exact hclaim.tail
      rw [select_cons_ofClaims, select_cons_ofClaims]
      apply OnlyNew.or
      · exact onlyNew_below (.literal piece) (hbelow (.literal piece))
      · apply OnlyNew.or
        · rw [selectParam_eq_findSome? claim, selectParam]
          apply OnlyNew.findSome?
          intro name _
          exact onlyNew_below (.param name) (hbelow (.param name))
        · exact onlyNew_selectWildcard hclaim

end

end Trie

/-! ## The routes of one method -/

namespace MethodRoutes

variable {insertions : List (Pattern × RouteId)} {pattern : Pattern}
  {id : RouteId}

theorem onlyNew_select_insert
    (hcompiled : ∀ entry ∈ insertions, entry.1.Compiled)
    (hpattern : pattern.Compiled) (path : Path) :
    OnlyNew ⟨pattern.segments, id⟩ ((ofInsertions insertions).select path)
      (((ofInsertions insertions).insert pattern id).select path) := by
  have hroot : OnlyNew ⟨pattern.segments, id⟩
      ((ofInsertions insertions).root.select path.Trailing path.texts)
      (((ofInsertions insertions).root.insert id pattern.segments).select
        path.Trailing path.texts) := by
    rw [root_ofInsertions]
    have hconcat := Trie.ofClaims_concat (claims insertions)
      ⟨pattern.segments, id⟩
    rw [← hconcat]
    apply Trie.onlyNew_select
    intro claim hmem
    rcases List.mem_append.mp hmem with hold | hnew
    · exact claims_wellPlaced hcompiled claim hold
    · obtain rfl := List.mem_singleton.mp hnew
      exact hpattern.wellPlaced
  unfold select insert
  dsimp only
  cases hlookup : (ofInsertions insertions).literals.lookup path.text with
  | some first =>
      cases pattern.staticPath? with
      | none =>
          rw [hlookup]
          exact .refl _ _
      | some normal =>
          rw [KeyedList.lookup_claim, hlookup]
          exact .refl _ _
  | none =>
      cases hstatic : pattern.staticPath? with
      | none =>
          dsimp only
          rw [hlookup]
          exact hroot
      | some normal =>
          dsimp only
          rw [KeyedList.lookup_claim, hlookup, Option.none_or]
          split_ifs with hnormal
          · -- the new pattern is found in the map, on its own slot
            rw [← hnormal] at hstatic
            rw [Pattern.segments_eq_slot hpattern.wellPlaced hstatic]
            exact Or.inr rfl
          · exact hroot

end MethodRoutes
end Dispatch
