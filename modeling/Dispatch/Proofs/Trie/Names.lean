import Dispatch.Proofs.Specificity
import Dispatch.Proofs.Trie.Precedence
import Mathlib.Tactic

/-!
# Slots that part at parameter names

Parameters with different names are different children of a node, and the child
whose name came first is searched first.  At such a difference the order of the
slots says nothing about how specific they are.  Every other difference that
puts a slot before another one makes it no more general.

Two slots are compared at the first segment in which they differ, so the
argument follows the order of slots from the root.
-/

namespace Dispatch
namespace Trie

/-- Claims in the order of registration. -/
def Numbered (claims : List Claim) : Prop :=
  claims.Pairwise fun before after => before.id < after.id

/-- Some claim that begins with the first segments came before every claim that
begins with the second. -/
def Sooner (first second : List Segment) (claims : List Claim) : Prop :=
  ∃ early ∈ claims, first <+: early.segments ∧
    ∀ late ∈ claims, second <+: late.segments → early.id < late.id

section

variable {claims : List Claim} {first second : List Segment}
  {left right : List Segment}

theorem Numbered.under (hnumbered : Numbered claims) (segment : Segment) :
    Numbered (under segment claims) := by
  induction claims using List.reverseRecOn with
  | nil => exact List.Pairwise.nil
  | append_singleton claims claim ih =>
      obtain ⟨hclaims, _, hcross⟩ := List.pairwise_append.mp hnumbered
      have hlast : Numbered (Trie.under segment [claim]) := by
        obtain ⟨segments, id⟩ := claim
        cases segments with
        | nil => exact List.Pairwise.nil
        | cons head rest =>
            rw [under_singleton_cons]
            split_ifs
            · exact List.pairwise_singleton _ _
            · exact List.Pairwise.nil
      rw [under_append]
      refine List.pairwise_append.mpr ⟨ih hclaims, hlast, ?_⟩
      intro before hbefore after hafter
      have hlt := hcross _ (mem_under.mp hbefore) _ (mem_under.mp hafter)
      exact hlt

theorem sooner_under_iff {segment : Segment} :
    Sooner first second (under segment claims) ↔
      Sooner (segment :: first) (segment :: second) claims := by
  constructor
  · rintro ⟨early, hearly, hfirst, hall⟩
    refine ⟨_, mem_under.mp hearly, by simpa using hfirst, ?_⟩
    rintro ⟨segments, id⟩ hlate ⟨rest, rfl⟩
    exact hall ⟨second ++ rest, id⟩ (mem_under.mpr hlate)
      (List.prefix_append second rest)
  · rintro ⟨⟨segments, id⟩, hearly, ⟨rest, rfl⟩, hall⟩
    refine ⟨⟨first ++ rest, id⟩, mem_under.mpr hearly,
      List.prefix_append first rest, ?_⟩
    intro late hlate hsecond
    have hlt := hall ⟨segment :: late.segments, late.id⟩ (mem_under.mp hlate)
      (by simpa using hsecond)
    exact hlt

theorem Sooner.asymm (hsooner : Sooner first second claims) :
    ¬Sooner second first claims := by
  rintro ⟨later, hlater, hsecond, hbefore⟩
  obtain ⟨early, hearly, hfirst, hafter⟩ := hsooner
  exact Nat.lt_asymm (hafter later hlater hsecond)
    (hbefore early hearly hfirst)

theorem FirstUnder.sooner {before after : Segment} (hnumbered : Numbered claims)
    (horder : FirstUnder before after claims) :
    before ≠ after ∧ Sooner [before] [after] claims := by
  obtain ⟨earlier, later, rfl, hbefore, hafter⟩ := horder
  obtain ⟨early, hearly⟩ := List.exists_mem_of_ne_nil _ hbefore
  have hmem := mem_under.mp hearly
  refine ⟨?_, ⟨before :: early.segments, early.id⟩,
    List.mem_append_left _ hmem, by simp, ?_⟩
  · rintro rfl
    exact hbefore hafter
  · rintro ⟨segments, id⟩ hlate ⟨rest, rfl⟩
    -- the late claim is not among the earlier ones
    have hlater : ⟨[after] ++ rest, id⟩ ∈ later := by
      rcases List.mem_append.mp hlate with hearlier | hlater
      · have hunder : (⟨rest, id⟩ : Claim) ∈ under after earlier :=
          mem_under.mpr hearlier
        rw [hafter] at hunder
        contradiction
      · exact hlater
    exact (List.pairwise_append.mp hnumbered).2.2 _ hmem _ hlater

theorem precedes_cons_iff {segment : Segment} :
    Precedes claims (segment :: left) (segment :: right) ↔
      Precedes (under segment claims) left right := by
  have hirrefl : ¬FirstUnder segment segment claims := by
    rintro ⟨_, _, _, hsome, hnone⟩
    exact hsome hnone
  constructor
  · intro hprecedes
    cases hprecedes with
    | params horder => exact (hirrefl horder).elim
    | wildcards horder => exact (hirrefl horder).elim
    | descend hrest => exact hrest
  · exact .descend

/-- Two slots part at two parameters, and the name on the left came first. -/
def PartAtNames (claims : List Claim) (left right : List Segment) : Prop :=
  ∃ common first second leftRest rightRest, first ≠ second ∧
    left = common ++ .param first :: leftRest ∧
    right = common ++ .param second :: rightRest ∧
    Sooner (common ++ [.param first]) (common ++ [.param second]) claims

theorem PartAtNames.descend {segment : Segment}
    (hparted : PartAtNames (under segment claims) left right) :
    PartAtNames claims (segment :: left) (segment :: right) := by
  obtain ⟨common, first, second, leftRest, rightRest, hne, rfl, rfl, hsooner⟩ :=
    hparted
  exact ⟨segment :: common, first, second, leftRest, rightRest, hne, rfl, rfl,
    sooner_under_iff.mp hsooner⟩

/-- The slot with the later name does not precede the other one. -/
theorem PartAtNames.not_precedes (hparted : PartAtNames claims left right)
    (hnumbered : Numbered claims) : ¬Precedes claims right left := by
  obtain ⟨common, first, second, leftRest, rightRest, hne, rfl, rfl, hsooner⟩ :=
    hparted
  intro hprecedes
  induction common generalizing claims with
  | nil =>
      cases hprecedes with
      | params horder =>
          exact hsooner.asymm (horder.sooner hnumbered).2
      | descend hrest => exact hne rfl
  | cons segment common ih =>
      exact ih (hnumbered.under segment) (sooner_under_iff.mpr hsooner)
        (precedes_cons_iff.mp hprecedes)

theorem moreGeneral_combine_ne (verdict : Specificity) :
    Specificity.moreGeneral.combine verdict ≠ .moreSpecific := by
  cases verdict <;> decide

/-- A slot that is more specific than one before it parts from that at a
name. -/
theorem Precedes.partAtNames (hprecedes : Precedes claims left right)
    (hleft : WellPlaced left) (hright : WellPlaced right)
    (hnumbered : Numbered claims)
    (hspecific : Specificity.ofPaths right left = .moreSpecific) :
    PartAtNames claims left right := by
  induction hprecedes with
  | literalParam =>
      rw [Specificity.ofPaths_cons (Segment.not_isWildcard_param _)
        (Segment.not_isWildcard_literal _)] at hspecific
      exact (moreGeneral_combine_ne _ hspecific).elim
  | literalWildcard =>
      obtain rfl := hright.2.1 trivial
      rw [Specificity.ofPaths_wildcard_left
        (Segment.not_isWildcard_literal _)] at hspecific
      contradiction
  | paramWildcard =>
      obtain rfl := hright.2.1 trivial
      rw [Specificity.ofPaths_wildcard_left
        (Segment.not_isWildcard_param _)] at hspecific
      contradiction
  | params horder =>
      obtain ⟨hne, hsooner⟩ := horder.sooner hnumbered
      exact ⟨[], _, _, _, _, fun heq => hne (congrArg _ heq), rfl, rfl, hsooner⟩
  | wildcards horder =>
      obtain rfl := hleft.2.1 trivial
      obtain rfl := hright.2.1 trivial
      contradiction
  | endAnchor => contradiction
  | @descend claims segment left right hrest ih =>
      by_cases hwildcard : segment.IsWildcard
      · obtain ⟨name, rfl⟩ := hwildcard
        obtain rfl := hleft.2.1 trivial
        obtain rfl := hright.2.1 trivial
        contradiction
      · rw [Specificity.ofPaths_cons hwildcard hwildcard,
          Specificity.ofSegments_self,
          Specificity.equivalent_combine] at hspecific
        exact (ih hleft.tail hright.tail (hnumbered.under segment)
          hspecific).descend

end

end Trie

end Dispatch
