import Dispatch.Proofs.Specificity
import Mathlib

/-!
# What a verdict says of two sets

A verdict on two sets that are not empty is settled by three questions: whether
they share an element, and whether each has one that the other lacks.  For two
products these questions reduce to those on the factors, in just the way in
which verdicts are combined.
-/

namespace Dispatch
namespace Specificity

section

variable {ρ σ : Type} {A B : Set ρ} {C D : Set σ} {verdict other : Specificity}

def Holds (verdict : Specificity) (A B : Set ρ) : Prop :=
  match verdict with
  | .equivalent => A = B
  | .moreGeneral => B ⊂ A
  | .moreSpecific => A ⊂ B
  | .overlaps => (A ∩ B).Nonempty ∧ (A \ B).Nonempty ∧ (B \ A).Nonempty
  | .disjoint => A ∩ B = ∅

theorem Holds.inverse (hholds : verdict.Holds A B) :
    verdict.inverse.Holds B A := by
  cases verdict with
  | equivalent => exact Eq.symm hholds
  | moreGeneral => exact hholds
  | moreSpecific => exact hholds
  | overlaps =>
      obtain ⟨hshared, hleft, hright⟩ := hholds
      exact ⟨Set.inter_comm A B ▸ hshared, hright, hleft⟩
  | disjoint => exact (Set.inter_comm B A).trans hholds

/-! ## The three questions -/

def shares (verdict : Specificity) : Bool :=
  verdict ≠ .disjoint

/-- The left side has an element that the right side lacks. -/
def exceedsLeft (verdict : Specificity) : Bool :=
  verdict = .moreGeneral || verdict = .overlaps || verdict = .disjoint

def exceedsRight (verdict : Specificity) : Bool :=
  verdict = .moreSpecific || verdict = .overlaps || verdict = .disjoint

structure Answers (verdict : Specificity) (A B : Set ρ) : Prop where
  shared : (A ∩ B).Nonempty ↔ verdict.shares = true
  left : (A \ B).Nonempty ↔ verdict.exceedsLeft = true
  right : (B \ A).Nonempty ↔ verdict.exceedsRight = true

theorem eq_of_answers (hshares : verdict.shares = other.shares)
    (hleft : verdict.exceedsLeft = other.exceedsLeft)
    (hright : verdict.exceedsRight = other.exceedsRight) : verdict = other := by
  cases verdict <;> cases other <;> first | rfl | contradiction

theorem Answers.unique (hanswers : verdict.Answers A B)
    (hother : other.Answers A B) : verdict = other := by
  apply eq_of_answers
  · exact Bool.eq_iff_iff.mpr (hanswers.shared.symm.trans hother.shared)
  · exact Bool.eq_iff_iff.mpr (hanswers.left.symm.trans hother.left)
  · exact Bool.eq_iff_iff.mpr (hanswers.right.symm.trans hother.right)

theorem Holds.answers (hA : A.Nonempty) (hB : B.Nonempty)
    (hholds : verdict.Holds A B) : verdict.Answers A B := by
  cases verdict with
  | equivalent =>
      obtain rfl : A = B := hholds
      constructor
      · simpa [shares] using hA
      · simp [exceedsLeft]
      · simp [exceedsRight]
  | moreGeneral =>
      obtain ⟨hsub, hnot⟩ := hholds
      constructor
      · simpa [shares, Set.inter_eq_right.mpr hsub] using hB
      · simpa [exceedsLeft, Set.sdiff_nonempty] using hnot
      · simpa [exceedsRight, Set.sdiff_nonempty] using hsub
  | moreSpecific =>
      obtain ⟨hsub, hnot⟩ := hholds
      constructor
      · simpa [shares, Set.inter_eq_left.mpr hsub] using hA
      · simpa [exceedsLeft, Set.sdiff_nonempty] using hsub
      · simpa [exceedsRight, Set.sdiff_nonempty] using hnot
  | overlaps =>
      obtain ⟨hshared, hleft, hright⟩ := hholds
      constructor
      · simpa [shares] using hshared
      · simpa [exceedsLeft] using hleft
      · simpa [exceedsRight] using hright
  | disjoint =>
      have hdisjoint : Disjoint A B := Set.disjoint_iff_inter_eq_empty.mpr hholds
      constructor
      · have hempty : A ∩ B = ∅ := hholds
        simp [shares, hempty]
      · simpa [exceedsLeft, hdisjoint.sdiff_eq_left] using hA
      · simpa [exceedsRight, hdisjoint.sdiff_eq_right] using hB

/-- Some verdict holds of any two sets, so the one that the answers single out
does. -/
theorem exists_holds (A B : Set ρ) : ∃ verdict : Specificity, verdict.Holds A B := by
  by_cases hleft : A ⊆ B
  · by_cases hright : B ⊆ A
    · exact ⟨.equivalent, Set.Subset.antisymm hleft hright⟩
    · exact ⟨.moreSpecific, hleft, hright⟩
  · by_cases hright : B ⊆ A
    · exact ⟨.moreGeneral, hright, hleft⟩
    · by_cases hshared : (A ∩ B).Nonempty
      · exact ⟨.overlaps, hshared, Set.sdiff_nonempty.mpr hleft,
          Set.sdiff_nonempty.mpr hright⟩
      · exact ⟨.disjoint, Set.not_nonempty_iff_eq_empty.mp hshared⟩

theorem holds_iff_answers (hA : A.Nonempty) (hB : B.Nonempty) :
    verdict.Holds A B ↔ verdict.Answers A B := by
  constructor
  · intro hholds
    exact hholds.answers hA hB
  · intro hanswers
    obtain ⟨true, htrue⟩ := exists_holds A B
    rw [hanswers.unique (htrue.answers hA hB)]
    exact htrue

theorem eq_iff_holds (hA : A.Nonempty) (hB : B.Nonempty)
    (hholds : verdict.Holds A B) : verdict = other ↔ other.Holds A B := by
  constructor
  · rintro rfl
    exact hholds
  · intro hother
    exact (hholds.answers hA hB).unique (hother.answers hA hB)

/-! ## Products -/

theorem shares_combine (first second : Specificity) :
    (first.combine second).shares = (first.shares && second.shares) := by
  cases first <;> cases second <;> rfl

theorem exceedsLeft_combine (first second : Specificity) :
    (first.combine second).exceedsLeft =
      (first.exceedsLeft || second.exceedsLeft) := by
  cases first <;> cases second <;> rfl

theorem exceedsRight_combine (first second : Specificity) :
    (first.combine second).exceedsRight =
      (first.exceedsRight || second.exceedsRight) := by
  cases first <;> cases second <;> rfl

theorem prod_diff_prod_nonempty (hA : A.Nonempty) (hC : C.Nonempty) :
    ((A ×ˢ C) \ (B ×ˢ D)).Nonempty ↔ (A \ B).Nonempty ∨ (C \ D).Nonempty := by
  constructor
  · rintro ⟨⟨x, y⟩, ⟨hx, hy⟩, hnot⟩
    by_cases hxB : x ∈ B
    · exact Or.inr ⟨y, hy, fun hyD => hnot ⟨hxB, hyD⟩⟩
    · exact Or.inl ⟨x, hx, hxB⟩
  · rintro (⟨x, hx, hxB⟩ | ⟨y, hy, hyD⟩)
    · obtain ⟨y, hy⟩ := hC
      exact ⟨(x, y), ⟨hx, hy⟩, fun hmem => hxB hmem.1⟩
    · obtain ⟨x, hx⟩ := hA
      exact ⟨(x, y), ⟨hx, hy⟩, fun hmem => hyD hmem.2⟩

theorem Holds.prod (hA : A.Nonempty) (hB : B.Nonempty) (hC : C.Nonempty)
    (hD : D.Nonempty) (hfirst : verdict.Holds A B) (hsecond : other.Holds C D) :
    (verdict.combine other).Holds (A ×ˢ C) (B ×ˢ D) := by
  have hfirst := hfirst.answers hA hB
  have hsecond := hsecond.answers hC hD
  rw [holds_iff_answers (hA.prod hC) (hB.prod hD)]
  constructor
  · rw [Set.prod_inter_prod, Set.prod_nonempty_iff, hfirst.shared,
      hsecond.shared, shares_combine, Bool.and_eq_true]
  · rw [prod_diff_prod_nonempty hA hC, hfirst.left, hsecond.left,
      exceedsLeft_combine, Bool.or_eq_true]
  · rw [prod_diff_prod_nonempty hB hD, hfirst.right, hsecond.right,
      exceedsRight_combine, Bool.or_eq_true]

/-- A verdict does not depend on how the elements are named, if each of them has
a name. -/
theorem holds_preimage_iff {f : ρ → σ} (hC : C ⊆ Set.range f)
    (hD : D ⊆ Set.range f) :
    verdict.Holds (Set.preimage f C) (Set.preimage f D) ↔
      verdict.Holds C D := by
  have hnonempty : ∀ E : Set σ, E ⊆ Set.range f →
      ((Set.preimage f E).Nonempty ↔ E.Nonempty) := by
    intro E hE
    constructor
    · rintro ⟨x, hx⟩
      exact ⟨f x, hx⟩
    · intro h
      exact h.preimage' hE
  have hinter := hnonempty (C ∩ D) (Set.inter_subset_left.trans hC)
  have hleft := hnonempty (C \ D) (Set.sdiff_subset.trans hC)
  have hright := hnonempty (D \ C) (Set.sdiff_subset.trans hD)
  cases verdict with
  | equivalent => exact Set.preimage_eq_preimage' hC hD
  | moreGeneral =>
      exact and_congr (Set.preimage_subset_preimage_iff hD)
        (not_congr (Set.preimage_subset_preimage_iff hC))
  | moreSpecific =>
      exact and_congr (Set.preimage_subset_preimage_iff hC)
        (not_congr (Set.preimage_subset_preimage_iff hD))
  | overlaps => exact and_congr hinter (and_congr hleft hright)
  | disjoint =>
      have hempty := not_congr hinter
      rw [Set.not_nonempty_iff_eq_empty, Set.not_nonempty_iff_eq_empty] at hempty
      exact hempty

end

end Specificity
end Dispatch
