import Dispatch.Proofs.Matching
import Dispatch.Specificity
import Mathlib.Tactic

/-!
# The verdict on two paths, one position at a time

Combining verdicts is associative, and disjointness absorbs.  The verdict on two
segment lists is therefore that on their first segments combined with that on
the rest, as long as no wildcard is involved.  A wildcard ends its list, and
includes whatever takes at least one piece.
-/

namespace Dispatch

namespace Segment

def IsWildcard (segment : Segment) : Prop :=
  ∃ name, segment = .wildcard name

theorem not_isWildcard_literal (text : String) :
    ¬(Segment.literal text).IsWildcard := by
  rintro ⟨name, hliteral⟩
  contradiction

theorem not_isWildcard_param (name : String) :
    ¬(Segment.param name).IsWildcard := by
  rintro ⟨other, hparam⟩
  contradiction

end Segment

namespace Specificity

/-! ## Combining -/

@[simp] theorem equivalent_combine (verdict : Specificity) :
    equivalent.combine verdict = verdict := rfl

@[simp] theorem combine_equivalent (verdict : Specificity) :
    verdict.combine .equivalent = verdict := by
  cases verdict <;> rfl

@[simp] theorem disjoint_combine (verdict : Specificity) :
    disjoint.combine verdict = .disjoint := rfl

@[simp] theorem combine_disjoint (verdict : Specificity) :
    verdict.combine .disjoint = .disjoint := by
  cases verdict <;> rfl

theorem combine_assoc (first second third : Specificity) :
    (first.combine second).combine third =
      first.combine (second.combine third) := by
  cases first <;> cases second <;> cases third <;> rfl

theorem foldl_combine (verdict : Specificity) (verdicts : List Specificity) :
    verdicts.foldl combine verdict =
      verdict.combine (verdicts.foldl combine .equivalent) := by
  induction verdicts generalizing verdict with
  | nil => simp
  | cons next rest ih =>
      rw [List.foldl_cons, List.foldl_cons, ih, ih (equivalent.combine next),
        equivalent_combine, combine_assoc]

theorem ofAligned_cons (a b : Segment) (left right : List Segment) :
    ofAligned (a :: left) (b :: right) =
      (ofSegments a b).combine (ofAligned left right) := by
  unfold ofAligned
  rw [List.zipWith_cons_cons, List.foldl_cons, equivalent_combine,
    foldl_combine]

/-! ## Paths -/

/-- The verdict that the lengths alone allow. -/
def ofLengths (left right : List Segment) : Specificity :=
  if left.length = right.length then .equivalent
  else if left.length < right.length ∧ endsInWildcard left then .moreGeneral
  else if right.length < left.length ∧ endsInWildcard right then .moreSpecific
  else .disjoint

theorem ofPaths_eq (left right : List Segment) :
    ofPaths left right =
      (ofAligned left right).combine (ofLengths left right) := by
  unfold ofPaths ofLengths
  dsimp only
  split_ifs with hlength hdisjoint hleft hright
  · simp
  all_goals simp_all

theorem endsInWildcard_cons {segment : Segment} (hsegment : ¬segment.IsWildcard)
    (rest : List Segment) :
    endsInWildcard (segment :: rest) = endsInWildcard rest := by
  cases rest with
  | nil =>
      cases segment with
      | wildcard name => exact (hsegment ⟨name, rfl⟩).elim
      | literal text => rfl
      | param name => rfl
      | endAnchor => rfl
  | cons next rest =>
      unfold endsInWildcard
      rw [List.getLast?_cons_cons]

theorem ofPaths_cons {a b : Segment} (ha : ¬a.IsWildcard) (hb : ¬b.IsWildcard)
    (left right : List Segment) :
    ofPaths (a :: left) (b :: right) =
      (ofSegments a b).combine (ofPaths left right) := by
  have hlengths :
      ofLengths (a :: left) (b :: right) = ofLengths left right := by
    unfold ofLengths
    rw [endsInWildcard_cons ha, endsInWildcard_cons hb]
    simp
  rw [ofPaths_eq, ofPaths_eq, ofAligned_cons, hlengths, combine_assoc]

@[simp] theorem ofPaths_nil_cons (b : Segment) (right : List Segment) :
    ofPaths [] (b :: right) = .disjoint := by
  simp [ofPaths_eq, ofLengths, endsInWildcard]

theorem ofPaths_wildcard_left {b : Segment} (hb : ¬b.IsWildcard) (name : String)
    (right : List Segment) :
    ofPaths [.wildcard name] (b :: right) = .moreGeneral := by
  have hfirst : ofSegments (.wildcard name) b = .moreGeneral := by
    cases b with
    | wildcard other => exact (hb ⟨other, rfl⟩).elim
    | literal text => rfl
    | param name => rfl
    | endAnchor => rfl
  have haligned : ofAligned [.wildcard name] (b :: right) = .moreGeneral := by
    rw [ofAligned_cons, hfirst]
    rfl
  rw [ofPaths_eq, haligned]
  unfold ofLengths
  cases right with
  | nil => rfl
  | cons next rest =>
      simp only [List.length_cons, List.length_nil]
      rfl

theorem ofSegments_self (segment : Segment) :
    ofSegments segment segment = .equivalent := by
  cases segment with
  | literal text => simp [ofSegments]
  | param name => rfl
  | wildcard name => rfl
  | endAnchor => rfl

theorem ofPaths_self (segments : List Segment) :
    ofPaths segments segments = .equivalent := by
  have haligned : ofAligned segments segments = .equivalent := by
    induction segments with
    | nil => rfl
    | cons segment rest ih => rw [ofAligned_cons, ofSegments_self, ih]; rfl
  rw [ofPaths_eq, haligned]
  simp [ofLengths]

/-! ## Exchanging the two sides -/

theorem inverse_combine (first second : Specificity) :
    (first.combine second).inverse = first.inverse.combine second.inverse := by
  cases first <;> cases second <;> rfl

theorem inverse_ofSegments (a b : Segment) :
    (ofSegments a b).inverse = ofSegments b a := by
  cases a with
  | literal text =>
      cases b with
      | literal other =>
          by_cases htext : text = other
          · simp [ofSegments, htext, inverse]
          · simp [ofSegments, htext, Ne.symm htext, inverse]
      | param name => rfl
      | wildcard name => rfl
      | endAnchor => rfl
  | param name => cases b <;> rfl
  | wildcard name => cases b <;> rfl
  | endAnchor => cases b <;> rfl

theorem inverse_ofAligned (left right : List Segment) :
    (ofAligned left right).inverse = ofAligned right left := by
  induction left generalizing right with
  | nil => cases right <;> rfl
  | cons a left ih =>
      cases right with
      | nil => rfl
      | cons b right =>
          rw [ofAligned_cons, ofAligned_cons, inverse_combine,
            inverse_ofSegments, ih]

theorem inverse_ofLengths (left right : List Segment) :
    (ofLengths left right).inverse = ofLengths right left := by
  unfold ofLengths
  rcases Nat.lt_trichotomy left.length right.length with hlt | heq | hlt
  · have hne : left.length ≠ right.length := by omega
    have hnot : ¬right.length < left.length := by omega
    by_cases hwildcard : endsInWildcard left = true
    · simp [hlt, hne, hne.symm, hwildcard, hnot, inverse]
    · simp [hne, hne.symm, hwildcard, hnot, inverse]
  · simp [heq, inverse]
  · have hne : left.length ≠ right.length := by omega
    have hnot : ¬left.length < right.length := by omega
    by_cases hwildcard : endsInWildcard right = true
    · simp [hlt, hne, hne.symm, hwildcard, hnot, inverse]
    · simp [hne, hne.symm, hwildcard, hnot, inverse]

theorem inverse_ofPaths (left right : List Segment) :
    (ofPaths left right).inverse = ofPaths right left := by
  rw [ofPaths_eq, ofPaths_eq, inverse_combine, inverse_ofAligned,
    inverse_ofLengths]

theorem ofPaths_wildcard_right {a : Segment} (ha : ¬a.IsWildcard) (name : String)
    (left : List Segment) :
    ofPaths (a :: left) [.wildcard name] = .moreSpecific := by
  rw [← inverse_ofPaths, ofPaths_wildcard_left ha]
  rfl

end Specificity
end Dispatch
