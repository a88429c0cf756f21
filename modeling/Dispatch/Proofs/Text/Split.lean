import Mathlib.Tactic

/-!
# Joined texts are split again

Texts that are joined at a separator are found again by splitting at it, if the
first character of the separator is in none of them.
-/

namespace Dispatch
namespace Text

open String.Slice.Pattern.Model

/-- The parts that are found after some separator, or from the start on. -/
noncomputable def partsFrom (separator : String) [StrictPatternModel separator]
    {text : String.Slice} (start : text.Pos) : List String :=
  (String.Slice.Pattern.Model.split separator start start
    (String.Slice.Pos.le_refl start)).map String.Slice.Subslice.copy

section

variable {separator part front rest : String} {text : String.Slice}
  {first : Char} {others : List Char} {start stop : text.Pos}

/-- No separator begins inside of a part. -/
theorem not_matchesAt_of_lt (hseparator : separator.toList = first :: others)
    (hpart : first ∉ part.toList) (hstart : start.Splits front (part ++ rest))
    (hstop : stop.Splits (front ++ part) rest) {pos : text.Pos}
    (hafter : start ≤ pos) (hbefore : pos < stop) :
    ¬MatchesAt separator pos := by
  rw [ForwardStringSearcher.matchesAt_iff_splits]
  rintro ⟨before, after, hpos⟩
  obtain ⟨walked, hwalked, -⟩ :=
    (hstart.le_iff_exists_eq_append hpos).mp hafter
  obtain ⟨left, hleft, hfront, hmatched⟩ :=
    (hpos.lt_iff_exists_eq_append hstop).mp hbefore
  have hparts : part = walked ++ left := by
    rw [hwalked, String.append_assoc] at hfront
    exact (String.append_right_inj front).mp hfront
  have hchars : first :: others ++ after.toList =
      left.toList ++ rest.toList := by
    rw [← hseparator, ← String.toList_append, ← String.toList_append, hmatched]
  cases hcase : left.toList with
  | nil => exact hleft (String.toList_eq_nil_iff.mp hcase)
  | cons c chars =>
      rw [hcase] at hchars
      obtain ⟨rfl, -⟩ := List.cons.inj hchars
      exact hpart (by simp [hparts, hcase])

theorem le_of_splits (hstart : start.Splits front (part ++ rest))
    (hstop : stop.Splits (front ++ part) rest) : start ≤ stop :=
  (hstart.le_iff_exists_eq_append hstop).mpr ⟨part, rfl, rfl⟩

theorem copy_subslice (hstart : start.Splits front (part ++ rest))
    (hstop : stop.Splits (front ++ part) rest) :
    (text.subslice start stop (le_of_splits hstart hstop)).copy = part := by
  obtain ⟨_, hcopy⟩ := String.Slice.copy_slice_eq_iff_splits.mpr
    ⟨front, rest, hstart, hstop⟩
  simpa using hcopy

variable [StrictPatternModel separator]

theorem partsFrom_last (hseparator : separator.toList = first :: others)
    (hpart : first ∉ part.toList) (hstart : start.Splits front part) :
    partsFrom separator start = [part] := by
  have hend : text.endPos.Splits (front ++ part) "" := by
    rw [← hstart.eq_append]
    exact text.splits_endPos
  have hstart' : start.Splits front (part ++ "") := by
    rwa [String.append_empty]
  rw [partsFrom, split_eq_of_not_matchesAt text.endPos
    (le_of_splits hstart' hend) fun pos hafter hbefore =>
      not_matchesAt_of_lt hseparator hpart hstart' hend hafter hbefore,
    split_endPos, List.map_singleton, copy_subslice hstart' hend]

theorem partsFrom_more (hseparator : separator.toList = first :: others)
    (hpart : first ∉ part.toList)
    (hstart : start.Splits front (part ++ (separator ++ rest))) :
    ∃ next : text.Pos, next.Splits (front ++ part ++ separator) rest ∧
      partsFrom separator start = part :: partsFrom separator next := by
  have htext := hstart.eq_append
  have hsplit : text.copy = (front ++ part) ++ (separator ++ rest) := by
    rw [htext, String.append_assoc]
  have hnext : text.copy = (front ++ part ++ separator) ++ rest := by
    rw [hsplit, ← String.append_assoc]
  have hat := String.Slice.Pos.splits_ofEqAppend hsplit
  have hafter := String.Slice.Pos.splits_ofEqAppend hnext
  refine ⟨_, hafter, ?_⟩
  rw [partsFrom, split_eq_of_not_matchesAt _ (le_of_splits hstart hat)
    fun pos hafter hbefore =>
      not_matchesAt_of_lt hseparator hpart hstart hat hafter hbefore,
    split_eq_of_isLongestMatchAt
      (ForwardStringSearcher.isLongestMatchAt_iff_splits.mpr
        ⟨_, _, hat, hafter⟩),
    List.map_cons, copy_subslice hstart hat, partsFrom]

theorem partsFrom_intercalate (hseparator : separator.toList = first :: others)
    {parts : List String} (hne : parts ≠ [])
    (hparts : ∀ part ∈ parts, first ∉ part.toList)
    (hstart : start.Splits front (separator.intercalate parts)) :
    partsFrom separator start = parts := by
  induction parts generalizing start front with
  | nil => contradiction
  | cons part more ih =>
      rw [List.forall_mem_cons] at hparts
      cases more with
      | nil =>
          rw [String.intercalate_singleton] at hstart
          exact partsFrom_last hseparator hparts.1 hstart
      | cons other more =>
          rw [String.intercalate_cons_cons, String.append_assoc] at hstart
          obtain ⟨next, hnext, hfound⟩ :=
            partsFrom_more hseparator hparts.1 hstart
          rw [hfound, ih (List.cons_ne_nil _ _) hparts.2 hnext]

end

theorem split_intercalate {separator : String} {first : Char}
    {others : List Char} (hseparator : separator.toList = first :: others)
    {parts : List String} (hne : parts ≠ [])
    (hparts : ∀ part ∈ parts, first ∉ part.toList) :
    ((separator.intercalate parts).split separator).toList.map
        String.Slice.copy = parts := by
  have hnonempty : separator ≠ "" := by
    rintro rfl
    contradiction
  have hstrict := ForwardStringSearcher.strictPatternModel hnonempty
  have hlawful := ForwardStringSearcher.lawfulToForwardSearcherModel hnonempty
  have hfound := partsFrom_intercalate hseparator hne hparts
    (String.Slice.splits_startPos (separator.intercalate parts).toSlice |>.of_eq
      rfl (String.copy_toSlice))
  rw [partsFrom, ← String.Slice.Pattern.toList_splitToSubslice_eq_modelSplit]
    at hfound
  change ((separator.intercalate parts).toSlice.split separator).toList.map _ = _
  rw [String.Slice.toList_split_eq_splitToSubslice, List.map_map]
  exact hfound

end Text
end Dispatch
