import Dispatch.Text.Slice
import Mathlib.Data.String.Basic
import Mathlib.Tactic

/-!
# Slices of a text that grows

Text that is added at the end of a buffer moves no offset.  What could be read
from the buffer can still be read, the added text stands behind what was there,
and cutting the buffer at its old size gives the old buffer back.
-/

namespace Dispatch
namespace Text

/-! ## Lists of characters -/

theorem takeBytes?_cons_add (c : Char) (count : Nat) (rest : List Char) :
    takeBytes? (c.utf8Size + count) (c :: rest) =
      (takeBytes? count rest).map (c :: ·) := by
  obtain ⟨size, hsize⟩ : ∃ size, c.utf8Size + count = size + 1 :=
    Nat.exists_eq_add_one.mpr (Nat.add_pos_left c.utf8Size_pos count)
  have hle : c.utf8Size ≤ size + 1 := by omega
  have hrest : size + 1 - c.utf8Size = count := by omega
  rw [hsize]
  simp only [takeBytes?, if_pos hle, hrest]

theorem dropBytes?_cons_add (c : Char) (count : Nat) (rest : List Char) :
    dropBytes? (c.utf8Size + count) (c :: rest) = dropBytes? count rest := by
  obtain ⟨size, hsize⟩ : ∃ size, c.utf8Size + count = size + 1 :=
    Nat.exists_eq_add_one.mpr (Nat.add_pos_left c.utf8Size_pos count)
  have hle : c.utf8Size ≤ size + 1 := by omega
  have hrest : size + 1 - c.utf8Size = count := by omega
  rw [hsize]
  simp only [dropBytes?, if_pos hle, hrest]

theorem takeBytes?_utf8Len_append (text rest : List Char) :
    takeBytes? (String.utf8Len text) (text ++ rest) = some text := by
  induction text with
  | nil => simp [takeBytes?]
  | cons c text ih =>
      rw [String.utf8Len_cons, Nat.add_comm, List.cons_append,
        takeBytes?_cons_add, ih]
      rfl

theorem dropBytes?_utf8Len_append (text rest : List Char) :
    dropBytes? (String.utf8Len text) (text ++ rest) = some rest := by
  induction text with
  | nil => simp [dropBytes?]
  | cons c text ih =>
      rw [String.utf8Len_cons, Nat.add_comm, List.cons_append,
        dropBytes?_cons_add, ih]

/-- An offset between two characters of a text splits it. -/
theorem exists_append_of_takeBytes? {count : Nat} {text front : List Char}
    (htake : takeBytes? count text = some front) :
    ∃ back, text = front ++ back ∧ count = String.utf8Len front := by
  fun_induction takeBytes? count text generalizing front with
  | case1 text =>
      obtain rfl := Option.some.inj htake
      exact ⟨text, rfl, rfl⟩
  | case2 => simp at htake
  | case3 count c rest hpos hle ih =>
      obtain ⟨tail, htail, rfl⟩ := Option.map_eq_some_iff.mp htake
      obtain ⟨back, hback, hcount⟩ := ih htail
      refine ⟨back, by rw [hback, List.cons_append], ?_⟩
      rw [String.utf8Len_cons]
      omega
  | case4 => simp at htake

theorem exists_append_of_dropBytes? {count : Nat} {text back : List Char}
    (hdrop : dropBytes? count text = some back) :
    ∃ front, text = front ++ back ∧ count = String.utf8Len front := by
  fun_induction dropBytes? count text with
  | case1 text =>
      obtain rfl := Option.some.inj hdrop
      exact ⟨[], rfl, rfl⟩
  | case2 => simp at hdrop
  | case3 count c rest hpos hle ih =>
      obtain ⟨front, hfront, hcount⟩ := ih hdrop
      refine ⟨c :: front, by rw [hfront, List.cons_append], ?_⟩
      rw [String.utf8Len_cons]
      omega
  | case4 => simp at hdrop

/-! ## Slices of texts -/

theorem slice?_append_of_eq_some {buffer value : String} {start stop : Nat}
    (hslice : slice? buffer start stop = some value) (more : String) :
    slice? (buffer ++ more) start stop = some value := by
  unfold slice? at hslice ⊢
  split_ifs at hslice ⊢ with hle
  obtain ⟨chars, hchars, rfl⟩ := Option.map_eq_some_iff.mp hslice
  obtain ⟨back, hdrop, htake⟩ := Option.bind_eq_some_iff.mp hchars
  obtain ⟨front, hbuffer, hstart⟩ := exists_append_of_dropBytes? hdrop
  obtain ⟨tail, rfl, hstop⟩ := exists_append_of_takeBytes? htake
  rw [String.toList_append, hbuffer, hstart, List.append_assoc,
    dropBytes?_utf8Len_append, Option.bind_some, ← hstart, hstop,
    List.append_assoc, takeBytes?_utf8Len_append]
  rfl

/-- The text added last is the slice behind the old buffer. -/
theorem slice?_append_right (buffer value : String) :
    slice? (buffer ++ value) buffer.utf8ByteSize
      (buffer ++ value).utf8ByteSize = some value := by
  have hsize : (buffer ++ value).utf8ByteSize - buffer.utf8ByteSize =
      String.utf8Len value.toList := by
    rw [String.utf8ByteSize_append, String.utf8Len_toList]
    omega
  have htake : takeBytes? (String.utf8Len value.toList) value.toList =
      some value.toList := by
    simpa using takeBytes?_utf8Len_append value.toList []
  unfold slice?
  rw [if_pos (by simp), hsize, String.toList_append, ← String.utf8Len_toList,
    dropBytes?_utf8Len_append, Option.bind_some, htake]
  simp

theorem truncate?_append (buffer more : String) :
    truncate? (buffer ++ more) buffer.utf8ByteSize = some buffer := by
  unfold truncate?
  split_ifs with hle
  · have hmore : more = "" := by
      rw [← String.utf8ByteSize_eq_zero_iff]
      rw [String.utf8ByteSize_append] at hle
      omega
    rw [hmore, String.append_empty]
  · rw [String.toList_append, ← String.utf8Len_toList,
      takeBytes?_utf8Len_append]
    simp

theorem utf8ByteSize_of_truncate? {text kept : String} {size : Nat}
    (hcut : truncate? text size = some kept) : kept.utf8ByteSize ≤ size := by
  unfold truncate? at hcut
  split_ifs at hcut with hle
  · obtain rfl := Option.some.inj hcut
    exact hle
  · obtain ⟨chars, htake, rfl⟩ := Option.map_eq_some_iff.mp hcut
    obtain ⟨_, _, hsize⟩ := exists_append_of_takeBytes? htake
    rw [hsize, ← String.utf8Len_toList, String.toList_ofList]

/-- A cut behind the front of a text keeps the front. -/
theorem exists_append_of_truncate? {front back kept : String} {size : Nat}
    (hcut : truncate? (front ++ back) size = some kept)
    (hfront : front.utf8ByteSize ≤ size) : ∃ rest, kept = front ++ rest := by
  unfold truncate? at hcut
  split_ifs at hcut with hle
  · exact ⟨back, (Option.some.inj hcut).symm⟩
  · obtain ⟨chars, htake, rfl⟩ := Option.map_eq_some_iff.mp hcut
    obtain ⟨behind, hsplit, hsize⟩ := exists_append_of_takeBytes? htake
    have hleft : front.toList <+: (front ++ back).toList := by simp
    have hright : chars <+: (front ++ back).toList := hsplit ▸ List.prefix_append _ _
    rcases List.prefix_or_prefix_of_prefix hleft hright with
      ⟨rest, hrest⟩ | ⟨rest, hrest⟩
    · exact ⟨String.ofList rest, by simp [← hrest]⟩
    · -- the cut is not shorter than the front, so it is the front
      have hnone : rest = [] := by
        rw [hsize, ← String.utf8Len_toList, ← hrest,
          String.utf8Len_append] at hfront
        exact String.utf8Len_eq_zero.mp (by omega)
      exact ⟨"", by simp [← String.toList_inj, ← hrest, hnone]⟩

end Text
end Dispatch
