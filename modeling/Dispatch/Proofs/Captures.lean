import Dispatch.Captures
import Dispatch.Proofs.Text.Slices
import Dispatch.Proofs.Text.Utf8
import Mathlib.Tactic

/-!
# What a store of captures holds

A store is seen through the entries that it counts.  `Agrees` compares two
stores so, whatever their dead slots hold: nothing that reads or writes a store
can tell agreeing stores apart.

In every store that public calls can make, the spilled entries are those past
the fixed slots.  There, adding an entry appends it to what is read, and going
back to a mark after any number of additions leaves the store that was marked.
-/

namespace Dispatch
namespace Captures

/-- The slot of an entry that is added. -/
def slotFor (captures : Captures) (name value : String) : Slot :=
  ⟨name, Text.fingerprint (Text.utf8 name), captures.buffer.utf8ByteSize,
    (captures.buffer ++ value).utf8ByteSize⟩

theorem fixed_set (captures : Captures) (name value : String) {index : Nat}
    (h : index < 4) :
    (captures.set name value).fixed[index] =
      if index = captures.size then some (captures.slotFor name value)
      else captures.fixed[index] := by
  by_cases hfixed : captures.size < 4
  · have hset : (captures.set name value).fixed = captures.fixed.set
        captures.size (some (captures.slotFor name value)) hfixed :=
      dif_pos hfixed
    simp only [hset, Vector.getElem_set, eq_comm]
  · have hset : (captures.set name value).fixed = captures.fixed :=
      dif_neg hfixed
    have hother : index ≠ captures.size := by omega
    simp only [hset, if_neg hother]

theorem mapM_congr {α β δ : Type} {f g : α → Except δ β} {list : List α}
    (hsame : ∀ a ∈ list, f a = g a) : list.mapM f = list.mapM g := by
  induction list with
  | nil => rfl
  | cons a rest ih =>
      rw [List.mapM_cons, List.mapM_cons, hsame a List.mem_cons_self,
        ih fun b hmem => hsame b (List.mem_cons_of_mem _ hmem)]

theorem mapM_eq_ok_of_imp {α β δ : Type} {f g : α → Except δ β} {list : List α}
    {results : List β} (hresults : list.mapM f = .ok results)
    (himp : ∀ a ∈ list, ∀ b, f a = .ok b → g a = .ok b) :
    list.mapM g = .ok results := by
  rw [← hresults]
  refine (mapM_congr fun a hmem => ?_).symm
  induction list generalizing results with
  | nil => contradiction
  | cons first rest ih =>
      rw [List.mapM_cons] at hresults
      cases hfirst : f first with
      | error fault =>
          rw [hfirst] at hresults
          contradiction
      | ok found =>
          cases hrest : rest.mapM f with
          | error fault =>
              rw [hfirst, hrest] at hresults
              contradiction
          | ok others =>
              rcases List.mem_cons.mp hmem with rfl | hmore
              · rw [hfirst, himp a List.mem_cons_self found hfirst]
              · exact ih hrest
                  (fun b hb => himp b (List.mem_cons_of_mem _ hb)) hmore

theorem latest_succ (captures : Captures) (hash : UInt64) (name : String)
    (count : Nat) :
    captures.latest hash name (count + 1) = (do
      let slot ← captures.slot count
      match ← captures.valueIf slot hash name with
      | some value => return some value
      | none => captures.latest hash name count) := rfl

theorem latest_one (captures : Captures) (hash : UInt64) (name : String) :
    captures.latest hash name 1 =
      (do captures.valueIf (← captures.slot 0) hash name) := by
  rw [latest_succ]
  cases captures.slot 0 with
  | error fault => rfl
  | ok slot =>
      simp only [bind, Except.bind]
      cases captures.valueIf slot hash name with
      | error fault => rfl
      | ok value => cases value <;> rfl

/-- Reading in place gives what the loop gives. -/
theorem get_eq_latest (captures : Captures) (name : String) :
    captures.get name =
      captures.latest (Text.fingerprint (Text.utf8 name)) name captures.size := by
  unfold get
  dsimp only
  split
  · next hsize => rw [hsize, latest]
  · next hsize =>
      rw [hsize, latest_one]
      rfl
  · next hsize =>
      rw [hsize, latest_succ, latest_one]
      rfl
  · rfl

/-! ## Agreement -/

structure Agrees (a b : Captures) : Prop where
  size : a.size = b.size
  spill : a.spill = b.spill
  buffer : a.buffer = b.buffer
  fixed : ∀ index (h : index < 4), index < a.size → a.fixed[index] = b.fixed[index]

namespace Agrees

variable {a b c : Captures}

theorem refl (a : Captures) : a.Agrees a where
  size := rfl
  spill := rfl
  buffer := rfl
  fixed := fun _ _ _ => rfl

theorem symm (hagrees : a.Agrees b) : b.Agrees a where
  size := hagrees.size.symm
  spill := hagrees.spill.symm
  buffer := hagrees.buffer.symm
  fixed := fun index h hindex =>
    (hagrees.fixed index h (hagrees.size ▸ hindex)).symm

theorem trans (hab : a.Agrees b) (hbc : b.Agrees c) : a.Agrees c where
  size := hab.size.trans hbc.size
  spill := hab.spill.trans hbc.spill
  buffer := hab.buffer.trans hbc.buffer
  fixed := fun index h hindex =>
    (hab.fixed index h hindex).trans
      (hbc.fixed index h (hab.size ▸ hindex))

/-- A cleared store agrees with every other one. -/
theorem reset (a b : Captures) : a.reset.Agrees b.reset where
  size := rfl
  spill := rfl
  buffer := rfl
  fixed := fun _ _ hindex => (Nat.not_lt_zero _ hindex).elim

theorem set (hagrees : a.Agrees b) (name value : String) :
    (a.set name value).Agrees (b.set name value) where
  size := by simp [Captures.set, hagrees.size]
  spill := by
    simp [Captures.set, hagrees.size, hagrees.spill, hagrees.buffer]
  buffer := by simp [Captures.set, hagrees.buffer]
  fixed := by
    intro index h hindex
    have hold : index < a.size + 1 := hindex
    rw [fixed_set, fixed_set, ← hagrees.size]
    split_ifs with hlast
    · rw [slotFor, slotFor, hagrees.buffer]
    · exact hagrees.fixed index h (by omega)

theorem rollback (hagrees : a.Agrees b) (mark : Mark) :
    (a.rollback mark).1.Agrees (b.rollback mark).1 := by
  unfold Captures.rollback
  rw [← hagrees.size, ← hagrees.buffer, ← hagrees.spill]
  split_ifs with hle
  · exact hagrees
  · have hfixed : ∀ size, size ≤ a.size → ∀ index (h : index < 4),
        index < size → a.fixed[index] = b.fixed[index] :=
      fun size hsize index h hindex =>
        hagrees.fixed index h (hindex.trans_le hsize)
    cases Text.truncate? a.buffer mark.bytes with
    | some buffer => exact ⟨rfl, rfl, rfl, hfixed mark.size (by omega)⟩
    | none => exact ⟨rfl, rfl, rfl, hfixed a.size le_rfl⟩

theorem unwind (hagrees : a.Agrees b) (mark : Mark) :
    (a.unwind mark).Agrees (b.unwind mark) := hagrees.rollback mark

theorem slot (hagrees : a.Agrees b) {index : Nat} (hindex : index < a.size) :
    a.slot index = b.slot index := by
  unfold Captures.slot
  split_ifs with h
  · rw [hagrees.fixed index h hindex]
  · rw [hagrees.spill]

theorem value (hagrees : a.Agrees b) (slot : Slot) :
    a.value slot = b.value slot := by
  unfold Captures.value
  rw [hagrees.buffer]

theorem valueIf (hagrees : a.Agrees b) (slot : Option Slot) (hash : UInt64)
    (name : String) : a.valueIf slot hash name = b.valueIf slot hash name := by
  unfold Captures.valueIf
  simp only [hagrees.value]

theorem latest (hagrees : a.Agrees b) (hash : UInt64) (name : String)
    {count : Nat} (hcount : count ≤ a.size) :
    a.latest hash name count = b.latest hash name count := by
  induction count with
  | zero => rfl
  | succ count ih =>
      rw [Captures.latest, Captures.latest, hagrees.slot hcount,
        ih (Nat.le_of_succ_le hcount)]
      simp only [hagrees.valueIf]

theorem get (hagrees : a.Agrees b) (name : String) : a.get name = b.get name := by
  rw [get_eq_latest, get_eq_latest, ← hagrees.size, hagrees.latest _ _ le_rfl]

theorem entry (hagrees : a.Agrees b) {index : Nat} (hindex : index < a.size) :
    a.entry index = b.entry index := by
  unfold Captures.entry
  simp only [hagrees.slot hindex, hagrees.value]

theorem entries (hagrees : a.Agrees b) : a.entries = b.entries := by
  have hall : (List.range a.size).mapM a.entry =
      (List.range b.size).mapM b.entry := by
    rw [← hagrees.size]
    exact mapM_congr fun index hmem => hagrees.entry (List.mem_range.mp hmem)
  unfold Captures.entries
  rw [hall]

end Agrees

/-! ## Stores made by public calls -/

/-- A store may go back to any mark, as long as that is not refused. -/
inductive Reachable : Captures → Prop where
  | empty : Reachable .empty
  | set {captures : Captures} (hbefore : Reachable captures)
      (name value : String) : Reachable (captures.set name value)
  | capture {captures : Captures} (hbefore : Reachable captures)
      (name raw : String) (decode : Bool) :
      Reachable (captures.capture name raw decode)
  | reset {captures : Captures} (hbefore : Reachable captures) :
      Reachable captures.reset
  | rollback {captures : Captures} (hbefore : Reachable captures) (mark : Mark)
      (hcut : (captures.rollback mark).2 = none) :
      Reachable (captures.rollback mark).1

/-- The spilled entries are those past the fixed slots. -/
def Counted (captures : Captures) : Prop :=
  captures.spill.length = captures.size - 4

section

variable {captures other : Captures}

theorem Counted.of_agrees (hcounted : captures.Counted)
    (hagrees : other.Agrees captures) : other.Counted := by
  unfold Counted
  rw [hagrees.size, hagrees.spill]
  exact hcounted

theorem Agrees.counted (hagrees : captures.Agrees .empty) :
    captures.Counted := by
  have hempty : Captures.empty.Counted := rfl
  exact hempty.of_agrees hagrees

theorem Counted.set (hcounted : captures.Counted) (name value : String) :
    (captures.set name value).Counted := by
  unfold Counted at hcounted ⊢
  simp only [Captures.set]
  split_ifs with hfixed
  · omega
  · rw [List.length_append, List.length_singleton]
    omega

theorem Counted.rollback (hcounted : captures.Counted) (mark : Mark)
    (hcut : (captures.rollback mark).2 = none) :
    (captures.rollback mark).1.Counted := by
  unfold Counted at hcounted ⊢
  unfold Captures.rollback at hcut ⊢
  split_ifs at hcut ⊢ with hle
  · exact hcounted
  · cases htruncate : Text.truncate? captures.buffer mark.bytes with
    | some buffer =>
        dsimp only
        rw [List.length_take, hcounted]
        omega
    | none =>
        rw [htruncate] at hcut
        contradiction

theorem Reachable.counted (hreachable : captures.Reachable) :
    captures.Counted := by
  induction hreachable with
  | empty => rfl
  | set _ name value ih => exact ih.set name value
  | capture _ name raw decode ih => exact ih.set name _
  | reset _ _ => rfl
  | rollback _ mark hcut ih => exact ih.rollback mark hcut

/-! ## Adding entries -/

def setAll (captures : Captures) (added : List (String × String)) : Captures :=
  added.foldl (fun captures entry => captures.set entry.1 entry.2) captures

@[simp] theorem setAll_nil : captures.setAll [] = captures := rfl

@[simp] theorem setAll_cons (entry : String × String)
    (added : List (String × String)) :
    captures.setAll (entry :: added) =
      (captures.set entry.1 entry.2).setAll added := rfl

theorem setAll_append (first second : List (String × String)) :
    captures.setAll (first ++ second) =
      (captures.setAll first).setAll second :=
  List.foldl_append

theorem Agrees.setAll (hagrees : other.Agrees captures)
    (added : List (String × String)) :
    (other.setAll added).Agrees (captures.setAll added) := by
  induction added generalizing other captures with
  | nil => exact hagrees
  | cons entry rest ih => exact ih (hagrees.set entry.1 entry.2)

theorem Counted.setAll (hcounted : captures.Counted)
    (added : List (String × String)) : (captures.setAll added).Counted := by
  induction added generalizing captures with
  | nil => exact hcounted
  | cons entry rest ih => exact ih (hcounted.set entry.1 entry.2)

/-- What an older store has become by additions. -/
structure Grown (before after : Captures) : Prop where
  size : before.size ≤ after.size
  spill : before.spill <+: after.spill
  buffer : ∃ more, after.buffer = before.buffer ++ more
  fixed : ∀ index (h : index < 4), index < before.size →
    after.fixed[index] = before.fixed[index]

theorem grown_set (captures : Captures) (name value : String) :
    captures.Grown (captures.set name value) where
  size := Nat.le_succ captures.size
  spill := by
    simp only [set]
    split_ifs
    · exact List.prefix_rfl
    · exact List.prefix_append _ _
  buffer := ⟨value, rfl⟩
  fixed := by
    intro index h hindex
    rw [fixed_set, if_neg (Nat.ne_of_lt hindex)]

theorem Grown.trans {a b c : Captures} (hab : a.Grown b) (hbc : b.Grown c) :
    a.Grown c where
  size := hab.size.trans hbc.size
  spill := hab.spill.trans hbc.spill
  buffer := by
    obtain ⟨first, hfirst⟩ := hab.buffer
    obtain ⟨second, hsecond⟩ := hbc.buffer
    exact ⟨first ++ second, by rw [hsecond, hfirst, String.append_assoc]⟩
  fixed := fun index h hindex =>
    (hbc.fixed index h (hindex.trans_le hab.size)).trans
      (hab.fixed index h hindex)

theorem grown_setAll (captures : Captures) (added : List (String × String)) :
    captures.Grown (captures.setAll added) := by
  induction added generalizing captures with
  | nil => exact ⟨le_rfl, List.prefix_rfl, ⟨"", by simp⟩, fun _ _ _ => rfl⟩
  | cons entry rest ih =>
      exact (grown_set captures entry.1 entry.2).trans (ih _)

theorem size_setAll (captures : Captures) (added : List (String × String)) :
    (captures.setAll added).size = captures.size + added.length := by
  induction added generalizing captures with
  | nil => rfl
  | cons entry rest ih =>
      have hset : (captures.set entry.1 entry.2).size = captures.size + 1 := rfl
      rw [setAll_cons, ih, hset, List.length_cons]
      omega

/-- Going back undoes additions. -/
theorem unwind_setAll (hcounted : captures.Counted)
    (added : List (String × String)) :
    ((captures.setAll added).unwind captures.mark).Agrees captures := by
  have hgrown := grown_setAll captures added
  have hspill : (captures.setAll added).spill.take (captures.size - 4) =
      captures.spill := by
    rw [← hcounted, ← List.prefix_iff_eq_take.mp hgrown.spill]
  obtain ⟨more, hbuffer⟩ := hgrown.buffer
  unfold unwind rollback mark
  split_ifs with hle
  · have hnone : added = [] := by
      have hsize := size_setAll captures added
      dsimp only at hle
      exact List.eq_nil_of_length_eq_zero (by omega)
    rw [hnone]
    exact .refl captures
  · rw [hbuffer, Text.truncate?_append]
    exact ⟨rfl, hspill, rfl, hgrown.fixed⟩

theorem Agrees.unwind_of_setAll (hcounted : captures.Counted)
    {added : List (String × String)}
    (hagrees : other.Agrees (captures.setAll added)) :
    (other.unwind captures.mark).Agrees captures :=
  (hagrees.unwind captures.mark).trans (unwind_setAll hcounted added)

/-! ## Reading what was added -/

/-- Entries that are added later move no slot. -/
theorem Grown.slot {before after : Captures} (hgrown : before.Grown after)
    (hcounted : before.Counted) {index : Nat} (hindex : index < before.size) :
    after.slot index = before.slot index := by
  unfold Captures.slot
  split_ifs with h
  · rw [hgrown.fixed index h hindex]
  · have hspilled : index - 4 < before.spill.length := by
      rw [hcounted]
      omega
    obtain ⟨more, hmore⟩ := hgrown.spill
    rw [← hmore, List.getElem?_append_left hspilled,
      List.getElem?_eq_getElem hspilled]

theorem slot_set_of_lt (hcounted : captures.Counted) (name value : String)
    {index : Nat} (hindex : index < captures.size) :
    (captures.set name value).slot index = captures.slot index :=
  (grown_set captures name value).slot hcounted hindex

theorem slot_set_size (hcounted : captures.Counted) (name value : String) :
    (captures.set name value).slot captures.size =
      .ok (some (captures.slotFor name value)) := by
  unfold slot
  split_ifs with h
  · rw [fixed_set, if_pos rfl]
  · have hspill : (captures.set name value).spill =
        captures.spill ++ [captures.slotFor name value] := if_neg h
    rw [hspill, ← hcounted, List.getElem?_concat_length]

/-- A span that was readable still is in the longer buffer. -/
theorem value_set {slot : Slot} {text : String}
    (hvalue : captures.value slot = .ok text) (name value : String) :
    (captures.set name value).value slot = .ok text := by
  have hbuffer : (captures.set name value).buffer =
      captures.buffer ++ value := rfl
  unfold Captures.value at hvalue ⊢
  cases hslice : Text.slice? captures.buffer slot.start slot.stop with
  | none =>
      rw [hslice] at hvalue
      contradiction
  | some found =>
      rw [hslice] at hvalue
      rw [hbuffer, Text.slice?_append_of_eq_some hslice value]
      exact hvalue

theorem entry_set_of_lt (hcounted : captures.Counted) (name value : String)
    {index : Nat} (hindex : index < captures.size)
    {entry : Option (String × String)} (hentry : captures.entry index = .ok entry) :
    (captures.set name value).entry index = .ok entry := by
  unfold Captures.entry at hentry ⊢
  rw [slot_set_of_lt hcounted name value hindex]
  cases hslot : captures.slot index with
  | error fault =>
      rw [hslot] at hentry
      contradiction
  | ok slot =>
      rw [hslot] at hentry
      cases slot with
      | none => exact hentry
      | some slot =>
          change (do return some (slot.name, ← captures.value slot)) =
            Except.ok entry at hentry
          change (do
            return some (slot.name, ← (captures.set name value).value slot)) =
              Except.ok entry
          cases hvalue : captures.value slot with
          | error fault =>
              rw [hvalue] at hentry
              contradiction
          | ok text =>
              rw [hvalue] at hentry
              rw [value_set hvalue name value]
              exact hentry

theorem value_slotFor (captures : Captures) (name value : String) :
    (captures.set name value).value (captures.slotFor name value) =
      .ok value := by
  have hbuffer : (captures.set name value).buffer =
      captures.buffer ++ value := rfl
  unfold Captures.value slotFor
  rw [hbuffer, Text.slice?_append_right]

theorem entry_set_size (hcounted : captures.Counted) (name value : String) :
    (captures.set name value).entry captures.size = .ok (some (name, value)) := by
  unfold Captures.entry
  rw [slot_set_size hcounted]
  simp only [bind, Except.bind, value_slotFor]
  rfl

theorem entries_set (hcounted : captures.Counted) (name value : String)
    {old : List (String × String)} (hentries : captures.entries = .ok old) :
    (captures.set name value).entries = .ok (old ++ [(name, value)]) := by
  unfold Captures.entries at hentries ⊢
  cases hfound : (List.range captures.size).mapM captures.entry with
  | error fault =>
      rw [hfound] at hentries
      contradiction
  | ok found =>
      rw [hfound] at hentries
      have hkept : (List.range captures.size).mapM
          (captures.set name value).entry = .ok found :=
        mapM_eq_ok_of_imp hfound fun index hmem _ hentry =>
          entry_set_of_lt hcounted name value (List.mem_range.mp hmem) hentry
      have hsize : (captures.set name value).size = captures.size + 1 := rfl
      have hold : found.filterMap id = old := Except.ok.inj hentries
      rw [hsize, List.range_succ, List.mapM_append, hkept, List.mapM_cons,
        entry_set_size hcounted]
      rw [← hold]
      change Except.ok ((found ++ [some (name, value)]).filterMap id) = _
      rw [List.filterMap_append]
      rfl

theorem entries_setAll (hcounted : captures.Counted)
    {old : List (String × String)} (hentries : captures.entries = .ok old)
    (added : List (String × String)) :
    (captures.setAll added).entries = .ok (old ++ added) := by
  induction added generalizing captures old with
  | nil =>
      rw [List.append_nil]
      exact hentries
  | cons entry rest ih =>
      have hset := entries_set hcounted entry.1 entry.2 hentries
      have hrest := ih (hcounted.set entry.1 entry.2) hset
      rw [setAll_cons, hrest, List.append_assoc]
      rfl

end

/-! ## Values -/

/-- The shortcut for texts without a percent sign changes nothing. -/
theorem captureValue_eq (decode : Bool) (raw : String) :
    captureValue decode raw = if decode then Text.percentDecode raw else raw := by
  unfold captureValue
  cases decode with
  | false => rfl
  | true =>
      by_cases hpercent : '%' ∈ raw.toList
      · simp [hpercent]
      · simp [hpercent, Text.percentDecode_of_not_mem hpercent]

end Captures
end Dispatch
