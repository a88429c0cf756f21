import Dispatch.AllowList
import Mathlib.Tactic

/-!
# The methods of an allow list

A list that is built by insertions holds the methods that were inserted, less
HEAD if GET is among them.
-/

namespace Dispatch

theorem Method.ext_name {a b : Method} (hname : a.name = b.name) : a = b := by
  cases a
  cases b
  obtain rfl := hname
  rfl

namespace AllowList

variable {allow : AllowList} {method other : Method} {methods : List Method}

theorem mem_place : other ∈ place method methods ↔
    other = method ∨ other ∈ methods := by
  induction methods with
  | nil => simp [place]
  | cons first rest ih =>
      simp only [place]
      split_ifs with hlt heq
      · exact List.mem_cons
      · obtain rfl := Method.ext_name heq
        simp
      · simp only [List.mem_cons, ih]
        tauto

theorem contains_iff : allow.contains method = true ↔ method ∈ allow.methods := by
  simp [contains]

theorem mem_insert : other ∈ (allow.insert method).methods ↔
    if method = .head ∧ .get ∈ allow.methods then other ∈ allow.methods
    else other = method ∨
      other ∈ allow.methods ∧ (method = .get → other ≠ .head) := by
  simp only [insert, contains_iff]
  split_ifs with hdropped hget
  · rfl
  · subst hget
    simp [mem_place]
  · simp [mem_place, hget]

/-- Inserting one more method, whichever of GET and HEAD comes last. -/
theorem mem_insert_of_mem_iff
    (hmem : ∀ other, other ∈ allow.methods ↔
      other ∈ methods ∧ (other = .head → .get ∉ methods)) :
    other ∈ (allow.insert method).methods ↔
      other ∈ methods ++ [method] ∧
        (other = .head → .get ∉ methods ++ [method]) := by
  have hne : Method.get ≠ .head := by decide
  simp only [mem_insert, hmem, List.mem_append, List.mem_singleton, hne,
    false_implies, and_true]
  -- HEAD is dropped beside GET, whether it comes before or after it
  rcases eq_or_ne method .head with rfl | hhead
  · simp only [true_and, hne.symm, false_implies, and_true, hne, or_false]
    grind
  · rcases eq_or_ne method .get with rfl | hmethod
    · grind
    · simp only [hhead, hmethod, hmethod.symm, false_and, if_false,
        false_implies, and_true, or_false]
      grind

theorem ofList_concat (methods : List Method) (method : Method) :
    ofList (methods ++ [method]) = (ofList methods).insert method := by
  simp [ofList]

theorem mem_ofList : other ∈ (ofList methods).methods ↔
    other ∈ methods ∧ (other = .head → .get ∉ methods) := by
  induction methods using List.reverseRecOn generalizing other with
  | nil => simp [ofList, empty]
  | append_singleton methods method ih =>
      rw [ofList_concat]
      exact mem_insert_of_mem_iff fun _ => ih

theorem methods_ofList_eq_nil_iff :
    (ofList methods).methods = [] ↔ methods = [] := by
  constructor
  · intro hempty
    have hnone : ∀ other ∈ methods, other = .head ∧ .get ∈ methods := by
      intro other hmem
      by_contra hkept
      have hother : other ∈ (ofList methods).methods := by
        rw [mem_ofList]
        exact ⟨hmem, fun hhead hget => hkept ⟨hhead, hget⟩⟩
      rw [hempty] at hother
      contradiction
    rw [List.eq_nil_iff_forall_not_mem]
    intro other hmem
    have hget := hnone .get (hnone other hmem).2
    exact absurd hget.1 (by decide)
  · intro hmethods
    rw [hmethods]
    rfl

end AllowList
end Dispatch
