/-!
# Keyed lists

Values under keys, in the order in which the keys were first used.  Each key
occurs once.  A value is found by going through the list.
-/

namespace Dispatch
namespace KeyedList

variable {κ α : Type} [DecidableEq κ]

/-- Changes the value of a key, which is begun at the end from `fresh` if need
be. -/
def update (key : κ) (fresh : α) (change : α → α) :
    List (κ × α) → List (κ × α)
  | [] => [(key, change fresh)]
  | (name, value) :: rest =>
    if key = name then (name, change value) :: rest
    else (name, value) :: update key fresh change rest

/-- Puts a value under a key, unless the key has one. -/
def claim (key : κ) (value : α) (list : List (κ × α)) : List (κ × α) :=
  if (list.lookup key).isSome then list else list ++ [(key, value)]

/-! ## What is found after a change -/

theorem lookup_cons_of_ne {key other : κ} (hother : other ≠ key) (value : α)
    (rest : List (κ × α)) :
    ((key, value) :: rest).lookup other = rest.lookup other := by
  have hbeq : (other == key) = false := by simpa using hother
  rw [List.lookup_cons, hbeq]

theorem lookup_eq_none {key : κ} {list : List (κ × α)}
    (hkey : key ∉ list.map Prod.fst) : list.lookup key = none := by
  rw [List.lookup_eq_none_iff]
  intro entry hmem
  refine bne_iff_ne.mpr fun heq => hkey ?_
  exact List.mem_map.mpr ⟨entry, hmem, heq.symm⟩

theorem lookup_update (key other : κ) (fresh : α) (change : α → α)
    (list : List (κ × α)) :
    (update key fresh change list).lookup other =
      if other = key then some (change ((list.lookup key).getD fresh))
      else list.lookup other := by
  induction list with
  | nil =>
      by_cases hother : other = key
      · simp [update, hother]
      · simp [update, hother]
  | cons entry rest ih =>
      obtain ⟨name, value⟩ := entry
      simp only [update]
      by_cases hkey : key = name
      · subst name
        by_cases hother : other = key
        · simp [hother]
        · simp [lookup_cons_of_ne hother, hother]
      · rw [if_neg hkey, lookup_cons_of_ne hkey]
        by_cases hname : other = name
        · subst name
          simp [Ne.symm hkey]
        · rw [lookup_cons_of_ne hname, lookup_cons_of_ne hname, ih]

theorem keys_update (key : κ) (fresh : α) (change : α → α)
    (list : List (κ × α)) :
    (update key fresh change list).map Prod.fst =
      if key ∈ list.map Prod.fst then list.map Prod.fst
      else list.map Prod.fst ++ [key] := by
  induction list with
  | nil => simp [update]
  | cons entry rest ih =>
      obtain ⟨name, value⟩ := entry
      by_cases hkey : key = name
      · simp [update, hkey]
      · by_cases hrest : key ∈ rest.map Prod.fst
        · simp_all [update]
        · simp_all [update]

theorem nodup_ite_concat {key : κ} {keys : List κ} (hnodup : keys.Nodup) :
    (if key ∈ keys then keys else keys ++ [key]).Nodup := by
  split
  · exact hnodup
  · next hkey =>
      refine List.nodup_append.mpr ⟨hnodup, by simp, ?_⟩
      intro other hother last hlast heq
      rw [List.mem_singleton] at hlast
      subst other last
      exact hkey hother

theorem nodup_keys_update {key : κ} {fresh : α} {change : α → α}
    {list : List (κ × α)} (hnodup : (list.map Prod.fst).Nodup) :
    ((update key fresh change list).map Prod.fst).Nodup := by
  rw [keys_update]
  exact nodup_ite_concat hnodup

/-- Nothing changes if the change leaves the value as it is. -/
theorem update_eq_self {key : κ} {fresh value : α} {change : α → α}
    {list : List (κ × α)} (hlookup : list.lookup key = some value)
    (hchange : change value = value) : update key fresh change list = list := by
  induction list with
  | nil => contradiction
  | cons entry rest ih =>
      obtain ⟨name, first⟩ := entry
      rw [update]
      split
      · next hkey =>
          subst name
          rw [List.lookup_cons_self] at hlookup
          obtain rfl := Option.some.inj hlookup
          rw [hchange]
      · next hkey =>
          rw [lookup_cons_of_ne hkey] at hlookup
          rw [ih hlookup]

/-- Only what a change does to the value of the key matters. -/
theorem update_congr {key : κ} {fresh : α} {change other : α → α}
    {list : List (κ × α)}
    (hchange : change ((list.lookup key).getD fresh) =
      other ((list.lookup key).getD fresh)) :
    update key fresh change list = update key fresh other list := by
  induction list with
  | nil => exact congrArg (fun value => [(key, value)]) hchange
  | cons entry rest ih =>
      obtain ⟨name, value⟩ := entry
      rw [update, update]
      split
      · next hkey =>
          subst name
          rw [List.lookup_cons_self] at hchange
          rw [show change value = other value from hchange]
      · next hkey =>
          rw [lookup_cons_of_ne hkey] at hchange
          rw [ih hchange]

theorem mem_of_mem_update {key name : κ} {fresh value : α} {change : α → α}
    {list : List (κ × α)}
    (hmem : (name, value) ∈ update key fresh change list) :
    (name, value) ∈ list ∨ value = change fresh ∨
      ∃ old, (name, old) ∈ list ∧ value = change old := by
  induction list with
  | nil =>
      have heq : name = key ∧ value = change fresh := by
        simpa [update] using hmem
      exact Or.inr (Or.inl heq.2)
  | cons entry rest ih =>
      obtain ⟨first, old⟩ := entry
      rw [update] at hmem
      split at hmem
      · rcases List.mem_cons.mp hmem with hnew | hrest
        · obtain ⟨rfl, rfl⟩ := Prod.mk.inj hnew
          exact Or.inr (Or.inr ⟨old, List.mem_cons_self, rfl⟩)
        · exact Or.inl (List.mem_cons_of_mem _ hrest)
      · rcases List.mem_cons.mp hmem with hfirst | hrest
        · exact Or.inl (hfirst ▸ List.mem_cons_self)
        · rcases ih hrest with hold | hfresh | ⟨before, hbefore, hvalue⟩
          · exact Or.inl (List.mem_cons_of_mem _ hold)
          · exact Or.inr (Or.inl hfresh)
          · exact Or.inr (Or.inr
              ⟨before, List.mem_cons_of_mem _ hbefore, hvalue⟩)

theorem lookup_claim (key other : κ) (value : α) (list : List (κ × α)) :
    (claim key value list).lookup other =
      (list.lookup other).or (if other = key then some value else none) := by
  unfold claim
  split
  · next hpresent =>
      by_cases hother : other = key
      · subst other
        obtain ⟨present, hpresent⟩ := Option.isSome_iff_exists.mp hpresent
        simp [hpresent]
      · simp [hother]
  · rw [List.lookup_append]
    congr 1
    by_cases hother : other = key
    · simp [hother]
    · simp [hother]

theorem keys_claim (key : κ) (value : α) (list : List (κ × α)) :
    (claim key value list).map Prod.fst =
      if key ∈ list.map Prod.fst then list.map Prod.fst
      else list.map Prod.fst ++ [key] := by
  have hpresent :
      (list.lookup key).isSome ↔ key ∈ list.map Prod.fst := by
    rw [List.lookup_isSome_iff, List.mem_map]
    constructor
    · rintro ⟨entry, hmem, heq⟩
      exact ⟨entry, hmem, (eq_of_beq heq).symm⟩
    · rintro ⟨entry, hmem, heq⟩
      exact ⟨entry, hmem, by simp [heq]⟩
  unfold claim
  by_cases hkey : key ∈ list.map Prod.fst
  · rw [if_pos (hpresent.mpr hkey), if_pos hkey]
  · rw [if_neg (mt hpresent.mp hkey), if_neg hkey, List.map_append]
    rfl

theorem nodup_keys_claim {key : κ} {value : α} {list : List (κ × α)}
    (hnodup : (list.map Prod.fst).Nodup) :
    ((claim key value list).map Prod.fst).Nodup := by
  rw [keys_claim]
  exact nodup_ite_concat hnodup

theorem mem_of_mem_claim {key : κ} {value : α} {list : List (κ × α)}
    {entry : κ × α} (hmem : entry ∈ claim key value list) :
    entry ∈ list ∨ entry = (key, value) := by
  unfold claim at hmem
  split at hmem
  · exact Or.inl hmem
  · simpa using hmem

theorem mem_of_lookup {list : List (κ × α)} {key : κ} {value : α}
    (hlookup : list.lookup key = some value) : (key, value) ∈ list := by
  obtain ⟨before, after, rfl, _⟩ := List.lookup_eq_some_iff.mp hlookup
  exact List.mem_append_right before List.mem_cons_self

/-- In a list whose keys occur once, to be found is to be in the list. -/
theorem lookup_of_mem {list : List (κ × α)} {key : κ} {value : α}
    (hnodup : (list.map Prod.fst).Nodup) (hmem : (key, value) ∈ list) :
    list.lookup key = some value := by
  induction list with
  | nil => simp at hmem
  | cons entry rest ih =>
      obtain ⟨name, first⟩ := entry
      simp only [List.map_cons, List.nodup_cons] at hnodup
      rcases List.mem_cons.mp hmem with heq | hrest
      · simp only [Prod.mk.injEq] at heq
        simp [heq.1, heq.2]
      · have hname : key ≠ name := by
          intro heq
          subst name
          exact hnodup.1 (List.mem_map.mpr ⟨(key, value), hrest, rfl⟩)
        rw [lookup_cons_of_ne hname]
        exact ih hnodup.2 hrest

end KeyedList
end Dispatch
