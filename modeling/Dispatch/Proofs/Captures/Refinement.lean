import Dispatch.KeyedList
import Dispatch.Proofs.Captures
import Mathlib.Tactic

/-!
# A store of captures is a list of pairs

What can be read from a store is what stands in a plain list of names and
values.  A capture adds to the end of the list, a reset empties it, and going
back to a mark cuts it at the length that was marked.

A mark is current until its store is emptied or goes back to fewer entries
than were marked.  As long as only current marks are used, no run on any number
of stores and copies of stores leaves the lists behind, and every span that is
counted lies in the buffer between two characters.  The invariant of the run is
that a store agrees with the one that its list makes from nothing, and that a
current mark is the one that the marked part of the list makes.
-/

namespace Dispatch

/-- A span that has `value` between two characters of a buffer. -/
def Slot.Spans (slot : Slot) (buffer value : String) : Prop :=
  ∃ front back, buffer = front ++ value ++ back ∧
    slot.start = front.utf8ByteSize ∧
    slot.stop = (front ++ value).utf8ByteSize

theorem Slot.Spans.append {slot : Slot} {buffer value : String}
    (hspans : slot.Spans buffer value) (more : String) :
    slot.Spans (buffer ++ more) value := by
  obtain ⟨front, back, hbuffer, hstart, hstop⟩ := hspans
  refine ⟨front, back ++ more, ?_, hstart, hstop⟩
  simp [hbuffer, String.append_assoc]

namespace Captures

/-! ## What stands in a store -/

structure Mirrors (captures : Captures) (pairs : List (String × String)) :
    Prop where
  size : captures.size = pairs.length
  isEmpty : captures.isEmpty = pairs.isEmpty
  spilled : captures.Spilled ↔ 4 < pairs.length
  entries : captures.entries = .ok pairs
  /-- The last pair of a name gives its value. -/
  get : ∀ name, captures.get name = .ok (pairs.reverse.lookup name)
  spans : ∀ (index : Nat) (name value : String),
    pairs[index]? = some (name, value) →
      ∃ slot, captures.slot index = .ok (some slot) ∧
        slot.Spans captures.buffer value

section

variable {captures other : Captures} {pairs : List (String × String)}

theorem Mirrors.of_agrees (hmirrors : captures.Mirrors pairs)
    (hagrees : other.Agrees captures) : other.Mirrors pairs where
  size := hagrees.size.trans hmirrors.size
  isEmpty := by simpa [Captures.isEmpty, hagrees.size] using hmirrors.isEmpty
  spilled := by simpa [Spilled, hagrees.size] using hmirrors.spilled
  entries := hagrees.entries.trans hmirrors.entries
  get := fun name => (hagrees.get name).trans (hmirrors.get name)
  spans := by
    intro index name value hpair
    have hindex : index < other.size := by
      rw [hagrees.size, hmirrors.size]
      exact (List.getElem?_eq_some_iff.mp hpair).1
    rw [hagrees.slot hindex, hagrees.buffer]
    exact hmirrors.spans index name value hpair

theorem mirrors_empty : empty.Mirrors [] where
  size := rfl
  isEmpty := rfl
  spilled := by simp [Spilled, empty]
  entries := rfl
  get := fun _ => rfl
  spans := by simp

theorem valueIf_set {slot : Option Slot} {hash : UInt64} {sought : String}
    {found : Option String}
    (hfound : captures.valueIf slot hash sought = .ok found)
    (name value : String) :
    (captures.set name value).valueIf slot hash sought = .ok found := by
  cases slot with
  | none => exact hfound
  | some slot =>
      simp only [valueIf] at hfound ⊢
      split_ifs at hfound ⊢
      · cases hvalue : captures.value slot with
        | error fault => simp [hvalue, Except.map] at hfound
        | ok text =>
            rw [hvalue] at hfound
            rw [value_set hvalue, hfound]
      · exact hfound

/-- What was found among older entries is still found there. -/
theorem latest_set (hcounted : captures.Counted) {hash : UInt64}
    {sought : String} {count : Nat} {found : Option String}
    (hcount : count ≤ captures.size)
    (hfound : captures.latest hash sought count = .ok found)
    (name value : String) :
    (captures.set name value).latest hash sought count = .ok found := by
  induction count with
  | zero => exact hfound
  | succ count ih =>
      rw [latest_succ] at hfound ⊢
      rw [slot_set_of_lt hcounted name value hcount]
      cases hslot : captures.slot count with
      | error fault => simp [hslot, bind, Except.bind] at hfound
      | ok slot =>
          cases hvalue : captures.valueIf slot hash sought with
          | error fault => simp [hslot, hvalue, bind, Except.bind] at hfound
          | ok text =>
              have hsame := valueIf_set hvalue name value
              simp only [hslot, hvalue, hsame, bind, Except.bind] at hfound ⊢
              cases text with
              | some text => exact hfound
              | none => exact ih (Nat.le_of_succ_le hcount) hfound

theorem valueIf_slotFor (captures : Captures) (name value sought : String) :
    (captures.set name value).valueIf (some (captures.slotFor name value))
        (Text.fingerprint (Text.utf8 sought)) sought =
      .ok (if sought = name then some value else none) := by
  simp only [valueIf, value_slotFor]
  by_cases hname : sought = name
  · -- equal names have equal fingerprints
    simp [slotFor, hname, Except.map]
  · have hother : name ≠ sought := fun h => hname h.symm
    simp [slotFor, hname, hother]

theorem get_set (hcounted : captures.Counted) {sought : String}
    {found : Option String} (hfound : captures.get sought = .ok found)
    (name value : String) :
    (captures.set name value).get sought =
      .ok (if sought = name then some value else found) := by
  have hsize : (captures.set name value).size = captures.size + 1 := rfl
  rw [get_eq_latest] at hfound ⊢
  have hrest := latest_set hcounted le_rfl hfound name value
  rw [hsize, latest_succ, slot_set_size hcounted]
  simp only [bind, Except.bind, valueIf_slotFor]
  split_ifs with hname
  · rfl
  · exact hrest

theorem Mirrors.set (hcounted : captures.Counted)
    (hmirrors : captures.Mirrors pairs) (name value : String) :
    (captures.set name value).Mirrors (pairs ++ [(name, value)]) where
  size := by simp [Captures.set, hmirrors.size]
  isEmpty := by simp [Captures.isEmpty, Captures.set]
  spilled := by simp [Spilled, Captures.set, hmirrors.size]
  entries := entries_set hcounted name value hmirrors.entries
  get := by
    intro sought
    rw [get_set hcounted (hmirrors.get sought), List.reverse_concat]
    split_ifs with hname
    · simp [hname]
    · rw [KeyedList.lookup_cons_of_ne hname]
  spans := by
    intro index other text hpair
    have hbuffer : (captures.set name value).buffer =
        captures.buffer ++ value := rfl
    rw [hbuffer]
    rcases Nat.lt_or_ge index pairs.length with hold | hnew
    · rw [List.getElem?_append_left hold] at hpair
      obtain ⟨slot, hslot, hspans⟩ := hmirrors.spans index other text hpair
      refine ⟨slot, ?_, hspans.append value⟩
      rw [slot_set_of_lt hcounted name value (hmirrors.size ▸ hold), hslot]
    · have hindex : index = pairs.length := by
        have hlt := (List.getElem?_eq_some_iff.mp hpair).1
        simp at hlt
        omega
      subst hindex
      obtain ⟨rfl, rfl⟩ : other = name ∧ text = value := by
        simpa [eq_comm] using hpair
      refine ⟨captures.slotFor other text, ?_, captures.buffer, "", ?_⟩
      · rw [← hmirrors.size, slot_set_size hcounted]
      · simp [slotFor]

theorem counted_setAll (pairs : List (String × String)) :
    (empty.setAll pairs).Counted := by
  have hempty : empty.Counted := rfl
  exact hempty.setAll pairs

theorem mirrors_setAll (pairs : List (String × String)) :
    (empty.setAll pairs).Mirrors pairs := by
  induction pairs using List.reverseRecOn with
  | nil => exact mirrors_empty
  | append_singleton pairs pair ih =>
      rw [setAll_append]
      exact ih.set (counted_setAll pairs) pair.1 pair.2

end

/-! ## Calls on stores -/

inductive StoreCall where
  | set (name value : String)
  | capture (name raw : String) (decode : Bool)
  | reset
  /-- Takes a mark, which is numbered after the older ones of the store. -/
  | mark
  /-- Goes back to the mark of that number. -/
  | rollback (number : Nat)

inductive Call where
  | on (store : Nat) (call : StoreCall)
  /-- A copy has the marks of its original and joins the stores as the last. -/
  | clone (store : Nat)

/-- One call on many stores, whatever a store is. -/
def applyAmong {m : Type → Type} [Monad m] {α : Type}
    (apply : α → StoreCall → m α) (stores : List α) : Call → m (List α)
  | .on index call =>
    match stores[index]? with
    | some store => do return stores.set index (← apply store call)
    | none => return stores
  | .clone index => return stores ++ stores[index]?.toList

structure Marked where
  captures : Captures := .empty
  marks : List Mark := []

namespace Marked

def apply (store : Marked) : StoreCall → Except CaptureFault Marked
  | .set name value =>
    return { store with captures := store.captures.set name value }
  | .capture name raw decode =>
    return { store with captures := store.captures.capture name raw decode }
  | .reset => return { store with captures := store.captures.reset }
  | .mark => return { store with marks := store.marks ++ [store.captures.mark] }
  | .rollback number =>
    match store.marks[number]? with
    | none => return store
    | some mark =>
      match store.captures.rollback mark with
      | (captures, none) => return { store with captures }
      | (_, some fault) => throw fault

def run (calls : List Call) : Except CaptureFault (List Marked) :=
  calls.foldlM (applyAmong apply) [{}]

end Marked

/-- A list of names and values.  Each mark is the length that was marked, or
nothing if it is no longer current. -/
structure Plain where
  pairs : List (String × String) := []
  marks : List (Option Nat) := []
  deriving DecidableEq

namespace Plain

/-- There is no answer if a mark is used that is not current. -/
def apply (plain : Plain) : StoreCall → Option Plain
  | .set name value =>
    some { plain with pairs := plain.pairs ++ [(name, value)] }
  | .capture name raw decode =>
    let value := if decode then Text.percentDecode raw else raw
    some { plain with pairs := plain.pairs ++ [(name, value)] }
  | .reset => some { pairs := [], marks := plain.marks.map fun _ => none }
  | .mark => some { plain with marks := plain.marks ++ [some plain.pairs.length] }
  | .rollback number => do
    let size ← plain.marks[number]?.join
    some { pairs := plain.pairs.take size
           marks := plain.marks.map (·.filter (· ≤ size)) }

def run (calls : List Call) : Option (List Plain) :=
  calls.foldlM (applyAmong apply) [{}]

end Plain

/-! ## One call -/

section

variable {α β : Type} {R : α → β → Prop} {xs : List α} {ys : List β}

theorem exists_getElem? (hrel : List.Forall₂ R xs ys) {index : Nat} {y : β}
    (hy : ys[index]? = some y) : ∃ x, xs[index]? = some x ∧ R x y := by
  induction hrel generalizing index with
  | nil => simp at hy
  | cons hhead _ ih =>
      cases index with
      | zero =>
          obtain rfl := Option.some.inj hy
          exact ⟨_, rfl, hhead⟩
      | succ index => exact ih hy

theorem getElem?_eq_none_of_forall₂ (hrel : List.Forall₂ R xs ys) {index : Nat}
    (hy : ys[index]? = none) : xs[index]? = none := by
  rw [List.getElem?_eq_none_iff] at hy ⊢
  rw [hrel.length_eq]
  exact hy

theorem forall₂_set (hrel : List.Forall₂ R xs ys) {x : α} {y : β} (hnew : R x y)
    (index : Nat) : List.Forall₂ R (xs.set index x) (ys.set index y) := by
  induction hrel generalizing index with
  | nil => exact .nil
  | cons hhead htail ih =>
      cases index with
      | zero => exact .cons hnew htail
      | succ index => exact .cons hhead (ih index)

end

/-- A mark of a store whose list is `pairs`: if it is current, then it is the
mark of the store that the marked part of the list makes. -/
def Marks (pairs : List (String × String)) (mark : Mark)
    (current : Option Nat) : Prop :=
  ∀ size, current = some size →
    size ≤ pairs.length ∧ mark = (empty.setAll (pairs.take size)).mark

structure Marked.Tracks (store : Marked) (plain : Plain) : Prop where
  agrees : store.captures.Agrees (empty.setAll plain.pairs)
  marks : List.Forall₂ (Marks plain.pairs) store.marks plain.marks

theorem Marks.append {pairs : List (String × String)} {mark : Mark}
    {current : Option Nat} (hmarks : Marks pairs mark current)
    (more : List (String × String)) : Marks (pairs ++ more) mark current := by
  intro size hcurrent
  obtain ⟨hsize, hmark⟩ := hmarks size hcurrent
  refine ⟨?_, ?_⟩
  · rw [List.length_append]
    omega
  · rw [List.take_append_of_le_length hsize]
    exact hmark

theorem Marks.take {pairs : List (String × String)} {mark : Mark}
    {current : Option Nat} (hmarks : Marks pairs mark current) {kept : Nat} :
    Marks (pairs.take kept) mark (current.filter (· ≤ kept)) := by
  intro size hcurrent
  obtain ⟨hcurrent, hkept⟩ : current = some size ∧ size ≤ kept := by
    simpa [Option.filter_eq_some_iff] using hcurrent
  obtain ⟨hsize, hmark⟩ := hmarks size hcurrent
  refine ⟨?_, ?_⟩
  · rw [List.length_take]
    omega
  · rw [List.take_take, Nat.min_eq_left hkept]
    exact hmark

theorem marks_mark (pairs : List (String × String)) {captures : Captures}
    (hagrees : captures.Agrees (empty.setAll pairs)) :
    Marks pairs captures.mark (some pairs.length) := by
  intro size hsize
  obtain rfl := Option.some.inj hsize
  refine ⟨le_rfl, ?_⟩
  rw [List.take_length, mark, mark, hagrees.size, hagrees.buffer]

/-- Going back to a mark of the list is not refused. -/
theorem rollback_of_setAll {captures : Captures}
    {pairs : List (String × String)} {size : Nat} {mark : Mark}
    (hagrees : captures.Agrees (empty.setAll pairs))
    (hmark : mark = (empty.setAll (pairs.take size)).mark) :
    (captures.rollback mark).2 = none ∧
      (captures.rollback mark).1.Agrees (empty.setAll (pairs.take size)) := by
  have hsplit : (empty.setAll (pairs.take size)).setAll (pairs.drop size) =
      empty.setAll pairs := by
    rw [← setAll_append, List.take_append_drop]
  rw [← hsplit] at hagrees
  obtain ⟨more, hbuffer⟩ :=
    (grown_setAll (empty.setAll (pairs.take size)) (pairs.drop size)).buffer
  have hcut : Text.truncate? captures.buffer mark.bytes =
      some (empty.setAll (pairs.take size)).buffer := by
    rw [hagrees.buffer, hbuffer, hmark]
    exact Text.truncate?_append _ more
  refine ⟨?_, hmark ▸ hagrees.unwind_of_setAll (counted_setAll _)⟩
  unfold rollback
  split_ifs with hle
  · rfl
  · rw [hcut]

namespace Marked.Tracks

variable {store : Marked} {plain after : Plain}

theorem append (htracks : store.Tracks plain) (name value : String) :
    Tracks { store with captures := store.captures.set name value }
      { plain with pairs := plain.pairs ++ [(name, value)] } where
  agrees := by
    rw [setAll_append]
    exact htracks.agrees.set name value
  marks := htracks.marks.imp fun _ _ hmarks => hmarks.append _

theorem apply (htracks : store.Tracks plain) {call : StoreCall}
    (hafter : plain.apply call = some after) :
    ∃ next, store.apply call = .ok next ∧ next.Tracks after := by
  cases call with
  | set name value =>
      obtain rfl := Option.some.inj hafter
      exact ⟨_, rfl, htracks.append name value⟩
  | capture name raw decode =>
      obtain rfl := Option.some.inj hafter
      refine ⟨_, rfl, ?_⟩
      rw [capture, captureValue_eq]
      exact htracks.append name _
  | reset =>
      obtain rfl := Option.some.inj hafter
      refine ⟨_, rfl, .reset store.captures empty, ?_⟩
      rw [List.forall₂_map_right_iff]
      exact htracks.marks.imp fun _ _ _ _ hcurrent => by contradiction
  | mark =>
      obtain rfl := Option.some.inj hafter
      refine ⟨_, rfl, htracks.agrees, ?_⟩
      apply List.rel_append htracks.marks
      exact .cons (marks_mark plain.pairs htracks.agrees) .nil
  | rollback number =>
      obtain ⟨size, hjoin, hplain⟩ := Option.bind_eq_some_iff.mp hafter
      obtain rfl := Option.some.inj hplain
      have hcurrent := Option.join_eq_some_iff.mp hjoin
      obtain ⟨mark, hmark, hmarks⟩ := exists_getElem? htracks.marks hcurrent
      obtain ⟨hnone, hagrees⟩ :=
        rollback_of_setAll htracks.agrees (hmarks size rfl).2
      refine ⟨{ store with captures := (store.captures.rollback mark).1 },
        ?_, hagrees, ?_⟩
      · simp only [Marked.apply, hmark]
        split
        · next hended => rw [hended]; rfl
        · next hended => simp [hended] at hnone
      · rw [List.forall₂_map_right_iff]
        exact htracks.marks.imp fun _ _ hmarks => hmarks.take

end Marked.Tracks

/-! ## Runs -/

theorem forall₂_applyAmong {stores : List Marked} {plains after : List Plain}
    (htracks : List.Forall₂ Marked.Tracks stores plains) {call : Call}
    (hafter : applyAmong Plain.apply plains call = some after) :
    ∃ next, applyAmong Marked.apply stores call = .ok next ∧
      List.Forall₂ Marked.Tracks next after := by
  cases call with
  | on index call =>
      simp only [applyAmong] at hafter ⊢
      cases hplain : plains[index]? with
      | none =>
          rw [hplain] at hafter
          obtain rfl := Option.some.inj hafter
          rw [getElem?_eq_none_of_forall₂ htracks hplain]
          exact ⟨stores, rfl, htracks⟩
      | some plain =>
          obtain ⟨store, hstore, htracked⟩ := exists_getElem? htracks hplain
          rw [hplain] at hafter
          obtain ⟨moved, happly, hmoved⟩ := Option.bind_eq_some_iff.mp hafter
          obtain rfl := Option.some.inj hmoved
          obtain ⟨next, hnext, hnexts⟩ := htracked.apply happly
          refine ⟨stores.set index next, ?_, forall₂_set htracks hnexts index⟩
          simp only [hstore, hnext]
          rfl
  | clone index =>
      obtain rfl := Option.some.inj hafter
      refine ⟨_, rfl, List.rel_append htracks ?_⟩
      cases hplain : plains[index]? with
      | none =>
          rw [getElem?_eq_none_of_forall₂ htracks hplain]
          exact .nil
      | some plain =>
          obtain ⟨store, hstore, htracked⟩ := exists_getElem? htracks hplain
          rw [hstore]
          exact .cons htracked .nil

theorem forall₂_foldlM (calls : List Call) {stores : List Marked}
    {plains after : List Plain}
    (htracks : List.Forall₂ Marked.Tracks stores plains)
    (hafter : calls.foldlM (applyAmong Plain.apply) plains = some after) :
    ∃ next, calls.foldlM (applyAmong Marked.apply) stores = .ok next ∧
      List.Forall₂ Marked.Tracks next after := by
  induction calls generalizing stores plains with
  | nil =>
      obtain rfl := Option.some.inj hafter
      exact ⟨stores, rfl, htracks⟩
  | cons call rest ih =>
      rw [List.foldlM_cons] at hafter ⊢
      obtain ⟨middle, hcall, hrest⟩ := Option.bind_eq_some_iff.mp hafter
      obtain ⟨next, hnext, htracks⟩ := forall₂_applyAmong htracks hcall
      rw [hnext]
      exact ih htracks hrest

theorem mirrors_run (calls : List Call) {plains : List Plain}
    (hplains : Plain.run calls = some plains) :
    ∃ stores, Marked.run calls = .ok stores ∧
      List.Forall₂ (fun store plain => store.captures.Mirrors plain.pairs)
        stores plains := by
  have hempty : List.Forall₂ Marked.Tracks [{}] [{}] :=
    .cons ⟨.refl empty, .nil⟩ .nil
  obtain ⟨stores, hstores, htracks⟩ := forall₂_foldlM calls hempty hplains
  refine ⟨stores, hstores, htracks.imp ?_⟩
  intro store plain htracks
  exact (mirrors_setAll plain.pairs).of_agrees htracks.agrees

/-- A copy goes back to a mark of its original after the fixed slots ran over. -/
def trialCalls : List Call :=
  [.on 0 (.set "a" "1"), .on 0 .mark, .on 0 (.set "x" "2"),
    .on 0 (.set "x" "3"), .on 0 (.set "a" "4"), .on 0 (.set "x" "5"),
    .clone 0, .on 1 (.rollback 0), .on 1 (.capture "b" "%C3%A9" true),
    .clone 0, .on 2 .reset]

def trialPlains : List Plain :=
  [⟨[("a", "1"), ("x", "2"), ("x", "3"), ("a", "4"), ("x", "5")], [some 1]⟩,
    ⟨[("a", "1"), ("b", "é")], [some 1]⟩, ⟨[], [none]⟩]

theorem mirrors_run_trialCalls :
    Plain.run trialCalls = some trialPlains ∧
      ∃ stores, Marked.run trialCalls = .ok stores ∧
        List.Forall₂ (fun store plain => store.captures.Mirrors plain.pairs)
          stores trialPlains := by
  have hplains : Plain.run trialCalls = some trialPlains := by decide +kernel
  exact ⟨hplains, mirrors_run trialCalls hplains⟩

end Captures
end Dispatch
