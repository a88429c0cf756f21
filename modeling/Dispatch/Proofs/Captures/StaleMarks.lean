import Dispatch.Proofs.Captures.Refinement
import Mathlib.Tactic

/-!
# Going back to any mark

A mark is two numbers, and it outlives what was marked.  When the store has
been emptied or has gone back to fewer entries, other values come to stand in
the buffer, and going back to the old mark cuts the buffer where none of them
need end.  Only the number of entries is looked at before.

A mark spares a store if the cut goes through no character and through no value
of an entry that is kept.  A run keeps every value that it should exactly if
each of its marks spares the store that goes back to it.  What stays in the
buffer behind the last value that is kept belongs to no entry then, so a store
is described slot by slot here, and values need not lie end to end.
-/

namespace Dispatch

/-- A slot that names a pair and spans its value. -/
structure Slot.Has (slot : Slot) (buffer : String) (pair : String × String) :
    Prop where
  name : slot.name = pair.1
  hash : slot.hash = Text.fingerprint (Text.utf8 pair.1)
  spans : slot.Spans buffer pair.2

namespace Slot

variable {slot : Slot} {buffer value : String}

theorem Spans.slice? (hspans : slot.Spans buffer value) :
    Text.slice? buffer slot.start slot.stop = some value := by
  obtain ⟨front, back, rfl, hstart, hstop⟩ := hspans
  rw [hstart, hstop]
  exact Text.slice?_append_of_eq_some (Text.slice?_append_right front value) back

theorem Spans.stop_le (hspans : slot.Spans buffer value) :
    slot.stop ≤ buffer.utf8ByteSize := by
  obtain ⟨front, back, rfl, _, hstop⟩ := hspans
  rw [hstop, String.utf8ByteSize_append (s := front ++ value)]
  omega

/-- A cut behind a value leaves it where it is. -/
theorem Spans.of_truncate? (hspans : slot.Spans buffer value) {size : Nat}
    {kept : String} (hcut : Text.truncate? buffer size = some kept)
    (hstop : slot.stop ≤ size) : slot.Spans kept value := by
  obtain ⟨front, back, rfl, hstart, hvalue⟩ := hspans
  obtain ⟨rest, rfl⟩ :=
    Text.exists_append_of_truncate? hcut (hvalue ▸ hstop)
  exact ⟨front, rest, rfl, hstart, hvalue⟩

end Slot

namespace Captures

/-! ## Stores, slot by slot -/

structure Slotted (captures : Captures) (pairs : List (String × String)) :
    Prop where
  size : captures.size = pairs.length
  counted : captures.Counted
  slots : ∀ (index : Nat) (pair : String × String),
    pairs[index]? = some pair →
      ∃ slot, captures.slot index = .ok (some slot) ∧
        slot.Has captures.buffer pair

section

variable {captures : Captures} {pairs : List (String × String)} {mark : Mark}

theorem slotted_reset (captures : Captures) : captures.reset.Slotted [] where
  size := rfl
  counted := rfl
  slots := by simp

theorem Slotted.set (hslotted : captures.Slotted pairs) (name value : String) :
    (captures.set name value).Slotted (pairs ++ [(name, value)]) where
  size := by simp [Captures.set, hslotted.size]
  counted := hslotted.counted.set name value
  slots := by
    intro index pair hpair
    have hbuffer : (captures.set name value).buffer =
        captures.buffer ++ value := rfl
    rw [hbuffer]
    rcases Nat.lt_or_ge index pairs.length with hold | hnew
    · rw [List.getElem?_append_left hold] at hpair
      obtain ⟨slot, hslot, hhas⟩ := hslotted.slots index pair hpair
      refine ⟨slot, ?_, hhas.name, hhas.hash, hhas.spans.append value⟩
      rw [slot_set_of_lt hslotted.counted name value (hslotted.size ▸ hold),
        hslot]
    · have hlt := (List.getElem?_eq_some_iff.mp hpair).1
      rw [List.length_append, List.length_singleton] at hlt
      obtain rfl : index = pairs.length := by omega
      obtain rfl : (name, value) = pair := by simpa using hpair
      refine ⟨captures.slotFor name value, ?_, rfl, rfl,
        captures.buffer, "", ?_⟩
      · rw [← hslotted.size, slot_set_size hslotted.counted]
      · simp [slotFor]

/-! ## Reading -/

theorem value_of_has {slot : Slot} {pair : String × String}
    (hhas : slot.Has captures.buffer pair) :
    captures.value slot = .ok pair.2 := by
  unfold Captures.value
  rw [hhas.spans.slice?]

theorem valueIf_of_has {slot : Slot} {pair : String × String}
    (hhas : slot.Has captures.buffer pair) (sought : String) :
    captures.valueIf (some slot) (Text.fingerprint (Text.utf8 sought)) sought =
      .ok (if sought = pair.1 then some pair.2 else none) := by
  simp only [valueIf, value_of_has hhas, hhas.name, hhas.hash]
  by_cases hname : sought = pair.1
  · simp [hname, Except.map]
  · simp [hname, Ne.symm hname]

theorem Slotted.entry (hslotted : captures.Slotted pairs) {index : Nat}
    (hindex : index < captures.size) :
    captures.entry index = .ok pairs[index]? := by
  have hpair := List.getElem?_eq_getElem (hslotted.size ▸ hindex)
  obtain ⟨slot, hslot, hhas⟩ := hslotted.slots index _ hpair
  unfold Captures.entry
  simp only [hslot, value_of_has hhas, hhas.name, bind, Except.bind, hpair]
  rfl

theorem Slotted.entries (hslotted : captures.Slotted pairs) :
    captures.entries = .ok pairs := by
  have hall : (List.range captures.size).map (pairs[·]?) = pairs.map some := by
    rw [hslotted.size]
    exact List.ext_getElem (by simp) (by simp +contextual)
  have hfound : (List.range captures.size).mapM captures.entry =
      .ok (pairs.map some) := by
    rw [← hall, mapM_congr fun _ hmem => hslotted.entry (List.mem_range.mp hmem)]
    exact List.mapM_pure
  unfold Captures.entries
  rw [hfound]
  simp only [bind, Except.bind, List.filterMap_map]
  exact congrArg Except.ok List.filterMap_some

theorem Slotted.latest (hslotted : captures.Slotted pairs) (sought : String)
    {count : Nat} (hcount : count ≤ pairs.length) :
    captures.latest (Text.fingerprint (Text.utf8 sought)) sought count =
      .ok ((pairs.take count).reverse.lookup sought) := by
  induction count with
  | zero => simp [Captures.latest]
  | succ count ih =>
      have hpair := List.getElem?_eq_getElem hcount
      obtain ⟨slot, hslot, hhas⟩ := hslotted.slots count _ hpair
      rw [latest_succ, hslot, List.take_add_one, hpair, Option.toList_some,
        List.reverse_concat]
      simp only [bind, Except.bind, valueIf_of_has hhas]
      by_cases hname : sought = pairs[count].1
      · rw [if_pos hname, hname]
        exact congrArg Except.ok List.lookup_cons_self.symm
      · rw [KeyedList.lookup_cons_of_ne hname, if_neg hname]
        exact ih (Nat.le_of_succ_le hcount)

theorem Slotted.mirrors (hslotted : captures.Slotted pairs) :
    captures.Mirrors pairs where
  size := hslotted.size
  isEmpty := by
    rw [Captures.isEmpty, hslotted.size]
    cases pairs <;> rfl
  spilled := by rw [Spilled, hslotted.size]
  entries := hslotted.entries
  get := by
    intro sought
    rw [get_eq_latest, hslotted.size, hslotted.latest sought le_rfl,
      List.take_length]
  spans := by
    intro index name value hpair
    obtain ⟨slot, hslot, hhas⟩ := hslotted.slots index (name, value) hpair
    exact ⟨slot, hslot, hhas.spans⟩

/-! ## Going back -/

/-- The cut goes through no character of the buffer, and no entry that is kept
has its value behind it. -/
def Spares (captures : Captures) (mark : Mark) : Prop :=
  mark.size < captures.size →
    (Text.truncate? captures.buffer mark.bytes).isSome ∧
      ∀ index slot, index < mark.size →
        captures.slot index = .ok (some slot) → slot.stop ≤ mark.bytes

/-- A cut that is not refused drops entries and moves none. -/
theorem rollback_of_truncate? (hcounted : captures.Counted)
    (hlt : mark.size < captures.size) {kept : String}
    (hcut : Text.truncate? captures.buffer mark.bytes = some kept) :
    ∃ after, captures.rollback mark = (after, none) ∧
      after.size = mark.size ∧ after.buffer = kept ∧
      ∀ index < mark.size, after.slot index = captures.slot index := by
  refine ⟨{ captures with
    spill := captures.spill.take (mark.size - 4)
    size := mark.size
    buffer := kept }, ?_, rfl, rfl, ?_⟩
  · unfold rollback
    rw [if_neg (Nat.not_le.mpr hlt), hcut]
  · intro index hindex
    unfold Captures.slot
    split_ifs with h
    · rfl
    · have hspilled : index - 4 < captures.spill.length := by
        rw [hcounted]
        omega
      rw [List.getElem?_take_of_lt (by omega),
        List.getElem?_eq_getElem hspilled]

theorem Slotted.rollback (hslotted : captures.Slotted pairs)
    (hspares : captures.Spares mark) :
    ∃ after, captures.rollback mark = (after, none) ∧
      after.Slotted (pairs.take mark.size) := by
  rcases Nat.lt_or_ge mark.size captures.size with hlt | hge
  · obtain ⟨hcut, hstops⟩ := hspares hlt
    obtain ⟨kept, hkept⟩ := Option.isSome_iff_exists.mp hcut
    obtain ⟨after, hafter, hsize, hbuffer, hslots⟩ :=
      rollback_of_truncate? hslotted.counted hlt hkept
    refine ⟨after, hafter, ?_, ?_, ?_⟩
    · rw [hsize, List.length_take, ← hslotted.size]
      omega
    · have hcounted := hslotted.counted.rollback mark (by rw [hafter])
      rwa [hafter] at hcounted
    · intro index pair hpair
      have hlength := (List.getElem?_eq_some_iff.mp hpair).1
      have hindex : index < mark.size := by
        rw [List.length_take] at hlength
        omega
      rw [List.getElem?_take_of_lt hindex] at hpair
      obtain ⟨slot, hslot, hhas⟩ := hslotted.slots index pair hpair
      rw [hslots index hindex, hbuffer]
      exact ⟨slot, hslot, hhas.name, hhas.hash,
        hhas.spans.of_truncate? hkept (hstops index slot hindex hslot)⟩
  · refine ⟨captures, ?_, ?_⟩
    · unfold Captures.rollback
      rw [if_pos hge]
    · rw [List.take_of_length_le (hslotted.size ▸ hge)]
      exact hslotted

/-- If what should be kept can still be read, then the mark spared the store. -/
theorem Slotted.spares (hslotted : captures.Slotted pairs) {after : Captures}
    (hafter : captures.rollback mark = (after, none))
    (hmirrors : after.Mirrors (pairs.take mark.size)) :
    captures.Spares mark := by
  intro hlt
  cases hkept : Text.truncate? captures.buffer mark.bytes with
  | none =>
      unfold Captures.rollback at hafter
      rw [if_neg (Nat.not_le.mpr hlt), hkept] at hafter
      simp at hafter
  | some kept =>
      refine ⟨rfl, ?_⟩
      intro index slot hindex hslot
      obtain ⟨same, hsame, _, hbuffer, hslots⟩ :=
        rollback_of_truncate? hslotted.counted hlt hkept
      obtain rfl : after = same := by simpa [hafter] using hsame
      have hlength : index < (pairs.take mark.size).length := by
        rw [List.length_take, ← hslotted.size]
        omega
      obtain ⟨found, hfound, hspans⟩ := hmirrors.spans index _ _
        (List.getElem?_eq_getElem hlength)
      rw [hslots index hindex, hslot] at hfound
      obtain rfl : slot = found := by simpa using hfound
      calc slot.stop ≤ after.buffer.utf8ByteSize := hspans.stop_le
        _ ≤ mark.bytes := by
          rw [hbuffer]
          exact Text.utf8ByteSize_of_truncate? hkept

/-- A mark spares a store to which entries have only been added since. -/
theorem Slotted.spares_setAll (hslotted : captures.Slotted pairs)
    (added : List (String × String)) :
    (captures.setAll added).Spares captures.mark := by
  intro _
  have hgrown := grown_setAll captures added
  obtain ⟨more, hbuffer⟩ := hgrown.buffer
  refine ⟨?_, ?_⟩
  · rw [hbuffer]
    exact Option.isSome_of_eq_some (Text.truncate?_append captures.buffer more)
  · intro index slot hindex hslot
    obtain ⟨found, hfound, hhas⟩ := hslotted.slots index _
      (List.getElem?_eq_getElem (hslotted.size ▸ hindex))
    rw [hgrown.slot hslotted.counted hindex, hfound] at hslot
    obtain rfl : found = slot := by simpa using hslot
    exact hhas.spans.stop_le

end

/-! ## Runs -/

/-- A list of names and values that goes back to any of its marks, each of
which is the length that was marked. -/
structure Record where
  pairs : List (String × String) := []
  marks : List Nat := []
  deriving DecidableEq

def Record.apply (record : Record) : StoreCall → Record
  | .set name value =>
    { record with pairs := record.pairs ++ [(name, value)] }
  | .capture name raw decode =>
    let value := if decode then Text.percentDecode raw else raw
    { record with pairs := record.pairs ++ [(name, value)] }
  | .reset => { record with pairs := [] }
  | .mark => { record with marks := record.marks ++ [record.pairs.length] }
  | .rollback number =>
    match record.marks[number]? with
    | none => record
    | some size => { record with pairs := record.pairs.take size }

def Record.after (calls : List StoreCall) : Record := calls.foldl apply {}

/-- One store, from nothing. -/
def Marked.after (calls : List StoreCall) : Except CaptureFault Marked :=
  calls.foldlM apply {}

theorem Record.after_concat (calls : List StoreCall) (call : StoreCall) :
    after (calls ++ [call]) = (after calls).apply call := by
  simp [after]

theorem Marked.after_concat (calls : List StoreCall) (call : StoreCall) :
    after (calls ++ [call]) = (after calls >>= fun store => store.apply call) := by
  simp [after]

structure Marked.Follows (store : Marked) (record : Record) : Prop where
  slotted : store.captures.Slotted record.pairs
  marks : store.marks.map Mark.size = record.marks

/-- A call that uses no mark, or one that spares the store. -/
def Marked.SparedBy (store : Marked) (call : StoreCall) : Prop :=
  ∀ number mark, call = .rollback number → store.marks[number]? = some mark →
    store.captures.Spares mark

namespace Marked.Follows

variable {store : Marked} {record : Record} {call : StoreCall}

theorem apply (hfollows : store.Follows record) (hspared : store.SparedBy call) :
    ∃ next, store.apply call = .ok next ∧ next.Follows (record.apply call) := by
  cases call with
  | set name value =>
      exact ⟨_, rfl, hfollows.slotted.set name value, hfollows.marks⟩
  | capture name raw decode =>
      refine ⟨_, rfl, ?_, hfollows.marks⟩
      rw [capture, captureValue_eq]
      exact hfollows.slotted.set name _
  | reset => exact ⟨_, rfl, slotted_reset store.captures, hfollows.marks⟩
  | mark =>
      refine ⟨_, rfl, hfollows.slotted, ?_⟩
      rw [List.map_append, hfollows.marks, Record.apply, ← hfollows.slotted.size]
      rfl
  | rollback number =>
      simp only [Marked.apply, Record.apply, ← hfollows.marks, List.getElem?_map]
      cases hmark : store.marks[number]? with
      | none => exact ⟨store, rfl, hfollows⟩
      | some mark =>
          obtain ⟨after, hafter, hslotted⟩ :=
            hfollows.slotted.rollback (hspared number mark rfl hmark)
          simp only [hafter]
          exact ⟨_, rfl, hslotted, rfl⟩

end Marked.Follows

/-- The run is not refused, and the store is what the record says. -/
def Followed (calls : List StoreCall) : Prop :=
  ∃ store, Marked.after calls = .ok store ∧
    store.Follows (Record.after calls)

/-- The run is not refused, and what stands in the record can be read. -/
def Intact (calls : List StoreCall) : Prop :=
  ∃ store, Marked.after calls = .ok store ∧
    store.captures.Mirrors (Record.after calls).pairs

section

variable {calls : List StoreCall} {call : StoreCall} {store : Marked}

theorem followed_nil : Followed [] :=
  ⟨{}, rfl, slotted_reset empty, rfl⟩

theorem Followed.intact (hfollowed : Followed calls) : Intact calls := by
  obtain ⟨store, hstore, hfollows⟩ := hfollowed
  exact ⟨store, hstore, hfollows.slotted.mirrors⟩

theorem Followed.concat (hfollowed : Followed calls)
    (hspared : ∀ store, Marked.after calls = .ok store → store.SparedBy call) :
    Followed (calls ++ [call]) := by
  obtain ⟨store, hstore, hfollows⟩ := hfollowed
  obtain ⟨next, hnext, hfollows⟩ := hfollows.apply (hspared store hstore)
  refine ⟨next, ?_, ?_⟩
  · rw [Marked.after_concat, hstore]
    exact hnext
  · rw [Record.after_concat]
    exact hfollows

/-- A call that keeps what it should has used no mark that cuts a value. -/
theorem Followed.sparedBy (hfollowed : Followed calls)
    (hintact : Intact (calls ++ [call])) (hstore : Marked.after calls = .ok store) :
    store.SparedBy call := by
  rintro number mark rfl hmark
  obtain ⟨same, hsame, hfollows⟩ := hfollowed
  obtain rfl : store = same := by simpa [hstore] using hsame
  obtain ⟨next, hnext, hmirrors⟩ := hintact
  have hsize : (Record.after calls).marks[number]? = some mark.size := by
    rw [← hfollows.marks, List.getElem?_map, hmark]
    rfl
  rw [Marked.after_concat, hstore] at hnext
  rw [Record.after_concat, Record.apply, hsize] at hmirrors
  simp only [bind, Except.bind, Marked.apply, hmark] at hnext
  rcases hafter : store.captures.rollback mark with ⟨after, _ | fault⟩
  · rw [hafter] at hnext
    obtain rfl := Except.ok.inj hnext
    exact hfollows.slotted.spares hafter hmirrors
  · rw [hafter] at hnext
    contradiction

theorem followed_take
    (hspared : ∀ count call store, calls[count]? = some call →
      Followed (calls.take count) →
      Marked.after (calls.take count) = .ok store → store.SparedBy call)
    (count : Nat) : Followed (calls.take count) := by
  induction count with
  | zero => exact followed_nil
  | succ count ih =>
      rw [List.take_add_one]
      cases hcall : calls[count]? with
      | none => simpa using ih
      | some call =>
          exact ih.concat fun store => hspared count call store hcall ih

end

/-- A run is intact all along exactly if every mark that it goes back to spares
the store at that time. -/
theorem intact_iff_spares (calls : List StoreCall) :
    (∀ count, Intact (calls.take count)) ↔
      ∀ count store number mark,
        calls[count]? = some (.rollback number) →
        Marked.after (calls.take count) = .ok store →
        store.marks[number]? = some mark → store.captures.Spares mark := by
  constructor
  · intro hintact
    have hspared : ∀ count call store, calls[count]? = some call →
        Followed (calls.take count) →
        Marked.after (calls.take count) = .ok store → store.SparedBy call := by
      intro count call store hcall hfollowed hstore
      have hnext := hintact (count + 1)
      rw [List.take_add_one, hcall] at hnext
      exact hfollowed.sparedBy hnext hstore
    intro count store number mark hcall hstore hmark
    exact hspared count _ store hcall (followed_take hspared count) hstore
      number mark rfl hmark
  · intro hspares count
    refine (followed_take ?_ count).intact
    rintro count call store hcall _ hstore number mark rfl hmark
    exact hspares count store number mark hcall hstore hmark

/-- The mark is older than what stands in the store, but it spares the value
that is kept.  A byte of the other one stays behind that value. -/
example :
    (Marked.after [.set "a" "12", .mark, .reset, .set "b" "1", .set "c" "23",
      .rollback 0, .set "d" "4"] >>= (·.captures.entries)) =
        .ok [("b", "1"), ("d", "4")] := by
  decide +kernel

def staleCalls : List StoreCall :=
  [.set "a" "1", .mark, .reset, .set "b" "22", .set "c" "3", .rollback 0]

def cutCalls : List StoreCall :=
  [.set "a" "1", .mark, .reset, .set "b" "", .set "c" "é", .rollback 0]

/-- Going back cuts the value that is kept, or is refused itself. -/
theorem get_refused_staleCalls :
    (Record.after staleCalls).pairs = [("b", "22")] ∧
      (Marked.after staleCalls >>= (·.captures.get "b")) =
        .error (.brokenSpan 0 2 "2") ∧
      Marked.after cutCalls = .error .cutInsideCharacter := by
  refine ⟨by decide, by decide +kernel, ?_⟩
  rfl

end Captures
end Dispatch
