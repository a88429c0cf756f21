import Dispatch.Text.Fingerprint
import Dispatch.Text.Percent
import Dispatch.Text.Slice
import Dispatch.Text.Quoted

/-!
# Captured parameters

A store of captures keeps its first four entries in fixed slots and spills the
others into a list.  Values lie end to end in one buffer, and a slot holds the
byte span of its value.  Slots past `size` are dead and keep whatever they last
held.

A mark records how many entries and how many bytes there were; going back to it
drops what came later.  A mark that was taken before the store was emptied may
cut the buffer inside a value that has come since.  Such a store refuses to
read, and a cut inside a character is refused itself.
-/

namespace Dispatch

/-- Why a store cannot do what it is asked. -/
inductive CaptureFault where
  /-- The buffer would be cut inside a character. -/
  | cutInsideCharacter
  /-- A span does not lie between characters of the buffer. -/
  | brokenSpan (start stop : Nat) (buffer : String)
  /-- An entry is counted that is not there. -/
  | missingEntry (index size : Nat)
  deriving DecidableEq

namespace CaptureFault

/-- The first character that ends after byte `index`, and where it starts. -/
def characterAt? (index : Nat) : Nat → List Char → Option (Nat × Char)
  | _, [] => none
  | start, c :: rest =>
    if index < start + c.utf8Size then some (start, c)
    else characterAt? index (start + c.utf8Size) rest

/-- What is wrong with a span of a buffer: an end of it lies behind the buffer
or inside a character. -/
def spanMessage (start stop : Nat) (buffer : String) : String :=
  let size := buffer.utf8ByteSize
  let behind (side : String) (index : Nat) :=
    s!"{side} byte index {index} is out of bounds for string of length {size}"
  if size < start then behind "start" start
  else if size < stop then behind "end" stop
  else if stop < start then
    s!"byte range starts at {start} but ends at {stop}"
  else
    let (side, index) :=
      if (Text.dropBytes? start buffer.toList).isSome then ("end", stop)
      else ("start", start)
    match characterAt? index 0 buffer.toList with
    | none => behind side index
    | some (first, c) =>
      s!"{side} byte index {index} is not a char boundary; it is inside " ++
        s!"{Text.quotedChar c} (bytes {first}..{first + c.utf8Size} of string)"

def message : CaptureFault → String
  | .cutInsideCharacter =>
    "assertion failed: self.is_char_boundary(new_len)"
  | .brokenSpan start stop buffer => spanMessage start stop buffer
  | .missingEntry index size =>
    s!"index out of bounds: the len is {size} but the index is {index}"

end CaptureFault

/-- One entry: its name, the fingerprint of the name, and the span of its
value. -/
structure Slot where
  name : String
  hash : UInt64
  start : Nat
  stop : Nat
  deriving DecidableEq

structure Captures where
  /-- A fixed slot is `none` until it is first used. -/
  fixed : Vector (Option Slot) 4 := Vector.replicate 4 none
  size : Nat := 0
  spill : List Slot := []
  buffer : String := ""
  deriving DecidableEq

/-- How many entries and how many bytes of values a store had. -/
structure Mark where
  size : Nat
  bytes : Nat
  deriving DecidableEq

namespace Captures

def empty : Captures := {}

instance : Inhabited Captures := ⟨empty⟩

def isEmpty (captures : Captures) : Bool := captures.size == 0

def Spilled (captures : Captures) : Prop := 4 < captures.size

instance (captures : Captures) : Decidable captures.Spilled :=
  inferInstanceAs (Decidable (_ < _))

/-! ## Writing -/

/-- Adds an entry whose value is `value` as it stands. -/
def set (captures : Captures) (name value : String) : Captures :=
  let slot : Slot := {
    name
    hash := Text.fingerprint (Text.utf8 name)
    start := captures.buffer.utf8ByteSize
    stop := (captures.buffer ++ value).utf8ByteSize
  }
  { fixed :=
      if h : captures.size < 4 then captures.fixed.set captures.size (some slot)
      else captures.fixed
    size := captures.size + 1
    spill := if captures.size < 4 then captures.spill else captures.spill ++ [slot]
    buffer := captures.buffer ++ value }

/-- The value that a raw path text stands for. -/
def captureValue (decode : Bool) (raw : String) : String :=
  if decode && raw.toList.contains '%' then Text.percentDecode raw else raw

def capture (captures : Captures) (name raw : String) (decode : Bool) :
    Captures :=
  captures.set name (captureValue decode raw)

def reset (captures : Captures) : Captures :=
  { captures with size := 0, spill := [], buffer := "" }

def mark (captures : Captures) : Mark :=
  { size := captures.size, bytes := captures.buffer.utf8ByteSize }

/-- Drops what came after a mark.  A refused cut leaves the count and the
buffer as they are. -/
def rollback (captures : Captures) (mark : Mark) :
    Captures × Option CaptureFault :=
  if captures.size ≤ mark.size then (captures, none)
  else
    let cut := { captures with spill := captures.spill.take (mark.size - 4) }
    match Text.truncate? captures.buffer mark.bytes with
    | some buffer => ({ cut with size := mark.size, buffer }, none)
    | none => (cut, some .cutInsideCharacter)

/-- Goes back to a mark of this store since which entries were only added.
There the cut is never refused. -/
def unwind (captures : Captures) (mark : Mark) : Captures :=
  (captures.rollback mark).1

/-! ## Reading -/

/-- The slot of an entry; `none` inside for a fixed slot never used. -/
def slot (captures : Captures) (index : Nat) :
    Except CaptureFault (Option Slot) :=
  if h : index < 4 then .ok captures.fixed[index]
  else
    match captures.spill[index - 4]? with
    | some slot => .ok (some slot)
    | none => .error (.missingEntry (index - 4) captures.spill.length)

def value (captures : Captures) (slot : Slot) : Except CaptureFault String :=
  match Text.slice? captures.buffer slot.start slot.stop with
  | some value => .ok value
  | none => .error (.brokenSpan slot.start slot.stop captures.buffer)

/-- The value of a slot that has a given name.  Names are compared only if
their fingerprints agree. -/
def valueIf (captures : Captures) (slot : Option Slot) (hash : UInt64)
    (name : String) : Except CaptureFault (Option String) :=
  match slot with
  | some slot =>
    if slot.hash = hash ∧ slot.name = name then
      (captures.value slot).map some
    else .ok none
  | none => .ok none

/-- The latest of the first `count` entries with a given name. -/
def latest (captures : Captures) (hash : UInt64) (name : String) :
    Nat → Except CaptureFault (Option String)
  | 0 => .ok none
  | count + 1 => do
    match ← captures.valueIf (← captures.slot count) hash name with
    | some value => return some value
    | none => captures.latest hash name count

/-- The latest value under a name.  One or two entries are read in place. -/
def get (captures : Captures) (name : String) :
    Except CaptureFault (Option String) :=
  let hash := Text.fingerprint (Text.utf8 name)
  match captures.size with
  | 0 => .ok none
  | 1 => captures.valueIf captures.fixed[0] hash name
  | 2 => do
    match ← captures.valueIf captures.fixed[1] hash name with
    | some value => return some value
    | none => captures.valueIf captures.fixed[0] hash name
  | size => captures.latest hash name size

def entry (captures : Captures) (index : Nat) :
    Except CaptureFault (Option (String × String)) := do
  match ← captures.slot index with
  | some slot => return some (slot.name, ← captures.value slot)
  | none => return none

/-- The names and values in the order of capture. -/
def entries (captures : Captures) :
    Except CaptureFault (List (String × String)) := do
  let found ← (List.range captures.size).mapM captures.entry
  return found.filterMap id

end Captures
end Dispatch
