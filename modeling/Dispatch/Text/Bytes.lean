/-!
# Bytes and text

A body, a header value and the raw form of a path are byte sequences.  Text
becomes bytes by UTF-8.  Bytes become text either strictly, refusing what is
not UTF-8, or leniently, each maximal invalid part becoming one U+FFFD.

The reader is a machine fed one byte at a time.  Its state says which byte
ranges the character begun so far still needs.
-/

namespace Dispatch

abbrev Bytes := List UInt8

namespace Text

def utf8 (text : String) : Bytes :=
  text.toList.flatMap String.utf8EncodeChar

/-- A byte range, both ends included. -/
structure ByteRange where
  low : Nat
  high : Nat
  deriving DecidableEq, Inhabited

namespace ByteRange

def Holds (range : ByteRange) (byte : UInt8) : Prop :=
  range.low ≤ byte.toNat ∧ byte.toNat ≤ range.high

instance (range : ByteRange) (byte : UInt8) : Decidable (range.Holds byte) :=
  inferInstanceAs (Decidable (_ ∧ _))

def continuation : ByteRange := ⟨0x80, 0xBF⟩

end ByteRange

/-- Inside a character, `value` holds the bits read so far, `needed` the range
of the next byte and `later` those of the bytes after it. -/
inductive Reader where
  | idle
  | within (value : Nat) (needed : ByteRange) (later : List ByteRange)
  deriving DecidableEq

namespace Reader

/-- A byte that no character is waiting for.  What has been read is a list of
characters, with `none` for a maximal invalid part.  The second byte of a long form
is restricted so that no character has two encodings, no surrogate has one
and none lies above U+10FFFF. -/
def start (byte : UInt8) : List (Option Char) × Reader :=
  let b := byte.toNat
  if b < 0x80 then ([some (Char.ofNat b)], .idle)
  else if 0xC2 ≤ b ∧ b ≤ 0xDF then ([], .within (b % 32) .continuation [])
  else if b = 0xE0 then ([], .within 0 ⟨0xA0, 0xBF⟩ [.continuation])
  else if b = 0xED then ([], .within 13 ⟨0x80, 0x9F⟩ [.continuation])
  else if 0xE1 ≤ b ∧ b ≤ 0xEF then
    ([], .within (b % 16) .continuation [.continuation])
  else if b = 0xF0 then
    ([], .within 0 ⟨0x90, 0xBF⟩ [.continuation, .continuation])
  else if 0xF1 ≤ b ∧ b ≤ 0xF3 then
    ([], .within (b % 8) .continuation [.continuation, .continuation])
  else if b = 0xF4 then
    ([], .within 4 ⟨0x80, 0x8F⟩ [.continuation, .continuation])
  else ([none], .idle)

def step : Reader → UInt8 → List (Option Char) × Reader
  | .idle, byte => start byte
  | .within value needed later, byte =>
    if needed.Holds byte then
      let value := value * 64 + byte.toNat % 64
      match later with
      | [] => ([some (Char.ofNat value)], .idle)
      | range :: ranges => ([], .within value range ranges)
    else
      let (read, reader) := start byte
      (none :: read, reader)

def read : Reader → Bytes → List (Option Char)
  | .idle, [] => []
  | .within .., [] => [none]
  | reader, byte :: bytes =>
    let (units, reader) := reader.step byte
    units ++ read reader bytes

end Reader

/-- Strict reading. -/
def ofUtf8? (bytes : Bytes) : Option String :=
  ((Reader.read .idle bytes).mapM id).map String.ofList

/-- Lenient reading. -/
def ofUtf8Lossy (bytes : Bytes) : String :=
  String.ofList ((Reader.read .idle bytes).map (·.getD '\uFFFD'))

end Text
end Dispatch
