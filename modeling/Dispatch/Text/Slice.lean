import Dispatch.Text.Bytes

/-!
# Slices by byte offset

Text kept in one shared buffer is addressed by byte offsets.  An offset is
usable if it lies inside the buffer and between two characters.
-/

namespace Dispatch
namespace Text

/-- The characters after the first `count` bytes. -/
def dropBytes? : Nat → List Char → Option (List Char)
  | 0, text => some text
  | _ + 1, [] => none
  | count, c :: rest =>
    if c.utf8Size ≤ count then dropBytes? (count - c.utf8Size) rest else none

/-- The characters in the first `count` bytes. -/
def takeBytes? : Nat → List Char → Option (List Char)
  | 0, _ => some []
  | _ + 1, [] => none
  | count, c :: rest =>
    if c.utf8Size ≤ count then
      (takeBytes? (count - c.utf8Size) rest).map (c :: ·)
    else none

def slice? (text : String) (start stop : Nat) : Option String :=
  if start ≤ stop then
    ((dropBytes? start text.toList).bind (takeBytes? (stop - start))).map
      String.ofList
  else none

/-- Cuts a text down to `size` bytes; a text that is not longer stays. -/
def truncate? (text : String) (size : Nat) : Option String :=
  if text.utf8ByteSize ≤ size then some text
  else (takeBytes? size text.toList).map String.ofList

end Text
end Dispatch
