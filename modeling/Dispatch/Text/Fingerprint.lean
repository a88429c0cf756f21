import Dispatch.Text.Bytes

/-!
# Fingerprints of names

The 64-bit FNV-1a hash.  Stored names carry it so that most comparisons of
different names end after one word.
-/

namespace Dispatch
namespace Text

def fingerprint (bytes : Bytes) : UInt64 :=
  bytes.foldl (fun hash byte => (hash ^^^ byte.toUInt64) * 0x100000001b3)
    0xcbf29ce484222325

end Text
end Dispatch
