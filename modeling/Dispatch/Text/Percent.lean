import Dispatch.Text.Hex

/-!
# Percent-decoding

`%XX` with two hexadecimal digits stands for one byte, and any other `%` for
itself.  The bytes are then read leniently as UTF-8.
-/

namespace Dispatch
namespace Text

/-- The value of a byte that is an ASCII hexadecimal digit. -/
def hexDigitByte? (byte : UInt8) : Option UInt8 :=
  (hexDigit? (Char.ofNat byte.toNat)).map UInt8.ofNat

def percentUnescape : Bytes → Bytes
  | [] => []
  | percent :: high :: low :: rest =>
    if percent = 0x25 then
      match hexDigitByte? high, hexDigitByte? low with
      | some h, some l => (h * 16 + l) :: percentUnescape rest
      | _, _ => percent :: percentUnescape (high :: low :: rest)
    else percent :: percentUnescape (high :: low :: rest)
  | byte :: rest => byte :: percentUnescape rest

def percentDecode (text : String) : String :=
  ofUtf8Lossy (percentUnescape (utf8 text))

end Text
end Dispatch
