import Dispatch.Text.Bytes

/-!
# Hexadecimal text

Bytes are written with two lower-case digits each, numbers without leading
zeros.  Digits of either case are read.
-/

namespace Dispatch
namespace Text

def hexDigit? (c : Char) : Option Nat :=
  if '0' ≤ c ∧ c ≤ '9' then some (c.toNat - '0'.toNat)
  else if 'a' ≤ c ∧ c ≤ 'f' then some (c.toNat - 'a'.toNat + 10)
  else if 'A' ≤ c ∧ c ≤ 'F' then some (c.toNat - 'A'.toNat + 10)
  else none

def hexOfNat (n : Nat) : String :=
  String.ofList (Nat.toDigits 16 n)

def hexByte (byte : UInt8) : List Char :=
  [Nat.digitChar (byte.toNat / 16), Nat.digitChar (byte.toNat % 16)]

def hexOfBytes (bytes : Bytes) : String :=
  String.ofList (bytes.flatMap hexByte)

/-- The bytes of an even number of digits. -/
def bytesOfHex? : List Char → Option Bytes
  | [] => some []
  | high :: low :: rest => do
    let high ← hexDigit? high
    let low ← hexDigit? low
    return UInt8.ofNat (high * 16 + low) :: (← bytesOfHex? rest)
  | [_] => none

/-- The sixteen digits of a word. -/
def hexOfWord (word : UInt64) : String :=
  hexOfBytes ([56, 48, 40, 32, 24, 16, 8, 0].map
    fun shift : UInt64 => (word >>> shift).toUInt8)

end Text
end Dispatch
