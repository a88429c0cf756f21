import Dispatch.Text.Hex

/-!
# Socket addresses

The text forms of an IPv4 or IPv6 address with a port.  An IPv6 address is
written with its longest run of zero groups, of two or more, contracted to
`::`, and with an embedded IPv4 address in dotted form.

A reader takes what it reads off the front of a text and returns the rest.
-/

namespace Dispatch

inductive SocketAddress where
  | v4 (octets : List UInt8) (port : UInt16)
  | v6 (groups : List UInt16) (scope : UInt32) (port : UInt16)
  deriving DecidableEq

namespace SocketAddress

/-! ## Writing -/

def groupText (group : UInt16) : String :=
  Text.hexOfNat group.toNat

def groupsText (groups : List UInt16) : String :=
  ":".intercalate (groups.map groupText)

def octetsText (octets : List UInt8) : String :=
  ".".intercalate (octets.map fun octet => toString octet.toNat)

/-- The octets of two groups. -/
def groupOctets (groups : List UInt16) : List UInt8 :=
  groups.flatMap fun (group : UInt16) => [(group >>> 8).toUInt8, group.toUInt8]

/-- The length of the run of zeros at the front. -/
def zerosAtFront (groups : List UInt16) : Nat :=
  (groups.takeWhile (· = 0)).length

/-- Start and length of the first longest run of zero groups. -/
def longestZeros (groups : List UInt16) : Nat × Nat :=
  (List.range groups.length).foldl (fun best start =>
      let length := zerosAtFront (groups.drop start)
      if best.2 < length then (start, length) else best)
    (0, 0)

def v6Text (groups : List UInt16) : String :=
  if groups.take 6 = [0, 0, 0, 0, 0, 0xFFFF] then
    "::ffff:" ++ octetsText (groupOctets (groups.drop 6))
  else
    let (start, length) := longestZeros groups
    if 1 < length then
      groupsText (groups.take start) ++ "::" ++
        groupsText (groups.drop (start + length))
    else groupsText groups

def toText : SocketAddress → String
  | .v4 octets port => s!"{octetsText octets}:{port.toNat}"
  | .v6 groups scope port =>
    let zone := if scope = 0 then "" else s!"%{scope.toNat}"
    s!"[{v6Text groups}{zone}]:{port.toNat}"

/-! ## Reading -/

abbrev TextReader (α : Type) := List Char → Option (α × List Char)

def digit? (radix : Nat) (c : Char) : Option Nat :=
  (Text.hexDigit? c).filter (· < radix)

/-- The digits at the front of a text. -/
def leadingDigits (radix : Nat) : List Char → List Nat × List Char
  | [] => ([], [])
  | c :: rest =>
    match digit? radix c with
    | some d =>
      let (digits, rest) := leadingDigits radix rest
      (d :: digits, rest)
    | none => ([], c :: rest)

/-- A number below `bound`, of at most `maxDigits` digits if that is given. -/
def number (radix bound : Nat) (maxDigits : Option Nat) (zeroFirst : Bool) :
    TextReader Nat := fun text =>
  let (digits, rest) := leadingDigits radix text
  let value := digits.foldl (fun value d => value * radix + d) 0
  let short := digits.length ≤ maxDigits.getD digits.length
  let plain := zeroFirst || digits.head? ≠ some 0 || digits.length = 1
  if digits ≠ [] ∧ short ∧ value < bound ∧ plain then some (value, rest)
  else none

def expect (c : Char) : List Char → Option (List Char)
  | d :: rest => if c = d then some rest else none
  | [] => none

def octets : TextReader (List UInt8) := fun text => do
  let octet := number 10 256 (some 3) false
  let (a, text) ← octet text
  let (b, text) ← octet (← expect '.' text)
  let (c, text) ← octet (← expect '.' text)
  let (d, text) ← octet (← expect '.' text)
  return ([a, b, c, d].map UInt8.ofNat, text)

def afterColon {α : Type} (first : Bool) (reader : TextReader α) :
    TextReader α := fun text =>
  if first then reader text else (expect ':' text).bind reader

/-- Up to `limit` groups and whether the last two came in dotted form. -/
def readGroups (first : Bool) : Nat → List Char →
    (List UInt16 × Bool) × List Char
  | 0, text => (([], false), text)
  | limit + 1, text =>
    let dotted :=
      if limit = 0 then none else afterColon first octets text
    match dotted with
    | some ([a, b, c, d], rest) =>
      let pair (high low : UInt8) : UInt16 :=
        high.toUInt16 * 256 + low.toUInt16
      (([pair a b, pair c d], true), rest)
    | _ =>
      match afterColon first (number 16 65536 (some 4) true) text with
      | some (group, rest) =>
        let ((groups, dotted), rest) := readGroups false limit rest
        ((UInt16.ofNat group :: groups, dotted), rest)
      | none => (([], false), text)

def groups : TextReader (List UInt16) := fun text => do
  let ((front, dotted), text) := readGroups true 8 text
  if front.length = 8 then return (front, text)
  if dotted then none
  let text ← expect ':' (← expect ':' text)
  let ((back, _), text) := readGroups true (7 - front.length) text
  let zeros := List.replicate (8 - front.length - back.length) 0
  return (front ++ zeros ++ back, text)

def port : TextReader UInt16 := fun text => do
  let (port, text) ← number 10 65536 none true (← expect ':' text)
  return (UInt16.ofNat port, text)

def readV4? (text : List Char) : Option SocketAddress := do
  let (octets, text) ← octets text
  let (port, text) ← port text
  if text = [] then return .v4 octets port else none

def readV6? (text : List Char) : Option SocketAddress := do
  let (groups, text) ← groups (← expect '[' text)
  let (scope, text) :=
    match (expect '%' text).bind (number 10 UInt32.size none true) with
    | some (scope, rest) => (scope, rest)
    | none => (0, text)
  let (port, text) ← port (← expect ']' text)
  if text = [] then return .v6 groups (UInt32.ofNat scope) port else none

def ofText? (text : String) : Option SocketAddress :=
  (readV4? text.toList).or (readV6? text.toList)

end SocketAddress
end Dispatch
