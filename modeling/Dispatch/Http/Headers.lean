import Dispatch.Http.Method
import Dispatch.Text.Bytes

/-!
# Header fields

A name is a token kept in lower case.  A value is a byte sequence without
controls other than the tab.  A field may have several values; they keep their
order, and the fields stand in the order of their names, so that equal sets of
fields are equal values.
-/

namespace Dispatch

structure HeaderName where
  text : String
  deriving DecidableEq

namespace HeaderName

def ofText? (text : String) : Option HeaderName :=
  if isToken text ∧ text.utf8ByteSize ≤ 65535 then
    some ⟨String.ofList (text.toList.map Char.toLower)⟩
  else none

def allow : HeaderName := ⟨"allow"⟩
def contentType : HeaderName := ⟨"content-type"⟩

end HeaderName

def isHeaderByte (byte : UInt8) : Bool :=
  byte = 9 || (32 ≤ byte && byte ≠ 127)

/-- A byte of a value that can be read as text. -/
def isVisibleByte (byte : UInt8) : Bool :=
  byte = 9 || (32 ≤ byte && byte < 127)

structure HeaderValue where
  bytes : Bytes
  legal : bytes.all isHeaderByte = true
  deriving DecidableEq

namespace HeaderValue

def ofBytes? (bytes : Bytes) : Option HeaderValue :=
  if h : bytes.all isHeaderByte = true then some ⟨bytes, h⟩ else none

def ofText? (text : String) : Option HeaderValue :=
  ofBytes? (Text.utf8 text)

/-- The value as text, if it is visible ASCII. -/
def text? (value : HeaderValue) : Option String :=
  if value.bytes.all isVisibleByte then Text.ofUtf8? value.bytes else none

/-- A value that can be read back as text. -/
def ofVisibleText? (text : String) : Option HeaderValue :=
  (ofText? text).filter fun value => value.text?.isSome

end HeaderValue

structure Headers where
  /-- Sorted by name; values of one name in the order in which they came. -/
  fields : List (HeaderName × HeaderValue) := []
  deriving DecidableEq

namespace Headers

def empty : Headers := {}

instance : Inhabited Headers := ⟨empty⟩

def clear (headers : Headers) : Headers := { headers with fields := [] }

/-- Puts a field after those whose names are not greater. -/
def place (name : HeaderName) (value : HeaderValue) :
    List (HeaderName × HeaderValue) → List (HeaderName × HeaderValue)
  | [] => [(name, value)]
  | field :: rest =>
    if name.text < field.1.text then (name, value) :: field :: rest
    else field :: place name value rest

def append (headers : Headers) (name : HeaderName) (value : HeaderValue) :
    Headers :=
  { fields := place name value headers.fields }

def remove (headers : Headers) (name : HeaderName) : Headers :=
  { fields := headers.fields.filter fun field => field.1 ≠ name }

/-- Removes the fields that a text names; one that is no name names none. -/
def removeNamed (headers : Headers) (name : String) : Headers :=
  (HeaderName.ofText? name).elim headers headers.remove

/-- Replaces all values of a name. -/
def set (headers : Headers) (name : HeaderName) (value : HeaderValue) :
    Headers :=
  (headers.remove name).append name value

def values (headers : Headers) (name : HeaderName) : List HeaderValue :=
  (headers.fields.filter fun field => field.1 = name).map Prod.snd

/-- The first value of a field as text. -/
def text? (headers : Headers) (name : String) : Option String := do
  let name ← HeaderName.ofText? name
  let value ← (headers.values name).head?
  value.text?

end Headers
end Dispatch
