import Dispatch.Failure
import Dispatch.Json.Value

/-!
# Error envelopes

The JSON form in which a client sees a failure: an object with one member
`error`, which holds the code, the message and the status.

The reader takes either object or, for each of the two levels, an array of the
members in order.  Members with other names are passed over.
-/

namespace Dispatch

structure Envelope where
  code : String
  message : String
  status : Nat
  deriving DecidableEq

namespace Envelope

def ofFailure (failure : Failure) : Envelope :=
  { code := failure.code
    message := failure.message
    status := failure.status.code }

def toJson (envelope : Envelope) : String :=
  "\x7b\"error\":\x7b\"code\":" ++ JsonValue.quote envelope.code ++
    ",\"message\":" ++ JsonValue.quote envelope.message ++
    ",\"status\":" ++ toString envelope.status ++ "\x7d\x7d"

/-- The one member of a given name. -/
def member? (name : String) (members : List (Option String × JsonValue)) :
    Option JsonValue :=
  match members.filter fun member => member.1 = some name with
  | [(_, value)] => some value
  | _ => none

def text? : JsonValue → Option String
  | .string text => text
  | _ => none

/-- An integer of 16 bits, written without sign, point or exponent. -/
def status? : JsonValue → Option Nat
  | .number literal =>
    if literal.toList.all Char.isDigit then
      let value := literal.toList.foldl
        (fun value c => value * 10 + (c.toNat - '0'.toNat)) 0
      if value < 65536 then some value else none
    else none
  | _ => none

def ofFields (code message status : JsonValue) : Option Envelope := do
  return {
    code := ← text? code
    message := ← text? message
    status := ← status? status
  }

def ofDetail? : JsonValue → Option Envelope
  | .array [code, message, status] => ofFields code message status
  | .object members => do
    if members.any fun member => member.1.isNone then none
    ofFields (← member? "code" members) (← member? "message" members)
      (← member? "status" members)
  | _ => none

def ofJson? : JsonValue → Option Envelope
  | .array [detail] => ofDetail? detail
  | .object members => do
    if members.any fun member => member.1.isNone then none
    ofDetail? (← member? "error" members)
  | _ => none

/-- The envelope that a JSON text stands for. -/
def parse? (text : String) : Option Envelope :=
  (JsonValue.parse? text).bind ofJson?

end Envelope
end Dispatch
