import Dispatch.Captures
import Dispatch.Failure
import Dispatch.Http.Message

/-!
# Exchanges

An exchange is what a handler sees and changes of one request: the request and
its captures, the response so far, the recorded failure, the allow list of a
refused method, and one value that middleware may attach.

Once a failure is recorded, or the status is an error, the exchange is halted,
and the steps of the chain that have not begun are left out.
-/

namespace Dispatch

structure Exchange (ε : Type) where
  request : Request := .blank
  captures : Captures := .empty
  status : Status := .ok
  responseHeaders : Headers := .empty
  responseBody : Bytes := []
  failure : Option Failure := none
  allow : AllowList := .empty
  attachment : Option ε := none

namespace Exchange

variable {ε : Type}

def blank : Exchange ε := {}

instance : Inhabited (Exchange ε) := ⟨blank⟩

/-- Takes over a request.  Captures and response stay. -/
def load (exchange : Exchange ε) (request : Request) : Exchange ε :=
  { exchange with request }

def Halted (exchange : Exchange ε) : Prop :=
  exchange.failure.isSome = true ∨ exchange.status.IsError

instance (exchange : Exchange ε) : Decidable exchange.Halted :=
  inferInstanceAs (Decidable (_ ∨ _))

def setCapture (exchange : Exchange ε) (name value : String) : Exchange ε :=
  { exchange with captures := exchange.captures.set name value }

/-! ## The response -/

def write (exchange : Exchange ε) (bytes : Bytes) : Exchange ε :=
  { exchange with responseBody := exchange.responseBody ++ bytes }

def setHeader (exchange : Exchange ε) (name : HeaderName)
    (value : HeaderValue) : Exchange ε :=
  { exchange with responseHeaders := exchange.responseHeaders.set name value }

/-- Adds a header beside those of the same name. -/
def addHeader (exchange : Exchange ε) (name : HeaderName)
    (value : HeaderValue) : Exchange ε :=
  { exchange with
    responseHeaders := exchange.responseHeaders.append name value }

def removeHeader (exchange : Exchange ε) (name : String) : Exchange ε :=
  { exchange with
    responseHeaders := exchange.responseHeaders.removeNamed name }

/-- Sets status, content type and body at once, in place of any body. -/
def respond (exchange : Exchange ε) (status : Status)
    (contentType : HeaderValue) (body : Bytes) : Exchange ε :=
  { exchange.setHeader .contentType contentType with
    status, responseBody := body }

/-- Moves the response out.  The status stays. -/
def takeResponse (exchange : Exchange ε) : Response × Exchange ε :=
  ({ status := exchange.status
     headers := exchange.responseHeaders
     body := exchange.responseBody },
   { exchange with responseHeaders := .empty, responseBody := [] })

/-- Moves the response into one that the caller keeps, whose cleared headers
are left in exchange for those of the response. -/
def takeResponseInto (exchange : Exchange ε) (kept : Response) :
    Response × Exchange ε :=
  ({ kept with
     status := exchange.status
     headers := exchange.responseHeaders
     body := exchange.responseBody },
   { exchange with
     responseHeaders := kept.headers.clear
     responseBody := [] })

/-! ## Failures -/

/-- Records a failure in place of an earlier one. -/
def fail (exchange : Exchange ε) (failure : Failure) : Exchange ε :=
  { exchange with failure := some failure }

def takeFailure (exchange : Exchange ε) : Option Failure × Exchange ε :=
  (exchange.failure, { exchange with failure := none })

/-- Clears everything that belongs to a request. -/
def reset (exchange : Exchange ε) : Exchange ε :=
  { captures := exchange.captures.reset }

end Exchange
end Dispatch
