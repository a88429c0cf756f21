import Dispatch.Http.Address
import Dispatch.Http.Headers
import Dispatch.Http.Status
import Dispatch.Path

/-!
# Requests and responses
-/

namespace Dispatch

structure Request where
  method : Method
  target : String
  headers : Headers := .empty
  body : Bytes := []
  remoteAddress : Option SocketAddress := none
  deriving DecidableEq

namespace Request

/-- The request of a context that none was loaded into. -/
def blank : Request := { method := .get, target := "" }

instance : Inhabited Request := ⟨blank⟩

def path (request : Request) : String :=
  (Path.ofTarget request.target).text

def query? (request : Request) : Option String :=
  queryOfTarget? request.target

/-- Adds a header given as text; an illegal one is left out. -/
def withHeader (request : Request) (name value : String) : Request :=
  match HeaderName.ofText? name, HeaderValue.ofText? value with
  | some name, some value =>
    { request with headers := request.headers.append name value }
  | _, _ => request

end Request

structure Response where
  status : Status := .ok
  headers : Headers := .empty
  body : Bytes := []
  deriving DecidableEq

namespace Response

def default : Response := {}

instance : Inhabited Response := ⟨default⟩

def text (response : Response) : String :=
  Text.ofUtf8Lossy response.body

end Response
end Dispatch
