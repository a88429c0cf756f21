import Dispatch.Http.Method

/-!
# Allow lists

The methods under which a path would have been served, in the order of their
names and each once.  GET answers HEAD, so HEAD is left out beside GET.
-/

namespace Dispatch

structure AllowList where
  methods : List Method := []
  deriving DecidableEq

namespace AllowList

def empty : AllowList := {}

instance : Inhabited AllowList := ⟨empty⟩

def contains (allow : AllowList) (method : Method) : Bool :=
  allow.methods.any (· = method)

/-- Puts a method into its place by name, unless the name is there. -/
def place (method : Method) : List Method → List Method
  | [] => [method]
  | first :: rest =>
    if method.name < first.name then method :: first :: rest
    else if method.name = first.name then first :: rest
    else first :: place method rest

def insert (allow : AllowList) (method : Method) : AllowList :=
  if method = .head ∧ allow.contains .get then allow
  else
    let others :=
      if method = .get then allow.methods.filter (· ≠ .head)
      else allow.methods
    { methods := place method others }

def ofList (methods : List Method) : AllowList :=
  methods.foldl insert empty

/-- The value of an `Allow` header. -/
def headerValue (allow : AllowList) : String :=
  ", ".intercalate (allow.methods.map Method.name)

end AllowList
end Dispatch
