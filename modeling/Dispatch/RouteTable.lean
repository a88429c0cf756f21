import Dispatch.AllowList
import Dispatch.Event
import Dispatch.Specificity
import Dispatch.Trie

/-!
# The route table

Routes stand in the order of registration.  For lookup each method has a trie
and, for patterns without captures, a map from their normal path.  Patterns
without a method have a trie and a map of their own.

A request is looked up under its method, then under GET if it asks for HEAD,
then among the routes for every method.  If nothing is found, the methods are
collected under which the path would have been served.
-/

namespace Dispatch

/-! ## The routes of one method -/

structure MethodRoutes where
  /-- The first route registered for a normal path. -/
  literals : List (String × RouteId) := []
  root : Trie := .empty

namespace MethodRoutes

def empty : MethodRoutes := {}

instance : Inhabited MethodRoutes := ⟨empty⟩

def insert (routes : MethodRoutes) (pattern : Pattern) (id : RouteId) :
    MethodRoutes :=
  { literals :=
      match pattern.staticPath? with
      | none => routes.literals
      | some path => KeyedList.claim path id routes.literals
    root := routes.root.insert id pattern.segments }

/-- A path that is spelled normally is answered from the map. -/
def find (routes : MethodRoutes) (path : Path) (decode : Bool) : Search :=
  match routes.literals.lookup path.text with
  | some id => .found id
  | none => routes.root.find path.Trailing decode path.pieces

end MethodRoutes

/-! ## The table -/

/-- What becomes of a route that conflicts with an earlier one. -/
inductive ConflictPolicy where
  /-- It is refused. -/
  | strict
  /-- It is kept, and the earlier route wins where both match. -/
  | firstWins
  deriving DecidableEq, Inhabited

namespace ConflictPolicy

/-- The name by which settings choose a policy. -/
def name : ConflictPolicy → String
  | .strict => "strict"
  | .firstWins => "first_wins"

def describe : ConflictPolicy → String
  | .strict => "Strict"
  | .firstWins => "FirstWins"

end ConflictPolicy

structure Route (α : Type) where
  id : RouteId
  pattern : Pattern
  value : α
  deriving DecidableEq

inductive InsertError where
  | pattern (error : PatternError)
  /-- Both are given as method and template. -/
  | conflict (template existing : String)
  deriving DecidableEq

namespace InsertError

def kind : InsertError → String
  | .pattern error => error.kind
  | .conflict .. => "Conflict"

def message : InsertError → String
  | .pattern error => error.message
  | .conflict template existing =>
    s!"route `{template}` conflicts with `{existing}`"

end InsertError

inductive Lookup (α : Type) where
  | found (route : Route α)
  /-- The path is served under other methods only. -/
  | methodNotAllowed (allow : AllowList)
  | notFound

structure RouteTable (α : Type) where
  routes : Array (Route α) := #[]
  /-- In the order in which the methods were first used. -/
  byMethod : List (Method × MethodRoutes) := []
  anyMethod : MethodRoutes := .empty
  policy : ConflictPolicy := .strict
  /-- Whether captured values are percent-decoded. -/
  decode : Bool := true

namespace RouteTable

variable {α : Type}

def empty (policy : ConflictPolicy) : RouteTable α := { policy }

/-! ### Registration -/

def routesOf? (table : RouteTable α) (method : Method) : Option MethodRoutes :=
  table.byMethod.lookup method

def conflicting (table : RouteTable α) (pattern : Pattern) : List (Route α) :=
  table.routes.toList.filter fun route => pattern.Conflicts route.pattern

/-- The place that a pattern claims, if an earlier route holds it. -/
def holder? (table : RouteTable α) (pattern : Pattern) : Option RouteId :=
  match pattern.method with
  | some method =>
    (table.routesOf? method).bind fun routes =>
      routes.root.holder? pattern.segments
  | none => table.anyMethod.root.holder? pattern.segments

def push (table : RouteTable α) (pattern : Pattern) (value : α) :
    RouteTable α :=
  let id := table.routes.size
  let routes := table.routes.push { id, pattern, value }
  match pattern.method with
  | some method =>
    { table with
      routes
      byMethod :=
        KeyedList.update method .empty (·.insert pattern id) table.byMethod }
  | none =>
    { table with routes, anyMethod := table.anyMethod.insert pattern id }

def insert (table : RouteTable α) (pattern : Pattern) (value : α) :
    Except InsertError (RouteTable α × RouteId) :=
  match table.policy, table.conflicting pattern with
  | .strict, existing :: _ =>
    .error (.conflict pattern.toText existing.pattern.toText)
  | _, _ => .ok (table.push pattern value, table.routes.size)

def add (table : RouteTable α) (method : Option Method) (template : String)
    (value : α) : Except InsertError (RouteTable α × RouteId) :=
  match Pattern.compile template method with
  | .error error => .error (.pattern error)
  | .ok pattern => table.insert pattern value

/-- What is reported when a pattern is inserted. -/
def insertEvents (table : RouteTable α) (pattern : Pattern) : List Event :=
  let route := pattern.toText
  let conflicts := (table.conflicting pattern).map fun existing =>
    Event.routeConflict route existing.pattern.toText
  let shadowed :=
    if (table.holder? pattern).isSome then [Event.routeShadowed route] else []
  match table.policy, conflicts with
  | .strict, _ :: _ => []
  | _, _ =>
    conflicts ++ shadowed ++ [.routeRegistered route table.routes.size]

/-! ### Lookup -/

/-- The routes under which a request is looked up, in order. -/
def groups (table : RouteTable α) (method : Method) : List MethodRoutes :=
  (table.routesOf? method).toList ++
    (if method = .head then (table.routesOf? .get).toList else []) ++
    [table.anyMethod]

/-- The methods under which a path is served.  The captures of each attempt
are dropped. -/
def allowedMethods (path : Path) :
    List (Method × MethodRoutes) → AllowList → Captures → AllowList × Captures
  | [], allow, captures => (allow, captures)
  | (method, routes) :: rest, allow, captures =>
    let (id, after) := routes.find path false captures
    let allow := if id.isSome then allow.insert method else allow
    allowedMethods path rest allow (after.unwind captures.mark)

def lookup (table : RouteTable α) (method : Method) (target : String)
    (captures : Captures) : Lookup α × Captures :=
  let path := Path.ofTarget target
  let searches := (table.groups method).map (·.find path table.decode)
  let (id, captures) := Search.firstOf searches captures
  match id.bind (table.routes[·]?) with
  | some route => (.found route, captures)
  | none =>
    let (allow, captures) := allowedMethods path table.byMethod .empty captures
    if allow.methods = [] then (.notFound, captures)
    else (.methodNotAllowed allow, captures)

/-- Changes the value of one route. -/
def modify (table : RouteTable α) (id : RouteId) (change : α → α) :
    RouteTable α :=
  { table with
    routes := table.routes.modify id fun route =>
      { route with value := change route.value } }

def mapValues (table : RouteTable α) (change : α → α) : RouteTable α :=
  { table with
    routes := table.routes.map fun route =>
      { route with value := change route.value } }

end RouteTable
end Dispatch
