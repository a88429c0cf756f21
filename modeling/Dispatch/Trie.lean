import Dispatch.Captures
import Dispatch.KeyedList
import Dispatch.Pattern

/-!
# The trie of one method's routes

A node stands for a list of segments.  It holds the route that ends there, the
one that ends there with an end anchor, its children, and the wildcard routes
below it.  Literal children are sorted; parameter children and wildcards keep
the order in which their names first came.

A search tries the literal child first, then each parameter child, then the
first wildcard.  It writes captures as it goes down and takes them back when a
branch fails.
-/

namespace Dispatch

/-- The place of a route in the order of registration. -/
abbrev RouteId := Nat

structure Trie where
  route : Option RouteId := none
  anchored : Option RouteId := none
  literals : List (String × Trie) := []
  params : List (String × Trie) := []
  wildcards : List (String × RouteId) := []

namespace Trie

def empty : Trie := {}

instance : Inhabited Trie := ⟨empty⟩

/-! ## Insertion -/

/-- Changes the child called `text`, which is made if need be, in a list
sorted by name. -/
def updateSorted (text : String) (change : Trie → Trie) :
    List (String × Trie) → List (String × Trie)
  | [] => [(text, change empty)]
  | (name, child) :: rest =>
    if text < name then (text, change empty) :: (name, child) :: rest
    else if text = name then (name, change child) :: rest
    else (name, child) :: updateSorted text change rest

/-- The route that holds the slot of a segment list. -/
def holder? : List Segment → Trie → Option RouteId
  | [], trie => trie.route
  | .literal text :: rest, trie => (trie.literals.lookup text).bind (holder? rest)
  | .param name :: rest, trie => (trie.params.lookup name).bind (holder? rest)
  | .wildcard name :: _, trie => trie.wildcards.lookup name
  | .endAnchor :: _, trie => trie.anchored

/-- Adds a route, which gets the slot of its segments only if that is free. -/
def insert (id : RouteId) : List Segment → Trie → Trie
  | [], trie => { trie with route := trie.route.or (some id) }
  | .literal text :: rest, trie =>
    { trie with literals := updateSorted text (insert id rest) trie.literals }
  | .param name :: rest, trie =>
    { trie with
      params := KeyedList.update name empty (insert id rest) trie.params }
  | .wildcard name :: _, trie =>
    { trie with wildcards := KeyedList.claim name id trie.wildcards }
  | .endAnchor :: _, trie =>
    { trie with anchored := trie.anchored.or (some id) }

end Trie

/-! ## Searching -/

/-- A search may leave captures behind when it finds a route. -/
abbrev Search := Captures → Option RouteId × Captures

namespace Search

def found (id : RouteId) : Search := fun captures => (some id, captures)

def ofOption (id : Option RouteId) : Search := fun captures => (id, captures)

def orElse (first second : Search) : Search := fun captures =>
  match first captures with
  | (some id, captures) => (some id, captures)
  | (none, captures) => second captures

/-- The first of some searches that finds a route. -/
def firstOf (searches : List Search) : Search :=
  searches.foldr orElse (ofOption none)

/-- Captures a value for the search, and drops it if the search fails. -/
def capturing (name raw : String) (decode : Bool) (search : Search) : Search :=
  fun captures =>
    match search (captures.capture name raw decode) with
    | (some id, after) => (some id, after)
    | (none, after) => (none, after.unwind captures.mark)

end Search

namespace Trie

def find (trailing decode : Bool) : List Piece → Trie → Search
  | [], trie =>
    .ofOption
      (if trailing && trie.anchored.isSome then trie.anchored else trie.route)
  | piece :: rest, trie =>
    let literal := (trie.literals.lookup piece.text).toList.map
      fun child => find trailing decode rest child
    let params := trie.params.map fun (name, child) =>
      .capturing name piece.text decode (find trailing decode rest child)
    let wildcard := trie.wildcards.head?.toList.map fun (name, id) =>
      .capturing name piece.rest decode (.found id)
    .firstOf (literal ++ params ++ wildcard)

end Trie
end Dispatch
