/-!
# Request paths

A request target is cut at its first `?`.  What counts of the path before it
are its pieces, the non-empty parts between slashes, and whether it ends in a
slash.  Leading and repeated slashes carry no meaning, but a wildcard takes
the text that is left as it stands, so each piece remembers that text.
-/

namespace Dispatch

/-- The part of a target before its first `?`, and what follows the `?`. -/
def splitTarget : List Char → List Char × Option (List Char)
  | [] => ([], none)
  | c :: rest =>
    if c = '?' then ([], some rest)
    else
      let (path, query) := splitTarget rest
      (c :: path, query)

/-- A non-empty part of a path between slashes. -/
structure Piece where
  text : String
  /-- The path from the first character of this piece on. -/
  rest : String
  deriving DecidableEq, Inhabited

structure Path where
  text : String
  deriving DecidableEq, Inhabited

namespace Path

/-- The pieces of a path as pairs of a piece and the rest of the path from
there on. -/
def spans : List Char → List (List Char × List Char)
  | [] => []
  | c :: cs =>
    if c = '/' then spans cs
    else
      match cs, spans cs with
      | d :: _, (text, rest) :: more =>
        if d = '/' then ([c], c :: cs) :: (text, rest) :: more
        else (c :: text, c :: cs) :: more
      | _, more => ([c], c :: cs) :: more

def pieces (path : Path) : List Piece :=
  (spans path.text.toList).map fun (text, rest) =>
    { text := String.ofList text, rest := String.ofList rest }

def Trailing (path : Path) : Prop :=
  path.text.toList.getLast? = some '/'

instance (path : Path) : Decidable path.Trailing :=
  inferInstanceAs (Decidable (_ = _))

/-- The path of a request target. -/
def ofTarget (target : String) : Path :=
  { text := String.ofList (splitTarget target.toList).1 }

end Path

/-- The query of a request target, without its `?`. -/
def queryOfTarget? (target : String) : Option String :=
  (splitTarget target.toList).2.map String.ofList

end Dispatch
