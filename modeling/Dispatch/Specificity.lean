import Dispatch.Pattern

/-!
# How two patterns relate

`a.compareTo b` says how the requests that `a` matches relate to those of `b`.
The verdict of each position, and that of the methods, is folded with
`combine`.  Patterns of different lengths can share a request only if the
shorter one ends in a wildcard.
-/

namespace Dispatch

inductive Specificity where
  | equivalent
  | moreGeneral
  | moreSpecific
  | overlaps
  | disjoint
  deriving DecidableEq, Inhabited

namespace Specificity

def name : Specificity → String
  | .equivalent => "Equivalent"
  | .moreGeneral => "MoreGeneral"
  | .moreSpecific => "MoreSpecific"
  | .overlaps => "Overlaps"
  | .disjoint => "Disjoint"

def ofName? (name : String) : Option Specificity :=
  [.equivalent, .moreGeneral, .moreSpecific, .overlaps, .disjoint].find?
    fun verdict => verdict.name = name

def inverse : Specificity → Specificity
  | .moreGeneral => .moreSpecific
  | .moreSpecific => .moreGeneral
  | other => other

/-- The verdict on two positions together. -/
def combine : Specificity → Specificity → Specificity
  | .equivalent, next => next
  | .disjoint, _ => .disjoint
  | .overlaps, .disjoint => .disjoint
  | .overlaps, _ => .overlaps
  | .moreGeneral, .equivalent => .moreGeneral
  | .moreGeneral, .moreSpecific => .overlaps
  | .moreGeneral, next => next
  | .moreSpecific, .equivalent => .moreSpecific
  | .moreSpecific, .moreGeneral => .overlaps
  | .moreSpecific, next => next

/-- No method includes every method, and GET includes HEAD. -/
def ofMethods : Option Method → Option Method → Specificity
  | none, none => .equivalent
  | none, some _ => .moreGeneral
  | some _, none => .moreSpecific
  | some a, some b =>
    if a = b then .equivalent
    else if a = .get ∧ b = .head then .moreGeneral
    else if a = .head ∧ b = .get then .moreSpecific
    else .disjoint

/-- A parameter takes one piece and so never stands for the trailing slash
that an end anchor asks for. -/
def ofSegments : Segment → Segment → Specificity
  | .wildcard _, .wildcard _ => .equivalent
  | .param _, .param _ => .equivalent
  | .endAnchor, .endAnchor => .equivalent
  | .wildcard _, _ => .moreGeneral
  | _, .wildcard _ => .moreSpecific
  | .param _, .literal _ => .moreGeneral
  | .literal _, .param _ => .moreSpecific
  | .literal a, .literal b => if a = b then .equivalent else .disjoint
  | .param _, .endAnchor | .endAnchor, .param _ => .disjoint
  | .literal _, .endAnchor | .endAnchor, .literal _ => .disjoint

/-- The verdict on the positions that both segment lists have. -/
def ofAligned (left right : List Segment) : Specificity :=
  (List.zipWith ofSegments left right).foldl combine .equivalent

def endsInWildcard (segments : List Segment) : Bool :=
  match segments.getLast? with
  | some (.wildcard _) => true
  | _ => false

def ofPaths (left right : List Segment) : Specificity :=
  let aligned := ofAligned left right
  if left.length = right.length then aligned
  else if aligned = .disjoint then .disjoint
  else if left.length < right.length ∧ endsInWildcard left then
    aligned.combine .moreGeneral
  else if right.length < left.length ∧ endsInWildcard right then
    aligned.combine .moreSpecific
  else .disjoint

end Specificity

namespace Pattern

def compareTo (a b : Pattern) : Specificity :=
  (Specificity.ofMethods a.method b.method).combine
    (Specificity.ofPaths a.segments b.segments)

/-- Two patterns conflict if neither is the more specific one for the
requests that both match. -/
def Conflicts (a b : Pattern) : Prop :=
  a.compareTo b = .equivalent ∨ a.compareTo b = .overlaps

instance (a b : Pattern) : Decidable (a.Conflicts b) :=
  inferInstanceAs (Decidable (_ ∨ _))

end Pattern
end Dispatch
