import Dispatch.Http.Method
import Dispatch.Path

/-!
# Route patterns

A route template such as `/users/:id` or `/assets/*path` is cut into its
non-empty pieces, and each piece is read as a segment.  Capture names occur
once, and a wildcard or an end anchor stands only at the end.

Compiling reports the first fault at the first faulty piece: its own form is
judged first, then its place, then its name.
-/

namespace Dispatch

inductive Segment where
  | literal (text : String)
  | param (name : String)
  /-- Takes one or more pieces. -/
  | wildcard (name : String)
  /-- Takes no piece, but the path has to end in a slash. -/
  | endAnchor
  deriving DecidableEq, Inhabited

inductive PatternError where
  | emptyTemplate
  | missingLeadingSlash (template : String)
  | malformedBrace (template segment : String)
  | emptyParamName (template : String)
  | duplicateParam (template name : String)
  | wildcardNotLast (template : String)
  | endAnchorNotLast (template : String)
  deriving DecidableEq

namespace PatternError

/-- The name by which programs tell the errors apart. -/
def kind : PatternError → String
  | .emptyTemplate => "Empty"
  | .missingLeadingSlash .. => "MissingLeadingSlash"
  | .malformedBrace .. => "MalformedBrace"
  | .emptyParamName .. => "EmptyParamName"
  | .duplicateParam .. => "DuplicateParam"
  | .wildcardNotLast .. => "WildcardNotLast"
  | .endAnchorNotLast .. => "EndAnchorNotLast"

def message : PatternError → String
  | .emptyTemplate => "route template is empty"
  | .missingLeadingSlash template =>
    s!"route template `{template}` must start with '/'"
  | .malformedBrace template segment =>
    s!"malformed brace in segment `{segment}` of `{template}`"
  | .emptyParamName template => s!"empty parameter name in `{template}`"
  | .duplicateParam template name =>
    s!"duplicate parameter `{name}` in `{template}`"
  | .wildcardNotLast template =>
    s!"wildcard must be the last segment of `{template}`"
  | .endAnchorNotLast template =>
    s!"end anchor `\x7b$\x7d` must be the last segment of `{template}`"

end PatternError

/-! ## Segments -/

namespace Segment

def captureName? : Segment → Option String
  | .param name | .wildcard name => some name
  | .literal _ | .endAnchor => none

def IsFinal : Segment → Prop
  | .wildcard _ | .endAnchor => True
  | .literal _ | .param _ => False

instance : DecidablePred IsFinal := fun segment => by
  cases segment <;> unfold IsFinal <;> infer_instance

/-- What can be wrong with a piece by itself. -/
inductive Fault where
  | malformedBrace
  | emptyName
  deriving DecidableEq

def isBrace (c : Char) : Bool :=
  c = '{' || c = '}'

def named (segment : String → Segment) (name : List Char) :
    Except Fault Segment :=
  if name = [] then .error .emptyName else .ok (segment (String.ofList name))

/-- The text without an ending, if it has that. -/
def stripEnd? (ending text : List Char) : Option (List Char) :=
  if ending.isSuffixOf text then
    some (text.take (text.length - ending.length))
  else none

/-- The part of a braced piece between its braces. -/
def ofBraced (inner : List Char) : Except Fault Segment :=
  if inner.any isBrace then .error .malformedBrace
  else
    match stripEnd? ['.', '.', '.'] inner with
    | some name => named .wildcard name
    | none => named .param inner

def ofPiece (piece : List Char) : Except Fault Segment :=
  if piece = ['{', '$', '}'] then .ok .endAnchor
  else
    match piece with
    | '{' :: inner =>
      match stripEnd? ['}'] inner with
      | some inner => ofBraced inner
      | none => .error .malformedBrace
    | _ =>
      if piece.any isBrace then .error .malformedBrace
      else
        match piece with
        | ':' :: name => named .param name
        | ['*'] => .ok (.wildcard "*")
        | '*' :: name => .ok (.wildcard (String.ofList name))
        | _ => .ok (.literal (String.ofList piece))

end Segment

/-! ## Compiled patterns -/

structure Pattern where
  template : String
  /-- No method stands for every method. -/
  method : Option Method
  segments : List Segment
  deriving DecidableEq

namespace Pattern

/-- Reads one piece of a template, given the capture names before it and
whether it is the last. -/
def readPiece (template : String) (before : List String) (last : Bool)
    (piece : List Char) : Except PatternError Segment :=
  match Segment.ofPiece piece with
  | .error .malformedBrace =>
    .error (.malformedBrace template (String.ofList piece))
  | .error .emptyName => .error (.emptyParamName template)
  | .ok (.wildcard name) =>
    if !last then .error (.wildcardNotLast template)
    else if name ∈ before then .error (.duplicateParam template name)
    else .ok (.wildcard name)
  | .ok .endAnchor =>
    if !last then .error (.endAnchorNotLast template) else .ok .endAnchor
  | .ok (.param name) =>
    if name ∈ before then .error (.duplicateParam template name)
    else .ok (.param name)
  | .ok (.literal text) => .ok (.literal text)

def readPieces (template : String) (before : List String) :
    List (List Char) → Except PatternError (List Segment)
  | [] => .ok []
  | piece :: rest => do
    let segment ← readPiece template before rest.isEmpty piece
    let before := before ++ segment.captureName?.toList
    return segment :: (← readPieces template before rest)

def compile (template : String) (method : Option Method) :
    Except PatternError Pattern :=
  match template.toList with
  | [] => .error .emptyTemplate
  | '/' :: rest => do
    let pieces := (Path.spans rest).map Prod.fst
    let segments ← readPieces template [] pieces
    return { template, method, segments }
  | _ => .error (.missingLeadingSlash template)

def paramNames (pattern : Pattern) : List String :=
  pattern.segments.filterMap Segment.captureName?

def HasParams (pattern : Pattern) : Prop :=
  pattern.paramNames ≠ []

instance (pattern : Pattern) : Decidable pattern.HasParams :=
  inferInstanceAs (Decidable (_ ≠ _))

/-- The text of a path made of literals, up to its end anchor. -/
def literalText : List Segment → Option String
  | [] => some ""
  | .literal text :: rest => (literalText rest).map ("/" ++ text ++ ·)
  | .endAnchor :: rest => (literalText rest).map ("/" ++ ·)
  | .param _ :: _ | .wildcard _ :: _ => none

/-- The one normal path of a pattern without captures.  The anchored root has
none, since `/` also names the root. -/
def staticPath? (pattern : Pattern) : Option String :=
  if pattern.segments = [.endAnchor] then none
  else
    (literalText pattern.segments).map fun text =>
      if text = "" then "/" else text

/-- The method, if there is one, and the template. -/
def toText (pattern : Pattern) : String :=
  match pattern.method with
  | some method => s!"{method.name} {pattern.template}"
  | none => pattern.template

end Pattern
end Dispatch
