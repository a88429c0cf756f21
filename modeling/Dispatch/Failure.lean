import Dispatch.AllowList
import Dispatch.Http.Status
import Dispatch.Text.Quoted

/-!
# Failures of a request

What a handler records, or the router, when a request cannot be answered as
asked.  Every failure has a status, a code for programs and a message for
people.
-/

namespace Dispatch

/-- What led to a failure: a text, and what in turn led to that. -/
structure Cause where
  text : String
  earlier : List String := []
  deriving DecidableEq

namespace Cause

/-- An error text with the contexts that were put around it, one by one. -/
def inContexts (text : String) (contexts : List String) : Cause :=
  match contexts.reverse ++ [text] with
  | outermost :: earlier => { text := outermost, earlier }
  | [] => { text }

/-- Indents all lines but the first. -/
def indent (width : Nat) (text : String) : String :=
  let margin := List.replicate width ' '
  String.ofList (text.toList.flatMap fun c =>
    if c = '\n' then '\n' :: margin else [c])

/-- The text, and below it the earlier ones, numbered if there are several. -/
def describe (cause : Cause) : String :=
  match cause.earlier with
  | [] => cause.text
  | [only] => cause.text ++ "\n\nCaused by:\n    " ++ indent 4 only
  | several =>
    let lines := several.zipIdx.map fun (text, index) =>
      let label := toString index
      "\n" ++ String.ofList (List.replicate (5 - label.length) ' ') ++
        label ++ ": " ++ indent 7 text
    cause.text ++ "\n\nCaused by:" ++ String.join lines

end Cause

inductive Failure where
  | notFound (path : String)
  | methodNotAllowed (allow : AllowList)
  | http (status : Status) (message : String)
  | internal (message : String) (source : Option Cause)
  deriving DecidableEq

namespace Failure

/-- The failure that a bare status stands for. -/
def ofStatus (status : Status) : Failure :=
  .http status (status.reason?.getD "Error")

def ofCause (cause : Cause) : Failure :=
  .internal cause.text (some cause)

def kind : Failure → String
  | .notFound _ => "NotFound"
  | .methodNotAllowed _ => "MethodNotAllowed"
  | .http .. => "Http"
  | .internal .. => "Internal"

def status : Failure → Status
  | .notFound _ => .notFound
  | .methodNotAllowed _ => .methodNotAllowed
  | .http status _ => status
  | .internal .. => .internalServerError

def isInternal : Failure → Bool
  | .internal .. => true
  | _ => false

def message : Failure → String
  | .notFound path => s!"Not found: {path}"
  | .methodNotAllowed allow =>
    s!"Method not allowed: use one of {allow.headerValue}"
  | .http _ message => message
  | .internal message _ => s!"Internal error: {message}"

def source? : Failure → Option Cause
  | .internal _ source => source
  | _ => none

/-- A reason phrase in capitals, with underscores between the words. -/
def screamingSnake (reason : String) : String :=
  String.ofList (reason.toList.map fun c =>
    if c.isAlphanum then c.toUpper else '_')

def code : Failure → String
  | .notFound _ => "NOT_FOUND"
  | .methodNotAllowed _ => "METHOD_NOT_ALLOWED"
  | .internal .. => "INTERNAL_ERROR"
  | .http status _ =>
    match status.reason? with
    | some reason => screamingSnake reason
    | none => "HTTP_ERROR"

def describe (failure : Failure) : String :=
  let fields := match failure with
    | .notFound path => "path: " ++ Text.quoted path
    | .methodNotAllowed allow =>
      "allowed: AllowedMethods \x7b methods: [" ++
        ", ".intercalate (allow.methods.map Method.name) ++ "] \x7d"
    | .http status message =>
      s!"status: {status.code}, message: " ++ Text.quoted message
    | .internal message source =>
      let shown := match source with
        | some cause => s!"Some({cause.describe})"
        | none => "None"
      "message: " ++ Text.quoted message ++ s!", source: {shown}"
  failure.kind ++ " \x7b " ++ fields ++ " \x7d"

end Failure
end Dispatch
