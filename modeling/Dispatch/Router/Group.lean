import Dispatch.Router

/-!
# Route groups

A group puts a path and middleware of its own before the routes registered
through it.  Its middleware runs after the global one, and applies to routes
registered after it was added.  A group inside a group inherits both.
-/

namespace Dispatch

structure RouteGroup (ε σ : Type) where
  /-- Empty, or a slash and a text without slashes at its ends. -/
  base : String
  middleware : List (Handler ε σ) := []

variable {ε σ : Type}

namespace RouteGroup

/-- A text without the slashes at its front and its end. -/
def trimSlashes (text : List Char) : List Char :=
  ((text.dropWhile (· = '/')).reverse.dropWhile (· = '/')).reverse

def normalize (base : String) : String :=
  match trimSlashes base.toList with
  | [] => ""
  | trimmed => String.ofList ('/' :: trimmed)

/-- Puts a base before a template. -/
def join (base template : String) : String :=
  match template.toList with
  | [] => base
  | '/' :: _ => base ++ template
  | _ => base ++ "/" ++ template

def ofBase (base : String) : RouteGroup ε σ := { base := normalize base }

/-- A group inside a group. -/
def nested (group : RouteGroup ε σ) (base : String) : RouteGroup ε σ :=
  { group with base := normalize (join group.base base) }

def useMiddleware (group : RouteGroup ε σ) (handlers : List (Handler ε σ)) :
    RouteGroup ε σ :=
  { group with middleware := group.middleware ++ handlers }

def register (group : RouteGroup ε σ) (router : Router ε σ)
    (method : Option Method) (template : String)
    (handlers : List (Handler ε σ)) : Router.Registration ε σ :=
  let template := join group.base template
  if handlers.isEmpty then
    { router, result := .error (.noHandlers template) }
  else router.register method template (group.middleware ++ handlers)

end RouteGroup
end Dispatch
