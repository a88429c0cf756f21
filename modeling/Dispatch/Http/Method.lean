/-!
# Request methods

A method is a non-empty token.  Methods are compared by name, and case counts:
`get` is a method of its own.
-/

namespace Dispatch

/-- The characters of a token, as in a method or a header name. -/
def isTokenChar (c : Char) : Bool :=
  c.isAlphanum ||
    ['!', '#', '$', '%', '&', '\'', '*', '+', '-', '.', '^', '_',
      '\x60', '|', '~'].contains c

def isToken (text : String) : Bool :=
  text ≠ "" && text.toList.all isTokenChar

structure Method where
  name : String
  isToken_name : isToken name = true
  deriving DecidableEq

namespace Method

def ofName? (name : String) : Option Method :=
  if h : isToken name = true then some ⟨name, h⟩ else none

def get : Method := ⟨"GET", by decide⟩
def head : Method := ⟨"HEAD", by decide⟩
def post : Method := ⟨"POST", by decide⟩
def put : Method := ⟨"PUT", by decide⟩
def delete : Method := ⟨"DELETE", by decide⟩
def patch : Method := ⟨"PATCH", by decide⟩
def options : Method := ⟨"OPTIONS", by decide⟩

instance : Inhabited Method := ⟨get⟩

end Method
end Dispatch
