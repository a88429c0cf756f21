/-!
# The target that a URI asks for

A URI is a path, a lone `*`, an authority alone, or a scheme with an authority
and possibly a path.  The request target is its path and query, without the
fragment.  An authority alone asks for no path.
-/

namespace Dispatch
namespace Uri

def isSchemeChar (c : Char) : Bool :=
  c.isAlphanum || ['+', '-', '.', '~'].contains c

/-- A character of an authority, other than `%` and those that end it. -/
def isAuthorityChar (c : Char) : Bool :=
  c.isAlphanum ||
    ['!', '$', '&', '\'', '(', ')', '*', '+', ',', '-', '.', ':', ';', '=',
      '@', '[', ']', '_', '~'].contains c

def isWithin (low high : Nat) (c : Char) : Bool :=
  low ≤ c.toNat && c.toNat ≤ high

def isPathChar (c : Char) : Bool :=
  isWithin 0x21 0x22 c || isWithin 0x24 0x3B c || c = '=' ||
    isWithin 0x40 0x5F c || isWithin 0x61 0x7E c || 0x80 ≤ c.toNat

def isQueryChar (c : Char) : Bool :=
  c = '!' || isWithin 0x24 0x3B c || c = '=' || isWithin 0x3F 0x7E c ||
    0x80 ≤ c.toNat

/-! ## Scheme and authority -/

inductive Scheme where
  | absent
  | tooLong
  | present (rest : List Char)

def splitScheme (text : List Char) : Scheme :=
  match text.dropWhile isSchemeChar with
  | ':' :: '/' :: '/' :: rest =>
    if (text.takeWhile isSchemeChar).length ≤ 64 then .present rest
    else .tooLong
  | _ => .absent

/-- What has been seen of an authority.  Colons and percent signs count only
where they are not part of user information or of a bracketed address. -/
structure AuthorityState where
  colons : Nat := 0
  opened : Bool := false
  closed : Bool := false
  percent : Bool := false
  endsInAt : Bool := false

namespace AuthorityState

def step (state : AuthorityState) (c : Char) : Option AuthorityState :=
  let state := { state with endsInAt := c = '@' }
  if c = ':' then
    if 8 ≤ state.colons then none
    else some { state with colons := state.colons + 1 }
  else if c = '[' then
    if state.percent || state.opened then none
    else some { state with opened := true }
  else if c = ']' then
    if !state.opened || state.closed then none
    else some { state with closed := true, colons := 0, percent := false }
  else if c = '@' then some { state with colons := 0, percent := false }
  else if c = '%' then some { state with percent := true }
  else if isAuthorityChar c then some state
  else none

def Accepts (state : AuthorityState) : Prop :=
  state.opened = state.closed ∧ state.colons ≤ 1 ∧ ¬state.endsInAt ∧
    ¬state.percent

instance (state : AuthorityState) : Decidable state.Accepts :=
  inferInstanceAs (Decidable (_ ∧ _))

end AuthorityState

def endsAuthority (c : Char) : Bool :=
  c = '/' || c = '?' || c = '#'

/-- Cuts an authority, possibly an empty one, off the front of a text. -/
def splitAuthority? (text : List Char) : Option (List Char × List Char) := do
  let authority := text.takeWhile (!endsAuthority ·)
  let state ← authority.foldlM AuthorityState.step {}
  if state.Accepts then
    return (authority, text.dropWhile (!endsAuthority ·))
  else none

/-! ## Path and query -/

/-- Path and query up to a fragment, if all their characters are legal. -/
def pathAndQuery? (text : List Char) : Option (List Char) :=
  let beforeQuery := text.takeWhile fun c => c ≠ '?' && c ≠ '#'
  let afterPath := text.dropWhile fun c => c ≠ '?' && c ≠ '#'
  if beforeQuery.all isPathChar then
    match afterPath with
    | '?' :: rest =>
      let query := rest.takeWhile (· ≠ '#')
      if query.all isQueryChar then some (beforeQuery ++ '?' :: query)
      else none
    | _ => some beforeQuery
  else none

/-- The target of a path and query: it starts with a slash or is a star. -/
def targetOf : List Char → List Char
  | '/' :: rest => '/' :: rest
  | '*' :: rest => '*' :: rest
  | text => '/' :: text

/-- The request target of a URI, or `none` if the URI is not legal. -/
def target? (uri : String) : Option String :=
  let text := uri.toList
  if 65534 < uri.utf8ByteSize then none
  else
    match text with
    | [] => none
    | ['*'] => some "*"
    | '/' :: _ => (pathAndQuery? text).map fun path =>
      String.ofList (targetOf path)
    | _ =>
      match splitScheme text with
      | .tooLong => none
      | .absent =>
        match splitAuthority? text with
        | some (_, []) => some ""
        | _ => none
      | .present rest =>
        match splitAuthority? rest with
        | none | some ([], _) => none
        | some (_, rest) => (pathAndQuery? rest).map fun path =>
          String.ofList (targetOf path)

end Uri
end Dispatch
