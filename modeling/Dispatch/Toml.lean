import Dispatch.Text.Hex

/-!
# Settings texts

The part of TOML 1.0 that a text of settings can use: comments, keys, strings,
integers, booleans, and tables in every spelling.  Floats, dates and filled
arrays are refused here already, since no setting takes one.

A text is read into statements, and these are then put into the root table one
by one.  A table may be defined only once, whether by a header, by dotted keys
or inline.
-/

namespace Dispatch

/-- How a table came to be. -/
inductive TableOrigin where
  /-- Only named on the way to another table. -/
  | implied
  | dotted
  | header
  | inline
  deriving DecidableEq

inductive TomlValue where
  | string (text : String)
  | integer (value : Int)
  | boolean (value : Bool)
  | emptyArray
  | table (origin : TableOrigin) (entries : List (String × TomlValue))
  /-- Tables under one repeated header. -/
  | tables (elements : List (List (String × TomlValue)))

namespace TomlValue

abbrev Entries := List (String × TomlValue)

def IsEmpty : TomlValue → Prop
  | .emptyArray | .table _ [] => True
  | _ => False

instance : DecidablePred IsEmpty := fun value => by
  unfold IsEmpty
  split <;> infer_instance

/-! ## Characters -/

def isSpace (c : Char) : Bool := c = ' ' || c = '\t'

def isControl (c : Char) : Bool :=
  (c.toNat < 0x20 && c ≠ '\t') || c = '\x7f'

def isKeyChar (c : Char) : Bool := c.isAlphanum || c = '_' || c = '-'

def skipSpaces (text : List Char) : List Char := text.dropWhile isSpace

/-- A line end, if the text starts with one. -/
def newline? : List Char → Option (List Char)
  | '\n' :: rest => some rest
  | '\r' :: '\n' :: rest => some rest
  | _ => none

def digit? (radix : Nat) (c : Char) : Option Nat :=
  (Text.hexDigit? c).filter (· < radix)

/-! ## Strings -/

/-- The character with the number that `count` hexadecimal digits give. -/
def codePoint? (count : Nat) (text : List Char) :
    Option (Char × List Char) := do
  if text.length < count then none
  let digits ← (text.take count).mapM (digit? 16)
  let value := digits.foldl (fun value d => value * 16 + d) 0
  if value.isValidChar then return (Char.ofNat value, text.drop count)
  else none

/-- An escape, after its backslash. -/
def escape? : List Char → Option (Char × List Char)
  | 'b' :: rest => some ('\x08', rest)
  | 't' :: rest => some ('\t', rest)
  | 'n' :: rest => some ('\n', rest)
  | 'f' :: rest => some ('\x0c', rest)
  | 'r' :: rest => some ('\r', rest)
  | '"' :: rest => some ('"', rest)
  | '\\' :: rest => some ('\\', rest)
  | 'u' :: rest => codePoint? 4 rest
  | 'U' :: rest => codePoint? 8 rest
  | _ => none

/-- A string on one line, up to its closing quote.  Only one between double
quotes has escapes. -/
def lineString (quote : Char) : Nat → List Char →
    Option (List Char × List Char)
  | 0, _ | _, [] => none
  | fuel + 1, c :: rest =>
    if c = quote then some ([], rest)
    else if c = '\\' ∧ quote = '"' then do
      let (c, rest) ← escape? rest
      let (text, rest) ← lineString quote fuel rest
      return (c :: text, rest)
    else if isControl c then none
    else do
      let (text, rest) ← lineString quote fuel rest
      return (c :: text, rest)

/-- A string over several lines, up to its three closing quotes, before which
there may be two more.  After a backslash at the end of a line, `skipping`,
blanks and line ends are passed over. -/
def blockString (quote : Char) : Nat → Bool → List Char →
    Option (List Char × List Char)
  | 0, _, _ | _, _, [] => none
  | fuel + 1, skipping, c :: rest =>
    if c = quote ∧ rest.take 2 = [quote, quote] then
      let closing := (c :: rest).takeWhile (· = quote)
      let extra := min 2 (closing.length - 3)
      some (List.replicate extra quote, (c :: rest).drop (3 + extra))
    else
      match newline? (c :: rest) with
      | some rest =>
        if skipping then blockString quote fuel true rest
        else do
          let (text, rest) ← blockString quote fuel false rest
          return ('\n' :: text, rest)
      | none =>
        if skipping ∧ isSpace c then blockString quote fuel true rest
        else if c = '\\' ∧ quote = '"' then
          match newline? (skipSpaces rest) with
          | some rest => blockString quote fuel true rest
          | none => do
            let (c, rest) ← escape? rest
            let (text, rest) ← blockString quote fuel false rest
            return (c :: text, rest)
        else if isControl c then none
        else do
          let (text, rest) ← blockString quote fuel false rest
          return (c :: text, rest)

/-- A string in any of the four spellings, before its opening quote. -/
def string? (text : List Char) : Option (String × List Char) := do
  let (content, rest) ←
    match text with
    | '"' :: '"' :: '"' :: rest =>
      blockString '"' rest.length false ((newline? rest).getD rest)
    | '\'' :: '\'' :: '\'' :: rest =>
      blockString '\'' rest.length false ((newline? rest).getD rest)
    | '"' :: rest => lineString '"' rest.length rest
    | '\'' :: rest => lineString '\'' rest.length rest
    | _ => none
  return (String.ofList content, rest)

/-! ## Integers -/

/-- Digits with single underscores between them. -/
def digits? (radix : Nat) (text : List Char) :
    Option (List Nat × List Char) :=
  let isPart (c : Char) : Bool := c = '_' || (digit? radix c).isSome
  let run := text.takeWhile isPart
  let single := (run.zip run.tail).all fun (a, b) => a ≠ '_' || b ≠ '_'
  if run.head? ≠ some '_' ∧ run.getLast? ≠ some '_' ∧ single then
    some (run.filterMap (digit? radix), text.dropWhile isPart)
  else none

def magnitude? (radix : Nat) (zeroFirst : Bool) (text : List Char) :
    Option (Nat × List Char) := do
  let (ds, rest) ← digits? radix text
  if ds = [] ∨ (¬zeroFirst ∧ ds.head? = some 0 ∧ ds.length ≠ 1) then none
  return (ds.foldl (fun value d => value * radix + d) 0, rest)

/-- An integer of 64 bits. -/
def integer? (text : List Char) : Option (Int × List Char) := do
  let (value, rest) ←
    match text with
    | '0' :: 'x' :: rest => signed 1 (magnitude? 16 true rest)
    | '0' :: 'o' :: rest => signed 1 (magnitude? 8 true rest)
    | '0' :: 'b' :: rest => signed 1 (magnitude? 2 true rest)
    | '+' :: rest => signed 1 (magnitude? 10 false rest)
    | '-' :: rest => signed (-1) (magnitude? 10 false rest)
    | text => signed 1 (magnitude? 10 false text)
  if -0x8000000000000000 ≤ value ∧ value < 0x8000000000000000 then
    return (value, rest)
  else none
where
  signed (sign : Int) (read : Option (Nat × List Char)) :
      Option (Int × List Char) :=
    read.map fun (value, rest) => (sign * value, rest)

/-! ## Keys -/

/-- A bare or quoted key. -/
def simpleKey? (text : List Char) : Option (String × List Char) :=
  match text with
  | '"' :: rest => (lineString '"' rest.length rest).map fun (key, rest) =>
    (String.ofList key, rest)
  | '\'' :: rest => (lineString '\'' rest.length rest).map fun (key, rest) =>
    (String.ofList key, rest)
  | _ =>
    let key := text.takeWhile isKeyChar
    if key = [] then none
    else some (String.ofList key, text.dropWhile isKeyChar)

/-- Keys with dots between them, and blanks around each. -/
def keyPath? : Nat → List Char → Option (List String × List Char)
  | 0, _ => none
  | fuel + 1, text => do
    let (key, rest) ← simpleKey? (skipSpaces text)
    match skipSpaces rest with
    | '.' :: rest =>
      let (keys, rest) ← keyPath? fuel rest
      return (key :: keys, rest)
    | rest => return ([key], rest)

/-! ## Values -/

def isComment (text : List Char) : Bool := text.head? = some '#'

/-- Passes over a comment, if there is one, up to the line end. -/
def skipComment? (text : List Char) : Option (List Char) :=
  if isComment text then
    let rest := text.dropWhile fun c => !isControl c
    match rest, newline? rest with
    | [], _ | _, some _ => some rest
    | _, none => none
  else some text

/-- Passes over blanks, comments and line ends. -/
def skipLines? : Nat → List Char → Option (List Char)
  | 0, text => some text
  | fuel + 1, text => do
    let text ← skipComment? (skipSpaces text)
    match newline? text with
    | some rest => skipLines? fuel rest
    | none => some text

mutual

def value? : Nat → List Char → Option (TomlValue × List Char)
  | 0, _ => none
  | fuel + 1, text =>
    match text with
    | '"' :: _ | '\'' :: _ => (string? text).map fun (text, rest) =>
      (.string text, rest)
    | 't' :: 'r' :: 'u' :: 'e' :: rest => some (.boolean true, rest)
    | 'f' :: 'a' :: 'l' :: 's' :: 'e' :: rest => some (.boolean false, rest)
    | '[' :: rest => do
      match ← skipLines? rest.length rest with
      | ']' :: rest => return (.emptyArray, rest)
      | _ => none
    | '{' :: rest =>
      match skipSpaces rest with
      | '}' :: rest => some (.table .inline [], rest)
      | rest => do
        let (entries, rest) ← inlineEntries? fuel [] rest
        return (.table .inline entries, rest)
    | _ => (integer? text).map fun (value, rest) => (.integer value, rest)

/-- The entries of an inline table, up to its closing brace.  Dotted keys,
which make filled tables, are refused. -/
def inlineEntries? : Nat → Entries → List Char → Option (Entries × List Char)
  | 0, _, _ => none
  | fuel + 1, before, text => do
    let (key, rest) ← simpleKey? (skipSpaces text)
    if before.any (·.1 = key) then none
    match skipSpaces rest with
    | '=' :: rest =>
      let (value, rest) ← value? fuel (skipSpaces rest)
      let entries := before ++ [(key, value)]
      match skipSpaces rest with
      | '}' :: rest => return (entries, rest)
      | ',' :: rest => inlineEntries? fuel entries rest
      | _ => none
    | _ => none

end

/-! ## Statements -/

inductive Statement where
  | pair (path : List String) (value : TomlValue)
  | header (path : List String)
  | repeatedHeader (path : List String)

def statement? (text : List Char) : Option (Statement × List Char) :=
  match text with
  | '[' :: '[' :: rest => do
    let (path, rest) ← keyPath? rest.length rest
    match rest with
    | ']' :: ']' :: rest => return (.repeatedHeader path, rest)
    | _ => none
  | '[' :: rest => do
    let (path, rest) ← keyPath? rest.length rest
    match rest with
    | ']' :: rest => return (.header path, rest)
    | _ => none
  | _ => do
    let (path, rest) ← keyPath? text.length text
    match rest with
    | '=' :: rest =>
      let (value, rest) ← value? (rest.length + 1) (skipSpaces rest)
      return (.pair path value, rest)
    | _ => none

/-- The statements of a text, each with the rest of its line blank or a
comment. -/
def statements? : Nat → List Char → Option (List Statement)
  | 0, _ => some []
  | fuel + 1, text => do
    match ← skipLines? text.length text with
    | [] => return []
    | text =>
      let (statement, rest) ← statement? text
      let rest ← skipComment? (skipSpaces rest)
      match rest, newline? rest with
      | [], _ => return [statement]
      | _, some rest => return statement :: (← statements? fuel rest)
      | _, none => none

/-! ## Building the root table -/

/-- Changes the entry of a key, or adds one. -/
def alter (key : String) (change : Option TomlValue → Option TomlValue) :
    Entries → Option Entries
  | [] => (change none).map fun value => [(key, value)]
  | (name, value) :: rest =>
    if name = key then (change (some value)).map fun value => (name, value) :: rest
    else (alter key change rest).map ((name, value) :: ·)

/-- Changes the entries of a table that is being defined, reached by the keys
of its header. -/
def within (change : Entries → Option Entries) :
    List String → Entries → Option Entries
  | [], entries => change entries
  | key :: path, entries =>
    entries |> alter key fun
      | none => (within change path []).map (.table .implied)
      | some (.table .inline _) => none
      | some (.table origin entries) =>
        (within change path entries).map (.table origin)
      | some (.tables elements) => do
        let last ← elements.getLast?
        let last ← within change path last
        return .tables (elements.dropLast ++ [last])
      | some _ => none

/-- Adds a value under dotted keys.  They may pass through implied tables, but
the table that takes the value has to be one that only dotted keys define. -/
def insertPair (value : TomlValue) : List String → Entries → Option Entries
  | [], _ => none
  | [key], entries =>
    entries |> alter key fun
      | none => some value
      | some _ => none
  | key :: path, entries =>
    entries |> alter key fun
      | none => (insertPair value path []).map (.table .dotted)
      | some (.table .dotted entries) =>
        (insertPair value path entries).map (.table .dotted)
      | some (.table .implied entries) =>
        if path.length = 1 then none
        else (insertPair value path entries).map (.table .implied)
      | some (.tables elements) => do
        if path.length = 1 then none
        let last ← elements.getLast?
        let last ← insertPair value path last
        return .tables (elements.dropLast ++ [last])
      | some _ => none

/-- Defines a table by a header. -/
def define (path : List String) (entries : Entries) : Option Entries := do
  let key ← path.getLast?
  entries |> within (alter key fun
    | none => some (.table .header [])
    | some (.table .implied entries) => some (.table .header entries)
    | some _ => none) path.dropLast

/-- Adds a table under a repeated header. -/
def defineNext (path : List String) (entries : Entries) : Option Entries := do
  let key ← path.getLast?
  entries |> within (alter key fun
    | none => some (.tables [[]])
    | some (.tables elements) => some (.tables (elements ++ [[]]))
    | some _ => none) path.dropLast

/-- Puts statements into the root table, `current` being the path of the
header in force. -/
def build : List String → Entries → List Statement → Option Entries
  | _, root, [] => some root
  | current, root, .pair path value :: rest => do
    build current (← within (insertPair value path) current root) rest
  | _, root, .header path :: rest => do
    build path (← define path root) rest
  | _, root, .repeatedHeader path :: rest => do
    build path (← defineNext path root) rest

/-- The root table of a text, which may start with a byte order mark. -/
def parse? (text : String) : Option Entries := do
  let chars := match text.toList with
    | '\uFEFF' :: rest => rest
    | chars => chars
  build [] [] (← statements? (chars.length + 1) chars)

end TomlValue
end Dispatch
