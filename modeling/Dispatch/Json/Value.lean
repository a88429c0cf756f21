import Dispatch.Text.Hex

/-!
# JSON values

Values as they are read.  A number keeps its literal, so that an integer can
be told from a fraction.  A string whose escapes name half of a surrogate pair
has no text; it may stand where its text is not asked for.
-/

namespace Dispatch

inductive JsonValue where
  | null
  | bool (value : Bool)
  | number (literal : String)
  | string (text : Option String)
  | array (items : List JsonValue)
  | object (members : List (Option String × JsonValue))

namespace JsonValue

/-! ## Writing strings -/

def escapeChar (c : Char) : List Char :=
  if c = '"' then ['\\', '"']
  else if c = '\\' then ['\\', '\\']
  else if c = '\x08' then ['\\', 'b']
  else if c = '\x0c' then ['\\', 'f']
  else if c = '\n' then ['\\', 'n']
  else if c = '\r' then ['\\', 'r']
  else if c = '\t' then ['\\', 't']
  else if c.toNat < 0x20 then ['\\', 'u', '0', '0'] ++ Text.hexByte c.toNat.toUInt8
  else [c]

/-- A JSON string: quotes, backslashes and controls are escaped. -/
def quote (text : String) : String :=
  "\"" ++ String.ofList (text.toList.flatMap escapeChar) ++ "\""

/-! ## Reading strings -/

def hex4? (a b c d : Char) : Option Nat := do
  let a ← Text.hexDigit? a
  let b ← Text.hexDigit? b
  let c ← Text.hexDigit? c
  let d ← Text.hexDigit? d
  return ((a * 16 + b) * 16 + c) * 16 + d

/-- The character of a one-letter escape. -/
def shortEscape? (c : Char) : Option Char :=
  if c = '"' ∨ c = '\\' ∨ c = '/' then some c
  else if c = 'b' then some '\x08'
  else if c = 'f' then some '\x0c'
  else if c = 'n' then some '\n'
  else if c = 'r' then some '\r'
  else if c = 't' then some '\t'
  else none

/-- What a string holds before surrogates are paired. -/
inductive StringPart where
  | char (c : Char)
  /-- A code unit given by its number. -/
  | unit (value : Nat)
  deriving DecidableEq

/-- The parts of a string up to its closing quote, and the text after that. -/
def stringParts : List Char → Option (List StringPart × List Char)
  | [] => none
  | '"' :: rest => some ([], rest)
  | '\\' :: 'u' :: a :: b :: c :: d :: rest => do
    let value ← hex4? a b c d
    let (parts, rest) ← stringParts rest
    return (.unit value :: parts, rest)
  | '\\' :: c :: rest => do
    let c ← shortEscape? c
    let (parts, rest) ← stringParts rest
    return (.char c :: parts, rest)
  | c :: rest =>
    if c = '\\' ∨ c.toNat < 0x20 then none
    else do
      let (parts, rest) ← stringParts rest
      return (.char c :: parts, rest)

/-- The characters of some parts, if every surrogate has its other half. -/
def joinParts : List StringPart → Option (List Char)
  | [] => some []
  | .char c :: rest => (joinParts rest).map (c :: ·)
  | [.unit value] =>
    if 0xD800 ≤ value ∧ value < 0xE000 then none else some [Char.ofNat value]
  | .unit value :: next :: rest =>
    if 0xD800 ≤ value ∧ value < 0xDC00 then
      match next with
      | .unit low =>
        if 0xDC00 ≤ low ∧ low < 0xE000 then
          let code := 0x10000 + (value - 0xD800) * 0x400 + (low - 0xDC00)
          (joinParts rest).map (Char.ofNat code :: ·)
        else none
      | .char _ => none
    else if 0xDC00 ≤ value ∧ value < 0xE000 then none
    else (joinParts (next :: rest)).map (Char.ofNat value :: ·)

/-- A string after its opening quote. -/
def readString (text : List Char) :
    Option (Option String × List Char) := do
  let (parts, rest) ← stringParts text
  return ((joinParts parts).map String.ofList, rest)

/-! ## Reading numbers -/

/-- One or more digits. -/
def readDigits (text : List Char) : Option (List Char × List Char) :=
  let digits := text.takeWhile Char.isDigit
  if digits = [] then none else some (digits, text.dropWhile Char.isDigit)

/-- Digits without a leading zero, unless that is all. -/
def readInteger (text : List Char) : Option (List Char × List Char) := do
  let (digits, rest) ← readDigits text
  if digits.head? = some '0' ∧ digits.length ≠ 1 then none
  return (digits, rest)

def readFraction (text : List Char) : Option (List Char × List Char) :=
  match text with
  | '.' :: rest => do
    let (digits, rest) ← readDigits rest
    return ('.' :: digits, rest)
  | _ => some ([], text)

def readExponent (text : List Char) : Option (List Char × List Char) :=
  match text with
  | c :: rest =>
    if c = 'e' ∨ c = 'E' then
      match rest with
      | sign :: rest =>
        if sign = '+' ∨ sign = '-' then do
          let (digits, rest) ← readDigits rest
          return (c :: sign :: digits, rest)
        else do
          let (digits, rest) ← readDigits (sign :: rest)
          return (c :: digits, rest)
      | [] => none
    else some ([], text)
  | [] => some ([], text)

def readNumber (text : List Char) : Option (String × List Char) := do
  let (sign, rest) := match text with
    | '-' :: rest => (['-'], rest)
    | _ => ([], text)
  let (integer, rest) ← readInteger rest
  let (fraction, rest) ← readFraction rest
  let (exponent, rest) ← readExponent rest
  return (String.ofList (sign ++ integer ++ fraction ++ exponent), rest)

/-! ## Reading values -/

def isBlank (c : Char) : Bool :=
  c = ' ' || c = '\t' || c = '\n' || c = '\r'

def skipBlank (text : List Char) : List Char :=
  text.dropWhile isBlank

mutual

/-- Reads one value.  `depth` bounds the nesting of the calls. -/
def readValue : Nat → List Char → Option (JsonValue × List Char)
  | 0, _ => none
  | depth + 1, text =>
    match skipBlank text with
    | 'n' :: 'u' :: 'l' :: 'l' :: rest => some (.null, rest)
    | 't' :: 'r' :: 'u' :: 'e' :: rest => some (.bool true, rest)
    | 'f' :: 'a' :: 'l' :: 's' :: 'e' :: rest => some (.bool false, rest)
    | '"' :: rest => do
      let (text, rest) ← readString rest
      return (.string text, rest)
    | '[' :: rest =>
      match skipBlank rest with
      | ']' :: rest => some (.array [], rest)
      | rest => do
        let (items, rest) ← readItems depth rest
        return (.array items, rest)
    | '{' :: rest =>
      match skipBlank rest with
      | '}' :: rest => some (.object [], rest)
      | rest => do
        let (members, rest) ← readMembers depth rest
        return (.object members, rest)
    | text => do
      let (literal, rest) ← readNumber text
      return (.number literal, rest)

/-- Reads the items of an array up to its closing bracket. -/
def readItems : Nat → List Char → Option (List JsonValue × List Char)
  | 0, _ => none
  | depth + 1, text => do
    let (item, rest) ← readValue depth text
    match skipBlank rest with
    | ']' :: rest => return ([item], rest)
    | ',' :: rest =>
      let (items, rest) ← readItems depth rest
      return (item :: items, rest)
    | _ => none

/-- Reads the members of an object up to its closing brace. -/
def readMembers : Nat → List Char →
    Option (List (Option String × JsonValue) × List Char)
  | 0, _ => none
  | depth + 1, text =>
    match skipBlank text with
    | '"' :: rest => do
      let (name, rest) ← readString rest
      match skipBlank rest with
      | ':' :: rest =>
        let (value, rest) ← readValue depth rest
        match skipBlank rest with
        | '}' :: rest => return ([(name, value)], rest)
        | ',' :: rest =>
          let (members, rest) ← readMembers depth rest
          return ((name, value) :: members, rest)
        | _ => none
      | _ => none
    | _ => none

end

/-- The value that a whole text stands for.  Every second call takes a
character, so the bound is never reached. -/
def parse? (text : String) : Option JsonValue := do
  let chars := text.toList
  let (value, rest) ← readValue (2 * chars.length + 2) chars
  if skipBlank rest = [] then return value else none

end JsonValue
end Dispatch
