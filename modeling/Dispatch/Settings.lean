import Dispatch.Pool
import Dispatch.RouteTable
import Dispatch.Toml

/-!
# Router settings

Every setting has a default.  A settings text names some of them, and no
others.
-/

namespace Dispatch

structure Settings where
  conflictPolicy : ConflictPolicy := .strict
  decodeParams : Bool := true
  maxIdleContexts : Nat := 1024
  maxIdleCaptures : Nat := 256
  headerCapacityLimit : Nat := 64
  stripHeadBody : Bool := true
  deriving DecidableEq

inductive SettingsError where
  | unreadable (path : String)
  /-- The text is not a settings text. -/
  | malformed
  | invalidValue (field reason : String)
  deriving DecidableEq

namespace SettingsError

def kind : SettingsError → String
  | .unreadable _ => "ReadError"
  | .malformed => "TomlError"
  | .invalidValue .. => "InvalidValue"

def message : SettingsError → String
  | .unreadable path => s!"failed to read configuration file: {path}"
  | .malformed => "failed to parse TOML configuration"
  | .invalidValue field reason =>
    s!"invalid configuration value for {field}: {reason}"

end SettingsError

namespace Settings

def default : Settings := {}

instance : Inhabited Settings := ⟨default⟩

def validate (settings : Settings) : Except SettingsError Unit :=
  if settings.headerCapacityLimit = 0 then
    .error (.invalidValue "header_capacity_limit" "must be greater than zero")
  else .ok ()

def poolLimits (settings : Settings) : PoolLimits :=
  { maxIdleContexts := settings.maxIdleContexts
    maxIdleCaptures := settings.maxIdleCaptures
    headerCapacityLimit := settings.headerCapacityLimit }

/-! ## Settings texts -/

def policyOfName? (name : String) : Option ConflictPolicy :=
  [.strict, .firstWins].find? fun policy => ConflictPolicy.name policy = name

/-- A choice is written as its name, or as a table that holds nothing but an
empty value under that name. -/
def policy? : TomlValue → Option ConflictPolicy
  | .string name => policyOfName? name
  | .table _ [(name, value)] =>
    if value.IsEmpty then policyOfName? name else none
  | _ => none

def flag? : TomlValue → Option Bool
  | .boolean value => some value
  | _ => none

def count? : TomlValue → Option Nat
  | .integer value => if 0 ≤ value then some value.toNat else none
  | _ => none

/-- Takes one entry of a settings text over. -/
def assign (settings : Settings) (entry : String × TomlValue) :
    Option Settings :=
  let (name, value) := entry
  match name with
  | "conflict_policy" => do
    return { settings with conflictPolicy := ← policy? value }
  | "decode_params" => do
    return { settings with decodeParams := ← flag? value }
  | "max_idle_contexts" => do
    return { settings with maxIdleContexts := ← count? value }
  | "max_idle_param_stores" => do
    return { settings with maxIdleCaptures := ← count? value }
  | "header_capacity_limit" => do
    return { settings with headerCapacityLimit := ← count? value }
  | "strip_head_body" => do
    return { settings with stripHeadBody := ← flag? value }
  | _ => none

def parse (text : String) : Except SettingsError Settings :=
  match (TomlValue.parse? text).bind (·.foldlM assign default) with
  | none => .error .malformed
  | some settings => settings.validate.map fun _ => settings

/-- The settings in a file of the given content, or in none. -/
def ofFile (path : String) : Option Bytes → Except SettingsError Settings
  | none => .error (.unreadable path)
  | some content =>
    match Text.ofUtf8? content with
    | none => .error (.unreadable path)
    | some text => parse text

def describe (settings : Settings) : String :=
  s!"RouterConfig \x7b conflict_policy: {settings.conflictPolicy.describe}, " ++
    s!"decode_params: {settings.decodeParams}, " ++
    s!"max_idle_contexts: {settings.maxIdleContexts}, " ++
    s!"max_idle_param_stores: {settings.maxIdleCaptures}, " ++
    s!"header_capacity_limit: {settings.headerCapacityLimit}, " ++
    s!"strip_head_body: {settings.stripHeadBody} \x7d"

end Settings
end Dispatch
