import Interpose.Config.Settings
import Interpose.Toml.Document

/-!
# Where settings come from

A settings file is a TOML document of the fields by name; fields left out keep their defaults and
unknown fields are ignored. The environment names a file and overrides single settings.
-/

namespace Interpose

namespace Toml.Value

def size? : Value → Option Nat
  | integer n => if 0 ≤ n then some n.toNat else none
  | _ => none

def bool? : Value → Option Bool
  | bool b => some b
  | _ => none

def isHollow : Value → Bool
  | array items => items.isEmpty
  | table _ fields => fields.isEmpty
  | tables items => items.isEmpty
  | _ => false

/-- The name of an alternative: a string, or a table whose one field has that name and holds
nothing. -/
def alternative? : Value → Option String
  | string name => some name
  | table _ [(name, content)] => if content.isHollow then some name else none
  | _ => none

end Toml.Value

/-- What the surroundings of a program hold for it. -/
structure Surroundings where
  lookup : String → Option String
  contentOf : String → Except FileFlaw Bytes

namespace Settings

def fieldOf {α : Type} (fields : Toml.Fields) (name : String) (preset : α)
    (read : Toml.Value → Option α) : Option α :=
  match fields.get? name with
  | none => some preset
  | some value => read value

def ofFields? (fields : Toml.Fields) : Option Settings := do
  let preset : Settings := {}
  let runtime ← fieldOf fields "runtime" preset.runtime fun value => do
    RuntimeKind.ofTag? (← value.alternative?)
  let walkLimit ← fieldOf fields "walk_iteration_limit" preset.walkLimit Toml.Value.size?
  let createAltEntry ← fieldOf fields "create_alt_entry" preset.createAltEntry Toml.Value.bool?
  let readLimit ← fieldOf fields "thunk_read_limit" preset.readLimit fun value =>
    value.size?.map some
  pure ⟨runtime, walkLimit, createAltEntry, readLimit⟩

def parse (text : String) : Attempt Settings :=
  match (Toml.parse? text).bind ofFields? with
  | none => .refuse .toml
  | some settings => do
    settings.validate
    pure settings

def textOf (content : Except FileFlaw Bytes) : Attempt String :=
  match content with
  | .error why => .refuse (.file why)
  | .ok bytes =>
    match String.fromUTF8? ⟨bytes.toArray⟩ with
    | none => .refuse (.file .notText)
    | some text => .ok text

def load (content : Except FileFlaw Bytes) : Attempt Settings := do
  parse (← textOf content)

def readSwitch? (text : String) : Option Bool :=
  let word := String.ofList ((Text.trim text.toList).map Char.toLower)
  if ["1", "true", "yes", "on"].contains word then some true
  else if ["0", "false", "no", "off"].contains word then some false
  else none

def readLimit? (text : String) : Option Nat :=
  (Text.readNumber 10 wordLimit (Text.trim text.toList)).toOption

/-- Overrides a setting by a variable, if it is set and legible. -/
def override {α : Type} (around : Surroundings) (name : String) (flaw : String → String → ConfigFlaw)
    (read : String → Option α) (put : α → Settings) (unset : Settings) : Attempt Settings :=
  match around.lookup name with
  | none => .ok unset
  | some text =>
    match read text with
    | none => .refuse (.config (flaw name text))
    | some value => .ok (put value)

def ofEnvironment (around : Surroundings) : Attempt Settings := do
  let s ← match around.lookup "SHUNT_CONFIG" with
    | none => pure {}
    | some path => load (around.contentOf path)
  let s ← override around "SHUNT_RUNTIME" .unknownRuntime RuntimeKind.ofName?
    (fun kind => { s with runtime := kind }) s
  let s ← override around "SHUNT_WALK_LIMIT" .notANumber readLimit?
    (fun limit => { s with walkLimit := limit }) s
  let s ← override around "SHUNT_ALT_ENTRY" .notABoolean readSwitch?
    (fun flag => { s with createAltEntry := flag }) s
  s.validate
  pure s

end Settings

end Interpose
