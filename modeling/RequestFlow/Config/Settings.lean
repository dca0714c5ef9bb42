import RequestFlow.Config.Basic
import RequestFlow.Json.Reader
import RequestFlow.Text.Utf8
import RequestFlow.Toml.Reader

/-!
# Settings

A configuration is written in TOML or JSON as settings by name. Every setting may be left out, and
settings that are not known are ignored. `Config.ofToml` reads a configuration and checks it.
-/

namespace RequestFlow

namespace Config

inductive Setting where
  | text (s : String)
  | number (n : Int)
  | flag (b : Bool)
  | null
  /-- A value that no setting takes. -/
  | other
deriving DecidableEq, Repr

/-- The names of the settings, in the order in which a list of values gives them. -/
def settingNames : List String := ["bind", "halt_status", "catch_all", "request_timeout_ms"]

/-- A text that must be one if it is set. -/
def textSetting? (fallback : String) : Option Setting → Option String
  | none => some fallback
  | some (.text s) => some s
  | some _ => none

def flagSetting? (fallback : Bool) : Option Setting → Option Bool
  | none => some fallback
  | some (.flag b) => some b
  | some _ => none

def numberSetting? (type : IntType) : Option Setting → Option (Option Nat)
  | none | some .null => some none
  | some (.number n) => if type.holds n then some (some n.toNat) else none
  | some _ => none

def ofSettings? (setting : String → Option Setting) : Option Config := do
  let bind ← textSetting? default.bind (setting "bind")
  let haltStatus ← numberSetting? ⟨false, 16⟩ (setting "halt_status")
  let catchAll ← flagSetting? default.catchAll (setting "catch_all")
  let requestTimeout ← numberSetting? ⟨false, 64⟩ (setting "request_timeout_ms")
  some ⟨bind, haltStatus, catchAll, requestTimeout⟩

/-! ### TOML -/

def Setting.ofToml : Toml → Setting
  | .string s => .text s
  | .integer n => .number n
  | .boolean b => .flag b
  | _ => .other

/-- The configuration that a TOML text writes, valid or not. -/
def readToml? (text : String) : Option Config := do
  let fields ← Toml.parse? text
  ofSettings? fun name => (SortedMap.findEntry name fields).map Setting.ofToml

def ofToml (text : String) : Except ConfigError Config :=
  match readToml? text with
  | none => .error .malformed
  | some c =>
    match c.check with
    | .ok () => .ok c
    | .error fault => .error (.invalid fault)

/-- Load a configuration from the content of a file, if there is such a file. -/
def ofFile (content : Option (List UInt8)) : Except ConfigError Config :=
  match content.bind Utf8.decode? with
  | some text => ofToml text
  | none => .error .unreadable

/-! ### JSON -/

def Setting.ofJson : Json → Setting
  | .null => .null
  | .bool b => .flag b
  | .string s => .text s
  | .number (.int n) => .number n
  | _ => .other

def ofFields? (fields : List (String × Json)) : Option Config :=
  ofSettings? fun name => (SortedMap.findEntry name fields).map Setting.ofJson

/-- The configuration of a JSON value: an object of settings, or a list of their values, which may
stop early. -/
def ofJson? : Json → Option Config
  | .object fields => ofFields? fields
  | .array items =>
    if items.length ≤ settingNames.length then ofFields? (settingNames.zip items) else none
  | _ => none

/-- Read the value of a field. Of what is not known only the grammar is checked, at any depth. -/
def fieldValue (name : String) : Reader Json := fun s =>
  if name ∈ settingNames then Json.Reader.value .strict 0 s
  else Json.Reader.value .lenient s.length s

/-- Whether no setting is given twice. -/
def givenOnce (fields : List (String × Json)) : Bool :=
  settingNames.all fun name => fields.countP (fun f => f.1 = name) ≤ 1

/-- The configuration that a JSON text writes, valid or not. -/
def readJson? (text : String) : Option Config :=
  match Json.Reader.skipBlanks text.toList with
  | '{' :: rest => do
    let fields ← Json.Reader.complete (Json.Reader.objectFields .strict fieldValue) rest
    if givenOnce fields then ofFields? fields else none
  | _ => (Json.parse? text).bind ofJson?

end Config

end RequestFlow
