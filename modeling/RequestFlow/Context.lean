import RequestFlow.Json.Payload
import RequestFlow.Json.Printer

/-!
# The context of a request

A context is the key-value state that one request carries through its pipeline. The transport seeds
it with text parameters; hooks add derived values for later hooks and the action to read.

A value is read back in two ways. `param?` gives it only if it is a string. `paramAs?` reads it as
any type that can be read from text: a string from its characters and any other value from its JSON
text, so that a number in a JSON body and the same number in the path read alike.
-/

namespace RequestFlow

/-- The state of one request. -/
abbrev Context := SortedMap Json

namespace Context

/-- The context of text parameters. Of a repeated key the last value stays. -/
def ofParams (params : List (String × String)) : Context :=
  SortedMap.ofList (params.map fun p => (p.1, .string p.2))

def param? (c : Context) (key : String) : Option String := (c.get? key).bind Json.text?

/-- The text from which a value is read: a string's own characters, else the JSON text. -/
def readableChars : Json → List Char
  | .string s => s.toList
  | v => v.chars

def paramAs? {α : Type} (read : List Char → Option α) (c : Context) (key : String) : Option α :=
  (c.get? key).bind fun v => read (readableChars v)

/-- Store an application value; one that cannot be turned into JSON is stored as null. -/
def put (c : Context) (key : String) (value : Payload) : Context := c.insert key value.jsonOrNull

/-- Copy the value of one key to another, if there is one. -/
def copy (c : Context) (source target : String) : Context :=
  match c.get? source with
  | some v => c.insert target v
  | none => c

def same (c d : Context) : Bool := Json.sameFields c.toList d.toList

def toJson (c : Context) : Json := .ofMap c

theorem get?_ofParams (params : List (String × String)) (key : String) :
    (ofParams params).get? key = (params.reverse.lookup key).map .string := by
  rw [ofParams, SortedMap.get?_ofList, ← List.map_reverse]
  exact SortedMap.lookup_mapValues Json.string _ key

@[simp] theorem get?_put (c : Context) (key key' : String) (value : Payload) :
    (c.put key value).get? key' = if key' = key then some value.jsonOrNull else c.get? key' := by
  simp [put]

end Context

/-- A character, read from a text of exactly one. -/
def readChar? : List Char → Option Char
  | [c] => some c
  | _ => none

/-- A truth value, read from its lower-case name. -/
def readBool? (s : List Char) : Option Bool :=
  if s = ['t', 'r', 'u', 'e'] then some true
  else if s = ['f', 'a', 'l', 's', 'e'] then some false
  else none

end RequestFlow
