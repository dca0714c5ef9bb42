import RequestFlow.Json.Basic

/-!
# Values handed over for storage

An application stores values of its own types in a context or in a response body. `Payload` is what
such a value amounts to when it is turned into JSON, and `Payload.json` is the turning: integers
must fit a 64-bit word, a double that is no number becomes null, bytes become an array of numbers,
and a value may refuse by itself.
-/

namespace RequestFlow

/-- Why a value cannot be turned into JSON. -/
inductive SerializeError where
  /-- An integer beyond a 64-bit word. -/
  | numberOutOfRange
  /-- A map whose keys are not text. -/
  | keyNotText
  /-- The value's own reason. -/
  | refused (reason : String)
deriving DecidableEq, Repr

def SerializeError.message : SerializeError → String
  | .numberOutOfRange => "number out of range"
  | .keyNotText => "key must be a string"
  | .refused reason => reason

/-- A value on its way to JSON. -/
inductive Payload where
  | json (v : Json)
  | int (n : Int)
  | double (x : Binary64)
  | bytes (bs : List UInt8)
  | failing (e : SerializeError)

namespace Payload

def json? : Payload → Except SerializeError Json
  | .json v => .ok v
  | .int n => if isWord n then .ok (.number (.int n)) else .error .numberOutOfRange
  | .double x => .ok (if x.isFinite then .number (.double x) else .null)
  | .bytes bs => .ok (.array (bs.map fun b => Json.ofNat b.toNat))
  | .failing e => .error e

/-- The JSON form of a value, null if it has none. -/
def jsonOrNull (p : Payload) : Json :=
  match p.json? with
  | .ok v => v
  | .error _ => .null

@[simp] theorem jsonOrNull_json (v : Json) : (Payload.json v).jsonOrNull = v := rfl

theorem json?_int {n : Int} (h : isWord n = true) :
    (Payload.int n).json? = .ok (.number (.int n)) := by
  simp [json?, h]

theorem jsonOrNull_int_of_not_word {n : Int} (h : isWord n = false) :
    (Payload.int n).jsonOrNull = .null := by
  simp [jsonOrNull, json?, h]

end Payload

end RequestFlow
