import RequestFlow.SortedMap
import RequestFlow.Number.Text

/-!
# JSON values

A number is an integer or a double, and the two never compare equal: `1` and `1.0` are different
values. Integers are those of a 64-bit word, signed or unsigned.

An object holds its fields as a list. `Json.ofFields` builds the list that every operation of the
library keeps: sorted by key, each key once, the last value of a repeated key. Type checking of
nested data forbids a `SortedMap` here, so `Json.canonical` says it of a whole value.
-/

namespace RequestFlow

/-- A number as JSON text distinguishes them. -/
inductive Json.Number where
  | int (n : Int)
  | double (x : Binary64)
deriving DecidableEq, Inhabited

inductive Json where
  | null
  | bool (b : Bool)
  | number (n : Json.Number)
  | string (s : String)
  | array (items : List Json)
  | object (fields : List (String × Json))
deriving Inhabited

namespace Json

/-- Equality of numbers: integers by value, doubles as numbers. -/
def Number.same : Number → Number → Bool
  | .int m, .int n => m == n
  | .double x, .double y => x.same y
  | _, _ => false

mutual

/-- Equality of values. It differs from `=` only on the two zeros of a double. -/
def same : Json → Json → Bool
  | .null, .null => true
  | .bool a, .bool b => a == b
  | .number a, .number b => a.same b
  | .string a, .string b => a == b
  | .array a, .array b => sameItems a b
  | .object a, .object b => sameFields a b
  | _, _ => false

def sameItems : List Json → List Json → Bool
  | [], [] => true
  | a :: as, b :: bs => a.same b && sameItems as bs
  | _, _ => false

def sameFields : List (String × Json) → List (String × Json) → Bool
  | [], [] => true
  | (k, a) :: as, (l, b) :: bs => k == l && a.same b && sameFields as bs
  | _, _ => false

end

theorem same_bool_iff {v : Json} {b : Bool} : v.same (.bool b) = true ↔ v = .bool b := by
  cases v <;> simp [same]

/-- The object of a list of fields; of a repeated key the last value counts. -/
def ofFields (fields : List (String × Json)) : Json :=
  .object (SortedMap.ofList fields).toList

def ofMap (m : SortedMap Json) : Json := .object m.toList

def ofNat (n : Nat) : Json := .number (.int n)

/-- A text or null. -/
def ofText? : Option String → Json
  | some s => .string s
  | none => .null

mutual

/-- Every object of the value lists its keys in strictly increasing order. -/
def canonical : Json → Bool
  | .array items => canonicalItems items
  | .object fields => decide (fields.Pairwise fun a b => a.1 < b.1) && canonicalFields fields
  | _ => true

def canonicalItems : List Json → Bool
  | [] => true
  | v :: rest => v.canonical && canonicalItems rest

def canonicalFields : List (String × Json) → Bool
  | [] => true
  | (_, v) :: rest => v.canonical && canonicalFields rest

end

mutual

/-- How deep arrays and objects are nested in a value. -/
def depth : Json → Nat
  | .array items => depthItems items + 1
  | .object fields => depthFields fields + 1
  | _ => 0

def depthItems : List Json → Nat
  | [] => 0
  | v :: rest => max v.depth (depthItems rest)

def depthFields : List (String × Json) → Nat
  | [] => 0
  | (_, v) :: rest => max v.depth (depthFields rest)

end

def text? : Json → Option String
  | .string s => some s
  | _ => none

/-- The field of an object; null if the value has no such field. -/
def field (v : Json) (key : String) : Json :=
  match v with
  | .object fields => (SortedMap.findEntry key fields).getD .null
  | _ => .null

end Json

end RequestFlow
