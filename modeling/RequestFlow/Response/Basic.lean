import RequestFlow.Json.Basic

/-!
# Responses

A `Response` is a status, a list of headers and a body. The body stays a typed value until the
response is rendered, so that layers can inspect or replace it on the way out.
-/

namespace RequestFlow

/-- A status code of three digits, the first of them not zero. -/
structure Status where
  code : Nat
  valid : 100 ≤ code ∧ code < 1000
deriving DecidableEq

namespace Status

def ofNat? (code : Nat) : Option Status :=
  if h : 100 ≤ code ∧ code < 1000 then some ⟨code, h⟩ else none

def ok : Status := ⟨200, by decide⟩

def badRequest : Status := ⟨400, by decide⟩

def unauthorized : Status := ⟨401, by decide⟩

def notFound : Status := ⟨404, by decide⟩

def internalServerError : Status := ⟨500, by decide⟩

def serviceUnavailable : Status := ⟨503, by decide⟩

def gatewayTimeout : Status := ⟨504, by decide⟩

instance : Inhabited Status := ⟨ok⟩

@[simp] theorem ofNat?_code (s : Status) : ofNat? s.code = some s := by
  simp [ofNat?, s.valid]

theorem ofNat?_eq_some_iff {code : Nat} {s : Status} : ofNat? code = some s ↔ s.code = code := by
  constructor
  · intro found
    rw [ofNat?] at found
    split at found
    · exact congrArg Status.code (Option.some.inj found).symm
    · cases found
  · rintro rfl
    exact ofNat?_code s

end Status

/-- Media types for bodies given as bytes. -/
inductive ContentType where
  | csv
  | eventStream
  | html
  | octetStream
  | pdf
  | xml
deriving DecidableEq, Repr

def ContentType.text : ContentType → String
  | .csv => "text/csv"
  | .eventStream => "text/event-stream"
  | .html => "text/html; charset=utf-8"
  | .octetStream => "application/octet-stream"
  | .pdf => "application/pdf"
  | .xml => "application/xml"

inductive Body where
  | empty
  | text (s : String)
  | json (v : Json)
  | bytes (type : ContentType) (content : List UInt8)
deriving Inhabited

/-- Equality of bodies, with JSON compared as values. -/
def Body.same : Body → Body → Bool
  | .empty, .empty => true
  | .text a, .text b => a == b
  | .json a, .json b => a.same b
  | .bytes s a, .bytes t b => s == t && a == b
  | _, _ => false

/-- An answer to a request. Headers are kept as they were given. -/
structure Response where
  status : Status
  headers : List (String × String)
  body : Body
deriving Inhabited

namespace Response

/-- A response without headers and body. -/
def bare (status : Status) : Response := ⟨status, [], .empty⟩

def text (s : String) : Response := ⟨.ok, [], .text s⟩

/-- Equality of responses: status, headers in their order, and body. -/
def same (a b : Response) : Bool :=
  a.status == b.status && a.headers == b.headers && a.body.same b.body

end Response

end RequestFlow
