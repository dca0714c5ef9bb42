import RequestFlow.Number.Binary64

/-!
# Reading numbers from text

A decimal integer is an optional sign and at least one ASCII digit; leading zeros are fine, blanks
and separators are not. It is read for an integer type (`IntType`), which fixes whether a minus sign
may stand and which values are in range.

A decimal number for a double has digits before or behind its point, perhaps an exponent, and is
rounded once, to the nearest double; too large a number is infinite. The words `inf`, `infinity` and
`nan` are read in either case.
-/

namespace RequestFlow

def hexValue? (c : Char) : Option Nat :=
  if '0' ≤ c ∧ c ≤ '9' then some (c.toNat - '0'.toNat)
  else if 'a' ≤ c ∧ c ≤ 'f' then some (c.toNat - 'a'.toNat + 10)
  else if 'A' ≤ c ∧ c ≤ 'F' then some (c.toNat - 'A'.toNat + 10)
  else none

/-- The value of an ASCII digit in a base up to sixteen. -/
def digit? (base : Nat) (c : Char) : Option Nat := (hexValue? c).filter (· < base)

/-- The number that digits write in a base; no digits write zero. -/
def ofDigits (base : Nat) (digits : List Nat) : Nat := digits.foldl (fun n d => base * n + d) 0

/-- The digits at the head of a text, and the rest. -/
def spanDigits (base : Nat) : List Char → List Nat × List Char
  | [] => ([], [])
  | c :: rest =>
    match digit? base c with
    | some d =>
      let (ds, rest) := spanDigits base rest
      (d :: ds, rest)
    | none => ([], c :: rest)

/-- A natural number written in ASCII digits alone, at least one of them. -/
def readNat? (s : List Char) : Option Nat :=
  if s.isEmpty then none else (s.mapM (digit? 10)).map (ofDigits 10)

/-- A two's complement or unsigned integer type. -/
structure IntType where
  signed : Bool
  width : Nat
deriving DecidableEq, Repr

namespace IntType

def least (t : IntType) : Int := if t.signed then -(Nat.pow 2 (t.width - 1) : Nat) else 0

/-- The bound above which no value of the type lies. -/
def bound (t : IntType) : Int :=
  if t.signed then (Nat.pow 2 (t.width - 1) : Nat) else (Nat.pow 2 t.width : Nat)

def holds (t : IntType) (n : Int) : Bool := t.least ≤ n && n < t.bound

/-- Split a sign off. Only signed types read a minus. -/
def splitSign (t : IntType) : List Char → Bool × List Char
  | '+' :: rest => (false, rest)
  | '-' :: rest => if t.signed then (true, rest) else (false, '-' :: rest)
  | s => (false, s)

def read? (t : IntType) (s : List Char) : Option Int :=
  let (negative, digits) := t.splitSign s
  match readNat? digits with
  | some n =>
    let value : Int := if negative then -(n : Int) else n
    if t.holds value then some value else none
  | none => none

end IntType

/-- The integers that a 64-bit word holds, signed or not. -/
def isWord (n : Int) : Bool := -(Nat.pow 2 63 : Nat) ≤ n && n < (Nat.pow 2 64 : Nat)

namespace Binary64

/-- An exponent behind its mark: a sign and digits. `none` if the digits are missing. -/
def readExponent? (s : List Char) : Option (Int × List Char) :=
  let (negative, rest) : Bool × List Char :=
    match s with
    | '+' :: r => (false, r)
    | '-' :: r => (true, r)
    | r => (false, r)
  let (digits, rest) := spanDigits 10 rest
  if digits.isEmpty then none
  else some (if negative then -(ofDigits 10 digits : Int) else ofDigits 10 digits, rest)

/-- An unsigned decimal number, read to the end of the text. -/
def readUnsigned? (negative : Bool) (s : List Char) : Option Binary64 :=
  let (whole, rest) := spanDigits 10 s
  let (fraction, rest) : List Nat × List Char :=
    match rest with
    | '.' :: r => spanDigits 10 r
    | r => ([], r)
  if whole.isEmpty && fraction.isEmpty then none
  else
    let digits := ofDigits 10 (whole ++ fraction)
    let value := fun (e : Int) => ofDecimal negative digits (e - fraction.length)
    match rest with
    | [] => some (value 0)
    | c :: r =>
      if c = 'e' ∨ c = 'E' then
        match readExponent? r with
        | some (e, []) => some (value e)
        | _ => none
      else none

def read? (s : List Char) : Option Binary64 :=
  let (negative, body) : Bool × List Char :=
    match s with
    | '+' :: r => (false, r)
    | '-' :: r => (true, r)
    | r => (false, r)
  match readUnsigned? negative body with
  | some x => some x
  | none =>
    let word := String.ofList (body.map Char.toLower)
    if word = "inf" ∨ word = "infinity" then some (infinity negative)
    else if word = "nan" then some nan
    else none

end Binary64

end RequestFlow
