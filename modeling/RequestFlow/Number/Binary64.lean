/-!
# Double-precision numbers

A `Binary64` is the bit pattern of an IEEE 754 double. Its sign is the top bit, and the other 63
bits, read as one natural number, order the magnitudes: 0, the subnormal and the normal numbers,
infinity, and above it the NaNs.

Every finite magnitude is `m * 2 ^ (k - 1074)`, with `m < 2 ^ 53` (`mantissa`) and `k ≥ 0`
(`scale`). All arithmetic here is exact arithmetic on such fractions followed by one rounding
(`ofRatio`), to the nearest double and from a tie to the one with the even pattern.
-/

namespace RequestFlow

/-- A double-precision number, given by its bit pattern. -/
structure Binary64 where
  bits : UInt64
deriving DecidableEq, Inhabited

namespace Binary64

/-- The magnitude of infinity; greater magnitudes are NaNs. -/
def infinityMagnitude : Nat := 0x7ff0000000000000

/-- A double from its sign and its magnitude below `2 ^ 63`. -/
def ofMagnitude (negative : Bool) (magnitude : Nat) : Binary64 :=
  ⟨UInt64.ofNat (magnitude + if negative then Nat.pow 2 63 else 0)⟩

/-- Whether the sign bit is set; `-0.0` has it. -/
def isNegative (x : Binary64) : Bool := Nat.pow 2 63 ≤ x.bits.toNat

/-- The pattern without the sign bit. -/
def magnitude (x : Binary64) : Nat := x.bits.toNat % Nat.pow 2 63

def isFinite (x : Binary64) : Bool := x.magnitude < infinityMagnitude

def isNaN (x : Binary64) : Bool := infinityMagnitude < x.magnitude

def neg (x : Binary64) : Binary64 := ofMagnitude (!x.isNegative) x.magnitude

def zero : Binary64 := ⟨0⟩

def infinity (negative : Bool) : Binary64 := ofMagnitude negative infinityMagnitude

def nan : Binary64 := ofMagnitude false 0x7ff8000000000000

/-- The integer factor of a magnitude, with the leading bit that normal numbers leave out. -/
def mantissa (magnitude : Nat) : Nat :=
  if magnitude < Nat.pow 2 52 then magnitude else magnitude % Nat.pow 2 52 + Nat.pow 2 52

/-- The exponent of a magnitude, counted from the one of the smallest positive number. -/
def scale (magnitude : Nat) : Nat := magnitude / Nat.pow 2 52 - 1

/-- Equality of numbers: both zeros are one number, and a NaN differs from everything. -/
def same (x y : Binary64) : Bool :=
  !x.isNaN && !y.isNaN && (x.bits == y.bits || (x.magnitude == 0 && y.magnitude == 0))

/-- `num / den` rounded to the nearest integer, from a tie to the even one. -/
def divNearest (num den : Nat) : Nat :=
  let twice := 2 * (num % den)
  if twice < den ∨ (twice = den ∧ num / den % 2 = 0) then num / den else num / den + 1

/-- The magnitude nearest to the fraction `num / den`. In units of `2 ^ -1074` the fraction has
`Nat.log2 … + 1` binary digits before the point; all beyond 53 of them are rounded away. A mantissa
that rounds up to `2 ^ 53` carries into the exponent by itself. -/
def magnitudeOfRatio (num den : Nat) : Nat :=
  let units := num * Nat.pow 2 1074
  let k := Nat.log2 (units / den) - 52
  min infinityMagnitude (k * Nat.pow 2 52 + divNearest units (den * Nat.pow 2 k))

/-- The double nearest to the fraction `num / den` with the given sign. -/
def ofRatio (negative : Bool) (num den : Nat) : Binary64 :=
  ofMagnitude negative (magnitudeOfRatio num den)

/-- The double nearest to a natural number. -/
def ofNat (n : Nat) : Binary64 := ofRatio false n 1

/-- The double nearest to `digits * 10 ^ exponent`. Numbers with more than 400 digits before the
point are infinite and those with more than 400 zeros behind it are zero, so the power of ten
stays small. -/
def ofDecimal (negative : Bool) (digits : Nat) (exponent : Int) : Binary64 :=
  let places := (Nat.log2 digits : Int) * 30103 / 100000 + exponent
  if digits = 0 ∨ places < -400 then ofMagnitude negative 0
  else if 400 < places then infinity negative
  else ofRatio negative (digits * Nat.pow 10 exponent.toNat) (Nat.pow 10 (-exponent).toNat)

/-- Product of two finite numbers. -/
def mul (x y : Binary64) : Binary64 :=
  ofRatio (x.isNegative != y.isNegative)
    (mantissa x.magnitude * mantissa y.magnitude *
      Nat.pow 2 (scale x.magnitude + scale y.magnitude))
    (Nat.pow 2 2148)

/-- Quotient of two finite numbers, the divisor not zero. -/
def div (x y : Binary64) : Binary64 :=
  ofRatio (x.isNegative != y.isNegative)
    (mantissa x.magnitude * Nat.pow 2 (scale x.magnitude))
    (mantissa y.magnitude * Nat.pow 2 (scale y.magnitude))

/-- The sixteen hexadecimal digits of the bit pattern. -/
def hex (x : Binary64) : String :=
  let digits := Nat.toDigits 16 x.bits.toNat
  String.ofList (List.replicate (16 - digits.length) '0' ++ digits)

end Binary64

end RequestFlow
