import RequestFlow.Number.Binary64

/-!
# Shortest decimal text of a double

The real numbers that round to a positive double form an interval, whose ends belong to it exactly
if the mantissa is even. `shortest` finds the decimal with the fewest digits in that interval: for
one digit, two digits, and so on it tests the two neighbours of the value on the grid of decimals
with so many digits, takes the nearer of those inside, and on a tie the even one. Seventeen digits
always suffice.

How the digits are laid out is the business of a `Layout`; `Layout.json` is the one used in JSON
text.
-/

namespace RequestFlow

namespace Binary64

/-- The reals that round to one magnitude, as fractions over one denominator, and the value. -/
structure Interval where
  low : Nat
  value : Nat
  high : Nat
  den : Nat
  closed : Bool

/-- Ten to this power lifts every positive double above `10 ^ 26`. -/
def lift : Nat := 350

/-- The interval of a finite positive magnitude, multiplied by `10 ^ lift`. Below a power of two
the doubles lie twice as dense. -/
def interval (magnitude : Nat) : Interval :=
  let m := mantissa magnitude
  let unit := Nat.pow 2 (scale magnitude) * Nat.pow 10 lift
  let below := if m = Nat.pow 2 52 ∧ scale magnitude ≠ 0 then 1 else 2
  { low := (4 * m - below) * unit
    value := 4 * m * unit
    high := (4 * m + 2) * unit
    den := Nat.pow 2 1076
    closed := m % 2 = 0 }

def Interval.contains (i : Interval) (num : Nat) : Bool :=
  if i.closed then i.low ≤ num && num ≤ i.high else i.low < num && num < i.high

/-- The number of decimal digits of a natural number; one for zero. -/
def digitCount (n : Nat) : Nat := (Nat.toDigits 10 n).length

/-- The better of the value's two neighbours on the grid with the given step. -/
def Interval.candidate? (i : Interval) (step : Nat) : Option Nat :=
  let c := i.value / (i.den * step)
  let down := c * step * i.den
  let up := (c + 1) * step * i.den
  match i.contains down, i.contains up with
  | true, true =>
    if i.value - down < up - i.value ∨ (i.value - down = up - i.value ∧ c % 2 = 0) then some c
    else some (c + 1)
  | true, false => some c
  | false, true => some (c + 1)
  | false, false => none

/-- Drop the trailing zeros of a positive number, counting them into the exponent. -/
def dropZeros : Nat → Nat → Int → Nat × Int
  | 0, d, e => (d, e)
  | fuel + 1, d, e => if d % 10 = 0 then dropZeros fuel (d / 10) (e + 1) else (d, e)

/-- Digits `d` and exponent `e` of the shortest decimal `d * 10 ^ e` that rounds to a finite
positive magnitude. -/
def shortest (magnitude : Nat) : Nat × Int :=
  let i := interval magnitude
  let top := digitCount (i.value / i.den)
  let found := (List.range 17).findSome? fun n =>
    (i.candidate? (Nat.pow 10 (top - (n + 1)))).map fun d => (d, n + 1)
  match found with
  | some (d, n) => dropZeros 18 d ((top - n : Nat) - (lift : Int))
  | none => (0, 0)

end Binary64

structure Layout where
  /-- Decimal exponents from this one on are written positionally … -/
  positionalFrom : Int
  /-- … up to but excluding this one. -/
  positionalBelow : Int
  /-- The text between the digits and the exponent. -/
  mark : String
  /-- Whether a positive exponent shows its sign. -/
  plus : Bool

namespace Layout

/-- Numbers in JSON text are positional from `1e-5` up to below `1e16`, always with a digit behind
the point; beyond, the exponent has a sign and no leading zero. -/
def json : Layout := ⟨-5, 16, "e", true⟩

def write (l : Layout) (digits : Nat) (exponent : Int) : String :=
  let ds := Nat.toDigits 10 digits
  let point : Int := ds.length + exponent
  let lead := point - 1
  if l.positionalFrom ≤ lead ∧ lead < l.positionalBelow then
    if 0 ≤ exponent then
      String.ofList (ds ++ List.replicate exponent.toNat '0') ++ ".0"
    else if 0 < point then
      String.ofList (ds.take point.toNat) ++ "." ++ String.ofList (ds.drop point.toNat)
    else
      "0." ++ String.ofList (List.replicate (-point).toNat '0' ++ ds)
  else
    let sign := if lead < 0 then "-" else if l.plus then "+" else ""
    let fraction := if ds.length ≤ 1 then "" else "." ++ String.ofList (ds.drop 1)
    String.ofList (ds.take 1) ++ fraction ++ l.mark ++ sign ++ toString lead.natAbs

/-- Write a finite double; zero keeps its sign. -/
def writeDouble (l : Layout) (x : Binary64) : String :=
  let sign := if x.isNegative then "-" else ""
  if x.magnitude = 0 then sign ++ "0.0"
  else
    let (d, e) := Binary64.shortest x.magnitude
    sign ++ l.write d e

end Layout

end RequestFlow
