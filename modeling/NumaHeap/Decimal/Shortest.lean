import NumaHeap.Size.Word

/-!
The shortest decimal text of a binary fraction: of all decimals that read back as the value, one
with the fewest digits, and of those the nearest; of two equally near, the larger one.

Decimal grids are tried from coarse to fine. The first grid with a point in the interval of reals
that round to the value decides the number of digits, and only the two neighbours of the value on
that grid need a look.
-/

namespace NumaHeap.Decimal

/-- Digits followed by a power of ten. -/
structure Scaled where
  digits : Nat
  exponent : Int
deriving DecidableEq

/-- The reals that round to a positive value. The three points count units of `2 ^ exponent`, and
the ends belong to the interval if it is closed. -/
structure Interval where
  low : Nat
  value : Nat
  high : Nat
  exponent : Int
  closed : Bool

/-- The fraction bits of a double with an explicit leading bit. -/
def leadingBit : Nat := 2 ^ (52 : Nat)

/-- Rounding interval of the positive double with the given exponent field and fraction. A power of
two has a neighbour below that is only half as far away as the one above. -/
def Interval.ofFields (exponent fraction : Nat) : Interval :=
  let mantissa := if exponent = 0 then fraction else leadingBit + fraction
  { low := 4 * mantissa - (if mantissa = leadingBit then 1 else 2)
    value := 4 * mantissa
    high := 4 * mantissa + 2
    exponent := (max exponent 1 : Nat) - (1077 : Int)
    closed := mantissa % 2 = 0 }

/-- Numerator of `2 ^ b / 10 ^ k`. -/
def gridNumerator (b k : Int) : Nat := 2 ^ b.toNat * 10 ^ (-k).toNat

/-- Denominator of `2 ^ b / 10 ^ k`. -/
def gridDenominator (b k : Int) : Nat := 2 ^ (-b).toNat * 10 ^ k.toNat

/-- The multiple `point * 10 ^ k` lies in the interval. -/
def Interval.contains (i : Interval) (k : Int) (point : Nat) : Bool :=
  let up := gridNumerator i.exponent k
  let down := gridDenominator i.exponent k
  if i.closed then i.low * up ≤ point * down && point * down ≤ i.high * up
  else i.low * up < point * down && point * down < i.high * up

/-- The neighbour of the value on the grid of multiples of `10 ^ k` that lies in the interval; the
nearer one if both do. -/
def Interval.onGrid? (i : Interval) (k : Int) : Option Scaled :=
  let up := gridNumerator i.exponent k
  let down := gridDenominator i.exponent k
  let below := i.value * up / down
  let pick (point : Nat) : Scaled := ⟨point, k⟩
  match i.contains k below, i.contains k (below + 1) with
  | true, false => some (pick below)
  | false, true => some (pick (below + 1))
  | true, true =>
    some (pick (if 2 * (i.value * up) < (2 * below + 1) * down then below else below + 1))
  | false, false => none

/-- The coarsest grid on which a double can be a whole number. -/
def coarsest : Int := 310

/-- The grids from `10 ^ 310` down to `10 ^ -1080`, beyond which no double has digits. -/
def gridCount : Nat := 1391

/-- The point of the interval on the coarsest grid that has one. -/
def Interval.shortest (i : Interval) : Scaled :=
  ((List.range gridCount).findSome? fun (step : Nat) => i.onGrid? (coarsest - step)).getD ⟨0, 0⟩

/-- Positional text, without an exponent. -/
def Scaled.text (s : Scaled) : String :=
  let digits := Nat.toDigits 10 s.digits
  if 0 ≤ s.exponent then String.ofList (digits ++ List.replicate s.exponent.toNat '0')
  else
    let places := (-s.exponent).toNat
    let padded := List.replicate (places + 1 - digits.length) '0' ++ digits
    let whole := padded.length - places
    String.ofList (padded.take whole ++ '.' :: padded.drop whole)

/-- The text of a double, from its sign, exponent and fraction fields. A whole number has no point,
and the sign of zero is kept. -/
def shortestText (x : Float) : String :=
  let bits := x.toBits.toNat
  let exponent := bits / leadingBit % 2048
  let fraction := bits % leadingBit
  let magnitude :=
    if exponent = 2047 then "inf"
    else if exponent = 0 ∧ fraction = 0 then "0"
    else (Interval.ofFields exponent fraction).shortest.text
  if exponent = 2047 ∧ fraction ≠ 0 then "NaN"
  else if bits / 2 ^ (63 : Nat) = 1 then "-" ++ magnitude
  else magnitude

end NumaHeap.Decimal
