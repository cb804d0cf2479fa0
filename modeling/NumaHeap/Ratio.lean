import NumaHeap.Decimal.Shortest
import NumaHeap.Duration

/-!
Shares of a whole, as doubles. Both counts are words, and are converted to the nearest double before
they are divided.
-/

namespace NumaHeap

/-- The double nearest to a word. -/
def nearestDouble (n : Nat) : Float := n.toUInt64.toFloat

/-- A part of a whole. -/
structure Ratio where
  part : Nat
  whole : Nat
deriving DecidableEq

/-- The quotient, or zero if there is no whole. -/
def Ratio.value (r : Ratio) : Float :=
  if r.whole = 0 then 0.0 else nearestDouble r.part / nearestDouble r.whole

namespace Duration

/-- The whole number nearest to `m / n`, an exact half going to the even one. -/
def roundDivide (m n : Nat) : Nat :=
  let below := m / n
  let rest := 2 * (m % n)
  if rest < n then below
  else if n < rest then below + 1
  else below + below % 2

/-- The span in seconds, as a double. -/
def toSeconds (d : Duration) : Float :=
  nearestDouble d.seconds + nearestDouble d.nanoseconds / nearestDouble second

/-- The span nearest to a number of seconds that is finite and not negative. -/
def ofSeconds (x : Float) : Duration :=
  let bits := x.toBits.toNat
  let exponent := bits / Decimal.leadingBit % 2048
  let fraction := bits % Decimal.leadingBit
  let mantissa := if exponent = 0 then fraction else Decimal.leadingBit + fraction
  let shift : Int := (max exponent 1 : Nat) - (1075 : Int)
  ofNanoseconds (roundDivide (mantissa * second * 2 ^ shift.toNat) (2 ^ (-shift).toNat))

/-- A `count`-th of a span: exact but for a fraction of a nanosecond up to the largest 32-bit count,
and computed with doubles beyond it. -/
def share (d : Duration) (count : Nat) : Duration :=
  if count = 0 then ofNanoseconds 0
  else if count < 4294967296 then ofNanoseconds (d.toNanoseconds / count)
  else ofSeconds (d.toSeconds / nearestDouble count)

end Duration

end NumaHeap
