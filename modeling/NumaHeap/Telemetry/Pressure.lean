import NumaHeap.Duration
import NumaHeap.Size.Word

/-!
The pressure that memory is under, as told to a collector. Two signals are kept. A check, made no
more often than its interval allows, says whether the bytes in use exceed a threshold, and notifies
a callback when that becomes true. A gauge between empty and full is raised by one notch each time
more bytes than a step have been allocated.
-/

namespace NumaHeap.Telemetry

/-- Numbers that a gauge can show. -/
structure Gauge (ρ : Type) where
  empty : ρ
  full : ρ
  notch : ρ
  add : ρ → ρ → ρ
  less : ρ → ρ → Bool

namespace Gauge

variable {ρ : Type}

/-- The number itself, or the end of the range beyond which it lies. -/
def clamp (g : Gauge ρ) (x low high : ρ) : ρ :=
  if g.less x low then low else if g.less high x then high else x

/-- The sum, kept within a range. -/
def addClamped (g : Gauge ρ) (x delta low high : ρ) : ρ := g.clamp (g.add x delta) low high

/-- One notch higher, at most full. -/
def raise (g : Gauge ρ) (x : ρ) : ρ := g.addClamped x g.notch g.empty g.full

/-- A gauge that counts in doubles. -/
def double : Gauge Float where
  empty := 0.0
  full := 1.0
  notch := 0.1
  add := (· + ·)
  less x y := x < y

/-- A gauge that counts in fractions. -/
def exact : Gauge Rat where
  empty := 0
  full := 1
  notch := 1 / 10
  add := (· + ·)
  less x y := x < y

end Gauge

/-- A callback is known by a number of its owner's choice. -/
abbrev Callback := Nat

/-- The state of both signals. -/
structure Pressure (ρ : Type) where
  threshold : Nat
  /-- Nanoseconds between two evaluations, at least. -/
  interval : Nat
  /-- Bytes that may be allocated before the gauge is raised. -/
  step : Nat
  level : ρ
  bytesSinceRaise : Nat := 0
  underPressure : Bool := false
  /-- When the threshold was last compared. -/
  lastCheck : Option Nat := none
  callback : Option Callback := none

namespace Pressure

variable {ρ : Type}

/-- An empty gauge, and no check made yet. Intervals too long to count are cut short. -/
def create (g : Gauge ρ) (threshold : Nat) (interval : Duration) (step : Nat) : Pressure ρ where
  threshold := threshold
  interval := min interval.toNanoseconds Word.last
  step := step
  level := g.empty

/-- Raises the gauge to its end. -/
def saturate (g : Gauge ρ) (p : Pressure ρ) : Pressure ρ := { p with level := g.full }

/-- Counts allocated bytes in a word. Once they exceed a step the gauge is raised and the count
starts anew. -/
def recordAllocation (g : Gauge ρ) (p : Pressure ρ) (size : Nat) : Pressure ρ :=
  let since := Word.wrap (p.bytesSinceRaise + size)
  if since ≤ p.step then { p with bytesSinceRaise := since }
  else { p with bytesSinceRaise := 0, level := g.raise p.level }

/-- A collection was made: the gauge is empty and the count starts anew. -/
def collectionDone (g : Gauge ρ) (p : Pressure ρ) : Pressure ρ :=
  { p with bytesSinceRaise := 0, level := g.empty }

/-- Registers a callback in place of any other, or none. -/
def setCallback (p : Pressure ρ) (callback : Option Callback) : Pressure ρ := { p with callback }

/-- The instant to remember for a check. The last instant of the clock stands for none. -/
def remember (now : Nat) : Option Nat := if now = Word.last then none else some now

/-- A check at this instant comes too soon after the last one. -/
def tooSoon (p : Pressure ρ) (now : Nat) : Bool :=
  p.lastCheck.any fun last => now - last < p.interval

/-- What a check found. -/
structure Checked (ρ : Type) where
  pressured : Bool
  /-- The callback to invoke, if pressure has set in. -/
  notified : Option Callback
  state : Pressure ρ

/-- Compares the bytes in use with the threshold, or repeats the last result if it is too soon. -/
def check (p : Pressure ρ) (current now : Nat) : Checked ρ :=
  if p.tooSoon now then ⟨p.underPressure, none, p⟩
  else
    let pressured := p.threshold < current
    { pressured
      notified := if pressured && !p.underPressure then p.callback else none
      state := { p with underPressure := pressured, lastCheck := remember now } }

end Pressure

end NumaHeap.Telemetry
