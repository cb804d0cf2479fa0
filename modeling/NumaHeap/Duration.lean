import NumaHeap.Size.Word

/-!
Spans of time in whole seconds and nanoseconds.
-/

namespace NumaHeap

/-- A span of time. -/
structure Duration where
  seconds : Nat
  nanoseconds : Nat
  nanoseconds_lt : nanoseconds < 1000000000 := by decide
deriving DecidableEq

namespace Duration

/-- Nanoseconds in a second. -/
def second : Nat := 1000000000

/-- The span of a number of nanoseconds. -/
def ofNanoseconds (n : Nat) : Duration :=
  ⟨n / second, n % second, Nat.mod_lt _ (by decide)⟩

/-- The span of seconds and nanoseconds, whole seconds of the latter carried over. -/
def ofParts (seconds nanoseconds : Nat) : Duration := ofNanoseconds (seconds * second + nanoseconds)

/-- The span in nanoseconds. -/
def toNanoseconds (d : Duration) : Nat := d.seconds * second + d.nanoseconds

theorem toNanoseconds_ofNanoseconds (n : Nat) : (ofNanoseconds n).toNanoseconds = n :=
  Nat.div_add_mod' n second

end Duration

end NumaHeap
