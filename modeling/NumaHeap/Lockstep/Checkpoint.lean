/-!
A barrier that is used again and again, and can be poisoned. The last participant to arrive starts
the next generation and lets the others go; a poisoned barrier lets everybody go, but only to
panic.
-/

namespace NumaHeap.Lockstep

/-- The state behind the lock of a barrier. -/
structure Checkpoint where
  participants : Nat
  arrived : Nat := 0
  generation : Nat := 0
  poisoned : Bool := false
deriving DecidableEq

namespace Checkpoint

/-- What comes of an arrival. -/
inductive Arrival where
  /-- The barrier is poisoned. -/
  | panics
  /-- The last participant has arrived. -/
  | passes
  /-- Others are still missing in this generation. -/
  | waits (generation : Nat)
deriving DecidableEq

/-- A participant arrives. -/
def arrive (c : Checkpoint) : Arrival × Checkpoint :=
  if c.poisoned then (.panics, c)
  else if c.arrived + 1 = c.participants then
    (.passes, { c with arrived := 0, generation := c.generation + 1 })
  else (.waits c.generation, { c with arrived := c.arrived + 1 })

/-- A participant that waits in a generation has to go on waiting. -/
def holds (c : Checkpoint) (generation : Nat) : Bool :=
  c.generation == generation && !c.poisoned

/-- A participant has panicked. -/
def poison (c : Checkpoint) : Checkpoint := { c with poisoned := true }

end Checkpoint

end NumaHeap.Lockstep
