/-!
What the threads of a lock-step run do. All threads go through the same steps, each with a local
state of its own and one integer that they share. A step may prepare a number beforehand, from the
local state alone.
-/

namespace NumaHeap.Lockstep

/-- One step, taken by every thread. -/
inductive Step where
  /-- Adds the local value to the shared integer. -/
  | add
  /-- Notes the shared integer in the local log. -/
  | observe
  /-- Raises the local value. -/
  | increment (amount : Int)
  /-- Panics if the local value is the given one. -/
  | failIf (value : Int)
  | nop
  /-- Prepares a multiple of the local value, and adds it to the shared integer. -/
  | prepareMultiple (factor : Int)
deriving DecidableEq

/-- The local state of a thread. -/
structure Local where
  value : Int
  log : List Int := []
deriving DecidableEq

/-- What a step prepares. -/
def Step.prepare : Step → Local → Int
  | .prepareMultiple factor, l => l.value * factor
  | _, _ => 0

/-- What a step does to the shared integer and to the local state, or a panic. -/
def Step.execute (prepared : Int) (shared : Int) (l : Local) : Step → Option (Int × Local)
  | .add => some (shared + l.value, l)
  | .observe => some (shared, { l with log := l.log ++ [shared] })
  | .increment amount => some (shared, { l with value := l.value + amount })
  | .failIf value => if l.value = value then none else some (shared, l)
  | .nop => some (shared, l)
  | .prepareMultiple _ => some (shared + prepared, l)

/-- Steps to go through, some number of times. -/
structure Program where
  steps : List Step
  iterations : Nat

/-- How many steps each thread takes. -/
def Program.length (p : Program) : Nat := p.iterations * p.steps.length

/-- The step at a position of the whole run. -/
def Program.step? (p : Program) (index : Nat) : Option Step :=
  if index < p.length then p.steps[index % p.steps.length]? else none

/-- The steps of the whole run, in order. -/
def Program.unrolled (p : Program) : List Step := (List.replicate p.iterations p.steps).flatten

/-- A run that cannot be started. -/
inductive Refusal where
  | noThread
  | noStep
deriving DecidableEq

def Refusal.message : Refusal → String
  | .noThread => "Cannot run a burst test without a single thread"
  | .noStep => "Cannot run a burst test without a single step"

/-- How a run ends. -/
inductive Outcome where
  | finished (shared : Int) (locals : List Local)
  | panicked
deriving DecidableEq

end NumaHeap.Lockstep
