import NumaHeap.Lockstep.Program

/-!
A lock-step run without concurrency: round by round, and in each round thread after thread.
-/

namespace NumaHeap.Lockstep

/-- The shared integer and the local states after a step of every thread, or a panic. -/
def round (step : Step) : Int → List Local → Option (Int × List Local)
  | shared, [] => some (shared, [])
  | shared, l :: rest => do
    let (shared, l') ← step.execute (step.prepare l) shared l
    let (shared, rest) ← round step shared rest
    return (shared, l' :: rest)

/-- All rounds, one after the other. -/
def rounds : List Step → Int → List Local → Option (Int × List Local)
  | [], shared, locals => some (shared, locals)
  | step :: rest, shared, locals => do
    let (shared, locals) ← round step shared locals
    rounds rest shared locals

/-- How the run ends when it is made round by round. -/
def Program.sequential (p : Program) (shared : Int) (locals : List Local) : Outcome :=
  match rounds p.unrolled shared locals with
  | some (shared, locals) => .finished shared locals
  | none => .panicked

end NumaHeap.Lockstep
