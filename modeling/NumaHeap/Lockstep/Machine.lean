import NumaHeap.Lockstep.Checkpoint
import NumaHeap.Lockstep.Program

/-!
A lock-step run as a machine. Every thread prepares a step, passes the barrier and takes the step;
a last barrier after the last step makes all threads finish together. The machine moves one thread
at a time, by one access to what is shared, and any thread that is not blocked may be next.

`Program.run` moves the threads in turn, and `Reachable` allows every order.
-/

namespace NumaHeap.Lockstep

/-- Where a thread is. Positions count the steps of the whole run. -/
inductive Phase where
  /-- About to prepare a step. -/
  | preparing (index : Nat)
  /-- About to arrive at the barrier before a step, or at the last barrier. -/
  | arriving (index : Nat) (prepared : Int)
  /-- Blocked at a barrier, in a generation. -/
  | waiting (index : Nat) (prepared : Int) (generation : Nat)
  /-- Past the barrier. -/
  | running (index : Nat) (prepared : Int)
  /-- Has panicked, but has not yet poisoned the barrier. -/
  | unwinding
  | panicked
  | finished
deriving DecidableEq

/-- A thread. -/
structure Thread where
  phase : Phase
  state : Local
deriving DecidableEq

/-- All threads, and what they share. -/
structure Machine where
  shared : Int
  checkpoint : Checkpoint
  threads : List Thread
deriving DecidableEq

namespace Machine

/-- No thread will ever move again. -/
def isDone (m : Machine) : Bool :=
  m.threads.all fun t => t.phase = .finished || t.phase = .panicked

/-- How a machine ends in which no thread moves any more. -/
def outcome (m : Machine) : Outcome :=
  if m.threads.all (·.phase = .finished) then .finished m.shared (m.threads.map (·.state))
  else .panicked

end Machine

namespace Program

/-- The machine before any thread has moved. -/
def start (_ : Program) (shared : Int) (locals : List Local) : Machine where
  shared := shared
  checkpoint := { participants := locals.length }
  threads := locals.map fun state => ⟨.preparing 0, state⟩

/-- Where a thread goes once it is past the barrier: to the step, or home after the last one. -/
def pastBarrier (p : Program) (index : Nat) (prepared : Int) : Phase :=
  if index < p.length then .running index prepared else .finished

/-- A move of one thread: what becomes of it, of the shared integer and of the barrier. There is no
move for a thread that is blocked or done. -/
def move? (p : Program) (shared : Int) (c : Checkpoint) (t : Thread) :
    Option (Thread × Int × Checkpoint) :=
  match t.phase with
  | .preparing index =>
    let prepared := (p.step? index).elim 0 (·.prepare t.state)
    some ({ t with phase := .arriving index prepared }, shared, c)
  | .arriving index prepared =>
    match c.arrive with
    | (.panics, c) => some ({ t with phase := .unwinding }, shared, c)
    | (.passes, c) => some ({ t with phase := p.pastBarrier index prepared }, shared, c)
    | (.waits generation, c) =>
      some ({ t with phase := .waiting index prepared generation }, shared, c)
  | .waiting index prepared generation =>
    if c.holds generation then none
    else if c.poisoned then some ({ t with phase := .unwinding }, shared, c)
    else some ({ t with phase := p.pastBarrier index prepared }, shared, c)
  | .running index prepared =>
    match (p.step? index).bind (·.execute prepared shared t.state) with
    | some (shared, state) => some (⟨.preparing (index + 1), state⟩, shared, c)
    | none => some ({ t with phase := .unwinding }, shared, c)
  | .unwinding => some ({ t with phase := .panicked }, shared, c.poison)
  | .panicked => none
  | .finished => none

/-- The machine after a move of the thread at a position. -/
def advance? (p : Program) (m : Machine) (index : Nat) : Option Machine := do
  let t ← m.threads[index]?
  let (t, shared, checkpoint) ← p.move? m.shared m.checkpoint t
  return { shared, checkpoint, threads := m.threads.set index t }

/-- The machines that some order of moves leads to. -/
inductive Reachable (p : Program) (first : Machine) : Machine → Prop where
  | start : Reachable p first first
  | step {m next : Machine} (index : Nat) (before : Reachable p first m)
      (moved : advance? p m index = some next) : Reachable p first next

/-- One turn: every thread moves that can. -/
def turn (p : Program) (m : Machine) : Machine :=
  (List.range m.threads.length).foldl (fun m index => (p.advance? m index).getD m) m

/-- Several turns, until no thread is left to move. -/
def turns (p : Program) : Nat → Machine → Machine
  | 0, m => m
  | n + 1, m => if m.isDone then m else p.turns n (p.turn m)

end Program

/-- As many turns as a run can take: in each some thread moves, and a thread moves no more than four
times for each step. -/
def Program.turnBound (p : Program) (threads : Nat) : Nat := threads * (4 * (p.length + 1) + 3)

/-- Runs a program with one thread for each local state. -/
def Program.run (p : Program) (shared : Int) (locals : List Local) : Except Refusal Outcome :=
  if locals.isEmpty then .error .noThread
  else if p.steps.isEmpty then .error .noStep
  else .ok (p.turns (p.turnBound locals.length) (p.start shared locals)).outcome

end NumaHeap.Lockstep
