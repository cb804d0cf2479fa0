import NumaHeap.Session.Allocator
import NumaHeap.Session.Ledger
import NumaHeap.Session.Pattern
import NumaHeap.Heap.Signals

/-!
A client at work on an allocator. A session keeps the client's handles and threads: a thread is
started when its name is first used, and a name used again after the thread has exited stands for a
new one. A discreet session shows no addresses: it only tells them apart, by the order in which they
were first seen, and it does not let a client try a release again.
-/

namespace NumaHeap

open Session

/-- The threads of a client, by name. -/
structure Threads where
  running : List (Nat × ThreadId) := []
  next : ThreadId := 0

/-- The thread of a name, started if need be. -/
def Threads.enter (t : Threads) (name : Nat) : ThreadId × Threads :=
  match t.running.find? (·.1 == name) with
  | some (_, thread) => (thread, t)
  | none => (t.next, ⟨(name, t.next) :: t.running, t.next + 1⟩)

/-- The threads without that of a name. -/
def Threads.exit (t : Threads) (name : Nat) : Threads :=
  { t with running := t.running.filter (·.1 != name) }

/-- A client, its handles and threads, and what it works on. -/
structure Session (α : Type) where
  subject : α
  ledger : Ledger := {}
  threads : Threads := {}
  discreet : Bool := false
  /-- Addresses that a discreet session has seen, in order. -/
  seen : List Nat := []
  /-- What the callbacks of the client have added up to. -/
  calls : Nat := 0

namespace Session

variable {α β : Type}

/-- Does something on a thread. -/
def run (s : Session α) (name : Nat) (f : α → ThreadId → β × α) : β × Session α :=
  let (thread, threads) := s.threads.enter name
  let (answer, subject) := f s.subject thread
  (answer, { s with subject, threads })

/-- Changes something on a thread. -/
def change (s : Session α) (name : Nat) (f : α → ThreadId → α) : Session α :=
  (s.run name fun subject thread => ((), f subject thread)).2

/-- The number that stands for an address: itself, or its place among those seen. -/
def shown (s : Session α) (address : Nat) : Nat × Session α :=
  if s.discreet then
    match s.seen.idxOf? address with
    | some place => (place, s)
    | none => (s.seen.length, { s with seen := s.seen ++ [address] })
  else (address, s)

variable [Allocator α]

/-- Allocates on a thread; the number is bound to a new handle, or to none on failure. -/
def allocate (s : Session α) (name id : Nat) (d : Demand) : Except AllocError Nat × Session α :=
  let tier := Allocator.tier s.subject d
  match s.run name fun subject thread => Allocator.allocate subject thread d with
  | (.ok address, s) =>
    (.ok address, { s with ledger := s.ledger.bind id ⟨address, d.size, name, tier, true⟩ })
  | (.error error, s) => (.error error, { s with ledger := s.ledger.unbind id })

/-- What came of many allocations. -/
structure Batch where
  successes : Nat := 0
  failure : Option AllocError := none
  first : Option Nat := none
  last : Option Nat := none
  /-- The addresses, each times its place in the batch, summed up within a word. -/
  sum : Nat := 0

/-- Adds the answer at a place, counted from zero. -/
def Batch.add (b : Batch) (place : Nat) : Except AllocError Nat → Batch
  | .ok address =>
    { b with
      successes := b.successes + 1
      first := b.first <|> some address
      last := some address
      sum := Word.wrap (b.sum + address * (place + 1)) }
  | .error error => { b with failure := b.failure <|> some error }

/-- Allocates several times, under consecutive numbers. -/
def allocateMany (s : Session α) (name id count : Nat) (d : Demand) : Batch × Session α :=
  (List.range count).foldl
    (fun (batch, s) place =>
      let (answer, s) := s.allocate name (id + place) d
      (batch.add place answer, s))
    ({}, s)

/-- Why an object was not released. -/
inductive Refusal where
  | misuse (cause : Misuse)
  | failed (error : FreeError)

/-- Objects of the slabs are never released twice; other dead handles may be tried again. -/
def mayFree (s : Session α) (h : Handle) : Bool :=
  h.live || (!s.discreet && h.tier != .slab)

/-- Releases through a handle, at some offset from its address and with a size of the client's
choice. What dies is the handle that was used, with all handles of the same memory, even if the
offset leads to an object that other handles stand for. -/
def free (s : Session α) (name id : Nat) (size : Option Nat) (offset : Nat) :
    Except Refusal (Option Nat) × Session α :=
  match s.ledger.find? id with
  | none => (.error (.misuse .noHandle), s)
  | some h =>
    if s.mayFree h then
      let address := h.address + offset
      match s.run name fun subject thread =>
          Allocator.free subject thread address (size.getD h.size) with
      | (.ok answer, s) =>
        (.ok answer, { s with ledger := s.ledger.retire (·.shares h) })
      | (.error error, s) => (.error (.failed error), s)
    else (.error (.misuse .deadHandle), s)

/-- Releases several handles in the given order, each as a whole; answers how many were released and
the first refusal. -/
def freeMany (s : Session α) (name : Nat) (ids : List Nat) :
    (Nat × Option Refusal) × Session α :=
  ids.foldl
    (fun ((count, refusal), s) id =>
      match s.free name id none 0 with
      | (.ok _, s) => ((count + 1, refusal), s)
      | (.error cause, s) => ((count, refusal <|> some cause), s))
    ((0, none), s)

/-- Resets the arenas, after which no handle of an arena is live. -/
def resetArenas (s : Session α) (name : Nat) : Session α :=
  let s := s.change name fun subject _ => Allocator.resetArenas subject
  { s with ledger := s.ledger.retire Handle.inArena }

/-- Destroys the arenas, after which no handle of an arena is live. -/
def destroyArenas (s : Session α) (name : Nat) : Session α :=
  let s := s.change name Allocator.destroyArenas
  { s with ledger := s.ledger.retire Handle.inArena }

/-- Releases the arena memory of a thread, whose handles die. -/
def releaseThread (s : Session α) (name : Nat) : Session α :=
  let s := s.change name Allocator.releaseThread
  { s with ledger := s.ledger.retire fun h => h.inArena && h.thread == name }

/-- Ends a thread, whose handles in arenas die. -/
def exitThread (s : Session α) (name : Nat) : Session α :=
  let s := s.change name Allocator.exitThread
  { s with
    ledger := s.ledger.retire fun h => h.inArena && h.thread == name
    threads := s.threads.exit name }

/-- Closes what the client works on, on a thread that has done nothing else. -/
def close (s : Session α) : α := Allocator.close s.subject s.threads.next

/-- The machine that the client works on. -/
def machine (s : Session α) : Machine Simulated.State := Allocator.machine s.subject

/-- The same session on another machine. -/
def withMachine (s : Session α) (machine : Machine Simulated.State) : Session α :=
  { s with subject := Allocator.withMachine s.subject machine }

/-- Changes the switches of the platform. -/
def setSwitches (s : Session α) (switches : Simulated.Switches) : Session α :=
  s.withMachine { s.machine with system := { s.machine.system with switches } }

/-- Writes through a handle. -/
def write (s : Session α) (id offset : Nat) (data : Pattern) : Except Misuse (Session α) := do
  let h ← s.ledger.access id offset data.length
  return s.withMachine
    (s.machine.withMemory (data.write s.machine.memory (h.address + offset)))

/-- Reads through a handle. -/
def read (s : Session α) (id offset length : Nat) : Except Misuse (List UInt8) := do
  let h ← s.ledger.access id offset length
  return s.machine.memory.read (h.address + offset) length

/-- Counts the bytes of a handle that are not zero. -/
def countNonzero (s : Session α) (id : Nat) : Except Misuse Nat := do
  let h ← s.ledger.access id 0 0
  return (s.machine.memory.read h.address h.size).countP (· != 0)

end Session

/-- Checks the pressure on a heap; what is notified adds to the calls. -/
def Session.checkPressure (s : Session Hosted) : Bool × Session Hosted :=
  let ((pressured, notified), subject) := s.subject.act (·.checkPressure s.subject.os)
  (pressured, { s with subject, calls := s.calls + notified.getD 0 })

end NumaHeap
