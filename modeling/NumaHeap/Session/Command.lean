import NumaHeap.Report.Error
import NumaHeap.Report.Statistics
import NumaHeap.Session.Basic
import NumaHeap.Text.Hex

/-!
The commands of a session, and the report that each one ends with.
-/

namespace NumaHeap.Session

/-- What a client does. -/
inductive Command where
  | allocate (id : Nat) (demand : Demand)
  | allocateMany (id count : Nat) (demand : Demand)
  | free (id : Nat) (size : Option Nat) (offset : Nat)
  | freeMany (ids : List Nat)
  | write (id offset : Nat) (data : Pattern)
  | read (id offset length : Nat)
  | countNonzero (id : Nat)
  | setSwitches (switches : Simulated.Switches)
  | resetArenas
  | destroyArenas
  | releaseThread
  | exitThread

def Misuse.report : Misuse → Report
  | .noHandle => .code "NoHandle"
  | .deadHandle => .code "DeadHandle"
  | .outOfRange => .code "OutOfRange"

def Refusal.report (address : Nat → Report) : Refusal → Report
  | .misuse cause => cause.report
  | .failed error => error.report address

/-- A discreet batch shows no addresses. -/
def Batch.report (discreet : Bool) (b : Batch) : Report :=
  let address (a : Option Nat) : Report := .optional .count (if discreet then none else a)
  .fields [
    ("ok", .count b.successes),
    ("failure", .optional AllocError.report b.failure),
    ("first", address b.first),
    ("last", address b.last),
    ("sum", .count (if discreet then 0 else b.sum))]

variable {α : Type} [Allocator α]

/-- The report of an address that is not an answer itself. -/
def addressReport (s : Session α) (address : Nat) : Report :=
  if s.discreet then .nothing else .count address

/-- Carries out a command on a thread. -/
def perform (s : Session α) (name : Nat) : Command → Report × Session α
  | .allocate id demand =>
    match s.allocate name id demand with
    | (.error error, s) => (error.report, s)
    | (.ok address, s) =>
      let (place, s) := s.shown address
      (.count place, s)
  | .allocateMany id count demand =>
    let (batch, s) := s.allocateMany name id count demand
    (batch.report s.discreet, s)
  | .free id size offset =>
    let (answer, s) := s.free name id size offset
    (.answer (·.report s.addressReport) (.optional .count) answer, s)
  | .freeMany ids =>
    let ((count, refusal), s) := s.freeMany name ids
    (.fields [("ok", .count count),
      ("failure", .optional (·.report s.addressReport) refusal)], s)
  | .write id offset data =>
    match s.write id offset data with
    | .ok s => (.nothing, s)
    | .error cause => (cause.report, s)
  | .read id offset length =>
    (.answer Misuse.report (fun bytes => .text (Text.hexBytes bytes)) (s.read id offset length), s)
  | .countNonzero id => (.answer Misuse.report .count (s.countNonzero id), s)
  | .setSwitches switches => (.nothing, s.setSwitches switches)
  | .resetArenas => (.nothing, s.resetArenas name)
  | .destroyArenas => (.nothing, s.destroyArenas name)
  | .releaseThread => (.nothing, s.releaseThread name)
  | .exitThread => (.nothing, s.exitThread name)

/-- The size of the large object at an offset from the address of a handle, dead or alive. -/
def largeSize (s : Session α) (large : Large) (id offset : Nat) : Report :=
  match s.ledger.find? id with
  | none => Misuse.noHandle.report
  | some h => .optional .count (large.sizeOf? (h.address + offset))

end NumaHeap.Session
