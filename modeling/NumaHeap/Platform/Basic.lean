import NumaHeap.Error
import NumaHeap.Memory
import NumaHeap.Size.PowerOfTwo
import NumaHeap.Topology.Basic

/-!
What a heap needs of the system below it: mappings, their placement on nodes, the CPU of a thread
and a clock. A platform is given by its functions over a state of its own, so that it may fail
whenever it likes; a `Machine` joins that state to the contents of memory, and every new mapping
reads as zero.
-/

namespace NumaHeap

/-- The pages that back a mapping. -/
inductive PageKind where
  | normal
  | huge
deriving DecidableEq

/-- Identifies a thread for good: no two threads ever share a number. -/
abbrev ThreadId := Nat

/-- The services of a system with states in `σ`. -/
structure Platform (σ : Type) where
  pageSize : PowerOfTwo
  hugePageSize : PowerOfTwo
  topology : Topology
  /-- Huge pages are set up; a mapping of them may still fail. -/
  hugePagesAvailable : σ → Bool
  /-- The CPU that a thread runs on, if it is known. -/
  currentCpu? : σ → ThreadId → Option Nat
  /-- Nanoseconds since some fixed instant. -/
  now : σ → Nat
  /-- Maps a length that is a multiple of the page size, and answers its start. -/
  map : σ → (length : Nat) → PageKind → Except MapError Nat × σ
  /-- Gives back a mapping, with the length it was mapped with. -/
  unmap : σ → (start length : Nat) → σ
  /-- Places the pages of a mapping on a node. -/
  bind : σ → (start length node : Nat) → Except BindError Unit × σ
  /-- Makes a thread prefer a node. -/
  bindThread : σ → ThreadId → (node : Nat) → Except BindError Unit × σ

/-- The node that a thread runs on, or node 0 if it is not known. -/
def Platform.currentNode {σ : Type} (os : Platform σ) (system : σ) (thread : ThreadId) : Nat :=
  (os.currentCpu? system thread).elim 0 os.topology.nodeOfCpu

/-- The state of a platform, and the contents of memory. -/
structure Machine (σ : Type) where
  system : σ
  memory : Memory

namespace Machine

variable {σ : Type}

/-- Changes the contents of memory. -/
def withMemory (machine : Machine σ) (memory : Memory) : Machine σ := { machine with memory }

/-- Maps fresh memory, which reads as zero. -/
def map (os : Platform σ) (machine : Machine σ) (length : Nat) (pages : PageKind) :
    Except MapError Nat × Machine σ :=
  match os.map machine.system length pages with
  | (.ok start, system) => (.ok start, ⟨system, machine.memory.clear start length⟩)
  | (.error cause, system) => (.error cause, { machine with system })

/-- Gives back a mapping. -/
def unmap (os : Platform σ) (machine : Machine σ) (start length : Nat) : Machine σ :=
  { machine with system := os.unmap machine.system start length }

/-- Places the pages of a mapping on a node. -/
def bind (os : Platform σ) (machine : Machine σ) (start length node : Nat) :
    Except BindError Unit × Machine σ :=
  let (answer, system) := os.bind machine.system start length node
  (answer, { machine with system })

/-- The node that a thread runs on. -/
def currentNode (os : Platform σ) (machine : Machine σ) (thread : ThreadId) : Nat :=
  os.currentNode machine.system thread

end Machine

end NumaHeap
