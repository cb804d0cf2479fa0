import NumaHeap.Arena.Chain
import NumaHeap.Ratio
import NumaHeap.Slab.Cell

/-!
The slabs: one cell for each size class on each node, those of a node side by side. A request is
served by the cell of its node; if that can map no region, objects freed on other nodes are taken.
An object returns to the cell from whose region it was carved, whoever frees it.
-/

namespace NumaHeap

/-- All cells, and what was served. -/
structure Slab where
  mapper : Mapper
  /-- The classes of node 0, then those of node 1, and so on. -/
  cells : List Slab.Cell
  allocations : Nat := 0
  deallocations : Nat := 0
  remoteFallbacks : Nat := 0

namespace Slab

/-- A report of the slabs. -/
structure Stats where
  allocations : Nat := 0
  deallocations : Nat := 0
  hits : Nat := 0
  misses : Nat := 0
  remoteFallbacks : Nat := 0
  bytesReserved : Nat := 0
  hugeFallbacks : Nat := 0
  bindFailures : Nat := 0
  cells : List Cell.View := []
deriving DecidableEq

/-- Allocations served from a free list, as a share of all. -/
def Stats.hitRatio (s : Stats) : Ratio := ⟨s.hits, s.hits + s.misses⟩

/-- Empty cells for all classes on all nodes. -/
def create (topology : Topology) (hugePages numaAware : Bool) : Slab where
  mapper := { hugePages, numaAware }
  cells := topology.nodes.flatMap fun node =>
    Size.slabClasses.map fun objectSize => { objectSize, node }

/-- Position of a cell. -/
def cellIndex (node sizeClass : Nat) : Nat := node * Size.slabClassCount + sizeClass

/-- The cell of a class on a node. -/
def cell? (s : Slab) (node sizeClass : Nat) : Option Cell := s.cells[cellIndex node sizeClass]?

/-- Replaces the cell of a class on a node. -/
def setCell (s : Slab) (node sizeClass : Nat) (c : Cell) : Slab :=
  { s with cells := s.cells.set (cellIndex node sizeClass) c }

variable {σ : Type}

/-- The node that serves requests of a thread. -/
def localNode (os : Platform σ) (s : Slab) (machine : Machine σ) (thread : ThreadId) : Nat :=
  if s.mapper.numaAware then machine.currentNode os thread else 0

/-- The other nodes, in ascending order. -/
def otherNodes (topology : Topology) (node : Nat) : List Nat :=
  topology.nodes.filter (· != node)

/-- The first of some nodes on which an object of the class can be taken off the free list. -/
def popFirst? (s : Slab) (memory : Memory) (sizeClass : Nat) :
    List Nat → Option (Arena.Placement × Slab × Memory)
  | [] => none
  | node :: rest =>
    match (s.cell? node sizeClass).bind (·.pop? memory) with
    | some (object, c, memory) => some (⟨object, node⟩, s.setCell node sizeClass c, memory)
    | none => s.popFirst? memory sizeClass rest

/-- Serves a class on a node, or with a freed object of another node if no region can be mapped. -/
def serve (os : Platform σ) (s : Slab) (machine : Machine σ) (node sizeClass : Nat) :
    Except AllocError Arena.Placement × Slab × Machine σ :=
  match s.cell? node sizeClass with
  | none => (.error (.invalidNode node), s, machine)
  | some c =>
    match c.allocate os ⟨s.mapper, machine⟩ with
    | (.ok object, c, supply) =>
      (.ok ⟨object, node⟩,
        { s.setCell node sizeClass c with
          mapper := supply.mapper
          allocations := s.allocations + 1 },
        supply.machine)
    | (.error cause, _, supply) =>
      let s := { s with mapper := supply.mapper }
      match s.popFirst? supply.machine.memory sizeClass (otherNodes os.topology node) with
      | none => (.error (.map cause), s, supply.machine)
      | some (placement, s, memory) =>
        (.ok placement,
          { s with
            allocations := s.allocations + 1
            remoteFallbacks := s.remoteFallbacks + 1 },
          supply.machine.withMemory memory)

/-- Allocates an object of at least `size` bytes, on a node or on that of the thread. -/
def allocate (os : Platform σ) (s : Slab) (machine : Machine σ) (thread : ThreadId) (size : Nat)
    (node : Option Nat) : Except AllocError Arena.Placement × Slab × Machine σ :=
  if size = 0 then (.error .zeroSize, s, machine)
  else match Size.slabClass? size with
    | none => (.error (.noSizeClass size), s, machine)
    | some sizeClass =>
      let node := node.getD (s.localNode os machine thread)
      if os.topology.contains node then s.serve os machine node sizeClass
      else (.error (.invalidNode node), s, machine)

/-- Gives an object to the first of some nodes that owns it. -/
def reclaimFirst? (s : Slab) (memory : Memory) (sizeClass object : Nat) :
    List Nat → Option (Slab × Memory)
  | [] => none
  | node :: rest =>
    match (s.cell? node sizeClass).bind (·.reclaim? memory object) with
    | some (c, memory) => some (s.setCell node sizeClass c, memory)
    | none => s.reclaimFirst? memory sizeClass object rest

/-- Takes back an object of a given size; the node of the thread is asked first. -/
def free (os : Platform σ) (s : Slab) (machine : Machine σ) (thread : ThreadId)
    (object size : Nat) : Except FreeError Unit × Slab × Machine σ :=
  match Size.slabClass? size with
  | none => (.error (.unknownSizeClass size), s, machine)
  | some sizeClass =>
    let here := s.localNode os machine thread
    match s.reclaimFirst? machine.memory sizeClass object
        (here :: otherNodes os.topology here) with
    | none => (.error (.unknownPointer object), s, machine)
    | some (s, memory) =>
      (.ok (), { s with deallocations := s.deallocations + 1 }, machine.withMemory memory)

/-- Freed objects of the class of a size on a node. -/
def freeObjects (os : Platform σ) (s : Slab) (size node : Nat) : Nat :=
  if os.topology.contains node then
    ((Size.slabClass? size).bind (s.cell? node)).elim 0 (·.free.length)
  else 0

/-- Gives all regions back. -/
def close (os : Platform σ) (s : Slab) (machine : Machine σ) : Slab × Machine σ :=
  let supply := Supply.unmapAll os ⟨s.mapper, machine⟩ (s.cells.flatMap (·.regions.reverse))
  ({ s with
      mapper := supply.mapper
      cells := s.cells.map fun c => { c with free := c.free.clear, regions := [] } },
    supply.machine)

/-- The report of the slabs; cells that were never used are left out. -/
def stats (s : Slab) : Stats where
  allocations := s.allocations
  deallocations := s.deallocations
  hits := (s.cells.map (·.hits)).sum
  misses := (s.cells.map (·.misses)).sum
  remoteFallbacks := s.remoteFallbacks
  bytesReserved := s.mapper.mappedBytes
  hugeFallbacks := s.mapper.hugeFallbacks
  bindFailures := s.mapper.bindFailures
  cells := (s.cells.filter Cell.isUsed).map Cell.view

end Slab

end NumaHeap
