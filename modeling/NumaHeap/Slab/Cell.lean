import NumaHeap.Region
import NumaHeap.Size.Class
import NumaHeap.Slab.FreeList

/-!
The objects of one size on one node. A freed object is handed out again before a new one is carved,
and a region is carved to its end before the next one is mapped.
-/

namespace NumaHeap.Slab

/-- One size class on one node. -/
structure Cell where
  objectSize : Nat
  node : Nat
  free : FreeList := {}
  /-- Latest first. -/
  regions : List Region := []
  /-- Bytes carved from the latest region. -/
  carved : Nat := 0
  /-- Objects handed out from the free list. -/
  hits : Nat := 0
  /-- Objects carved from a region. -/
  misses : Nat := 0

namespace Cell

/-- What a cell looks like from outside. -/
structure View where
  objectSize : Nat
  node : Nat
  hits : Nat
  misses : Nat
  freeObjects : Nat
  regions : Nat
deriving DecidableEq

def view (c : Cell) : View :=
  ⟨c.objectSize, c.node, c.hits, c.misses, c.free.length, c.regions.length⟩

/-- The cell was used at some time. -/
def isUsed (c : Cell) : Bool := 0 < c.hits + c.misses || !c.regions.isEmpty

/-- Bytes of a region: a page of objects, or the least number of them if they are large. -/
def regionLength (page : PowerOfTwo) (objectSize : Nat) : Nat :=
  objectSize * max (page.value / objectSize) Size.slabMinObjects

/-- Takes an object off the free list. -/
def pop? (c : Cell) (memory : Memory) : Option (Nat × Cell × Memory) :=
  (c.free.pop? memory).map fun (object, free, memory) =>
    (object, { c with free, hits := c.hits + 1 }, memory)

/-- The latest region, if it has room for one more object. -/
def roomy? (c : Cell) : Option Region :=
  c.regions.head?.filter fun region => c.carved + c.objectSize ≤ region.length

/-- A region with room for one more object: the latest one, or a new one to be carved from its
start. -/
def ensureRoom {σ : Type} (os : Platform σ) (c : Cell) (s : Supply σ) :
    Except MapError (Region × Cell) × Supply σ :=
  match c.roomy? with
  | some region => (.ok (region, c), s)
  | none =>
    match s.map os (regionLength os.pageSize c.objectSize) c.node with
    | (.error cause, s) => (.error cause, s)
    | (.ok region, s) =>
      (.ok (region, { c with regions := region :: c.regions, carved := 0 }), s)

/-- Carves the next object from a region that has room. -/
def carve (c : Cell) (region : Region) : Nat × Cell :=
  (region.start + c.carved, { c with carved := c.carved + c.objectSize, misses := c.misses + 1 })

/-- Hands out the object freed last, or else a new one. -/
def allocate {σ : Type} (os : Platform σ) (c : Cell) (s : Supply σ) :
    Except MapError Nat × Cell × Supply σ :=
  match c.pop? s.machine.memory with
  | some (object, c, memory) => (.ok object, c, { s with machine := s.machine.withMemory memory })
  | none =>
    match c.ensureRoom os s with
    | (.error cause, s) => (.error cause, c, s)
    | (.ok (region, c), s) =>
      let (object, c) := c.carve region
      (.ok object, c, s)

/-- The address lies in a region of the cell. -/
def owns (c : Cell) (address : Nat) : Bool := c.regions.any (·.contains address)

/-- Takes an object back, if it lies in a region of the cell. -/
def reclaim? (c : Cell) (memory : Memory) (object : Nat) : Option (Cell × Memory) :=
  if c.owns object then
    let (free, memory) := c.free.push memory object
    some ({ c with free }, memory)
  else none

end Cell

end NumaHeap.Slab
