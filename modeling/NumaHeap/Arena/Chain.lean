import NumaHeap.Arena.Block
import NumaHeap.Size.Class

/-!
The chain of blocks from which one thread allocates. Each node has a current block. A request that
no longer fits in it moves on to a later block of the node that is left over from before a reset,
or else to a new block; the rest of the block left behind counts as wasted.
-/

namespace NumaHeap.Arena

/-- What a chain has served. Used and wasted bytes start again at every reset, and are bytes of the
chain's own blocks; those requested are counted for good, in a word that starts again from zero. -/
structure Tally where
  allocations : Nat := 0
  bytesRequested : Nat := 0
  bytesUsed : Nat := 0
  wastedBytes : Nat := 0
  blocksAllocated : Nat := 0
  hugeBlocks : Nat := 0
  resets : Nat := 0
deriving DecidableEq

namespace Tally

/-- Counts an allocation. Rounding and padding are wasted. -/
def record (t : Tally) (requested rounded padding : Nat) : Tally :=
  { t with
    allocations := t.allocations + 1
    bytesRequested := Word.wrap (t.bytesRequested + requested)
    bytesUsed := t.bytesUsed + (rounded + padding)
    wastedBytes := t.wastedBytes + (rounded - requested + padding) }

/-- Counts the rest of a block that is left behind. -/
def abandon (t : Tally) (rest : Nat) : Tally :=
  { t with bytesUsed := t.bytesUsed + rest, wastedBytes := t.wastedBytes + rest }

/-- Counts a reset. -/
def reset (t : Tally) : Tally :=
  { t with bytesUsed := 0, wastedBytes := 0, resets := t.resets + 1 }

/-- Counts a new block. -/
def addBlock (t : Tally) (huge : Bool) : Tally :=
  { t with
    blocksAllocated := t.blocksAllocated + 1
    hugeBlocks := t.hugeBlocks + huge.toNat }

end Tally

/-- What is asked of a chain. -/
structure Request where
  /-- Bytes that the caller wants. -/
  size : Nat
  /-- Bytes that are set aside. -/
  rounded : Nat
  alignment : PowerOfTwo
  /-- The node to serve it from, if not the preferred one. -/
  node : Option Nat

/-- Where a request was served. -/
structure Placement where
  address : Nat
  node : Nat
deriving DecidableEq

/-- The blocks of one thread, oldest first. -/
structure Chain where
  preferred : Nat
  blocks : List Block := []
  /-- Position of the current block of each node. -/
  current : Nat → Option Nat := fun _ => none
  tally : Tally := {}

namespace Chain

/-- Takes the request from the block at a position, if it fits. -/
def takeFrom? (c : Chain) (index : Nat) (r : Request) : Option (Nat × Chain) := do
  let block ← c.blocks[index]?
  let taken ← block.take? r.rounded r.alignment
  return (taken.address,
    { c with
      blocks := c.blocks.set index taken.block
      tally := c.tally.record r.size r.rounded taken.padding })

/-- The first block of a node, from a position on, in which the request fits. -/
def candidate? (c : Chain) (start node : Nat) (r : Request) : Option Nat :=
  (List.range' start (c.blocks.length - start)).find? fun index =>
    (c.blocks[index]?).any fun block => block.node == node && block.fits r.rounded r.alignment

/-- Length of a new block for a request: a request of more than half a block gets one of its own,
with some room to spare. -/
def blockLength? (blockSize : PowerOfTwo) (rounded : Nat) : Option Nat :=
  if blockSize.value / 2 < rounded then Word.add? rounded Size.blockSlop else some blockSize.value

/-- Makes the block at a position the current one of a node; the rest of the previous one is left
behind. -/
def advance (c : Chain) (node index : Nat) : Chain :=
  { c with
    current := fun n => if n = node then some index else c.current n
    tally := match (c.current node).bind (c.blocks[·]?) with
      | some previous => c.tally.abandon previous.available
      | none => c.tally }

variable {σ : Type}

/-- Maps a new block for a request and puts it at the end of the chain. -/
def extend (os : Platform σ) (blockSize : PowerOfTwo) (c : Chain) (s : Supply σ)
    (rounded node : Nat) : Except AllocError Chain × Supply σ :=
  match blockLength? blockSize rounded with
  | none => (.error .overflow, s)
  | some length =>
    match s.map os length node with
    | (.error cause, s) => (.error (.map cause), s)
    | (.ok region, s) =>
      let memory := Block.touch s.machine.memory region os.pageSize
      (.ok { c with
          blocks := c.blocks ++ [.ofRegion region]
          tally := c.tally.addBlock region.isHuge },
        { s with machine := s.machine.withMemory memory })

/-- Serves a request of a node from the block at a position, which becomes current. -/
def serveFrom (c : Chain) (node index : Nat) (r : Request) : Except AllocError Placement × Chain :=
  let c := c.advance node index
  match c.takeFrom? index r with
  | some (address, c) => (.ok ⟨address, node⟩, c)
  | none => (.error .overflow, c)

/-- Serves a request: from the current block of the node, from a later block of that node, or from a
new one. -/
def allocate (os : Platform σ) (blockSize : PowerOfTwo) (c : Chain) (s : Supply σ) (r : Request) :
    Except AllocError Placement × Chain × Supply σ :=
  let node := r.node.getD c.preferred
  match (c.current node).bind (c.takeFrom? · r) with
  | some (address, c) => (.ok ⟨address, node⟩, c, s)
  | none =>
    let start := (c.current node).elim 0 (· + 1)
    match c.candidate? start node r with
    | some index =>
      let (answer, c) := c.serveFrom node index r
      (answer, c, s)
    | none =>
      match c.extend os blockSize s r.rounded node with
      | (.error cause, s) => (.error cause, c, s)
      | (.ok extended, s) =>
        let (answer, c) := extended.serveFrom node c.blocks.length r
        (answer, c, s)

/-- Rewinds all blocks; the first block of each node becomes current. -/
def reset (c : Chain) : Chain :=
  { c with
    blocks := c.blocks.map Block.rewind
    current := fun node => c.blocks.findIdx? (·.node == node)
    tally := c.tally.reset }

/-- Gives all blocks back. -/
def release (os : Platform σ) (c : Chain) (s : Supply σ) : Chain × Supply σ :=
  ({ c with
      blocks := []
      current := fun _ => none
      tally := { c.tally with
        hugeBlocks := c.tally.hugeBlocks - c.blocks.countP (·.region.isHuge) } },
    s.unmapAll os (c.blocks.map (·.region)))

end Chain

end NumaHeap.Arena
