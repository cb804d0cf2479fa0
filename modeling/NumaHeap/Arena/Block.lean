import NumaHeap.Region

/-!
A block of an arena: a region from which bytes are taken in ascending order. A request fits exactly
when the next aligned address leaves room for it; rewinding makes the whole block available again.
-/

namespace NumaHeap.Arena

/-- A region with a cursor. -/
structure Block where
  region : Region
  /-- The next byte to hand out, before alignment. -/
  cursor : Nat
deriving DecidableEq

namespace Block

/-- What a block looks like from outside. -/
structure View where
  start : Nat
  size : Nat
  used : Nat
  node : Nat
  huge : Bool
deriving DecidableEq

/-- A block over a region from which nothing was taken. -/
def ofRegion (region : Region) : Block := ⟨region, region.start⟩

/-- Touches each page of a region, so that the system provides them at once. -/
def touch (memory : Memory) (region : Region) (page : PowerOfTwo) : Memory :=
  (List.range ((region.length + (page.value - 1)) / page.value)).foldl
    (fun memory index => memory.set (region.start + index * page.value) 0) memory

/-- Bytes taken since the last rewind, padding included. -/
def used (b : Block) : Nat := b.cursor - b.region.start

/-- Bytes still to be taken. -/
def available (b : Block) : Nat := b.region.stop - b.cursor

/-- The node the block was mapped for. -/
def node (b : Block) : Nat := b.region.node

/-- There is room for `size` bytes with the given alignment. -/
def fits (b : Block) (size : Nat) (alignment : PowerOfTwo) : Bool :=
  match Word.add? (alignment.padding b.cursor) size with
  | some needed => needed ≤ b.available
  | none => false

/-- An address taken from a block, after some padding. -/
structure Taken where
  address : Nat
  padding : Nat
  block : Block

/-- Takes `size` aligned bytes. -/
def take? (b : Block) (size : Nat) (alignment : PowerOfTwo) : Option Taken :=
  if b.fits size alignment then
    let padding := alignment.padding b.cursor
    some ⟨b.cursor + padding, padding, { b with cursor := b.cursor + padding + size }⟩
  else none

/-- Makes all bytes available again. -/
def rewind (b : Block) : Block := { b with cursor := b.region.start }

def view (b : Block) : View :=
  ⟨b.region.start, b.region.length, b.used, b.node, b.region.isHuge⟩

end Block

end NumaHeap.Arena
