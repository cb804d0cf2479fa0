import NumaHeap.Size.PowerOfTwo

/-!
Size classes: which slot a request of a given size occupies. Arenas round a request to the least
entry of an irregular table, or to whole cache lines above it; slabs hold powers of two, and the
class of a size is the exponent of the least one that is large enough.
-/

namespace NumaHeap.Size

/-- Slot sizes of the arenas, in ascending order. -/
def arenaClasses : List Nat :=
  [8, 16, 24, 32, 48, 64, 96, 128,
   192, 256, 384, 512, 768, 1024, 1536, 2048,
   3072, 4096, 6144, 8192, 12288, 16384, 24576, 32768]

/-- Object sizes of the slabs: the powers of two from 8 bytes to 64 KiB. -/
def slabClasses : List Nat :=
  [8, 16, 32, 64, 128, 256, 512, 1024, 2048, 4096, 8192, 16384, 32768, 65536]

/-- The largest object that a slab holds. -/
def slabMax : Nat := 65536

/-- The number of slab classes. -/
def slabClassCount : Nat := 14

/-- A slab region holds at least this many objects. -/
def slabMinObjects : Nat := 8

/-- Extra bytes of an arena block that is mapped for a single large request. -/
def blockSlop : Nat := 64

/-- The class of the arenas that serves a size: the first entry that is large enough. -/
def arenaClass? (size : Nat) : Option Nat :=
  if size = 0 then none else arenaClasses.findIdx? (size ≤ ·)

/-- The bytes that an arena sets aside for a request. -/
def arenaRounded? (size : Nat) : Option Nat :=
  if size = 0 then none
  else match arenaClasses.find? (size ≤ ·) with
    | some slot => some slot
    | none => cacheLine.roundUp? size

/-- The exponent of the least power of two that is at least `n`. -/
def ceilLog2 (n : Nat) : Nat :=
  if 2 ^ n.log2 = n then n.log2 else n.log2 + 1

/-- The class of the slabs that serves a size; classes start at the exponent 3. -/
def slabClass? (size : Nat) : Option Nat :=
  if size = 0 ∨ slabMax < size then none else some (ceilLog2 size - 3)

/-- The object size of a slab class. -/
def slabObject (sizeClass : Nat) : Nat := 2 ^ (sizeClass + 3)

end NumaHeap.Size
