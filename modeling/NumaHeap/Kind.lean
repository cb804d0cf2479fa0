import NumaHeap.Size.PowerOfTwo

/-!
What a caller says of an object, and which of the three tiers serves it: an arena, reclaimed only as
a whole; the slabs, which recycle objects one by one; or a mapping of its own.
-/

namespace NumaHeap

/-- Kind of an object. -/
inductive ObjectKind where
  | generic
  | classInstance
  | function
  | string
  | array
  | hashMap
deriving DecidableEq

/-- One of the three arenas. -/
inductive ArenaKind where
  | general
  | object
  | string
deriving DecidableEq

/-- The tier that serves a request. -/
inductive Tier where
  | arena (kind : ArenaKind)
  | slab
  | large
deriving DecidableEq

/-- Strings have an arena of their own, containers share one, all else goes to the general one. -/
def ObjectKind.arena : ObjectKind → ArenaKind
  | .string => .string
  | .array | .hashMap => .object
  | .generic | .classInstance | .function => .general

/-- The share of the default block size that a block of the arena takes. -/
def ArenaKind.divisor : ArenaKind → Nat
  | .general => 1
  | .object => 2
  | .string => 4

/-- The block size of an arena: its share of the default, but not below `minimum`. -/
def ArenaKind.blockSize (kind : ArenaKind) (default minimum : PowerOfTwo) : PowerOfTwo :=
  (PowerOfTwo.ofNat? (max (default.value / kind.divisor) minimum.value)).getD default

end NumaHeap
