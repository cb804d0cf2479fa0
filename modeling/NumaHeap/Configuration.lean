import NumaHeap.Decimal.Shortest
import NumaHeap.Duration
import NumaHeap.Security.Mode
import NumaHeap.Size.Class

/-!
What may be chosen when a heap is created, and which choices are valid. The checks are made in a
fixed order, and the first that fails gives the error.
-/

namespace NumaHeap

/-- The choices made when a heap is created. -/
structure Configuration where
  /-- Size of an arena block. -/
  defaultBlockSize : Nat := 2097152
  /-- Large mappings are attempted with huge pages. -/
  hugePages : Bool := true
  /-- Mappings are bound to the node of the thread that asks. -/
  numaAware : Bool := true
  /-- Small requests are served by the slabs. -/
  slabEnabled : Bool := true
  /-- Requests from this size on have a mapping of their own. -/
  largeThreshold : Nat := 524288
  /-- The security mode to start with. -/
  securityMode : Security.Mode := .enhanced
  /-- More bytes than this in use put the heap under pressure. -/
  pressureThreshold : Nat := 1073741824
  /-- The pressure is evaluated no more often than this. -/
  pressureInterval : Duration := ⟨0, 100000000, by decide⟩
  /-- Automatic compactions are at least this far apart. -/
  compactionInterval : Duration := ⟨30, 0, by decide⟩
  /-- Fragmentation above this ratio asks for a compaction. -/
  compactionThreshold : Float := 0.25
  /-- Fresh allocations are announced to the cache, which no result shows. -/
  cacheHints : Bool := true

/-- A choice that is not valid. -/
inductive ConfigError where
  | blockSize (size : Nat)
  | largeThreshold (threshold minimum : Nat)
  | compactionThreshold (value : Float)

def ConfigError.message : ConfigError → String
  | .blockSize size => s!"default block size {size} must be a power of 2 of at least 4096 bytes"
  | .largeThreshold threshold minimum =>
    s!"large object threshold {threshold} must exceed {minimum}"
  | .compactionThreshold value =>
    "compaction threshold " ++ Decimal.shortestText value ++ " must be within [0, 1]"

namespace Configuration

/-- The smallest block size. -/
def minimumBlock : PowerOfTwo := ⟨12, by decide⟩

/-- The block size as a power of two that is large enough. -/
def blockSize (c : Configuration) : Except ConfigError PowerOfTwo :=
  match PowerOfTwo.ofNat? c.defaultBlockSize with
  | some size =>
    if minimumBlock.value ≤ size.value then .ok size else .error (.blockSize c.defaultBlockSize)
  | none => .error (.blockSize c.defaultBlockSize)

/-- The threshold of large requests has to exceed what the slabs serve. -/
def minimumLargeThreshold (c : Configuration) : Nat := if c.slabEnabled then Size.slabMax else 0

/-- The number lies between zero and one; a number that cannot be compared does not. -/
def isRatio (x : Float) : Bool := 0.0 ≤ x && x ≤ 1.0

/-- Checks the block size, then the threshold of large requests, then that of compaction. -/
def validate (c : Configuration) : Except ConfigError Unit := do
  let _ ← c.blockSize
  if c.largeThreshold ≤ c.minimumLargeThreshold then
    throw (.largeThreshold c.largeThreshold c.minimumLargeThreshold)
  if !isRatio c.compactionThreshold then
    throw (.compactionThreshold c.compactionThreshold)

end Configuration

end NumaHeap
