import NumaHeap.Error
import NumaHeap.Kind
import NumaHeap.Ratio

/-!
Counts of what a heap has done. Bytes and times are counted in words, which start again from zero
once they pass the word bound; and the bytes in use never fall below zero, whatever sizes objects
are released with. Calls are counted without a bound, since no heap lives to see a word full of them.
-/

namespace NumaHeap.Telemetry

/-- Allocations by kind. Large objects count apart, whatever their kind. -/
structure KindCounts where
  object : Nat := 0
  string : Nat := 0
  array : Nat := 0
  hashMap : Nat := 0
  large : Nat := 0
deriving DecidableEq

/-- Counts one allocation. -/
def KindCounts.add (k : KindCounts) (kind : ObjectKind) (large : Bool) : KindCounts :=
  if large then { k with large := k.large + 1 }
  else match kind with
    | .string => { k with string := k.string + 1 }
    | .array => { k with array := k.array + 1 }
    | .hashMap => { k with hashMap := k.hashMap + 1 }
    | .generic | .classInstance | .function => { k with object := k.object + 1 }

/-- All allocations. -/
def KindCounts.total (k : KindCounts) : Nat :=
  k.object + k.string + k.array + k.hashMap + k.large

/-- Counts of a heap. -/
structure Counters where
  totalAllocations : Nat := 0
  totalBytes : Nat := 0
  currentBytes : Nat := 0
  peakBytes : Nat := 0
  localAllocations : Nat := 0
  remoteAllocations : Nat := 0
  failures : Nat := 0
  rejections : Nat := 0
  allocationNanoseconds : Nat := 0
  compactions : Nat := 0
  compactionNanoseconds : Nat := 0
  kinds : KindCounts := {}
deriving DecidableEq

namespace Counters

/-- Counts an allocation that was served. -/
def recordAllocation (c : Counters) (size : Nat) (kind : ObjectKind) (large isLocal : Bool)
    (nanoseconds : Nat) : Counters :=
  let current := Word.wrap (c.currentBytes + size)
  { c with
    totalAllocations := c.totalAllocations + 1
    totalBytes := Word.wrap (c.totalBytes + size)
    currentBytes := current
    peakBytes := max c.peakBytes current
    localAllocations := c.localAllocations + isLocal.toNat
    remoteAllocations := c.remoteAllocations + (!isLocal).toNat
    allocationNanoseconds := Word.wrap (c.allocationNanoseconds + nanoseconds)
    kinds := c.kinds.add kind large }

/-- Counts an allocation that was denied. -/
def recordFailure (c : Counters) (error : AllocError) : Counters :=
  { c with
    failures := c.failures + 1
    rejections := c.rejections + match error with
      | .rejected _ => 1
      | _ => 0 }

/-- Counts released bytes. -/
def recordFree (c : Counters) (size : Nat) : Counters :=
  { c with currentBytes := c.currentBytes - size }

/-- Counts a compaction. -/
def recordCompaction (c : Counters) (nanoseconds : Nat) : Counters :=
  { c with
    compactions := c.compactions + 1
    compactionNanoseconds := Word.wrap (c.compactionNanoseconds + nanoseconds) }

/-- Allocations served by the node of the thread, as a share of all. -/
def locality (c : Counters) : Ratio :=
  ⟨c.localAllocations, c.localAllocations + c.remoteAllocations⟩

/-- Time spent in allocations that were served. -/
def allocationTime (c : Counters) : Duration := .ofNanoseconds c.allocationNanoseconds

/-- Time spent in compactions. -/
def compactionTime (c : Counters) : Duration := .ofNanoseconds c.compactionNanoseconds

/-- Mean time of an allocation that was served. -/
def averageLatency (c : Counters) : Duration := c.allocationTime.share c.totalAllocations

end Counters

end NumaHeap.Telemetry
