import NumaHeap.Arena.Chain
import NumaHeap.Ratio

/-!
What an arena reports of itself: the sums of the tallies of its threads, and what its mapper
counted.
-/

namespace NumaHeap.Arena

/-- A report of one arena. -/
structure Stats where
  threads : Nat := 0
  allocations : Nat := 0
  bytesRequested : Nat := 0
  bytesUsed : Nat := 0
  wastedBytes : Nat := 0
  blocksAllocated : Nat := 0
  hugeBlocks : Nat := 0
  bytesReserved : Nat := 0
  resets : Nat := 0
  compactions : Nat := 0
  hugeFallbacks : Nat := 0
  bindFailures : Nat := 0
deriving DecidableEq

namespace Stats

/-- Adds the tally of one more thread. -/
def add (s : Stats) (t : Tally) : Stats :=
  { s with
    threads := s.threads + 1
    allocations := s.allocations + t.allocations
    bytesRequested := Word.wrap (s.bytesRequested + t.bytesRequested)
    bytesUsed := s.bytesUsed + t.bytesUsed
    wastedBytes := s.wastedBytes + t.wastedBytes
    blocksAllocated := s.blocksAllocated + t.blocksAllocated
    hugeBlocks := s.hugeBlocks + t.hugeBlocks
    resets := max s.resets t.resets }

/-- The report over the tallies of all threads. -/
def ofTallies (tallies : List Tally) : Stats := tallies.foldl add {}

/-- Wasted bytes as a share of the used ones. -/
def fragmentation (s : Stats) : Ratio := ⟨s.wastedBytes, s.bytesUsed⟩

end Stats

end NumaHeap.Arena
