import NumaHeap.Heap.Basic

/-!
Compaction and pressure. Nothing is ever moved: a compaction consolidates what the arenas report. A
check of the pressure also compacts, when the last compaction is long enough ago and the arenas
waste more than the configuration allows.
-/

namespace NumaHeap.Heap

open Telemetry

variable {σ : Type}

/-- Runs a compaction over all arenas, and answers what share of them is wasted. -/
def compact (os : Platform σ) (h : Heap σ) : Ratio × Heap σ :=
  let start := h.clock os
  let arenas := ArenaKind.all.foldl (fun pool kind => pool.compact kind.index) h.arenas
  let h := { h with arenas }
  let h := { h with
    counters := h.counters.recordCompaction (h.clock os - start)
    lastCompaction := h.clock os }
  (h.fragmentation, h)

/-- Runs a compaction over one arena alone, and answers what share of it is wasted. -/
def compactArena (h : Heap σ) (kind : ArenaKind) : Ratio × Heap σ :=
  let h := { h with arenas := h.arenas.compact kind.index }
  ((h.arenaStats kind).fragmentation, h)

/-- Compacts if it is time to, and worth it. -/
def maybeCompact (os : Platform σ) (h : Heap σ) (now : Nat) : Heap σ :=
  let interval := min h.configuration.compactionInterval.toNanoseconds Word.last
  if now - h.lastCompaction < interval then h
  else if h.configuration.compactionThreshold < h.fragmentation.value then (h.compact os).2
  else h

/-- Whether the bytes in use exceed the threshold, and the callback to invoke if they have just come
to. -/
def checkPressure (os : Platform σ) (h : Heap σ) : (Bool × Option Callback) × Heap σ :=
  let now := h.clock os
  let checked := h.pressure.check h.counters.currentBytes now
  ((checked.pressured, checked.notified),
    { h with pressure := checked.state }.maybeCompact os now)

/-- Answers pressure: compacts, and raises the gauge to its end. -/
def handlePressure (os : Platform σ) (h : Heap σ) : Heap σ :=
  let (_, h) := h.compact os
  { h with pressure := h.pressure.saturate .double }

/-- A collection was made. -/
def collectionDone (h : Heap σ) : Heap σ :=
  { h with pressure := h.pressure.collectionDone .double }

/-- Registers a callback in place of any other, or none. -/
def setCallback (h : Heap σ) (callback : Option Callback) : Heap σ :=
  { h with pressure := h.pressure.setCallback callback }

/-- Sets the security mode of all later allocations. -/
def setMode (h : Heap σ) (mode : Security.Mode) : Heap σ := { h with mode }

/-- Makes a thread prefer a node. -/
def bindThread (os : Platform σ) (h : Heap σ) (thread : ThreadId) (node : Nat) :
    Except BindError Unit × Heap σ :=
  if os.topology.contains node then
    let (answer, system) := os.bindThread h.machine.system thread node
    (answer, { h with machine := { h.machine with system } })
  else (.error (.invalidNode node), h)

end NumaHeap.Heap
