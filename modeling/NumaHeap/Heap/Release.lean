import NumaHeap.Heap.Basic

/-!
Release. Objects of the slabs and large ones are released one by one; the tier is found again from
the size alone. Arena memory is only reclaimed as a whole, for all threads or for one.
-/

namespace NumaHeap.Heap

open Telemetry

variable {σ : Type}

/-- Counts released bytes. -/
def recordFree (h : Heap σ) (size : Nat) : Heap σ :=
  { h with counters := h.counters.recordFree size }

/-- Releases an object of a given size. -/
def free (os : Platform σ) (h : Heap σ) (thread : ThreadId) (address size : Nat) :
    Except FreeError Unit × Heap σ :=
  match h.classify size .generic, h.slab with
  | .large, _ =>
    match h.large.free os h.machine address with
    | (.error error, large, machine) => (.error error, { h with large, machine })
    | (.ok freed, large, machine) => (.ok (), { h with large, machine }.recordFree freed)
  | .slab, some slab =>
    match slab.free os h.machine thread address size with
    | (.error error, slab, machine) => (.error error, { h with slab := some slab, machine })
    | (.ok _, slab, machine) => (.ok (), { h with slab := some slab, machine }.recordFree size)
  | _, _ => (.error .arenaMemory, h)

/-- Counts all bytes served by the arenas as released. -/
def recordBulkFree (h : Heap σ) : Heap σ := { h.recordFree h.arenaBytes with arenaBytes := 0 }

/-- Makes all arena memory available again. -/
def resetArenas (h : Heap σ) : Heap σ :=
  let arenas := ArenaKind.all.foldl (fun pool kind => pool.reset kind.index) h.arenas
  { h with arenas }.recordBulkFree

/-- Works on each arena in turn. -/
def forArenas (h : Heap σ)
    (f : Arena.Pool → Machine σ → (id : Nat) → Arena.Pool × Machine σ) : Heap σ :=
  ArenaKind.all.foldl
    (fun h kind =>
      let (arenas, machine) := f h.arenas h.machine kind.index
      { h with arenas, machine })
    h

/-- Gives all arena memory back to the system. -/
def destroyArenas (os : Platform σ) (h : Heap σ) (thread : ThreadId) : Heap σ :=
  (h.forArenas fun pool machine id => pool.destroy os machine id thread).recordBulkFree

/-- Gives the arena memory of one thread back to the system. -/
def releaseThread (os : Platform σ) (h : Heap σ) (thread : ThreadId) : Heap σ :=
  h.forArenas fun pool machine id => pool.releaseThread os machine id thread

/-- Ends a thread. -/
def exitThread (os : Platform σ) (h : Heap σ) (thread : ThreadId) : Heap σ :=
  let (arenas, machine) := h.arenas.exitThread os h.machine thread
  { h with arenas, machine }

/-- Gives everything back to the system, for good. -/
def close (os : Platform σ) (h : Heap σ) (thread : ThreadId) : Heap σ :=
  let h := h.forArenas fun pool machine id => pool.close os machine id thread
  let h := match h.slab with
    | none => h
    | some slab =>
      let (slab, machine) := slab.close os h.machine
      { h with slab := some slab, machine }
  let (large, machine) := h.large.close os h.machine
  { h with large, machine }

end NumaHeap.Heap
