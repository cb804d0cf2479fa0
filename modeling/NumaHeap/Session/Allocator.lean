import NumaHeap.Heap.Allocate
import NumaHeap.Heap.Release
import NumaHeap.Platform.Simulated

/-!
What a client can ask of an allocator on the simulated platform, be it a whole heap or a part of one
that stands alone.
-/

namespace NumaHeap.Session

/-- An allocation that a client asks for. -/
inductive Demand where
  | object (size : Nat) (kind : ObjectKind)
  | onNode (size node : Nat)
  | aligned (size alignment : Nat)
  | cacheAligned (size : Nat)
  | zeroed (count size : Nat) (kind : ObjectKind)

/-- The bytes asked for. -/
def Demand.size : Demand → Nat
  | .object size _ | .onNode size _ | .aligned size _ | .cacheAligned size => size
  | .zeroed count size _ => count * size

/-- The node asked for, if there is one. -/
def Demand.node? : Demand → Option Nat
  | .onNode _ node => some node
  | _ => none

/-- An allocator, and the machine that it works on. -/
class Allocator (α : Type) where
  machine : α → Machine Simulated.State
  withMachine : α → Machine Simulated.State → α
  tier : α → Demand → Tier
  allocate : α → ThreadId → Demand → Except AllocError Nat × α
  /-- Releases the object at an address; some allocators answer the size it had. -/
  free : α → ThreadId → (address size : Nat) → Except FreeError (Option Nat) × α
  resetArenas : α → α
  destroyArenas : α → ThreadId → α
  releaseThread : α → ThreadId → α
  exitThread : α → ThreadId → α
  close : α → ThreadId → α

/-- Part of a heap that stands alone. -/
structure Standalone (α : Type) where
  settings : Simulated.Settings
  part : α
  machine : Machine Simulated.State

namespace Standalone

variable {α β : Type}

/-- The platform that the part works on. -/
def os (s : Standalone α) : Platform Simulated.State := Simulated.platform s.settings

/-- Replaces the part and the machine. -/
def update (s : Standalone α) (next : α × Machine Simulated.State) : Standalone α :=
  { s with part := next.1, machine := next.2 }

/-- Takes the address of a placement. -/
def placed (s : Standalone α)
    (answer : Except AllocError Arena.Placement × α × Machine Simulated.State) :
    Except AllocError Nat × Standalone α :=
  (answer.1.map (·.address), s.update answer.2)

end Standalone

/-- A single arena. Demands for aligned memory keep their alignment, all others are word aligned. -/
instance : Allocator (Standalone Arena.Pool) where
  machine s := s.machine
  withMachine s machine := { s with machine }
  tier _ _ := .arena .general
  allocate s thread d :=
    s.placed <| match d with
      | .aligned size alignment => s.part.allocateAligned s.os s.machine 0 thread size alignment
      | .cacheAligned size => s.part.allocateAligned s.os s.machine 0 thread size cacheLine.value
      | d => s.part.allocate s.os s.machine 0 thread d.size wordAlignment d.node?
  free s _ _ _ := (.error .arenaMemory, s)
  resetArenas s := { s with part := s.part.reset 0 }
  destroyArenas s thread := s.update (s.part.destroy s.os s.machine 0 thread)
  releaseThread s thread := s.update (s.part.releaseThread s.os s.machine 0 thread)
  exitThread s thread := s.update (s.part.exitThread s.os s.machine thread)
  close s thread := s.update (s.part.close s.os s.machine 0 thread)

/-- The slabs, whose objects are as aligned as their class. -/
instance : Allocator (Standalone Slab) where
  machine s := s.machine
  withMachine s machine := { s with machine }
  tier _ _ := .slab
  allocate s thread d := s.placed (s.part.allocate s.os s.machine thread d.size d.node?)
  free s thread address size :=
    let (answer, next) := s.part.free s.os s.machine thread address size
    (answer.map fun _ => none, s.update next)
  resetArenas s := s
  destroyArenas s _ := s
  releaseThread s _ := s
  exitThread s _ := s
  close s _ := s.update (s.part.close s.os s.machine)

/-- Large objects, on node 0 if no other is asked for. -/
instance : Allocator (Standalone Large) where
  machine s := s.machine
  withMachine s machine := { s with machine }
  tier _ _ := .large
  allocate s _ d :=
    let (answer, next) := s.part.allocate s.os s.machine d.size (d.node?.getD 0)
    (answer, s.update next)
  free s _ address _ :=
    let (answer, next) := s.part.free s.os s.machine address
    (answer.map some, s.update next)
  resetArenas s := s
  destroyArenas s _ := s
  releaseThread s _ := s
  exitThread s _ := s
  close s _ := s.update (s.part.close s.os s.machine)

/-- A whole heap, with the settings of its platform. -/
structure Hosted where
  settings : Simulated.Settings
  heap : Heap Simulated.State

namespace Hosted

/-- The platform that the heap works on. -/
def os (h : Hosted) : Platform Simulated.State := Simulated.platform h.settings

/-- Works on the heap. -/
def act {β : Type} (h : Hosted) (f : Heap Simulated.State → β × Heap Simulated.State) :
    β × Hosted :=
  let (answer, heap) := f h.heap
  (answer, { h with heap })

/-- Changes the heap. -/
def change (h : Hosted) (f : Heap Simulated.State → Heap Simulated.State) : Hosted :=
  { h with heap := f h.heap }

end Hosted

instance : Allocator Hosted where
  machine h := h.heap.machine
  withMachine h machine := h.change fun heap => { heap with machine }
  tier h
    | .object size kind => h.heap.classify size kind
    | .onNode size _ => h.heap.classify size .generic
    | .aligned size _ => h.heap.alignedTier size .general
    | .cacheAligned size => h.heap.alignedTier size .object
    | .zeroed count size kind => h.heap.classify (count * size) kind
  allocate h thread
    | .object size kind => h.act (·.alloc h.os thread size kind)
    | .onNode size node => h.act (·.allocNuma h.os thread size node)
    | .aligned size alignment => h.act (·.allocAligned h.os thread size alignment)
    | .cacheAligned size => h.act (·.allocCacheAligned h.os thread size)
    | .zeroed count size kind => h.act (·.allocZeroed h.os thread count size kind)
  free h thread address size :=
    let (answer, h) := h.act (·.free h.os thread address size)
    (answer.map fun _ => none, h)
  resetArenas h := h.change (·.resetArenas)
  destroyArenas h thread := h.change (·.destroyArenas h.os thread)
  releaseThread h thread := h.change (·.releaseThread h.os thread)
  exitThread h thread := h.change (·.exitThread h.os thread)
  close h thread := h.change (·.close h.os thread)

end NumaHeap.Session
