import NumaHeap.Heap.Basic

/-!
Allocation. Every request goes the same way: its size is checked, a tier serves it, the memory is
inspected as the security mode asks, and only then is it counted and handed out. A request that
fails on the way is counted as a failure and nothing else; memory that is found suspicious is wiped
and returned to its tier.
-/

namespace NumaHeap.Heap

open Telemetry

variable {σ : Type}

/-- Counts a failure. -/
def fail (h : Heap σ) (error : AllocError) : Except AllocError Nat × Heap σ :=
  (.error error, { h with counters := h.counters.recordFailure error })

/-- The node that serves large objects of a thread. -/
def localNode (os : Platform σ) (h : Heap σ) (thread : ThreadId) : Nat :=
  if h.configuration.numaAware then h.machine.currentNode os thread else 0

/-- Serves a request from an arena. -/
def serveArena (os : Platform σ) (h : Heap σ) (thread : ThreadId) (size : Nat) (kind : ArenaKind)
    (node : Option Nat) (alignment : PowerOfTwo) : Except AllocError Arena.Placement × Heap σ :=
  let (answer, arenas, machine) :=
    h.arenas.allocate os h.machine kind.index thread size alignment node
  (answer, { h with arenas, machine })

/-- Serves a request from its tier. -/
def dispatch (os : Platform σ) (h : Heap σ) (thread : ThreadId) (size : Nat) (tier : Tier)
    (node : Option Nat) (alignment : PowerOfTwo) : Except AllocError Arena.Placement × Heap σ :=
  match tier, h.slab with
  | .large, _ =>
    let node := node.getD (h.localNode os thread)
    match h.large.allocate os h.machine size node with
    | (.ok address, large, machine) => (.ok ⟨address, node⟩, { h with large, machine })
    | (.error error, large, machine) => (.error error, { h with large, machine })
  | .slab, some slab =>
    let (answer, slab, machine) := slab.allocate os h.machine thread size node
    (answer, { h with slab := some slab, machine })
  | .slab, none => h.serveArena os thread size .general node alignment
  | .arena kind, _ => h.serveArena os thread size kind node alignment

/-- Checks the memory about to be handed out, and clears it if the mode says so. -/
def inspect (h : Heap σ) (address size : Nat) : Except Rejection (Heap σ) := do
  h.mode.validate size (h.machine.memory.read address)
  if h.mode.zeroFills then
    return { h with machine := h.machine.withMemory (h.machine.memory.clear address size) }
  else return h

/-- Wipes memory that was refused, and returns it to its tier; arena memory stays where it is. -/
def discard (os : Platform σ) (h : Heap σ) (thread : ThreadId) (address size : Nat)
    (tier : Tier) : Heap σ :=
  let machine := h.machine.withMemory (h.machine.memory.clear address size)
  match tier, h.slab with
  | .large, _ =>
    let (_, large, machine) := h.large.free os machine address
    { h with large, machine }
  | .slab, some slab =>
    let (_, slab, machine) := slab.free os machine thread address size
    { h with slab := some slab, machine }
  | _, _ => { h with machine }

/-- Counts an allocation that was served, by a node, since some instant. -/
def record (os : Platform σ) (h : Heap σ) (thread : ThreadId) (size : Nat) (kind : ObjectKind)
    (tier : Tier) (node start : Nat) : Heap σ :=
  let isLocal := node == h.machine.currentNode os thread
  { h with
    arenaBytes := match tier with
      | .arena _ => Word.wrap (h.arenaBytes + size)
      | _ => h.arenaBytes
    counters := h.counters.recordAllocation size kind (tier = .large) isLocal (h.clock os - start)
    pressure := h.pressure.recordAllocation .double size }

/-- Allocates from a given tier. -/
def allocate (os : Platform σ) (h : Heap σ) (thread : ThreadId) (size : Nat) (kind : ObjectKind)
    (tier : Tier) (node : Option Nat) (alignment : PowerOfTwo) :
    Except AllocError Nat × Heap σ :=
  let start := h.clock os
  match h.mode.checkSize size with
  | .error cause => h.fail (.rejected cause)
  | .ok _ =>
    match h.dispatch os thread size tier node alignment with
    | (.error error, h) => h.fail error
    | (.ok placement, h) =>
      match h.inspect placement.address size with
      | .error cause => (h.discard os thread placement.address size tier).fail (.rejected cause)
      | .ok h => (.ok placement.address, h.record os thread size kind tier placement.node start)

/-- Allocates an object of some kind. -/
def alloc (os : Platform σ) (h : Heap σ) (thread : ThreadId) (size : Nat) (kind : ObjectKind) :
    Except AllocError Nat × Heap σ :=
  h.allocate os thread size kind (h.classify size kind) none wordAlignment

/-- Allocates on a node. If that fails for want of a mapping, the request is made again without a
node. -/
def allocNuma (os : Platform σ) (h : Heap σ) (thread : ThreadId) (size node : Nat) :
    Except AllocError Nat × Heap σ :=
  if os.topology.contains node then
    let tier := h.classify size .generic
    match h.allocate os thread size .generic tier (some node) wordAlignment with
    | (.error (.map _), h) => h.allocate os thread size .generic tier none wordAlignment
    | answer => answer
  else h.fail (.invalidNode node)

/-- Allocates aligned bytes, from an arena below the threshold of large objects. The alignment has
to be a power of two no larger than a page. -/
def allocAlignedIn (os : Platform σ) (h : Heap σ) (thread : ThreadId) (size alignment : Nat)
    (arena : ArenaKind) : Except AllocError Nat × Heap σ :=
  match (PowerOfTwo.ofNat? alignment).filter (·.value ≤ os.pageSize.value) with
  | none => h.fail (.invalidAlignment alignment)
  | some power =>
    h.allocate os thread size arena.objectKind (h.alignedTier size arena) none
      (power.max wordAlignment)

/-- Allocates aligned bytes, from the general arena if they are not large. -/
def allocAligned (os : Platform σ) (h : Heap σ) (thread : ThreadId) (size alignment : Nat) :
    Except AllocError Nat × Heap σ :=
  h.allocAlignedIn os thread size alignment .general

/-- Allocates whole cache lines, from the arena of containers if they are not large. -/
def allocCacheAligned (os : Platform σ) (h : Heap σ) (thread : ThreadId) (size : Nat) :
    Except AllocError Nat × Heap σ :=
  h.allocAlignedIn os thread size cacheLine.value .object

/-- Allocates `count` elements of `size` bytes each, all zero. -/
def allocZeroed (os : Platform σ) (h : Heap σ) (thread : ThreadId) (count size : Nat)
    (kind : ObjectKind) : Except AllocError Nat × Heap σ :=
  match Word.mul? count size with
  | none => h.fail .overflow
  | some total =>
    match h.alloc os thread total kind with
    | (.ok address, h) =>
      let memory := h.machine.memory.clear address total
      (.ok address, { h with machine := h.machine.withMemory memory })
    | answer => answer

end NumaHeap.Heap
