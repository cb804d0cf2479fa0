import NumaHeap.Arena.Stats

/-!
Arenas shared by threads. Every arena holds a slot for each thread that has used it, and every
thread keeps guards: short cuts to its slots, which release them when the thread exits. A guard
names the generation of the arena in which its slot was made. Generations are never used twice and
an arena takes a new one whenever its slots are destroyed, so a guard that outlives its slot
releases nothing, even if a later slot stands at the same address.
-/

namespace NumaHeap.Arena

/-- The chain of one thread in one arena. -/
structure Slot where
  address : Nat
  owner : ThreadId
  generation : Nat
  chain : Chain

/-- One arena. -/
structure State where
  /-- False once the arena is closed for good. -/
  active : Bool := true
  generation : Nat
  blockSize : PowerOfTwo
  mapper : Mapper
  slots : List Slot := []
  compactions : Nat := 0

/-- A thread's short cut to its slot in an arena. -/
structure Guard where
  generation : Nat
  slot : Nat
  arena : Nat
deriving DecidableEq

/-- Any number of arenas, and the guards of all threads. -/
structure Pool where
  arenas : List State := []
  guards : ThreadId → List Guard := fun _ => []
  nextGeneration : Nat := 1

namespace State

/-- The slot of a thread. -/
def slotOf? (a : State) (thread : ThreadId) : Option Slot :=
  a.slots.find? (·.owner == thread)

/-- The slot at an address. -/
def slotAt? (a : State) (address : Nat) : Option Slot :=
  a.slots.find? (·.address == address)

/-- Replaces the chain of the slot at an address. -/
def setChain (a : State) (address : Nat) (chain : Chain) : State :=
  { a with
    slots := a.slots.map fun slot => if slot.address = address then { slot with chain } else slot }

/-- Takes a slot out of the arena. -/
def dropSlot (a : State) (address : Nat) : State :=
  { a with slots := a.slots.filter (·.address != address) }

/-- The report of an arena. -/
def stats (a : State) : Stats :=
  { Stats.ofTallies (a.slots.map (·.chain.tally)) with
    bytesReserved := a.mapper.mappedBytes
    compactions := a.compactions
    hugeFallbacks := a.mapper.hugeFallbacks
    bindFailures := a.mapper.bindFailures }

end State

namespace Pool

variable {σ : Type}

/-- The state of an arena. -/
def arena? (p : Pool) (id : Nat) : Option State := p.arenas[id]?

/-- Changes the state of an arena. -/
def modify (p : Pool) (id : Nat) (f : State → State) : Pool :=
  { p with arenas := p.arenas.modify id f }

/-- Changes the guards of a thread. -/
def setGuards (p : Pool) (thread : ThreadId) (guards : List Guard) : Pool :=
  { p with guards := fun t => if t = thread then guards else p.guards t }

/-- Adds an arena, whose number is the count of those before it. -/
def add (p : Pool) (blockSize : PowerOfTwo) (hugePages numaAware : Bool) : Pool :=
  { p with
    arenas := p.arenas ++
      [{ generation := p.nextGeneration, blockSize, mapper := { hugePages, numaAware } }]
    nextGeneration := p.nextGeneration + 1 }

/-- Addresses at which a slot stands. -/
def slotAddresses (p : Pool) : List Nat :=
  p.arenas.flatMap fun a => a.slots.map (·.address)

/-- The least address at which no slot stands; an address is taken again once its slot is gone. -/
def freshAddress (p : Pool) : Nat :=
  ((List.range (p.slotAddresses.length + 1)).find? fun address =>
    !p.slotAddresses.contains address).getD p.slotAddresses.length

/-- Gives the blocks of a slot back. -/
def releaseSlot (os : Platform σ) (p : Pool) (machine : Machine σ) (id : Nat) (slot : Slot) :
    Pool × Machine σ :=
  match p.arena? id with
  | none => (p, machine)
  | some a =>
    let (_, s) := slot.chain.release os ⟨a.mapper, machine⟩
    (p.modify id fun a => { a with mapper := s.mapper }, s.machine)

/-- Drops a guard: releases the slot it was made for, if that slot is still there. -/
def dropGuard (os : Platform σ) (p : Pool) (machine : Machine σ) (g : Guard) : Pool × Machine σ :=
  match p.arena? g.arena with
  | none => (p, machine)
  | some a =>
    if a.active then
      match a.slots.find? fun s => s.generation == g.generation && s.address == g.slot with
      | none => (p, machine)
      | some slot =>
        (p.modify g.arena (·.dropSlot slot.address)).releaseSlot os machine g.arena slot
    else (p, machine)

/-- Drops guards, one after the other. -/
def dropGuards (os : Platform σ) (p : Pool) (machine : Machine σ) (gs : List Guard) :
    Pool × Machine σ :=
  gs.foldl (fun (p, machine) g => p.dropGuard os machine g) (p, machine)

/-- Takes the guards that satisfy a test away from a thread and drops them. -/
def dropGuardsWhere (os : Platform σ) (p : Pool) (machine : Machine σ) (thread : ThreadId)
    (test : Guard → Bool) : Pool × Machine σ :=
  let (taken, kept) := (p.guards thread).partition test
  (p.setGuards thread kept).dropGuards os machine taken

/-- The guard's arena is closed, or has moved on to another generation. -/
def isStale (p : Pool) (g : Guard) : Bool :=
  match p.arena? g.arena with
  | none => true
  | some a => !a.active || a.generation != g.generation

/-- The slot to which a guard of the thread leads in the present generation of an arena. -/
def guardedSlot? (p : Pool) (id : Nat) (thread : ThreadId) : Option Slot := do
  let a ← p.arena? id
  let g ← (p.guards thread).find? (·.generation == a.generation)
  a.slotAt? g.slot

/-- The slot of a thread in an arena, made if there is none. A new chain prefers the node on which
the thread runs at that moment. -/
def register (os : Platform σ) (p : Pool) (machine : Machine σ) (id : Nat) (thread : ThreadId) :
    Option (Slot × Pool) := do
  let a ← p.arena? id
  match a.slotOf? thread with
  | some slot => return (slot, p)
  | none =>
    let preferred := if a.mapper.numaAware then machine.currentNode os thread else 0
    let slot : Slot := ⟨p.freshAddress, thread, a.generation, { preferred }⟩
    return (slot, p.modify id fun a => { a with slots := a.slots ++ [slot] })

/-- Finds the slot of a thread through its guards. Without a guard the thread is registered, its
stale guards are dropped and a new one is kept. -/
def threadSlot (os : Platform σ) (p : Pool) (machine : Machine σ) (id : Nat) (thread : ThreadId) :
    Option (Slot × Pool × Machine σ) :=
  match p.guardedSlot? id thread with
  | some slot => some (slot, p, machine)
  | none => do
    let (slot, p) ← p.register os machine id thread
    let (p, machine) := p.dropGuardsWhere os machine thread p.isStale
    let guard : Guard := ⟨slot.generation, slot.address, id⟩
    return (slot, p.setGuards thread (p.guards thread ++ [guard]), machine)

/-- Serves a request from the chain of a thread. -/
def serve (os : Platform σ) (p : Pool) (machine : Machine σ) (id : Nat) (thread : ThreadId)
    (request : Request) : Except AllocError Placement × Pool × Machine σ :=
  match p.threadSlot os machine id thread with
  | none => (.error .overflow, p, machine)
  | some (slot, p, machine) =>
    match p.arena? id with
    | none => (.error .overflow, p, machine)
    | some a =>
      let (answer, chain, s) := slot.chain.allocate os a.blockSize ⟨a.mapper, machine⟩ request
      (answer,
        p.modify id fun a => { a.setChain slot.address chain with mapper := s.mapper },
        s.machine)

/-- Allocates aligned bytes for a thread, from a node if one is given. -/
def allocate (os : Platform σ) (p : Pool) (machine : Machine σ) (id : Nat) (thread : ThreadId)
    (size : Nat) (alignment : PowerOfTwo) (node : Option Nat) :
    Except AllocError Placement × Pool × Machine σ :=
  if size = 0 then (.error .zeroSize, p, machine)
  else match node.filter (!os.topology.contains ·) with
    | some node => (.error (.invalidNode node), p, machine)
    | none =>
      match Size.arenaRounded? size with
      | none => (.error .overflow, p, machine)
      | some rounded => p.serve os machine id thread ⟨size, rounded, alignment, node⟩

/-- Allocates bytes with an alignment of the caller's choice: a power of two no larger than a page.
-/
def allocateAligned (os : Platform σ) (p : Pool) (machine : Machine σ) (id : Nat)
    (thread : ThreadId) (size alignment : Nat) : Except AllocError Placement × Pool × Machine σ :=
  match (PowerOfTwo.ofNat? alignment).filter (·.value ≤ os.pageSize.value) with
  | none => (.error (.invalidAlignment alignment), p, machine)
  | some power => p.allocate os machine id thread size (power.max wordAlignment) none

/-- Rewinds the chains of all threads in an arena. -/
def reset (p : Pool) (id : Nat) : Pool :=
  p.modify id fun a =>
    { a with slots := a.slots.map fun slot => { slot with chain := slot.chain.reset } }

/-- Gives all blocks of an arena back and starts a new generation. The guards of the thread that
asks are dropped at once, those of the others when they are found to be stale. -/
def destroy (os : Platform σ) (p : Pool) (machine : Machine σ) (id : Nat) (thread : ThreadId) :
    Pool × Machine σ :=
  match p.arena? id with
  | none => (p, machine)
  | some a =>
    let (p, machine) := p.dropGuardsWhere os machine thread (·.generation == a.generation)
    let slots := ((p.arena? id).map (·.slots)).getD []
    let (p, machine) := slots.foldl (fun (p, machine) slot => p.releaseSlot os machine id slot)
      (p.modify id ({ · with slots := [] }), machine)
    ({ p.modify id ({ · with generation := p.nextGeneration }) with
        nextGeneration := p.nextGeneration + 1 },
      machine)

/-- Closes an arena for good. -/
def close (os : Platform σ) (p : Pool) (machine : Machine σ) (id : Nat) (thread : ThreadId) :
    Pool × Machine σ :=
  let (p, machine) := p.destroy os machine id thread
  (p.modify id ({ · with active := false }), machine)

/-- Gives the blocks of one thread in an arena back. -/
def releaseThread (os : Platform σ) (p : Pool) (machine : Machine σ) (id : Nat)
    (thread : ThreadId) : Pool × Machine σ :=
  match p.arena? id with
  | none => (p, machine)
  | some a =>
    let (p, machine) := p.dropGuardsWhere os machine thread (·.generation == a.generation)
    match (p.arena? id).bind (·.slotOf? thread) with
    | none => (p, machine)
    | some slot => (p.modify id (·.dropSlot slot.address)).releaseSlot os machine id slot

/-- Ends a thread: all its guards are dropped. -/
def exitThread (os : Platform σ) (p : Pool) (machine : Machine σ) (thread : ThreadId) :
    Pool × Machine σ :=
  p.dropGuardsWhere os machine thread fun _ => true

/-- Counts a compaction of an arena. Objects never move. -/
def compact (p : Pool) (id : Nat) : Pool :=
  p.modify id fun a => { a with compactions := a.compactions + 1 }

/-- The report of an arena. -/
def stats (p : Pool) (id : Nat) : Stats := (p.arena? id).elim {} State.stats

/-- The blocks of a thread in an arena, oldest first. -/
def blocks (p : Pool) (id : Nat) (thread : ThreadId) : List Block.View :=
  ((p.arena? id).bind (·.slotOf? thread)).elim [] fun slot => slot.chain.blocks.map Block.view

end Pool

end NumaHeap.Arena
