import NumaHeap.Proofs.Arena.Teardown
import NumaHeap.Proofs.Topology

/-!
The positions that a chain keeps. The current block of a node is one of its blocks, and the node that it
prefers exists, whatever is asked of it: blocks are only ever added, until all of them are given back
together with their slot.
-/

namespace NumaHeap.Arena

variable {σ : Type} {os : Platform σ} {nodes : Nat}

/-- The chain prefers a node that exists, and its current blocks are where it says. -/
structure Chain.Indexed (nodes : Nat) (c : Chain) : Prop where
  preferred : c.preferred < nodes
  current : ∀ {node index : Nat}, c.current node = some index → index < c.blocks.length

namespace Chain.Indexed

variable {c after : Chain} {r : Request} {index node : Nat} {s supply : Supply σ}

theorem empty {preferred : Nat} (here : preferred < nodes) : Indexed nodes { preferred } :=
  ⟨here, nofun⟩

/-- A chain with as many blocks in the same order keeps its positions. -/
theorem of_length (indexed : c.Indexed nodes) (preferred : after.preferred = c.preferred)
    (current : after.current = c.current) (length : after.blocks.length = c.blocks.length) :
    after.Indexed nodes where
  preferred := preferred ▸ indexed.preferred
  current there := by
    rw [current] at there
    rw [length]
    exact indexed.current there

theorem takeFrom? {address : Nat} (indexed : c.Indexed nodes)
    (taken : c.takeFrom? index r = some (address, after)) : after.Indexed nodes := by
  simp only [Chain.takeFrom?, bind, Option.bind_eq_some_iff, pure, Option.some.injEq,
    Prod.mk.injEq] at taken
  obtain ⟨block, -, moved, -, -, rfl⟩ := taken
  exact indexed.of_length rfl rfl List.length_set

theorem advance (indexed : c.Indexed nodes) (inside : index < c.blocks.length) (node : Nat) :
    (c.advance node index).Indexed nodes where
  preferred := indexed.preferred
  current {other place} there := by
    dsimp only [Chain.advance] at there ⊢
    split at there
    · cases there
      exact inside
    · exact indexed.current there

theorem serveFrom (indexed : c.Indexed nodes) (inside : index < c.blocks.length) (node : Nat)
    (r : Request) : (c.serveFrom node index r).2.Indexed nodes := by
  have moved := indexed.advance inside node
  unfold Chain.serveFrom
  dsimp only
  split
  · next taken => exact moved.takeFrom? taken
  · exact moved

/-- A new block is put behind the others. -/
theorem extend {blockSize : PowerOfTwo} {rounded : Nat} (indexed : c.Indexed nodes)
    (extended : c.extend os blockSize s rounded node = (.ok after, supply)) :
    after.Indexed nodes ∧ after.blocks.length = c.blocks.length + 1 := by
  unfold Chain.extend at extended
  split at extended
  · cases extended
  · split at extended
    · cases extended
    · cases extended
      refine ⟨⟨indexed.preferred, fun there => ?_⟩, List.length_append⟩
      rw [List.length_append]
      exact Nat.lt_add_right _ (indexed.current there)

theorem allocate {blockSize : PowerOfTwo} {answer : Except AllocError Placement}
    (indexed : c.Indexed nodes)
    (served : c.allocate os blockSize s r = (answer, after, supply)) : after.Indexed nodes := by
  simp only [Chain.allocate] at served
  split at served
  · next address chain taken =>
    obtain ⟨index, -, taken⟩ := Option.bind_eq_some_iff.1 taken
    cases served
    exact indexed.takeFrom? taken
  · split at served
    · next index found =>
      have within := List.mem_range'_1.1 (List.mem_of_find?_eq_some found)
      cases served
      exact indexed.serveFrom (by omega) _ r
    · split at served
      · cases served
        exact indexed
      · next larger middle extended =>
        obtain ⟨more, length⟩ := indexed.extend extended
        cases served
        exact more.serveFrom (by omega) _ r

theorem reset (indexed : c.Indexed nodes) : c.reset.Indexed nodes where
  preferred := indexed.preferred
  current {node index} there := by
    obtain ⟨inside, -⟩ := List.findIdx?_eq_some_iff_getElem.1 there
    rw [Chain.reset, List.length_map]
    exact inside

end Chain.Indexed

/-- All chains keep positions of blocks that they have, and prefer nodes that exist. -/
def Pool.Indexed (nodes : Nat) (p : Pool) : Prop :=
  ∀ id a, p.arena? id = some a → ∀ slot ∈ a.slots, slot.chain.Indexed nodes

namespace Pool.Indexed

variable {p after : Pool} {machine later : Machine σ} {id : Nat} {thread : ThreadId} {slot : Slot}

theorem empty : Pool.Indexed nodes {} := fun _ _ found => nomatch found

theorem add (indexed : p.Indexed nodes) (blockSize : PowerOfTwo) (hugePages numaAware : Bool) :
    (p.add blockSize hugePages numaAware).Indexed nodes := by
  intro id a found slot member
  rw [Pool.add, arena?, List.getElem?_append] at found
  split at found
  · exact indexed id a found slot member
  · have new := List.mem_of_getElem? found
    rw [List.mem_singleton.1 new] at member
    cases member

/-- What is done to one arena matters to the chains of that arena alone. -/
theorem modify {f : State → State} (indexed : p.Indexed nodes)
    (kept : ∀ a, p.arena? id = some a → ∀ slot ∈ (f a).slots, slot.chain.Indexed nodes) :
    (p.modify id f).Indexed nodes := by
  intro other b there slot member
  rw [arena?_modify] at there
  split at there
  · obtain ⟨a, found, rfl⟩ := Option.map_eq_some_iff.1 there
    exact kept a found slot member
  · exact indexed other b there slot member

/-- To shed slots is to keep the chains of the others. -/
theorem sheds {lost : Nat → ThreadId → Prop} (indexed : p.Indexed nodes)
    (sheds : Sheds os lost p machine after later) : after.Indexed nodes := by
  intro id b there slot member
  obtain ⟨a, found, fewer⟩ := sheds.shrinks id b there
  exact indexed id a found slot (fewer member)

theorem reset (indexed : p.Indexed nodes) (id : Nat) : (p.reset id).Indexed nodes := by
  refine indexed.modify fun a found slot member => ?_
  obtain ⟨old, before, rfl⟩ := List.mem_map.1 member
  exact (indexed id a found old before).reset

theorem compact (indexed : p.Indexed nodes) (id : Nat) : (p.compact id).Indexed nodes :=
  indexed.modify fun a found => indexed id a found

/-- The chain of a new slot prefers the node of its thread, or the first one. -/
theorem register (closed : os.topology.Closed) (indexed : p.Indexed os.topology.nodeCount)
    (registered : p.register os machine id thread = some (slot, after)) :
    after.Indexed os.topology.nodeCount := by
  simp only [Pool.register, bind, Option.bind_eq_some_iff] at registered
  obtain ⟨a, found, registered⟩ := registered
  split at registered
  · cases registered
    exact indexed
  · cases registered
    refine indexed.modify fun b same => ?_
    cases found.symm.trans same
    refine List.forall_mem_append.2 ⟨indexed id a found, List.forall_mem_singleton.2 (.empty ?_)⟩
    split
    · exact os.currentNode_lt closed machine.system thread
    · exact closed.positive

theorem threadSlot (closed : os.topology.Closed) (sound : p.Sound)
    (indexed : p.Indexed os.topology.nodeCount)
    (found : p.threadSlot os machine id thread = some (slot, after, later)) :
    after.Indexed os.topology.nodeCount := by
  unfold Pool.threadSlot at found
  split at found
  · cases found
    exact indexed
  · simp only [bind, Option.bind_eq_some_iff] at found
    obtain ⟨⟨made, middle⟩, registered, found⟩ := found
    rw [dropGuardsWhere_stale (register_spec sound registered).1.arenas] at found
    have joined := indexed.register closed registered
    cases found
    exact joined

theorem allocate {size : Nat} {alignment : PowerOfTwo} {node : Option Nat}
    {answer : Except AllocError Placement} (closed : os.topology.Closed) (sound : p.Sound)
    (indexed : p.Indexed os.topology.nodeCount)
    (served : p.allocate os machine id thread size alignment node = (answer, after, later)) :
    after.Indexed os.topology.nodeCount := by
  cases allocate_outcome served with
  | invalid => exact indexed
  | lost found => exact indexed.threadSlot closed sound found
  | @chained _ _ slot middle _ a _ chain _ enough found there answered =>
    have joined := indexed.threadSlot closed sound found
    obtain ⟨-, -, -, b, here, member, -⟩ := threadSlot_spec sound found
    cases there.symm.trans here
    refine joined.modify fun b same other changed => ?_
    cases there.symm.trans same
    obtain ⟨old, before, -, -, -, new | kept⟩ := State.mem_setChain changed
    · exact new ▸ (joined id a there slot member).allocate answered
    · exact kept ▸ joined id a there old before

end Pool.Indexed

end NumaHeap.Arena
