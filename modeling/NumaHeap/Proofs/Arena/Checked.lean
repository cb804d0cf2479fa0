import NumaHeap.Proofs.Arena.Denial
import NumaHeap.Proofs.Arena.Indexed
import NumaHeap.Proofs.Platform.Bounded

/-!
Allocation from an arena with every check made. Blocks end before the last address, the positions that
a chain keeps are positions of its blocks, and no more is asked to be counted than is set aside; so no
check fails.
-/

namespace NumaHeap.Arena

variable {σ : Type} {os : Platform σ} {contract : os.Contract}

namespace Block

variable {b : Block} {size : Nat} {alignment : PowerOfTwo}

def availableChecked (b : Block) : Option Nat := do
  let stop ← b.region.stopChecked
  Word.sub? stop b.cursor

def fitsChecked (b : Block) (size : Nat) (alignment : PowerOfTwo) : Option Bool :=
  match Word.add? (alignment.padding b.cursor) size with
  | some needed => do
    let available ← b.availableChecked
    return needed ≤ available
  | none => some false

/-- Takes aligned bytes. Their address is that of the region, moved on by the bytes before them. -/
def takeChecked (b : Block) (size : Nat) (alignment : PowerOfTwo) : Option (Option Taken) := do
  if ← b.fitsChecked size alignment then
    let padding := alignment.padding b.cursor
    let address ← Word.add? b.cursor padding
    let cursor ← Word.add? address size
    let offset ← Word.sub? address b.region.start
    let address ← Word.add? b.region.start offset
    return some ⟨address, padding, { b with cursor }⟩
  else return none

theorem availableChecked_eq (sound : b.Sound) (below : b.region.stop < Word.bound) :
    b.availableChecked = some b.available := by
  simp only [availableChecked, Region.stopChecked_eq below, bind, Option.bind_some]
  exact Word.sub?_of_le sound.2

theorem fitsChecked_eq (sound : b.Sound) (below : b.region.stop < Word.bound) :
    b.fitsChecked size alignment = some (b.fits size alignment) := by
  unfold fitsChecked fits
  cases Word.add? (alignment.padding b.cursor) size with
  | none => rfl
  | some needed =>
    simp only [availableChecked_eq sound below, bind, Option.bind_some]
    rfl

theorem takeChecked_eq (sound : b.Sound) (below : b.region.stop < Word.bound) :
    b.takeChecked size alignment = some (b.take? size alignment) := by
  simp only [takeChecked, fitsChecked_eq sound below, bind, Option.bind_some]
  cases room : b.fits size alignment with
  | false => simp [take?, room]
  | true =>
    have taken : b.take? size alignment = some ⟨b.cursor + alignment.padding b.cursor,
        alignment.padding b.cursor,
        { b with cursor := b.cursor + alignment.padding b.cursor + size }⟩ := if_pos room
    obtain ⟨-, -, above, last⟩ := take?_spec sound taken
    have start : b.region.start ≤ b.cursor + alignment.padding b.cursor :=
      Nat.le_trans sound.1 above
    dsimp only at last
    have moved := Nat.add_sub_cancel' start
    rw [if_pos rfl, Word.add?_of_lt (by omega), Option.bind_some, Word.add?_of_lt (by omega),
      Option.bind_some, Word.sub?_of_le start, Option.bind_some, Word.add?_of_lt (by omega),
      Option.bind_some, moved, taken]
    rfl

end Block

namespace Tally

def recordChecked (t : Tally) (requested rounded padding : Nat) : Option Tally := do
  let used ← Word.add? rounded padding
  let spare ← Word.sub? rounded requested
  let wasted ← Word.add? spare padding
  return { t with
    allocations := t.allocations + 1
    bytesRequested := Word.wrap (t.bytesRequested + requested)
    bytesUsed := t.bytesUsed + used
    wastedBytes := t.wastedBytes + wasted }

theorem recordChecked_eq {requested rounded padding : Nat} (t : Tally) (le : requested ≤ rounded)
    (below : rounded + padding < Word.bound) :
    t.recordChecked requested rounded padding = some (t.record requested rounded padding) := by
  have less : rounded - requested + padding < Word.bound := by omega
  simp only [recordChecked, Word.add?_of_lt below, Word.sub?_of_le le, Word.add?_of_lt less, bind,
    Option.bind_some]
  rfl

end Tally

namespace Chain

def takeFromChecked (c : Chain) (index : Nat) (r : Request) : Option (Option (Nat × Chain)) := do
  let block ← c.blocks[index]?
  match ← block.takeChecked r.rounded r.alignment with
  | none => return none
  | some taken =>
    let tally ← c.tally.recordChecked r.size r.rounded taken.padding
    return some (taken.address, { c with blocks := c.blocks.set index taken.block, tally })

def candidateChecked (c : Chain) (start node : Nat) (r : Request) : Option (Option Nat) :=
  (List.range' start (c.blocks.length - start)).findM? fun index => do
    let block ← c.blocks[index]?
    if block.node == node then block.fitsChecked r.rounded r.alignment else return false

def abandonChecked (c : Chain) (node : Nat) : Option Tally :=
  match c.current node with
  | some previous => do
    let block ← c.blocks[previous]?
    let rest ← block.availableChecked
    return c.tally.abandon rest
  | none => some c.tally

def advanceChecked (c : Chain) (node index : Nat) : Option Chain := do
  let tally ← c.abandonChecked node
  return { c with current := fun n => if n = node then some index else c.current n, tally }

def serveFromChecked (c : Chain) (node index : Nat) (r : Request) :
    Option (Except AllocError Placement × Chain) := do
  let c ← c.advanceChecked node index
  match ← c.takeFromChecked index r with
  | some (address, c) => return (.ok ⟨address, node⟩, c)
  | none => return (.error .overflow, c)

/-- Maps a new block. Its pages are touched in steps of a page, up to its end. -/
def extendChecked (os : Platform σ) (blockSize : PowerOfTwo) (c : Chain) (s : Supply σ)
    (rounded node : Nat) : Option (Except AllocError Chain × Supply σ) :=
  match blockLength? blockSize rounded with
  | none => return (.error .overflow, s)
  | some length => do
    match ← s.mapChecked os length node with
    | (.error cause, s) => return (.error (.map cause), s)
    | (.ok region, s) =>
      guard (0 < os.pageSize.value)
      let _ ← region.stopChecked
      let memory := Block.touch s.machine.memory region os.pageSize
      return (.ok { c with
          blocks := c.blocks ++ [.ofRegion region]
          tally := c.tally.addBlock region.isHuge },
        { s with machine := s.machine.withMemory memory })

def takeCurrentChecked (c : Chain) (node : Nat) (r : Request) : Option (Option (Nat × Chain)) :=
  match c.current node with
  | some index => c.takeFromChecked index r
  | none => some none

/-- The position after the current block of a node. -/
def nextChecked (c : Chain) (node : Nat) : Option Nat :=
  match c.current node with
  | some index => Word.add? index 1
  | none => some 0

/-- Serves a request. The table of current blocks is made long enough for the node, and the position of
a new block is read off the number of blocks. -/
def allocateChecked (os : Platform σ) (blockSize : PowerOfTwo) (c : Chain) (s : Supply σ)
    (r : Request) : Option (Except AllocError Placement × Chain × Supply σ) := do
  let node := r.node.getD c.preferred
  let _ ← Word.add? node 1
  match ← c.takeCurrentChecked node r with
  | some (address, c) => return (.ok ⟨address, node⟩, c, s)
  | none =>
    let start ← c.nextChecked node
    match ← c.candidateChecked start node r with
    | some index =>
      let (answer, c) ← c.serveFromChecked node index r
      return (answer, c, s)
    | none =>
      match ← c.extendChecked os blockSize s r.rounded node with
      | (.error cause, s) => return (.error cause, c, s)
      | (.ok extended, s) =>
        let index ← Word.sub? extended.blocks.length 1
        let (answer, c) ← extended.serveFromChecked node index r
        return (answer, c, s)

/-- Cursors lie within their blocks, all blocks end before the last address, and the current blocks are
where the chain says. -/
structure InWords (nodes : Nat) (c : Chain) : Prop where
  cursors : ∀ block ∈ c.blocks, block.Sound
  stops : ∀ block ∈ c.blocks, block.region.stop < Word.bound
  indexed : c.Indexed nodes

variable {c : Chain} {s : Supply σ} {r : Request} {index node nodes : Nat}

/-- The length that is asked for is positive, and the new block ends before the last address. -/
theorem extendChecked_eq {blockSize : PowerOfTwo} {rounded : Nat} (bounded : contract.Bounded)
    (possible : contract.Possible s.machine.system) :
    c.extendChecked os blockSize s rounded node = some (c.extend os blockSize s rounded node) := by
  unfold extendChecked extend
  cases asked : blockLength? blockSize rounded with
  | none => rfl
  | some length =>
    have positive := blockLength?_pos asked
    simp only [Supply.mapChecked_eq positive, bind, Option.bind_some]
    cases mapped : s.map os length node with
    | mk answer supply =>
      cases answer with
      | error cause => rfl
      | ok region =>
        have below := Supply.map_stop_lt bounded possible positive mapped
        dsimp only
        rw [guard_eq_some os.pageSize.value_pos, Region.stopChecked_eq below]
        rfl

namespace InWords

theorem takeFromChecked_eq (words : c.InWords nodes) (inside : index < c.blocks.length)
    (enough : r.size ≤ r.rounded) : c.takeFromChecked index r = some (c.takeFrom? index r) := by
  have found := List.getElem?_eq_getElem inside
  have member := List.getElem_mem inside
  have sound := words.cursors _ member
  have below := words.stops _ member
  simp only [takeFromChecked, takeFrom?, found, Block.takeChecked_eq sound below, bind,
    Option.bind_some]
  cases fits : c.blocks[index].take? r.rounded r.alignment with
  | none => rfl
  | some taken =>
    obtain ⟨-, -, above, last⟩ := Block.take?_spec sound fits
    have short : r.rounded + taken.padding < Word.bound := by
      unfold Block.take? at fits
      split at fits <;> cases fits
      dsimp only at last ⊢
      omega
    simp only [Tally.recordChecked_eq c.tally enough short, Option.bind_some]
    rfl

theorem candidateChecked_eq (words : c.InWords nodes) (start node : Nat) (r : Request) :
    c.candidateChecked start node r = some (c.candidate? start node r) := by
  refine Parts.findM?_eq_some fun index member => ?_
  obtain ⟨after, before⟩ := List.mem_range'_1.1 member
  have inside : index < c.blocks.length := by omega
  have here := List.getElem_mem inside
  simp only [List.getElem?_eq_getElem inside, bind, Option.bind_some, Option.any_some,
    Block.fitsChecked_eq (words.cursors _ here) (words.stops _ here)]
  cases c.blocks[index].node == node <;> rfl

theorem advanceChecked_eq (words : c.InWords nodes) (node index : Nat) :
    c.advanceChecked node index = some (c.advance node index) := by
  unfold advanceChecked abandonChecked advance
  cases current : c.current node with
  | none => rfl
  | some previous =>
    have inside := words.indexed.current current
    have here := List.getElem_mem inside
    simp only [List.getElem?_eq_getElem inside, bind, Option.bind_some,
      Block.availableChecked_eq (words.cursors _ here) (words.stops _ here)]
    rfl

theorem serveFromChecked_eq (words : c.InWords nodes) (node : Nat) (inside : index < c.blocks.length)
    (enough : r.size ≤ r.rounded) :
    c.serveFromChecked node index r = some (c.serveFrom node index r) := by
  have moved : (c.advance node index).InWords nodes :=
    ⟨words.cursors, words.stops, words.indexed.advance inside node⟩
  simp only [serveFromChecked, serveFrom, words.advanceChecked_eq, bind, Option.bind_some,
    moved.takeFromChecked_eq inside enough]
  cases (c.advance node index).takeFrom? index r <;> rfl

/-- A chain keeps to words when it gains a block. -/
theorem extend {blockSize : PowerOfTwo} {rounded : Nat} {larger : Chain} {supply : Supply σ}
    (words : c.InWords nodes) (bounded : contract.Bounded)
    (possible : contract.Possible s.machine.system)
    (extended : c.extend os blockSize s rounded node = (.ok larger, supply)) :
    larger.InWords nodes := by
  have indexed := (words.indexed.extend extended).1
  unfold Chain.extend at extended
  split at extended
  · cases extended
  · next length asked =>
    split at extended
    · cases extended
    · next region middle mapped =>
      have below := Supply.map_stop_lt bounded possible (blockLength?_pos asked) mapped
      cases extended
      refine ⟨?_, ?_, indexed⟩
      · exact List.forall_mem_append.2
          ⟨words.cursors, List.forall_mem_singleton.2 (Block.ofRegion_sound region)⟩
      · exact List.forall_mem_append.2 ⟨words.stops, List.forall_mem_singleton.2 below⟩

/-- No check fails when a chain serves a request. -/
theorem allocateChecked_eq {blockSize : PowerOfTwo} (words : c.InWords nodes)
    (bounded : contract.Bounded) (possible : contract.Possible s.machine.system)
    (few : c.blocks.length < Word.bound) (enough : r.size ≤ r.rounded)
    (small : r.node.getD c.preferred + 1 < Word.bound) :
    c.allocateChecked os blockSize s r = some (c.allocate os blockSize s r) := by
  obtain ⟨node, target⟩ : ∃ node, r.node.getD c.preferred = node := ⟨_, rfl⟩
  have current : c.takeCurrentChecked node r = some ((c.current node).bind (c.takeFrom? · r)) := by
    unfold takeCurrentChecked
    cases here : c.current node with
    | none => rfl
    | some index => exact words.takeFromChecked_eq (words.indexed.current here) enough
  have next : c.nextChecked node = some ((c.current node).elim 0 (· + 1)) := by
    unfold nextChecked
    cases here : c.current node with
    | none => rfl
    | some index =>
      have inside := words.indexed.current here
      exact Word.add?_of_lt (by omega)
  rw [target] at small
  simp only [allocateChecked, allocate, target, Word.add?_of_lt small, current, next, bind,
    Option.bind_some]
  cases (c.current node).bind (c.takeFrom? · r) with
  | some served => rfl
  | none =>
    simp only [words.candidateChecked_eq, Option.bind_some]
    cases found : c.candidate? ((c.current node).elim 0 (· + 1)) node r with
    | some index =>
      obtain ⟨-, block, there, -⟩ := candidate?_spec found
      have inside := (List.getElem?_eq_some_iff.1 there).1
      simp only [words.serveFromChecked_eq node inside enough, Option.bind_some]
      rfl
    | none =>
      simp only [extendChecked_eq bounded possible, Option.bind_some]
      cases extended : c.extend os blockSize s r.rounded node with
      | mk answer supply =>
        cases answer with
        | error cause => rfl
        | ok larger =>
          have more := words.extend bounded possible extended
          have length := (words.indexed.extend extended).2
          have last : c.blocks.length < larger.blocks.length := by omega
          have position : Word.sub? larger.blocks.length 1 = some c.blocks.length := by
            rw [Word.sub?_of_le (by omega), length, Nat.add_sub_cancel]
          simp only [position, more.serveFromChecked_eq node last enough, Option.bind_some]
          rfl

end InWords

end Chain

namespace Pool

/-- Serves a request from the chain of a thread; the slot of the thread is there, and so is the arena. -/
def serveChecked (os : Platform σ) (p : Pool) (machine : Machine σ) (id : Nat) (thread : ThreadId)
    (request : Request) : Option (Except AllocError Placement × Pool × Machine σ) := do
  let (slot, p, machine) ← p.threadSlot os machine id thread
  let a ← p.arena? id
  let (answer, chain, s) ← slot.chain.allocateChecked os a.blockSize ⟨a.mapper, machine⟩ request
  return (answer, p.modify id fun a => { a.setChain slot.address chain with mapper := s.mapper },
    s.machine)

def allocateChecked (os : Platform σ) (p : Pool) (machine : Machine σ) (id : Nat) (thread : ThreadId)
    (size : Nat) (alignment : PowerOfTwo) (node : Option Nat) :
    Option (Except AllocError Placement × Pool × Machine σ) :=
  if size = 0 then some (.error .zeroSize, p, machine)
  else match node.filter (!os.topology.contains ·) with
    | some node => some (.error (.invalidNode node), p, machine)
    | none => do
      match ← Size.arenaRoundedChecked size with
      | none => return (.error .overflow, p, machine)
      | some rounded => p.serveChecked os machine id thread ⟨size, rounded, alignment, node⟩

variable {p after : Pool} {machine later : Machine σ} {id : Nat} {thread : ThreadId} {slot : Slot}
  {a : State} {size nodes : Nat} {alignment : PowerOfTwo} {node : Option Nat}

/-- The regions of a chain are regions of its pool. -/
theorem regions_sublist (found : p.arena? id = some a) (member : slot ∈ a.slots) :
    slot.chain.regions.Sublist p.regions := by
  have inner : slot.chain.regions.Sublist a.regions :=
    List.sublist_flatten_of_mem (List.mem_map_of_mem member)
  exact inner.trans (List.sublist_flatten_of_mem (List.mem_map_of_mem (List.mem_of_getElem? found)))

/-- The chain of a slot keeps to words when its regions are among those in custody. -/
theorem inWords {held : List Region} (sound : p.Sound) (indexed : p.Indexed nodes)
    (bounded : contract.Bounded) (custody : os.Custody contract machine.system held)
    (mine : p.regions.Subperm held) (found : p.arena? id = some a) (member : slot ∈ a.slots) :
    slot.chain.InWords nodes ∧ slot.chain.blocks.length < Word.bound := by
  have part := (regions_sublist found member).subperm.trans mine
  refine ⟨⟨((sound.arenas id a found).chains slot member).cursors, fun block inside => ?_,
    indexed id a found slot member⟩, ?_⟩
  · exact custody.stop_lt bounded (part.subset (List.mem_map_of_mem inside))
  · have few := part.length_le
    rw [Chain.regions, List.length_map] at few
    exact Nat.lt_of_le_of_lt few custody.length_lt

theorem serveChecked_eq {held : List Region} {request : Request} (closed : os.topology.Closed)
    (sound : p.Sound) (indexed : p.Indexed os.topology.nodeCount) (bounded : contract.Bounded)
    (custody : os.Custody contract machine.system held) (mine : p.regions.Subperm held)
    (found : p.arena? id = some a) (enough : request.size ≤ request.rounded)
    (known : ∀ wish, request.node = some wish → wish < os.topology.nodeCount) :
    p.serveChecked os machine id thread request = some (p.serve os machine id thread request) := by
  have reached : p.threadSlot os machine id thread ≠ none := threadSlot_ne_none found
  obtain ⟨⟨slot, middle, between⟩, located⟩ := Option.ne_none_iff_exists'.1 reached
  obtain ⟨rfl, good, same, b, there, member, -⟩ := threadSlot_spec sound located
  have joined := indexed.threadSlot closed sound located
  obtain ⟨words, few⟩ := inWords good joined bounded custody
    (same.regions.subperm.trans mine) there member
  have small : request.node.getD slot.chain.preferred < os.topology.nodeCount := by
    cases asked : request.node with
    | none => exact words.indexed.preferred
    | some wish => exact known wish asked
  have word : request.node.getD slot.chain.preferred + 1 < Word.bound :=
    Nat.lt_of_le_of_lt (Nat.le_trans small closed.few) (by decide)
  have answered : slot.chain.allocateChecked os b.blockSize ⟨b.mapper, between⟩ request =
      some (slot.chain.allocate os b.blockSize ⟨b.mapper, between⟩ request) :=
    words.allocateChecked_eq bounded custody.possible few enough word
  simp only [serveChecked, serve, located, there, answered, bind, Option.bind_some]
  rfl

/-- No check fails when an arena is asked for anything. -/
theorem allocateChecked_eq {held : List Region} (closed : os.topology.Closed) (sound : p.Sound)
    (indexed : p.Indexed os.topology.nodeCount) (bounded : contract.Bounded)
    (custody : os.Custody contract machine.system held) (mine : p.regions.Subperm held)
    (found : p.arena? id = some a) :
    p.allocateChecked os machine id thread size alignment node =
      some (p.allocate os machine id thread size alignment node) := by
  unfold allocateChecked allocate
  split
  · rfl
  · cases foreign : node.filter (!os.topology.contains ·) with
    | some wish => rfl
    | none =>
      have known : ∀ wish, node = some wish → wish < os.topology.nodeCount := by
        rintro wish rfl
        have there := Option.filter_eq_none_iff.1 foreign wish rfl
        rw [Bool.not_eq_true, Bool.not_eq_false'] at there
        exact Topology.contains_iff.1 there
      simp only [Size.arenaRoundedChecked_eq, bind, Option.bind_some]
      cases enough : Size.arenaRounded? size with
      | none => rfl
      | some rounded =>
        exact serveChecked_eq closed sound indexed bounded custody mine found
          (Size.le_arenaRounded enough).1 known

end Pool

end NumaHeap.Arena
