import NumaHeap.Proofs.Arena.Chain
import Mathlib.Data.List.Find

/-!
A chain that is reset and asked for the same again. The first time blocks were mapped as they were
needed; the second time they all stand at the end of the chain from the start. The one chain follows
the other nevertheless: a search that found nothing then finds now the block that was mapped for it,
and whatever else was mapped later is behind that block.
-/

namespace NumaHeap.Arena

variable {σ : Type}

theorem Block.take?_region {b : Block} {size : Nat} {alignment : PowerOfTwo} {taken : Taken}
    (some : b.take? size alignment = some taken) : taken.block.region = b.region := by
  unfold take? at some
  split at some
  · cases some
    rfl
  · cases some

theorem Block.fits_of_take? {b : Block} {size : Nat} {alignment : PowerOfTwo} {taken : Taken}
    (some : b.take? size alignment = some taken) : b.fits size alignment = true := by
  unfold take? at some
  split at some
  · next fits => exact fits
  · cases some

namespace Chain

/-- Requests that a chain serves one after the other, each time with whatever supply there is. -/
inductive Yields (os : Platform σ) (blockSize : PowerOfTwo) :
    Chain → List (Request × Placement) → Chain → Prop
  | nil (c : Chain) : Yields os blockSize c [] c
  | cons {c next last : Chain} {s supply : Supply σ} {r : Request} {placement : Placement}
      {rest : List (Request × Placement)} :
      c.allocate os blockSize s r = (.ok placement, next, supply) →
      Yields os blockSize next rest last → Yields os blockSize c ((r, placement) :: rest) last

/-- Requests that a chain serves from the blocks that it has, whatever the supply. -/
inductive Repeats (os : Platform σ) (blockSize : PowerOfTwo) :
    Chain → List (Request × Placement) → Chain → Prop
  | nil (c : Chain) : Repeats os blockSize c [] c
  | cons {c next last : Chain} {r : Request} {placement : Placement}
      {rest : List (Request × Placement)} :
      (∀ s : Supply σ, c.allocate os blockSize s r = (.ok placement, next, s)) →
      Repeats os blockSize next rest last → Repeats os blockSize c ((r, placement) :: rest) last

/-- The chain was just made, or just reset. -/
inductive Begins : Chain → Prop
  | created (preferred : Nat) : Begins { preferred }
  | reset (c : Chain) : Begins c.reset

/-- The node from which a request is served. -/
def target (c : Chain) (r : Request) : Nat := r.node.getD c.preferred

/-- The nodes of the blocks. -/
def nodes (c : Chain) : List Nat := c.regions.map (·.node)

/-- The position of the first block of a node. -/
def firstOf? (c : Chain) (node : Nat) : Option Nat := c.nodes.findIdx? (· == node)

/-- The chain after bytes were taken from the block at a position. -/
def took (c : Chain) (index : Nat) (r : Request) (taken : Block.Taken) : Chain :=
  { c with
    blocks := c.blocks.set index taken.block
    tally := c.tally.record r.size r.rounded taken.padding }

/-- The chain after a block over a region was put at its end. -/
def joined (c : Chain) (region : Region) : Chain :=
  { c with
    blocks := c.blocks ++ [.ofRegion region]
    tally := c.tally.addBlock region.isHuge }

/-- How a chain serves a request, and the regions that were mapped for it. -/
inductive Grants (r : Request) (c : Chain) : List Region → Placement → Chain → Prop
  | current {index address : Nat} {next : Chain} :
      c.current (c.target r) = some index → c.takeFrom? index r = some (address, next) →
      Grants r c [] ⟨address, c.target r⟩ next
  | later {index : Nat} {placement : Placement} {next : Chain} :
      (c.current (c.target r)).bind (c.takeFrom? · r) = none →
      c.candidate? ((c.current (c.target r)).elim 0 (· + 1)) (c.target r) r = some index →
      c.serveFrom (c.target r) index r = (.ok placement, next) → Grants r c [] placement next
  | mapped {region : Region} {placement : Placement} {next : Chain} :
      (c.current (c.target r)).bind (c.takeFrom? · r) = none →
      c.candidate? ((c.current (c.target r)).elim 0 (· + 1)) (c.target r) r = none →
      region.node = c.target r →
      (c.joined region).serveFrom (c.target r) c.blocks.length r = (.ok placement, next) →
      Grants r c [region] placement next

variable {os : Platform σ} {blockSize : PowerOfTwo} {c d next last : Chain} {s supply : Supply σ}
  {r : Request} {placement : Placement} {index node : Nat} {new future : List Region}
  {block : Block} {taken : Block.Taken} {transcript : List (Request × Placement)}

theorem Yields.step {rest : List (Request × Placement)} (c : Chain) (s : Supply σ) (r : Request)
    (served : (c.allocate os blockSize s r).1 = .ok placement)
    (yields : Yields os blockSize (c.allocate os blockSize s r).2.1 rest last) :
    Yields os blockSize c ((r, placement) :: rest) last :=
  .cons (Prod.ext served rfl) yields

theorem Repeats.of_nil (repeats : Repeats os blockSize c [] d) : c = d := by
  cases repeats
  rfl

theorem takeFrom?_eq_some {address : Nat} (some : c.takeFrom? index r = some (address, next)) :
    ∃ block taken, c.blocks[index]? = .some block ∧
      block.take? r.rounded r.alignment = .some taken ∧ address = taken.address ∧
        next = c.took index r taken := by
  simp only [takeFrom?, bind, Option.bind_eq_some_iff, pure, Option.some.injEq, Prod.mk.injEq]
    at some
  obtain ⟨block, found, taken, fits, rfl, rfl⟩ := some
  exact ⟨block, taken, found, fits, rfl, rfl⟩

theorem takeFrom?_of_take? (found : c.blocks[index]? = some block)
    (fits : block.take? r.rounded r.alignment = some taken) :
    c.takeFrom? index r = some (taken.address, c.took index r taken) := by
  simp only [takeFrom?, found, fits, bind, Option.bind_some, pure]
  rfl

theorem serveFrom_eq_ok (served : c.serveFrom node index r = (.ok placement, next)) :
    ∃ block taken, c.blocks[index]? = some block ∧
      block.take? r.rounded r.alignment = some taken ∧ placement = ⟨taken.address, node⟩ ∧
        next = (c.advance node index).took index r taken := by
  simp only [serveFrom] at served
  split at served
  · next address after some =>
    cases served
    obtain ⟨block, taken, found, fits, rfl, rfl⟩ := takeFrom?_eq_some some
    exact ⟨block, taken, found, fits, rfl, rfl⟩
  · cases served

theorem serveFrom_of_take? (node : Nat) (found : c.blocks[index]? = some block)
    (fits : block.take? r.rounded r.alignment = some taken) :
    c.serveFrom node index r =
      (.ok ⟨taken.address, node⟩, (c.advance node index).took index r taken) := by
  have there : (c.advance node index).blocks[index]? = some block := found
  simp only [serveFrom, takeFrom?_of_take? there fits]

theorem grants_of_allocate (served : c.allocate os blockSize s r = (.ok placement, next, supply)) :
    ∃ new, Grants r c new placement next := by
  simp only [allocate] at served
  split at served
  · next address after some =>
    obtain ⟨index, current, some⟩ := Option.bind_eq_some_iff.1 some
    cases served
    exact ⟨[], .current current some⟩
  · next none =>
    split at served
    · next index found =>
      obtain ⟨answer, rest⟩ := Prod.mk.inj served
      refine ⟨[], .later none found (Prod.ext answer (Prod.mk.inj rest).1)⟩
    · next lost =>
      split at served
      · cases served
      · next larger middle extended =>
        unfold extend at extended
        split at extended
        · cases extended
        · next length enough =>
          split at extended
          · cases extended
          · next region between mapped =>
            obtain ⟨-, here, -⟩ := (Supply.map_grows (blockLength?_pos enough) mapped).1 region rfl
            cases extended
            obtain ⟨answer, rest⟩ := Prod.mk.inj served
            exact ⟨[region], .mapped none lost here (Prod.ext answer (Prod.mk.inj rest).1)⟩

/-- Where nothing has to be mapped, the supply does not matter. -/
theorem Grants.allocate (grants : Grants r c [] placement next) (os : Platform σ)
    (blockSize : PowerOfTwo) (s : Supply σ) :
    c.allocate os blockSize s r = (.ok placement, next, s) := by
  simp only [Chain.allocate]
  cases grants with
  | current here some =>
    rw [target] at here
    rw [here, Option.bind_some, some]
    rfl
  | later none found served =>
    rw [target] at none found served
    simp only [none, found, served]

/-- The chain `d` does what `c` did before, with the blocks already there that `c` had still to map.
Where `c` has no current block of a node yet, that of `d` is the first one of the node. -/
structure Follows (future : List Region) (c d : Chain) : Prop where
  preferred : d.preferred = c.preferred
  blocks : d.blocks = c.blocks ++ future.map Block.ofRegion
  current : ∀ node, d.current node = (c.current node).or (d.firstOf? node)
  used : d.tally.bytesUsed = c.tally.bytesUsed
  wasted : d.tally.wastedBytes = c.tally.wastedBytes

/-- Current blocks are there, and there is one for each node that has a block. -/
structure Settled (c : Chain) : Prop where
  inside : ∀ {node index}, c.current node = some index → index < c.blocks.length
  present : ∀ {node}, c.current node = none → node ∉ c.nodes

theorem takeFrom?_eq_none_iff : c.takeFrom? index r = none ↔
    ∀ block, c.blocks[index]? = some block → block.take? r.rounded r.alignment = none := by
  simp only [takeFrom?, bind, pure, Option.bind_eq_none_iff, reduceCtorEq, imp_false]
  exact forall₂_congr fun _ _ => Option.eq_none_iff_forall_ne_some.symm

/-- A search finds a block of the node. -/
theorem candidate?_eq_some {start : Nat} (some : c.candidate? start node r = some index) :
    index < c.blocks.length ∧ node ∈ c.nodes := by
  have suits := List.find?_some some
  obtain ⟨block, found, suits⟩ := (Option.any_eq_true _ _).1 suits
  have same : block.region.node = node := beq_iff_eq.1 (Bool.and_eq_true_iff.1 suits).1
  refine ⟨(List.getElem?_eq_some_iff.1 found).1, List.mem_map.2 ⟨block.region, ?_, same⟩⟩
  exact List.mem_map_of_mem (List.mem_of_getElem? found)

theorem length_nodes (c : Chain) : c.nodes.length = c.blocks.length := by
  rw [nodes, regions, List.length_map, List.length_map]

theorem firstOf?_eq_none_iff : c.firstOf? node = none ↔ node ∉ c.nodes := by
  rw [firstOf?, List.findIdx?_eq_none_iff]
  constructor
  · intro none member
    exact beq_eq_false_iff_ne.1 (none node member) rfl
  · intro absent other member
    exact beq_eq_false_iff_ne.2 fun same => absent (same ▸ member)

theorem joined_regions (c : Chain) (region : Region) :
    (c.joined region).regions = c.regions ++ [region] := by
  simp only [regions, joined, List.map_append, List.map_singleton]
  rfl

theorem took_regions (found : c.blocks[index]? = some block)
    (fits : block.take? r.rounded r.alignment = some taken) :
    (c.took index r taken).regions = c.regions := by
  obtain ⟨inside, same⟩ := List.getElem?_eq_some_iff.1 (getElem?_regions found)
  rw [regions, took, List.map_set, Block.take?_region fits, ← same]
  exact List.set_getElem_self inside

namespace Follows

theorem target_eq (follows : Follows future c d) (r : Request) : d.target r = c.target r := by
  rw [target, follows.preferred, target]

theorem getElem?_eq (follows : Follows future c d) (inside : index < c.blocks.length) :
    d.blocks[index]? = c.blocks[index]? := by
  rw [follows.blocks, List.getElem?_append_left inside]

theorem nodes_eq (follows : Follows future c d) : d.nodes = c.nodes ++ future.map (·.node) := by
  simp only [nodes, regions, follows.blocks, List.map_append, List.map_map]
  rfl

theorem took {block : Block} (follows : Follows future c d) (found : c.blocks[index]? = some block)
    (fits : block.take? r.rounded r.alignment = some taken) :
    Follows future (c.took index r taken) (d.took index r taken) := by
  have inside := (List.getElem?_eq_some_iff.1 found).1
  have there := (follows.getElem?_eq inside).trans found
  refine ⟨follows.preferred, ?_, fun node => ?_, ?_, ?_⟩
  · simp only [Chain.took, follows.blocks]
    exact List.set_append_left _ _ inside
  · rw [firstOf?, nodes, took_regions there fits]
    exact follows.current node
  · exact congrArg (· + (r.rounded + taken.padding)) follows.used
  · exact congrArg (· + (r.rounded - r.size + taken.padding)) follows.wasted

/-- Both leave the same block for another one. -/
theorem advance {current : Nat} (follows : Follows future c d)
    (here : c.current node = some current) (inside : current < c.blocks.length) (index : Nat) :
    Follows future (c.advance node index) (d.advance node index) := by
  have also : d.current node = some current := by rw [follows.current, here, Option.some_or]
  have same : d.blocks[current]? = c.blocks[current]? := follows.getElem?_eq inside
  obtain ⟨previous, found⟩ : ∃ b, c.blocks[current]? = some b :=
    ⟨_, List.getElem?_eq_getElem inside⟩
  refine ⟨follows.preferred, follows.blocks, fun other => ?_, ?_, ?_⟩
  · simp only [Chain.advance]
    split
    · rfl
    · exact follows.current other
  · simp only [Chain.advance, here, also, same, found, Option.bind_some]
    exact congrArg (· + previous.available) follows.used
  · simp only [Chain.advance, here, also, same, found, Option.bind_some]
    exact congrArg (· + previous.available) follows.wasted

/-- The one chain makes a block current that already is so in the other. -/
theorem settle (follows : Follows future c d) (none : c.current node = none)
    (there : d.current node = some index) : Follows future (c.advance node index) d := by
  refine ⟨follows.preferred, follows.blocks, fun other => ?_, ?_, ?_⟩
  · simp only [Chain.advance]
    split
    · next same => rw [same, there, Option.some_or]
    · exact follows.current other
  · simp only [Chain.advance, none, Option.bind_none]
    exact follows.used
  · simp only [Chain.advance, none, Option.bind_none]
    exact follows.wasted

/-- Where the current block is full in the one chain, it is full in the other. -/
theorem full {current : Nat} (follows : Follows future c d) (here : c.current node = some current)
    (inside : current < c.blocks.length)
    (none : (c.current node).bind (c.takeFrom? · r) = none) :
    (d.current node).bind (d.takeFrom? · r) = Option.none := by
  rw [here, Option.bind_some, takeFrom?_eq_none_iff] at none
  rw [follows.current, here, Option.some_or, Option.bind_some, takeFrom?_eq_none_iff,
    follows.getElem?_eq inside]
  exact none

/-- Where the one chain looks for another block, the other serves the request from what it finds. -/
theorem search {current : Nat} {block : Block} (follows : Follows future c d)
    (here : c.current (c.target r) = some current) (inside : current < c.blocks.length)
    (none : (c.current (c.target r)).bind (c.takeFrom? · r) = none)
    (located : d.candidate? (current + 1) (c.target r) r = some index)
    (found : d.blocks[index]? = some block)
    (fits : block.take? r.rounded r.alignment = some taken) :
    Grants r d [] ⟨taken.address, c.target r⟩
      ((d.advance (c.target r) index).took index r taken) := by
  have full := follows.full here inside none
  have again : d.current (c.target r) = some current := by
    rw [follows.current, here, Option.some_or]
  rw [← follows.target_eq r] at full again located ⊢
  refine .later full ?_ (serveFrom_of_take? _ found fits)
  rw [again]
  exact located

/-- The one chain maps the block that is next in the other. -/
theorem joined {region : Region} (follows : Follows (region :: future) c d) :
    Follows future (c.joined region) d where
  preferred := follows.preferred
  blocks := by
    rw [follows.blocks, Chain.joined, List.map_cons, List.append_assoc]
    rfl
  current := follows.current
  used := follows.used
  wasted := follows.wasted

/-- The first block of a node is the one that is mapped next. -/
theorem firstOf? {region : Region} (follows : Follows (region :: future) c d)
    (absent : node ∉ c.nodes) (same : region.node = node) :
    d.firstOf? node = some c.blocks.length := by
  have none : c.nodes.findIdx? (· == node) = none := firstOf?_eq_none_iff.2 absent
  rw [Chain.firstOf?, follows.nodes_eq, List.findIdx?_append, none, Option.none_or, List.map_cons,
    List.findIdx?_cons, same, beq_self_eq_true, if_pos rfl, Option.map_some, length_nodes,
    Nat.zero_add]

/-- A search in the longer chain begins as in the shorter one. -/
theorem candidate? {start : Nat} (follows : Follows future c d)
    (within : start ≤ c.blocks.length) :
    d.candidate? start node r = (c.candidate? start node r).or
      ((List.range' c.blocks.length future.length).find? fun index =>
        (d.blocks[index]?).any fun block =>
          block.node == node && block.fits r.rounded r.alignment) := by
  have length : d.blocks.length - start = c.blocks.length - start + future.length := by
    rw [follows.blocks, List.length_append, List.length_map]
    omega
  have split : List.range' start (d.blocks.length - start) =
      List.range' start (c.blocks.length - start) ++ List.range' c.blocks.length future.length := by
    rw [length, ← List.range'_append_1]
    congr
    omega
  unfold Chain.candidate?
  rw [split, List.find?_append]
  congr 1
  apply List.find?_congr
  intro index member
  have below := List.mem_range'_1.1 member
  rw [follows.getElem?_eq (by omega)]

/-- Where the one chain finds nothing and maps a block, the other finds that block. -/
theorem located {region : Region} {start : Nat} (follows : Follows (region :: future) c d)
    (within : start ≤ c.blocks.length) (none : c.candidate? start node r = none)
    (same : region.node = node)
    (fits : (Block.ofRegion region).take? r.rounded r.alignment = some taken) :
    d.candidate? start node r = some c.blocks.length := by
  have there : d.blocks[c.blocks.length]? = some (.ofRegion region) := by
    rw [follows.blocks, List.getElem?_append_right (Nat.le_refl _), Nat.sub_self]
    rfl
  rw [follows.candidate? within, none, Option.none_or, List.length_cons, List.range'_succ]
  refine List.find?_cons_of_pos ((Option.any_eq_true _ _).2 ⟨_, there, ?_⟩)
  rw [Bool.and_eq_true, beq_iff_eq]
  exact ⟨same, Block.fits_of_take? fits⟩

end Follows

theorem Settled.took (settled : c.Settled) (found : c.blocks[index]? = some block)
    (fits : block.take? r.rounded r.alignment = some taken) : (c.took index r taken).Settled where
  inside here := by
    rw [Chain.took, List.length_set]
    exact settled.inside here
  present none := by
    rw [nodes, took_regions found fits]
    exact settled.present none

/-- A block of a node becomes current, and all other nodes keep theirs. -/
theorem Settled.advance
    (inside : ∀ {other place}, c.current other = some place → place < c.blocks.length)
    (present : ∀ {other}, other ≠ node → c.current other = none → other ∉ c.nodes)
    (below : index < c.blocks.length) : (c.advance node index).Settled where
  inside {other place} here := by
    simp only [Chain.advance] at here
    split at here
    · cases here
      exact below
    · exact inside here
  present {other} none := by
    simp only [Chain.advance] at none
    split at none
    · cases none
    · next different => exact present different none

/-- A block that was mapped for a node becomes current. -/
theorem Settled.joined {region : Region} (settled : c.Settled) (same : region.node = node) :
    ((c.joined region).advance node c.blocks.length).Settled := by
  have within : c.blocks.length < (c.joined region).blocks.length := by simp [Chain.joined]
  refine .advance (fun busy => Nat.lt_trans (settled.inside busy) within)
    (fun different idle => ?_) within
  rw [nodes, joined_regions, List.map_append, List.mem_append, List.map_singleton,
    List.mem_singleton, not_or, same]
  exact ⟨settled.present idle, different⟩

/-- What the one chain grants, the other grants too, from blocks that it has. -/
theorem Follows.grants (follows : Follows (new ++ future) c d) (settled : c.Settled)
    (grants : Grants r c new placement next) :
    ∃ again, Grants r d [] placement again ∧ Follows future next again ∧ next.Settled := by
  have target := follows.target_eq r
  cases grants with
  | @current index address _ here some =>
    obtain ⟨block, taken, found, fits, rfl, rfl⟩ := takeFrom?_eq_some some
    have also : d.current (d.target r) = .some index := by
      rw [target, follows.current, here, Option.some_or]
    have there := (follows.getElem?_eq (settled.inside here)).trans found
    rw [← target]
    exact ⟨d.took index r taken, .current also (takeFrom?_of_take? there fits),
      follows.took found fits, settled.took found fits⟩
  | @later index _ _ none found served =>
    obtain ⟨block, taken, there, fits, rfl, rfl⟩ := serveFrom_eq_ok served
    obtain ⟨within, present⟩ := candidate?_eq_some found
    cases here : c.current (c.target r) with
    -- A node that has a block has a current one, so the search began behind that in both chains.
    | none => exact absurd present (settled.present here)
    | some current =>
      have inside := settled.inside here
      rw [here, Option.elim_some] at found
      have located : d.candidate? (current + 1) (c.target r) r = some index := by
        rw [follows.candidate? inside, found, Option.some_or]
      have also := (follows.getElem?_eq within).trans there
      exact ⟨(d.advance (c.target r) index).took index r taken,
        follows.search here inside none located also fits,
        (follows.advance here inside index).took there fits,
        (Settled.advance settled.inside (fun _ => settled.present) within).took there fits⟩
  | @mapped region _ _ none lost node served =>
    obtain ⟨block, taken, there, fits, rfl, rfl⟩ := serveFrom_eq_ok served
    have behind := follows.joined
    have within : c.blocks.length < (c.joined region).blocks.length := by simp [Chain.joined]
    have also := (behind.getElem?_eq within).trans there
    have settles := (settled.joined node).took there fits
    -- The block mapped here is current in `d` already if it is the first of its node. If not, `d` has
    -- still the old one, and searches just when `c` does.
    cases here : c.current (c.target r) with
    | none =>
      have current : d.current (c.target r) = some c.blocks.length := by
        rw [follows.current, here, Option.none_or]
        exact follows.firstOf? (settled.present here) node
      refine ⟨d.took c.blocks.length r taken, ?_, (behind.settle here current).took there fits,
        settles⟩
      rw [← target] at current ⊢
      exact .current current (takeFrom?_of_take? also fits)
    | some current =>
      have inside := settled.inside here
      rw [here, Option.elim_some] at lost
      obtain rfl : block = .ofRegion region := by
        rw [Chain.joined, List.getElem?_concat_length] at there
        exact (Option.some.inj there).symm
      have located := follows.located inside lost node fits
      exact ⟨(d.advance (c.target r) c.blocks.length).took c.blocks.length r taken,
        follows.search here inside none located also fits,
        (behind.advance here (Nat.lt_trans inside within) c.blocks.length).took there fits,
        settles⟩

/-- What is granted adds to the regions what was mapped for it. -/
theorem Grants.grows (grants : Grants r c new placement next) :
    next.regions = c.regions ++ new ∧ next.preferred = c.preferred := by
  cases grants with
  | current here some =>
    obtain ⟨block, taken, found, fits, -, rfl⟩ := takeFrom?_eq_some some
    rw [took_regions found fits, List.append_nil]
    exact ⟨rfl, rfl⟩
  | @later index _ _ none found served =>
    obtain ⟨block, taken, there, fits, -, rfl⟩ := serveFrom_eq_ok served
    have still : (c.advance (c.target r) index).blocks[index]? = some block := there
    rw [took_regions still fits, List.append_nil]
    exact ⟨rfl, rfl⟩
  | @mapped region _ _ none lost node served =>
    obtain ⟨block, taken, there, fits, -, rfl⟩ := serveFrom_eq_ok served
    have still : ((c.joined region).advance (c.target r) c.blocks.length).blocks[c.blocks.length]? =
      some block := there
    rw [took_regions still fits]
    exact ⟨joined_regions c region, rfl⟩

theorem Yields.grows (yields : Yields os blockSize c transcript last) :
    ∃ future, last.regions = c.regions ++ future ∧ last.preferred = c.preferred := by
  induction yields with
  | nil c => exact ⟨[], (List.append_nil _).symm, rfl⟩
  | cons served _ ih =>
    obtain ⟨new, grants⟩ := grants_of_allocate served
    obtain ⟨regions, preferred⟩ := grants.grows
    obtain ⟨future, more, same⟩ := ih
    exact ⟨new ++ future, by rw [more, regions, List.append_assoc], same.trans preferred⟩

/-- The chain that follows serves all requests again, and maps nothing. -/
theorem Follows.repeats (follows : Follows future c d) (settled : c.Settled)
    (yields : Yields os blockSize c transcript last)
    (mapped : last.regions = c.regions ++ future) :
    ∃ again, Repeats os blockSize d transcript again ∧ Follows [] last again ∧ last.Settled := by
  induction yields generalizing d future with
  | nil c =>
    cases List.self_eq_append_right.1 mapped
    exact ⟨d, .nil d, follows, settled⟩
  | cons served rest ih =>
    obtain ⟨new, grants⟩ := grants_of_allocate served
    obtain ⟨later, more, -⟩ := rest.grows
    rw [more, grants.grows.1, List.append_assoc, List.append_cancel_left_eq] at mapped
    subst mapped
    obtain ⟨between, granted, behind, good⟩ := follows.grants settled grants
    obtain ⟨again, repeats, ends⟩ := ih behind good more
    exact ⟨again, .cons (granted.allocate os blockSize) repeats, ends⟩

/-- All bytes of the blocks are there to be taken, first those of the first block of each node. -/
theorem Begins.spec (begins : c.Begins) :
    c.blocks = c.regions.map Block.ofRegion ∧ c.current = c.firstOf? ∧
      c.tally.bytesUsed = 0 ∧ c.tally.wastedBytes = 0 := by
  cases begins with
  | created preferred => exact ⟨rfl, rfl, rfl, rfl⟩
  | reset c =>
    refine ⟨?_, ?_, rfl, rfl⟩
    · rw [reset_regions, regions, List.map_map]
      rfl
    · funext node
      rw [firstOf?, nodes, reset_regions, regions, List.map_map, List.findIdx?_map]
      rfl

theorem Begins.settled (begins : c.Begins) : c.Settled := by
  obtain ⟨-, current, -⟩ := begins.spec
  refine ⟨fun {node index} here => ?_, fun {node} none => ?_⟩
  · rw [current] at here
    obtain ⟨inside, -⟩ := List.findIdx?_eq_some_iff_getElem.1 here
    exact c.length_nodes ▸ inside
  · rw [current] at none
    exact firstOf?_eq_none_iff.1 none

/-- Once it is reset, a chain follows itself from where it began. -/
theorem Begins.follows (begins : c.Begins) (mapped : last.regions = c.regions ++ future)
    (preferred : last.preferred = c.preferred) : Follows future c last.reset := by
  obtain ⟨blocks, current, used, wasted⟩ := begins.spec
  obtain ⟨rewound, first, -⟩ := (Begins.reset last).spec
  refine ⟨preferred, ?_, fun node => ?_, used.symm, wasted.symm⟩
  · rw [rewound, reset_regions, mapped, List.map_append, ← blocks]
  · rw [first, current, firstOf?, firstOf?, nodes, reset_regions, mapped, List.map_append,
      List.findIdx?_append, ← nodes]
    cases List.findIdx? (· == node) c.nodes <;> rfl

/-- What a chain has served since it was made or reset, it serves again after the next reset, at the
same addresses, whatever the supply; and then it stands where it stood. -/
theorem Begins.replay (begins : c.Begins) (yields : Yields os blockSize c transcript last) :
    ∃ again, Repeats os blockSize last.reset transcript again ∧
      again.blocks = last.blocks ∧ again.current = last.current ∧
      again.tally.bytesUsed = last.tally.bytesUsed ∧
      again.tally.wastedBytes = last.tally.wastedBytes := by
  obtain ⟨future, mapped, preferred⟩ := yields.grows
  obtain ⟨again, repeats, ends, settled⟩ :=
    (begins.follows mapped preferred).repeats begins.settled yields mapped
  have blocks : again.blocks = last.blocks := ends.blocks.trans (List.append_nil _)
  refine ⟨again, repeats, blocks, funext fun node => ?_, ends.used, ends.wasted⟩
  rw [ends.current]
  cases here : last.current node with
  | some index => rfl
  | none =>
    rw [Option.none_or, firstOf?_eq_none_iff, nodes, regions, blocks]
    exact settled.present here

end Chain

end NumaHeap.Arena
