import NumaHeap.Proofs.Arena.Replay
import NumaHeap.Proofs.Platform.Watched

/-!
Chains as seen from their blocks. Padding, the choice of a block and the length of a new one depend on
how far the blocks are used and not on where they were mapped. A chain whose blocks are all moved to
zero therefore does the same as the chain itself, on a machine that maps everything at zero; what it
answers is the offset in the block that serves the request.
-/

namespace NumaHeap

variable {σ : Type}

/-- The region as if it were mapped at zero. -/
def Region.rebase (r : Region) : Region := { r with start := 0 }

/-- Maps everything at zero, with the pages and the nodes of another platform. -/
def Platform.anywhere (os : Platform σ) (available : Bool) : Platform Unit where
  pageSize := os.pageSize
  hugePageSize := os.hugePageSize
  topology := os.topology
  hugePagesAvailable _ := available
  currentCpu? _ _ := none
  now _ := 0
  map _ _ _ := (.ok 0, ())
  unmap _ _ _ := ()
  bind _ _ _ _ := (.ok (), ())
  bindThread _ _ _ := (.ok (), ())

/-- A supply on such a platform. -/
def Supply.anywhere (hugePages : Bool) : Supply Unit where
  mapper := { hugePages, numaAware := false }
  machine := ⟨(), .zeros⟩

namespace Supply

variable {os : Platform σ} {s : Supply (Watched σ)} {available : Bool} {length node : Nat}

theorem map_anywhere (os : Platform σ) (available hugePages : Bool) (length node : Nat) :
    ((anywhere hugePages).map (os.anywhere available) length node).1 =
      match os.pageSize.roundUp? length with
      | none => .error .outOfMemory
      | some rounded =>
        .ok ((anywhere hugePages).offer (os.anywhere available) rounded node 0) := by
  unfold map offer mapRounded
  change (match os.pageSize.roundUp? length with | none => _ | some _ => _ :
    Except MapError Region × Supply Unit).1 = _
  cases os.pageSize.roundUp? length with
  | none => rfl
  | some rounded =>
    dsimp only
    cases (anywhere hugePages).hugeLength? (os.anywhere available) rounded with
    | none => rfl
    | some hugeLength => rfl

/-- What is offered differs in its start only. -/
theorem offer_anywhere (on : os.hugePagesAvailable s.machine.system.system = available)
    (rounded node start : Nat) :
    (anywhere s.mapper.hugePages).offer (os.anywhere available) rounded node 0 =
      (s.offer os.watched rounded node start).rebase := by
  have same : (anywhere s.mapper.hugePages).hugeLength? (os.anywhere available) rounded =
      s.hugeLength? os.watched rounded := by
    rw [← on]
    rfl
  unfold offer
  rw [same]
  cases s.hugeLength? os.watched rounded with
  | none => rfl
  | some hugeLength => rfl

/-- Where nothing is refused, the same is mapped as if everything were mapped at zero. -/
theorem map_rebase {answer : Except MapError Region} {after : Supply (Watched σ)}
    (mapped : s.map os.watched length node = (answer, after))
    (granted : after.machine.system.refusals = s.machine.system.refusals)
    (on : os.hugePagesAvailable s.machine.system.system = available) :
    ((anywhere s.mapper.hugePages).map (os.anywhere available) length node).1 =
      answer.map Region.rebase := by
  obtain ⟨start, rfl⟩ := map_watched mapped granted
  rw [map_anywhere]
  cases os.pageSize.roundUp? length with
  | none => rfl
  | some rounded => exact congrArg Except.ok (offer_anywhere on rounded node start)

end Supply

namespace Arena

namespace Block

/-- The block as if it were mapped at zero. -/
def rebase (b : Block) : Block := ⟨b.region.rebase, b.cursor - b.region.start⟩

/-- What was taken, as seen from the start of the block. -/
def Taken.rebase (start : Nat) (t : Taken) : Taken :=
  ⟨t.address - start, t.padding, t.block.rebase⟩

variable {b : Block} {page alignment : PowerOfTwo} {size : Nat}

/-- The region starts on a page and ends with the addresses. -/
def Placed (page : PowerOfTwo) (region : Region) : Prop :=
  page.value ∣ region.start ∧ region.stop ≤ Word.bound

theorem rebase_ofRegion (region : Region) : (ofRegion region).rebase = ofRegion region.rebase := by
  rw [rebase, ofRegion, Nat.sub_self]
  rfl

theorem available_rebase (sound : b.Sound) : b.rebase.available = b.available := by
  obtain ⟨above, below⟩ := sound
  simp only [available, rebase, Region.rebase, Region.stop] at below ⊢
  omega

/-- The start of the block does not show in the padding, being a multiple of the alignment. -/
theorem padding_rebase (sound : b.Sound) (placed : Placed page b.region)
    (small : alignment.value ≤ page.value) :
    alignment.padding b.rebase.cursor = alignment.padding b.cursor := by
  obtain ⟨above, below⟩ := sound
  obtain ⟨aligned, within⟩ := placed
  obtain ⟨count, start⟩ := Nat.dvd_trans (PowerOfTwo.value_dvd_of_value_le small) aligned
  have apart : Word.bound - b.rebase.cursor = Word.bound - b.cursor + alignment.value * count := by
    simp only [rebase]
    omega
  rw [PowerOfTwo.padding_eq, PowerOfTwo.padding_eq, apart, Nat.add_mul_mod_self_left]

theorem fits_rebase (sound : b.Sound) (placed : Placed page b.region)
    (small : alignment.value ≤ page.value) (size : Nat) :
    b.rebase.fits size alignment = b.fits size alignment := by
  rw [fits, padding_rebase sound placed small, available_rebase sound, fits]

theorem take?_rebase (sound : b.Sound) (placed : Placed page b.region)
    (small : alignment.value ≤ page.value) (size : Nat) :
    b.rebase.take? size alignment =
      (b.take? size alignment).map (Taken.rebase b.region.start) := by
  have address : b.rebase.cursor + alignment.padding b.cursor =
      b.cursor + alignment.padding b.cursor - b.region.start := by
    have above := sound.1
    simp only [rebase]
    omega
  have cursor : b.rebase.cursor + alignment.padding b.cursor + size =
      b.cursor + alignment.padding b.cursor + size - b.region.start := by
    have above := sound.1
    simp only [rebase]
    omega
  unfold take?
  rw [fits_rebase sound placed small, padding_rebase sound placed small]
  split
  · simp only [cursor]
    rw [address]
    rfl
  · rfl

end Block

namespace Chain

/-- The chain as if all blocks were mapped at zero. -/
def rebase (c : Chain) : Chain := { c with blocks := c.blocks.map Block.rebase }

/-- Where the block at a position starts. -/
def startOf (c : Chain) (index : Nat) : Nat := (c.blocks[index]?).elim 0 (·.region.start)

/-- What was served from the current block of a node, as seen from the start of that block. -/
def offset (c : Chain) (placement : Placement) : Placement :=
  ⟨placement.address - (c.current placement.node).elim 0 c.startOf, placement.node⟩

/-- All cursors lie within their blocks, which start on a page and end with the addresses. -/
structure Placed (page : PowerOfTwo) (c : Chain) : Prop where
  cursors : ∀ block ∈ c.blocks, block.Sound
  regions : ∀ block ∈ c.blocks, Block.Placed page block.region

variable {os : Platform σ} {blockSize page : PowerOfTwo} {c next : Chain} {r : Request}
  {index node : Nat} {answer : Except AllocError Placement} {available : Bool}

theorem rebase_blocks (c : Chain) (index : Nat) :
    c.rebase.blocks[index]? = (c.blocks[index]?).map Block.rebase := List.getElem?_map

theorem takeFrom?_rebase (placed : c.Placed page) (small : r.alignment.value ≤ page.value)
    (index : Nat) :
    c.rebase.takeFrom? index r =
      (c.takeFrom? index r).map fun (address, next) => (address - c.startOf index, next.rebase) := by
  simp only [takeFrom?, bind, pure, rebase_blocks, startOf]
  cases found : c.blocks[index]? with
  | none => rfl
  | some block =>
    have member := List.mem_of_getElem? found
    simp only [Option.map_some, Option.bind_some,
      Block.take?_rebase (placed.cursors block member) (placed.regions block member) small]
    cases block.take? r.rounded r.alignment with
    | none => rfl
    | some taken =>
      simp only [Option.map_some, Option.bind_some, rebase, List.map_set]
      rfl

theorem candidate?_rebase (placed : c.Placed page) (small : r.alignment.value ≤ page.value)
    (start node : Nat) : c.rebase.candidate? start node r = c.candidate? start node r := by
  have suits : (fun index : Nat => (c.rebase.blocks[index]?).any fun block : Block =>
      block.node == node && block.fits r.rounded r.alignment) =
        fun index : Nat => (c.blocks[index]?).any fun block : Block =>
          block.node == node && block.fits r.rounded r.alignment := by
    funext index
    rw [rebase_blocks]
    cases found : c.blocks[index]? with
    | none => rfl
    | some block =>
      have member := List.mem_of_getElem? found
      rw [Option.map_some, Option.any_some, Option.any_some,
        Block.fits_rebase (placed.cursors block member) (placed.regions block member) small]
      rfl
  have length : c.rebase.blocks.length = c.blocks.length := List.length_map ..
  rw [candidate?, suits, length, candidate?]

theorem advance_rebase (placed : c.Placed page) (node index : Nat) :
    c.rebase.advance node index = (c.advance node index).rebase := by
  have tally : (c.rebase.advance node index).tally = (c.advance node index).tally := by
    have current : c.rebase.current node = c.current node := rfl
    unfold advance
    rw [current]
    cases c.current node with
    | none => rfl
    | some index =>
      rw [Option.bind_some, Option.bind_some, rebase_blocks]
      cases found : c.blocks[index]? with
      | none => rfl
      | some block =>
        have sound := placed.cursors block (List.mem_of_getElem? found)
        exact congrArg c.tally.abandon (Block.available_rebase sound)
  exact congrArg (fun tally => { (c.advance node index).rebase with tally }) tally

theorem startOf_eq (c : Chain) (index : Nat) :
    c.startOf index = (c.regions[index]?).elim 0 (·.start) := by
  rw [startOf, regions, List.getElem?_map]
  cases c.blocks[index]? <;> rfl

theorem startOf_took {block : Block} {taken : Block.Taken} (found : c.blocks[index]? = some block)
    (fits : block.take? r.rounded r.alignment = some taken) (other : Nat) :
    (c.took index r taken).startOf other = c.startOf other := by
  rw [startOf_eq, took_regions found fits, startOf_eq]

theorem serveFrom_rebase (placed : c.Placed page) (small : r.alignment.value ≤ page.value)
    (served : c.serveFrom node index r = (answer, next)) :
    c.rebase.serveFrom node index r = (answer.map next.offset, next.rebase) := by
  have moved : (c.advance node index).Placed page := ⟨placed.cursors, placed.regions⟩
  unfold serveFrom at served ⊢
  dsimp only at served ⊢
  rw [advance_rebase placed, takeFrom?_rebase moved small]
  cases took : (c.advance node index).takeFrom? index r with
  | none =>
    simp only [took] at served
    cases served
    rfl
  | some result =>
    obtain ⟨address, last⟩ := result
    simp only [took] at served
    cases served
    obtain ⟨block, taken, found, fits, rfl, rfl⟩ := takeFrom?_eq_some took
    have start := startOf_took found fits index
    have current : ((c.advance node index).took index r taken).current node = some index :=
      if_pos rfl
    simp only [Option.map_some, Except.map, offset, current, Option.elim_some, start]

/-- A new block is as long as if everything were mapped at zero. -/
theorem extend_rebase {s supply : Supply (Watched σ)} {rounded : Nat}
    {extension : Except AllocError Chain}
    (extended : c.extend os.watched blockSize s rounded node = (extension, supply))
    (granted : supply.machine.system.refusals = s.machine.system.refusals)
    (on : os.hugePagesAvailable s.machine.system.system = available) :
    (c.rebase.extend (os.anywhere available) blockSize (.anywhere s.mapper.hugePages) rounded
      node).1 = extension.map rebase := by
  unfold extend at extended ⊢
  cases enough : blockLength? blockSize rounded with
  | none =>
    rw [enough] at extended
    cases extended
    rfl
  | some length =>
    simp only [enough] at extended
    cases mapped : s.map os.watched length node with
    | mk result middle =>
      rw [mapped] at extended
      have same : middle.machine.system.refusals = s.machine.system.refusals := by
        cases result <;> cases extended <;> exact granted
      have offered := Supply.map_rebase mapped same on
      cases again : (Supply.anywhere s.mapper.hugePages).map (os.anywhere available) length node with
      | mk answer state =>
        rw [again] at offered
        subst offered
        cases result with
        | error cause =>
          cases extended
          simp only [again]
          rfl
        | ok region =>
          cases extended
          simp only [again, Except.map, rebase, List.map_append, List.map_singleton,
            Block.rebase_ofRegion]
          rfl

theorem joined_sound (sound : c.Sound) (region : Region) :
    ∀ block ∈ (c.joined region).blocks, block.Sound := by
  have extended : ∀ block ∈ c.blocks ++ [region].map Block.ofRegion, block.Sound :=
    Answers.extended sound
  exact extended

/-- A longer chain has the regions that it has after it served a request. -/
theorem placed_of_extend {s middle : Supply σ} {larger : Chain} {rounded : Nat} (sound : c.Sound)
    (extended : c.extend os blockSize s rounded node = (.ok larger, middle))
    (served : larger.serveFrom node index r = (answer, next))
    (regions : ∀ region ∈ next.regions, Block.Placed page region) : larger.Placed page := by
  obtain ⟨region, -, -, blocks, -⟩ := (extend_spec extended).1 larger rfl
  have cursors : ∀ block ∈ larger.blocks, block.Sound := by
    rw [blocks]
    exact joined_sound sound region
  have kept : next.regions = larger.regions := (serveFrom_spec served).1.regions cursors
  exact ⟨cursors, fun block member => regions _ (kept ▸ List.mem_map_of_mem member)⟩

/-- What the current block of a node gives is as far into it as before. -/
theorem takeCurrent_rebase (placed : c.Placed page) (small : r.alignment.value ≤ page.value)
    (node : Nat) :
    (c.current node).bind (c.rebase.takeFrom? · r) =
      ((c.current node).bind (c.takeFrom? · r)).map fun (address, next) =>
        (address - (c.current node).elim 0 c.startOf, next.rebase) := by
  cases c.current node with
  | none => rfl
  | some index => exact takeFrom?_rebase placed small index

/-- A chain serves a request as it does with all blocks at zero. -/
theorem allocate_rebase {s supply : Supply (Watched σ)} (sound : c.Sound)
    (served : c.allocate os.watched blockSize s r = (answer, next, supply))
    (granted : supply.machine.system.refusals = s.machine.system.refusals)
    (on : os.hugePagesAvailable s.machine.system.system = available)
    (small : r.alignment.value ≤ os.pageSize.value)
    (regions : ∀ region ∈ next.regions, Block.Placed os.pageSize region) :
    ∃ state, c.rebase.allocate (os.anywhere available) blockSize (.anywhere s.mapper.hugePages) r =
      (answer.map next.offset, next.rebase, state) := by
  obtain ⟨new, answers⟩ := allocate_spec served
  have grown := answers.regions sound
  have placed : c.Placed os.pageSize :=
    ⟨sound.cursors, fun block member => regions _ (grown ▸ List.mem_append_left _
      (List.mem_map_of_mem member))⟩
  obtain ⟨node, target⟩ : ∃ node, r.node.getD c.preferred = node := ⟨_, rfl⟩
  have preferred : r.node.getD c.rebase.preferred = node := target
  have current : c.rebase.current = c.current := rfl
  have length : c.rebase.blocks.length = c.blocks.length := List.length_map ..
  simp only [allocate, target] at served
  simp only [allocate, preferred, current, length, takeCurrent_rebase placed small,
    candidate?_rebase placed small]
  cases first : (c.current node).bind (c.takeFrom? · r) with
  | some result =>
    obtain ⟨address, last⟩ := result
    simp only [first] at served
    cases served
    obtain ⟨index, here, some⟩ := Option.bind_eq_some_iff.1 first
    obtain ⟨block, taken, found, fits, rfl, rfl⟩ := takeFrom?_eq_some some
    have still : (c.took index r taken).current node = .some index := here
    simp only [Option.map_some, Except.map, offset, still, here, Option.elim_some,
      startOf_took found fits]
    exact ⟨_, rfl⟩
  | none =>
    simp only [first] at served
    cases search : c.candidate? ((c.current node).elim 0 (· + 1)) node r with
    | some index =>
      simp only [search] at served
      cases result : c.serveFrom node index r with
      | mk found last =>
        rw [result] at served
        cases served
        simp only [Option.map_none, serveFrom_rebase placed small result]
        exact ⟨_, rfl⟩
    | none =>
      simp only [search] at served
      cases extended : c.extend os.watched blockSize s r.rounded node with
      | mk extension middle =>
        cases again : c.rebase.extend (os.anywhere available) blockSize
            (.anywhere s.mapper.hugePages) r.rounded node with
        | mk extended' state =>
          have same : middle = supply := by
            rw [extended] at served
            cases extension <;> cases served <;> rfl
          subst same
          have rebased := extend_rebase extended granted on
          rw [again] at rebased
          subst rebased
          cases extension with
          | error cause =>
            rw [extended] at served
            cases served
            simp only [Option.map_none]
            exact ⟨_, rfl⟩
          | ok larger =>
            cases result : larger.serveFrom node c.blocks.length r with
            | mk found last =>
              simp only [extended, result] at served
              cases served
              have good := placed_of_extend sound extended result regions
              simp only [Option.map_none, Except.map, serveFrom_rebase good small result]
              exact ⟨_, rfl⟩

theorem reset_rebase (c : Chain) : c.rebase.reset = c.reset.rebase := by
  have blocks : (c.blocks.map Block.rebase).map Block.rewind =
      (c.blocks.map Block.rewind).map Block.rebase := by
    rw [List.map_map, List.map_map]
    refine List.map_congr_left fun block _ => ?_
    simp only [Function.comp_apply, Block.rebase, Block.rewind, Region.rebase, Nat.sub_self]
  have current : (fun node => (c.blocks.map Block.rebase).findIdx? (·.node == node)) =
      fun node => c.blocks.findIdx? (·.node == node) := by
    funext node
    rw [List.findIdx?_map]
    rfl
  simp only [reset, rebase, blocks, current]

theorem took_holds {block : Block} {taken : Block.Taken} (sound : block.Sound)
    (found : c.blocks[index]? = some block) (fits : block.take? r.rounded r.alignment = some taken)
    (positive : 0 < r.rounded) :
    ∃ last, (c.took index r taken).blocks[index]? = some last ∧
      last.region.extent.Holds taken.address := by
  obtain ⟨region, -, above, below⟩ := Block.take?_spec sound fits
  have inside := (List.getElem?_eq_some_iff.1 found).1
  refine ⟨taken.block, List.getElem?_set_self inside, ?_⟩
  rw [region]
  exact ⟨Nat.le_trans sound.1 above, Nat.lt_of_lt_of_le (by omega) below⟩

/-- What is served lies in the block that is then the current one of its node. -/
theorem allocate_holds {s supply : Supply σ} {placement : Placement} (sound : c.Sound)
    (served : c.allocate os blockSize s r = (.ok placement, next, supply))
    (positive : 0 < r.rounded) :
    ∃ index block, next.current placement.node = some index ∧
      next.blocks[index]? = some block ∧ block.region.extent.Holds placement.address := by
  obtain ⟨new, grants⟩ := grants_of_allocate served
  cases grants with
  | @current index _ _ here some =>
    obtain ⟨block, taken, found, fits, rfl, rfl⟩ := takeFrom?_eq_some some
    have good := sound.cursors block (List.mem_of_getElem? found)
    obtain ⟨last, there, holds⟩ := took_holds good found fits positive
    exact ⟨index, last, here, there, holds⟩
  | @later index _ _ none search answered =>
    obtain ⟨block, taken, found, fits, rfl, rfl⟩ := serveFrom_eq_ok answered
    have good := sound.cursors block (List.mem_of_getElem? found)
    obtain ⟨last, there, holds⟩ := took_holds (c := c.advance _ index) good found fits positive
    exact ⟨index, last, if_pos rfl, there, holds⟩
  | @mapped region _ _ none lost node answered =>
    obtain ⟨block, taken, found, fits, rfl, rfl⟩ := serveFrom_eq_ok answered
    have good := joined_sound sound region block (List.mem_of_getElem? found)
    obtain ⟨last, there, holds⟩ :=
      took_holds (c := (c.joined region).advance _ c.blocks.length) good found fits positive
    exact ⟨c.blocks.length, last, if_pos rfl, there, holds⟩

end Chain

end Arena

end NumaHeap
