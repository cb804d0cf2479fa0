import NumaHeap.Proofs.Arena.Turns
import NumaHeap.Proofs.Parts

/-!
The bytes that a chain counts as used. With every request that it serves they are what is taken from
the block that is current then, and what was left of the one that was current before. No byte is among
them twice until the chain is reset: a cursor never goes back, and a block that was left behind is not
used again.
-/

namespace NumaHeap

/-- The addresses of a range. -/
def Extent.addresses (e : Extent) : List Nat := List.range' e.start e.length

/-- Ranges that are apart are no more bytes than the regions in which they lie. -/
theorem Extent.total_le {ranges : List Extent} {regions : List Region}
    (apart : ranges.Pairwise Extent.Apart)
    (within : ∀ e ∈ ranges, ∃ region ∈ regions, e.Within region.extent) :
    (ranges.map (·.length)).sum ≤ Region.total regions := by
  -- Counted by addresses: no two ranges share one, and each is an address of some region.
  have once : (ranges.flatMap addresses).Nodup := by
    refine List.nodup_flatMap.2 ⟨fun _ _ => List.nodup_range', apart.imp ?_⟩
    intro e f apart address first second
    exact apart.not_holds (List.mem_range'_1.1 first) (List.mem_range'_1.1 second)
  have inside : ranges.flatMap addresses ⊆ regions.flatMap (·.extent.addresses) := by
    intro address member
    obtain ⟨e, there, here⟩ := List.mem_flatMap.1 member
    obtain ⟨region, known, inner⟩ := within e there
    exact List.mem_flatMap.2 ⟨region, known,
      List.mem_range'_1.2 (inner.holds (List.mem_range'_1.1 here))⟩
  have few := (List.subperm_of_subset once inside).length_le
  simpa [addresses, List.length_flatMap, Region.total, Region.extent] using few

namespace Arena

variable {σ : Type} {os : Platform σ} {contract : os.Contract} {blockSize : PowerOfTwo}

namespace Chain

/-- What was left of the current block of a node, if another one has become current. -/
def left (c next : Chain) (node : Nat) : List Extent :=
  match (c.current node).bind (c.blocks[·]?) with
  | none => []
  | some block =>
    if next.current node = c.current node then [] else [⟨block.cursor, block.available⟩]

/-- What was taken from the block of a node that is current now. A block that was not there before
has been taken from its start. -/
def drawn (c next : Chain) (node : Nat) : List Extent :=
  match next.current node with
  | none => []
  | some index =>
    (next.blocks[index]?).elim [] fun block =>
      let before := (c.blocks[index]?).elim block.region.start Block.cursor
      [⟨before, block.cursor - before⟩]

/-- The bytes for which a request of a node is charged. -/
def charges (c next : Chain) (node : Nat) : List Extent := c.drawn next node ++ c.left next node

/-- The range lies in a block before its cursor, or in a block that was left behind. -/
def Spent (c : Chain) (e : Extent) : Prop :=
  ∃ index block, c.blocks[index]? = some block ∧ block.region.start ≤ e.start ∧
    (e.stop ≤ block.cursor ∨ e.stop ≤ block.region.stop ∧
      ∃ current, c.current block.node = some current ∧ index < current)

/-- The used bytes are those of some ranges that are apart, and all but the sizes that were asked for
are wasted. -/
structure Accounted (c : Chain) (sizes : List Nat) (spent : List Extent) : Prop where
  wasted : c.tally.bytesUsed = c.tally.wastedBytes + sizes.sum
  counted : c.tally.bytesUsed = (spent.map (·.length)).sum
  apart : spent.Pairwise Extent.Apart
  within : ∀ e ∈ spent, c.Spent e

variable {c next : Chain} {s supply : Supply σ} {r : Request} {node index : Nat}
  {block : Block} {taken : Block.Taken} {new : List Region} {sizes : List Nat}
  {spent : List Extent} {placement : Placement} {e : Extent}

theorem Begins.accounted (begins : c.Begins) : c.Accounted [] [] := by
  obtain ⟨-, -, used, wasted⟩ := begins.spec
  exact ⟨by rw [used, wasted]; rfl, used, .nil, nofun⟩

theorem Spent.within (spent : c.Spent e) (sound : ∀ block ∈ c.blocks, block.Sound) :
    ∃ region ∈ c.regions, e.Within region.extent := by
  obtain ⟨index, block, found, above, below⟩ := spent
  have member := List.mem_of_getElem? found
  refine ⟨block.region, List.mem_map_of_mem member, above, ?_⟩
  rcases below with below | ⟨below, -⟩
  · exact Nat.le_trans below (sound block member).2
  · exact below

/-- What lies in a block from its cursor on is apart from all that is spent, as long as the block was
not left behind. -/
theorem Spent.apart (spent : c.Spent e) (sound : ∀ block ∈ c.blocks, block.Sound)
    (regions : c.regions.Pairwise Region.Apart) (here : c.current node = some index)
    (found : c.blocks[index]? = some block) (own : block.node = node) {rest : Extent}
    (above : block.cursor ≤ rest.start) (below : rest.stop ≤ block.region.stop) :
    rest.Apart e := by
  obtain ⟨place, other, there, start, stop⟩ := spent
  have standing := sound block (List.mem_of_getElem? found)
  have inside := sound other (List.mem_of_getElem? there)
  have inner : rest.Within block.region.extent := ⟨Nat.le_trans standing.1 above, below⟩
  by_cases same : place = index
  · subst same
    cases Option.some.inj (there.symm.trans found)
    rcases stop with stop | ⟨-, current, busy, behind⟩
    · exact .inr (Nat.le_trans stop above)
    · rw [own, here] at busy
      cases busy
      exact absurd behind (Nat.lt_irrefl place)
  · have outer : e.Within other.region.extent := by
      refine ⟨start, ?_⟩
      rcases stop with stop | ⟨stop, -⟩
      · exact Nat.le_trans stop inside.2
      · exact stop
    have apart : block.region.Apart other.region := by
      obtain ⟨oneInside, oneSame⟩ := List.getElem?_eq_some_iff.1 (getElem?_regions found)
      obtain ⟨twoInside, twoSame⟩ := List.getElem?_eq_some_iff.1 (getElem?_regions there)
      rw [← oneSame, ← twoSame]
      rcases Nat.lt_or_gt_of_ne same with before | after
      · exact (List.pairwise_iff_getElem.1 regions place index twoInside oneInside before).symm
      · exact List.pairwise_iff_getElem.1 regions index place oneInside twoInside after
    exact Extent.Apart.mono apart inner outer

/-- What is spent of a chain stays so when a later block becomes current, -/
theorem Spent.advance (spent : c.Spent e) (succeeds : c.Succeeds node index) :
    (c.advance node index).Spent e := by
  obtain ⟨place, block, found, above, below⟩ := spent
  refine ⟨place, block, found, above, below.imp_right fun ⟨stop, current, busy, behind⟩ => ⟨stop, ?_⟩⟩
  by_cases mine : block.node = node
  · rw [mine] at busy ⊢
    exact ⟨index, current_advance_self c node index,
      Nat.lt_trans behind (succeeds.previous busy).1⟩
  · exact ⟨current, (current_advance_of_ne mine).trans busy, behind⟩

/-- when a block is added, -/
theorem Spent.joined {region : Region} (spent : c.Spent e) : (c.joined region).Spent e := by
  obtain ⟨place, block, found, rest⟩ := spent
  have inside := (List.getElem?_eq_some_iff.1 found).1
  exact ⟨place, block, (getElem?_joined inside).trans found, rest⟩

/-- and when more is taken from a block. -/
theorem Spent.took (spent : c.Spent e) (found : c.blocks[index]? = some block)
    (fits : block.take? r.rounded r.alignment = some taken)
    (further : block.cursor ≤ taken.block.cursor) : (c.took index r taken).Spent e := by
  have region := Block.take?_region fits
  obtain ⟨place, other, there, above, below⟩ := spent
  by_cases same : index = place
  · subst same
    cases Option.some.inj (there.symm.trans found)
    refine ⟨index, taken.block, getElem?_took found, region ▸ above, ?_⟩
    rw [Block.node, region]
    exact below.imp_left fun stop => Nat.le_trans stop further
  · exact ⟨place, other, (getElem?_took_of_ne same).trans there, above, below⟩

/-- What was left of a block that is not current any more is spent. -/
theorem Accounted.advance (accounted : c.Accounted sizes spent)
    (regions : c.regions.Pairwise Region.Apart) (succeeds : c.Succeeds node index) :
    (c.advance node index).Accounted sizes (c.left (c.advance node index) node ++ spent) := by
  have moved := current_advance_self c node index
  cases here : c.current node with
  | none =>
    have left : c.left (c.advance node index) node = [] := by simp only [left, here, Option.bind_none]
    have same : (c.advance node index).tally = c.tally := by
      simp only [Chain.advance, here, Option.bind_none]
    rw [left]
    exact ⟨same ▸ accounted.wasted, same ▸ accounted.counted, accounted.apart,
      fun e member => (accounted.within e member).advance succeeds⟩
  | some old =>
    obtain ⟨behind, previous, there, own⟩ := succeeds.previous here
    obtain ⟨above, below⟩ := succeeds.sound previous (List.mem_of_getElem? there)
    have changed : ¬some index = some old :=
      fun same => Nat.lt_irrefl old (Option.some.inj same ▸ behind)
    have left : c.left (c.advance node index) node = [⟨previous.cursor, previous.available⟩] := by
      simp only [left, here, moved, Option.bind_some, there, if_neg changed]
    have tally : (c.advance node index).tally = c.tally.abandon previous.available := by
      simp only [Chain.advance, here, Option.bind_some, there]
    have stop : Extent.stop ⟨previous.cursor, previous.available⟩ = previous.region.stop :=
      Nat.add_sub_of_le below
    rw [left, List.singleton_append]
    refine ⟨?_, ?_, List.pairwise_cons.2 ⟨fun e member => ?_, accounted.apart⟩,
      List.forall_mem_cons.2 ⟨⟨old, previous, there, above, .inr ⟨Nat.le_of_eq stop, index, ?_, behind⟩⟩,
        fun e member => (accounted.within e member).advance succeeds⟩⟩
    · have known := accounted.wasted
      simp only [tally, Tally.abandon]
      omega
    · have known := accounted.counted
      simp only [tally, Tally.abandon, List.map_cons, List.sum_cons]
      omega
    · exact (accounted.within e member).apart succeeds.sound regions here there own (Nat.le_refl _)
        (Nat.le_of_eq stop)
    · rw [own]
      exact moved

theorem Accounted.joined {region : Region} (accounted : c.Accounted sizes spent) :
    (c.joined region).Accounted sizes spent :=
  ⟨accounted.wasted, accounted.counted, accounted.apart,
    fun e member => (accounted.within e member).joined⟩

/-- Nothing is left behind where the same block stays current. -/
theorem left_self (c : Chain) (node : Nat) : c.left c node = [] := by
  unfold left
  split
  · rfl
  · exact if_pos rfl

theorem Accounted.turned (accounted : c.Accounted sizes spent) (good : c.Good contract s)
    (moves : c.Turns node new next) (regions : next.regions.Pairwise Region.Apart) :
    next.Accounted sizes (c.left next node ++ spent) := by
  rcases good.succeeds moves with ⟨rfl, -⟩ | ⟨d, index, rfl, succeeds, ⟨rfl, -⟩ | ⟨region, rfl, -, rfl⟩⟩
  · rw [left_self]
    exact accounted
  · exact accounted.advance regions succeeds
  -- The block at the end changes nothing about what is left of the one that was current.
  · have current : (c.joined region).current node = c.current node := rfl
    have block : (c.current node).bind ((c.joined region).blocks[·]?) =
        (c.current node).bind (c.blocks[·]?) :=
      Option.bind_congr fun old here => getElem?_joined (good.ordered.inside here)
    have same : (c.joined region).left ((c.joined region).advance node c.blocks.length) node =
        c.left ((c.joined region).advance node c.blocks.length) node := by
      simp only [left, current, block]
    rw [← same]
    exact accounted.joined.advance regions succeeds

/-- What is taken from a current block is spent. -/
theorem Accounted.took (accounted : c.Accounted sizes spent)
    (sound : ∀ block ∈ c.blocks, block.Sound) (regions : c.regions.Pairwise Region.Apart)
    (proper : r.size ≤ r.rounded) (here : c.current node = some index)
    (found : c.blocks[index]? = some block) (own : block.node = node)
    (fits : block.take? r.rounded r.alignment = some taken) :
    (c.took index r taken).Accounted (r.size :: sizes)
      (⟨block.cursor, taken.block.cursor - block.cursor⟩ :: spent) := by
  have standing := sound block (List.mem_of_getElem? found)
  obtain ⟨region, cursor, above, below⟩ := Block.take?_spec standing fits
  have padding : taken.block.cursor - block.cursor = r.rounded + taken.padding := by
    have used := Block.take?_used standing fits
    have lower := standing.1
    unfold Block.used at used
    rw [region] at used
    omega
  have further : block.cursor ≤ taken.block.cursor := by omega
  have stop : Extent.stop ⟨block.cursor, taken.block.cursor - block.cursor⟩ = taken.block.cursor :=
    Nat.add_sub_of_le further
  refine ⟨?_, ?_, List.pairwise_cons.2 ⟨fun e member => ?_, accounted.apart⟩,
    List.forall_mem_cons.2 ⟨⟨index, taken.block, getElem?_took found, region ▸ standing.1,
      .inl (Nat.le_of_eq stop)⟩,
      fun e member => (accounted.within e member).took found fits further⟩⟩
  · have known := accounted.wasted
    simp only [Chain.took, Tally.record, List.sum_cons]
    omega
  · have known := accounted.counted
    simp only [Chain.took, Tally.record, List.map_cons, List.sum_cons]
    omega
  · exact (accounted.within e member).apart sound regions here found own (Nat.le_refl _)
      (by rw [stop]; omega)

/-- A block that is current now has its cursor where it was before, or at its start if it is new. -/
theorem Turns.cursor (moves : c.Turns node new next) (here : next.current node = some index)
    (found : next.blocks[index]? = some block) :
    (c.blocks[index]?).elim block.region.start Block.cursor = block.cursor := by
  cases moves with
  | stays => rw [found, Option.elim_some]
  | later =>
    have there : c.blocks[index]? = some block := found
    rw [there, Option.elim_some]
  | @joined region _ =>
    cases (current_advance_self (c.joined region) node c.blocks.length).symm.trans here
    cases Option.some.inj ((c.getElem?_joined_length region).symm.trans found)
    rw [List.getElem?_eq_none (Nat.le_refl _)]
    rfl

/-- A request is charged for what it takes, and for what it leaves behind. -/
theorem Accounted.allocate (accounted : c.Accounted sizes spent) (good : c.Good contract s)
    (proper : r.size ≤ r.rounded)
    (served : c.allocate os blockSize s r = (.ok placement, next, supply)) :
    next.Accounted (r.size :: sizes) (c.charges next placement.node ++ spent) := by
  have regions := (good.allocate served).custody.apart
  obtain ⟨new, middle, moves, ends⟩ := allocate_turns served
  have ordered := good.ordered.turned moves
  have sound := moves.cursors good.sound.cursors
  have same := moves.target r
  rw [ends.regions] at regions
  have turned := accounted.turned good moves regions
  cases ends with
  | @taken index block taken here found fits =>
    have start : (c.blocks[index]?).elim taken.block.region.start Block.cursor = block.cursor := by
      rw [Block.take?_region fits]
      exact moves.cursor (same ▸ here) found
    have drawn : c.drawn (middle.took index r taken) (middle.target r) =
        [⟨block.cursor, taken.block.cursor - block.cursor⟩] := by
      have busy : (middle.took index r taken).current (middle.target r) = some index := here
      have set : (middle.took index r taken).blocks[index]? = some taken.block :=
        getElem?_took found
      simp only [Chain.drawn, busy, set, Option.elim_some, start]
    have left : c.left (middle.took index r taken) (middle.target r) =
        c.left middle (c.target r) := by
      rw [same]
      rfl
    rw [charges, drawn, left]
    exact turned.took sound regions proper here found (ordered.own here found) fits

end Chain

end Arena

end NumaHeap
