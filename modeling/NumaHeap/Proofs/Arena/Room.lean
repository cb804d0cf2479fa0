import NumaHeap.Proofs.Arena.Denial
import NumaHeap.Proofs.Arena.Turns
import NumaHeap.Proofs.Platform.Simulated

/-!
Room for a request. A block can hold a request when an aligned address from its cursor on leaves room
for it, and that is what the test of a block decides. So a chain finds room wherever there is some, asks
for a new block only where there is none, and a new block is always large enough.
-/

namespace NumaHeap

namespace Arena

variable {σ : Type} {os : Platform σ} {contract : os.Contract} {blockSize : PowerOfTwo}

namespace Block

/-- An aligned address from the cursor on leaves room for the size. -/
def CanHold (b : Block) (size : Nat) (alignment : PowerOfTwo) : Prop :=
  ∃ address, b.cursor ≤ address ∧ alignment.value ∣ address ∧ address + size ≤ b.region.stop

variable {b : Block} {size : Nat} {alignment : PowerOfTwo}

/-- The test counts padding and size against what is left, and a sum that is no word is more than any
block has left. -/
theorem fits_iff_le (sound : b.Sound) (short : b.region.length < Word.bound) :
    b.fits size alignment = true ↔
      b.cursor + alignment.padding b.cursor + size ≤ b.region.stop := by
  obtain ⟨above, below⟩ := sound
  have left : b.region.stop - b.cursor ≤ b.region.length := by
    unfold Region.stop at *
    omega
  unfold fits available
  cases needed : Word.add? (alignment.padding b.cursor) size with
  | none =>
    have large := Word.fit?_eq_none_iff.1 needed
    exact iff_of_false Bool.false_ne_true (by omega)
  | some sum =>
    obtain ⟨-, rfl⟩ := Word.fit?_eq_some_iff.1 needed
    show decide _ = true ↔ _
    rw [decide_eq_true_eq]
    omega

/-- The test of a block is exact. -/
theorem fits_iff (sound : b.Sound) (positive : 0 < b.region.start)
    (within : b.region.stop ≤ Word.bound) :
    b.fits size alignment = true ↔ b.CanHold size alignment := by
  have short : b.region.length < Word.bound := by
    unfold Region.stop at within
    omega
  have inside : b.cursor ≤ Word.bound := Nat.le_trans sound.2 within
  rw [fits_iff_le sound short]
  constructor
  · intro room
    exact ⟨_, Nat.le_add_right .., alignment.value_dvd_add_padding inside, room⟩
  · rintro ⟨address, behind, aligned, room⟩
    have first := PowerOfTwo.add_padding_le behind aligned (by omega)
    omega

theorem take?_of_fits (fits : b.fits size alignment = true) :
    ∃ taken, b.take? size alignment = some taken := ⟨_, if_pos fits⟩

theorem fits_of_take?_eq_none (none : b.take? size alignment = none) :
    b.fits size alignment = false := by
  refine Bool.eq_false_iff.2 fun fits => ?_
  obtain ⟨taken, some⟩ := take?_of_fits fits
  cases none.symm.trans some

end Block

namespace Chain

variable {c next larger : Chain} {s supply : Supply σ} {r : Request} {node index start : Nat}
  {block : Block} {turns : List Turn} {placement : Placement}

/-- The current block of the node of a request can hold it, or a later one of that node can. -/
def CanHold (c : Chain) (r : Request) : Prop :=
  ∃ index block, c.blocks[index]? = some block ∧ block.node = c.target r ∧
    (∀ current, c.current (c.target r) = some current → current ≤ index) ∧
    block.CanHold r.rounded r.alignment

/-- How a chain handles a request with whatever supply there is. -/
structure Handles (os : Platform σ) (blockSize : PowerOfTwo) (c : Chain) (s : Supply σ)
    (r : Request) : Prop where
  /-- A block that is found serves the request. -/
  found : ∀ index,
    c.candidate? ((c.current (c.target r)).elim 0 (· + 1)) (c.target r) r = some index →
    ∃ placement next, c.serveFrom (c.target r) index r = (.ok placement, next)
  /-- So does a block that is mapped. -/
  mapped : ∀ larger supply,
    c.extend os blockSize s r.rounded (c.target r) = (.ok larger, supply) →
    ∃ placement next, larger.serveFrom (c.target r) c.blocks.length r = (.ok placement, next)
  /-- Where there is room, the request is served without a new block. -/
  held : c.CanHold r → ∃ placement next, next.regions = c.regions ∧
    ∀ supply : Supply σ, c.allocate os blockSize supply r = (.ok placement, next, supply)
  /-- Where there is none, a new block is asked for; the request is denied if there is none to be had,
  and then all is as it was, -/
  refused : ¬c.CanHold r → ∀ error supply,
    c.extend os blockSize s r.rounded (c.target r) = (.error error, supply) →
    c.allocate os blockSize s r = (.error error, c, supply)
  /-- and else it is served from the new block. -/
  extended : ¬c.CanHold r → ∀ larger supply,
    c.extend os blockSize s r.rounded (c.target r) = (.ok larger, supply) →
    ∃ placement next, larger.serveFrom (c.target r) c.blocks.length r = (.ok placement, next) ∧
      c.allocate os blockSize s r = (.ok placement, next, supply)
  /-- What is served lies in a block of the node that is named with it, the one that was requested or
  else the preferred one. -/
  placed : ∀ placement next supply,
    c.allocate os blockSize s r = (.ok placement, next, supply) →
    placement.node = r.node.getD c.preferred ∧ ∃ block ∈ next.blocks, block.node = placement.node ∧
      Extent.Within ⟨placement.address, r.rounded⟩ block.region.extent

/-- A search that finds nothing has tested all blocks of the node. -/
theorem candidate?_eq_none (none : c.candidate? start node r = none) (behind : start ≤ index)
    (there : c.blocks[index]? = some block) (same : block.node = node) :
    block.fits r.rounded r.alignment = false := by
  have inside := (List.getElem?_eq_some_iff.1 there).1
  have member := List.mem_range'_1.2 (⟨behind, by omega⟩ :
    start ≤ index ∧ index < start + (c.blocks.length - start))
  refine Bool.eq_false_iff.2 fun fits => List.find?_eq_none.1 none index member ?_
  rw [there, Option.any_some, Bool.and_eq_true, beq_iff_eq]
  exact ⟨same, fits⟩

theorem serveFrom_ok (node : Nat) (there : c.blocks[index]? = some block)
    (fits : block.fits r.rounded r.alignment = true) :
    ∃ placement next, c.serveFrom node index r = (.ok placement, next) := by
  obtain ⟨taken, some⟩ := Block.take?_of_fits fits
  exact ⟨_, _, serveFrom_of_take? node there some⟩

section

variable (full : (c.current (c.target r)).bind (c.takeFrom? · r) = none)
  (lost : c.candidate? ((c.current (c.target r)).elim 0 (· + 1)) (c.target r) r = none)

include full lost

/-- Where neither the current block nor a search has room, a request is denied if there is no new block
to be had, -/
theorem allocate_of_denied {error : AllocError}
    (denied : c.extend os blockSize s r.rounded (c.target r) = (.error error, supply)) :
    c.allocate os blockSize s r = (.error error, c, supply) := by
  rw [target] at full lost denied
  simp only [allocate, full, lost, denied]

/-- and else it is served from the new block. -/
theorem allocate_of_extended
    (extended : c.extend os blockSize s r.rounded (c.target r) = (.ok larger, supply))
    (served : larger.serveFrom (c.target r) c.blocks.length r = (.ok placement, next)) :
    c.allocate os blockSize s r = (.ok placement, next, supply) := by
  rw [target] at full lost extended served
  simp only [allocate, full, lost, extended, served]

end

namespace Good

/-- The test of each block of a chain is exact. -/
theorem fits_iff (good : c.Good contract s) (there : c.blocks[index]? = some block) {size : Nat}
    {alignment : PowerOfTwo} :
    block.fits size alignment = true ↔ block.CanHold size alignment := by
  have member := List.mem_of_getElem? there
  have region := List.mem_map_of_mem (f := Block.region) member
  exact Block.fits_iff (good.sound.cursors block member) (good.custody.start_pos _ region)
    (good.custody.within _ region)

/-- Where there is room, the request is granted from a block that is there. -/
theorem grants (good : c.Good contract s) (room : c.CanHold r) :
    ∃ placement next, Grants r c [] placement next := by
  obtain ⟨index, block, there, same, behind, holds⟩ := room
  have fits := (good.fits_iff there).2 holds
  cases full : (c.current (c.target r)).bind (c.takeFrom? · r) with
  | some served =>
    obtain ⟨current, here, taken⟩ := Option.bind_eq_some_iff.1 full
    exact ⟨_, _, .current here taken⟩
  | none =>
    cases found : c.candidate? ((c.current (c.target r)).elim 0 (· + 1)) (c.target r) r with
    | some later =>
      obtain ⟨-, other, stands, -, suits⟩ := candidate?_spec found
      obtain ⟨placement, next, served⟩ := serveFrom_ok (c.target r) stands suits
      exact ⟨placement, next, .later full found served⟩
    | none =>
      -- The block with room is not the current one, so the search has come by it.
      have start : (c.current (c.target r)).elim 0 (· + 1) ≤ index := by
        cases here : c.current (c.target r) with
        | none => exact Nat.zero_le index
        | some current =>
          rw [here, Option.bind_some, takeFrom?_eq_none_iff] at full
          refine Nat.lt_of_le_of_ne (behind current here) fun here => ?_
          have none := Block.fits_of_take?_eq_none (full block (here ▸ there))
          rw [none] at fits
          cases fits
      rw [candidate?_eq_none found start there same] at fits
      cases fits

/-- Where there is no room, no block that is there is used. -/
theorem full (good : c.Good contract s) (none : ¬c.CanHold r) :
    (c.current (c.target r)).bind (c.takeFrom? · r) = .none ∧
      c.candidate? ((c.current (c.target r)).elim 0 (· + 1)) (c.target r) r = .none := by
  constructor
  · refine Option.bind_eq_none_iff.2 fun current here => takeFrom?_eq_none_iff.2 fun block there => ?_
    refine Option.eq_none_iff_forall_ne_some.2 fun taken some => none ?_
    refine ⟨current, block, there, good.ordered.own here there, fun other same => ?_,
      (good.fits_iff there).1 (Block.fits_of_take? some)⟩
    exact Nat.le_of_eq (Option.some.inj (same.symm.trans here))
  · refine Option.eq_none_iff_forall_ne_some.2 fun index found => none ?_
    obtain ⟨start, block, there, same, fits⟩ := candidate?_spec found
    refine ⟨index, block, there, same, fun current here => ?_, (good.fits_iff there).1 fits⟩
    rw [here, Option.elim_some] at start
    exact Nat.le_of_lt start

/-- A new block serves the request for which it is mapped. -/
theorem extend_serves (good : c.Good contract s)
    (aligned : r.alignment.value ≤ os.pageSize.value)
    (extended : c.extend os blockSize s r.rounded (c.target r) = (.ok larger, supply)) :
    ∃ placement next,
      larger.serveFrom (c.target r) c.blocks.length r = (.ok placement, next) := by
  obtain ⟨region, length, there, enough, long, positive, within, page⟩ :=
    extend_block good.custody.possible extended
  have room : r.rounded ≤ region.length := by
    refine Nat.le_trans ?_ long
    unfold blockLength? at enough
    split at enough
    · rw [Word.add?, Word.fit?_eq_some_iff] at enough
      omega
    · cases enough
      omega
  -- The block begins at an aligned address, so that nothing is lost to padding.
  have divides := Nat.dvd_trans (PowerOfTwo.value_dvd_of_value_le aligned) page
  have fits := (Block.fits_iff (Block.ofRegion_sound region) positive within).2
    ⟨region.start, Nat.le_refl _, divides, Nat.add_le_add_left room _⟩
  exact serveFrom_ok (c.target r) there fits

/-- What is served lies in the block that is current then. -/
theorem placed (good : c.Good contract s)
    (served : c.allocate os blockSize s r = (.ok placement, next, supply)) :
    placement.node = c.target r ∧ ∃ block ∈ next.blocks, block.node = placement.node ∧
      Extent.Within ⟨placement.address, r.rounded⟩ block.region.extent := by
  obtain ⟨new, middle, moves, ends⟩ := allocate_turns served
  have ordered := good.ordered.turned moves
  cases ends with
  | @taken index block taken here there fits =>
    have sound := moves.cursors good.sound.cursors block (List.mem_of_getElem? there)
    obtain ⟨region, -, above, below⟩ := Block.take?_spec sound fits
    have inside := (List.getElem?_eq_some_iff.1 there).1
    refine ⟨moves.target r, taken.block, List.mem_set inside _, ?_, ?_⟩
    · rw [Block.node, region]
      exact ordered.own here there
    · rw [region]
      exact ⟨Nat.le_trans sound.1 above, below⟩

theorem handles (good : c.Good contract s) (aligned : r.alignment.value ≤ os.pageSize.value) :
    c.Handles os blockSize s r where
  found index found := by
    obtain ⟨-, block, there, -, fits⟩ := candidate?_spec found
    exact serveFrom_ok (c.target r) there fits
  mapped larger supply extended := good.extend_serves aligned extended
  held room := by
    obtain ⟨placement, next, grants⟩ := good.grants room
    have regions := grants.grows.1
    rw [List.append_nil] at regions
    exact ⟨placement, next, regions, fun supply => grants.allocate os blockSize supply⟩
  refused none error supply denied := by
    obtain ⟨full, lost⟩ := good.full none
    exact allocate_of_denied full lost denied
  extended none larger supply extended := by
    obtain ⟨full, lost⟩ := good.full none
    obtain ⟨placement, next, served⟩ := good.extend_serves aligned extended
    exact ⟨placement, next, served, allocate_of_extended full lost extended served⟩
  placed placement next supply served := good.placed served

end Good

/-- However a chain came to be, it serves every request that is aligned on no more than a page whenever
there is room or a new block can be mapped, and its blocks are in order. -/
theorem Reached.serves_in_order (reached : Reached contract blockSize c s turns)
    (aligned : r.alignment.value ≤ os.pageSize.value) :
    c.Handles os blockSize s r ∧ c.Ordered :=
  ⟨reached.good.handles aligned, reached.good.ordered⟩

/-- Three blocks on two nodes, all rewound: the first one of its node is too short, the other is not. -/
theorem Reached.serves_in_order_two_nodes :
    let settings : Simulated.Settings := { topology := Topology.singleNode.describe ⟨1, "1", none⟩ }
    let contract := Simulated.contract settings (by decide) (by decide)
    let r : Request := ⟨5000, 5056, ⟨12, by decide⟩, none⟩
    ∃ c s turns, Reached contract ⟨12, by decide⟩ c s turns ∧ r.alignment.value ≤ 4096 ∧
      turns = [.reset, .asked [], .asked [], .asked []] ∧
      c.blocks.map Block.view =
        [⟨65536, 4096, 0, 0, false⟩, ⟨69632, 8192, 0, 1, false⟩, ⟨77824, 12288, 0, 0, false⟩] ∧
      (c.allocate (Simulated.platform settings) ⟨12, by decide⟩ s r).1 = .ok ⟨77824, 0⟩ ∧
      c.Handles (Simulated.platform settings) ⟨12, by decide⟩ s r ∧ c.Ordered := by
  let settings : Simulated.Settings := { topology := Topology.singleNode.describe ⟨1, "1", none⟩ }
  let os := Simulated.platform settings
  let contract := Simulated.contract settings (by decide) (by decide)
  let r : Request := ⟨5000, 5056, ⟨12, by decide⟩, none⟩
  let s : Supply Simulated.State := ⟨⟨false, false, 0, 0, 0⟩, Simulated.machine {}⟩
  have start : Reached contract ⟨12, by decide⟩ { preferred := 0 } s [] :=
    .start 0 (Simulated.machine_sound {})
  have reached := (((start.ask ⟨100, 104, wordAlignment, none⟩).ask
    ⟨4096, 4096, wordAlignment, some 1⟩).ask ⟨8192, 8192, wordAlignment, none⟩).reset
  have aligned : r.alignment.value ≤ os.pageSize.value := by decide
  obtain ⟨handles, ordered⟩ := reached.serves_in_order aligned
  refine ⟨_, _, _, reached, aligned, ?_, ?_, ?_, handles, ordered⟩
  · decide +kernel
  · decide +kernel
  · decide +kernel

end Chain

end Arena

end NumaHeap
