import NumaHeap.Arena.Chain
import NumaHeap.Proofs.Supply

/-!
Allocation from a chain of blocks. A chain serves a request from one of its blocks, at or beyond the
cursor of that block, and gains at most one block for it. Whatever it does, cursors stay within their
blocks.
-/

namespace NumaHeap.Arena

variable {σ : Type}

namespace Block

/-- The cursor lies within the block. -/
def Sound (b : Block) : Prop := b.region.start ≤ b.cursor ∧ b.cursor ≤ b.region.stop

variable {b : Block} {size : Nat} {alignment : PowerOfTwo} {taken : Taken}

theorem ofRegion_sound (region : Region) : (ofRegion region).Sound :=
  ⟨Nat.le_refl _, Nat.le_add_right ..⟩

theorem rewind_sound (b : Block) : b.rewind.Sound := ⟨Nat.le_refl _, Nat.le_add_right ..⟩

/-- What is taken lies between the old cursor and the end of the block, and the cursor moves past
it. -/
theorem take?_spec (sound : b.Sound) (some : b.take? size alignment = some taken) :
    taken.block.region = b.region ∧ taken.block.cursor = taken.address + size ∧
      b.cursor ≤ taken.address ∧ taken.address + size ≤ b.region.stop := by
  unfold take? at some
  split at some
  · next fits =>
    unfold Block.fits at fits
    split at fits
    · next needed added =>
      rw [Word.add?, Word.fit?_eq_some_iff] at added
      obtain ⟨-, rfl⟩ := added
      have room := of_decide_eq_true fits
      unfold available at room
      obtain ⟨above, below⟩ := sound
      cases some
      refine ⟨rfl, rfl, Nat.le_add_right .., ?_⟩
      change b.cursor + alignment.padding b.cursor + size ≤ b.region.stop
      omega
    · cases fits
  · cases some

theorem take?_sound (sound : b.Sound) (some : b.take? size alignment = some taken) :
    taken.block.Sound := by
  obtain ⟨region, cursor, above, below⟩ := take?_spec sound some
  rw [Sound, region, cursor]
  exact ⟨Nat.le_trans sound.1 (by omega), below⟩

theorem take?_aligned (inside : b.cursor ≤ Word.bound) (some : b.take? size alignment = some taken) :
    alignment.value ∣ taken.address := by
  unfold take? at some
  split at some
  · cases some
    exact alignment.value_dvd_add_padding inside
  · cases some

/-- An address that is touched lies in the region. -/
theorem touched_holds {region : Region} {page : PowerOfTwo} {index : Nat}
    (counted : index < (region.length + (page.value - 1)) / page.value) :
    region.extent.Holds (region.start + index * page.value) := by
  have positive := page.value_pos
  have pages : (index + 1) * page.value ≤ region.length + (page.value - 1) :=
    (Nat.le_div_iff_mul_le positive).1 counted
  rw [Nat.add_mul, Nat.one_mul] at pages
  simp only [Extent.Holds, Extent.stop, Region.extent]
  omega

/-- Touching the pages of a region that reads as zero changes no byte. -/
theorem get_touch {memory : Memory} {region : Region} (page : PowerOfTwo)
    (blank : ∀ address, region.extent.Holds address → memory.get address = 0) (address : Nat) :
    (touch memory region page).get address = memory.get address := by
  have step : ∀ (indices : List Nat) (memory : Memory),
      (∀ index ∈ indices, region.extent.Holds (region.start + index * page.value)) →
      (∀ address, region.extent.Holds address → memory.get address = 0) →
      (indices.foldl (fun memory index => memory.set (region.start + index * page.value) 0)
        memory).get address = memory.get address := by
    intro indices
    induction indices with
    | nil => intros; rfl
    | cons index rest ih =>
      intro memory inside blank
      have same : ∀ other,
          (memory.set (region.start + index * page.value) 0).get other = memory.get other := by
        intro other
        by_cases here : Extent.Holds ⟨region.start + index * page.value, 1⟩ other
        · have only : other = region.start + index * page.value := by
            simp only [Extent.Holds, Extent.stop] at here
            omega
          exact (Memory.get_clear_inside here).trans
            (blank other (only ▸ inside index (List.mem_cons_self ..))).symm
        · exact Memory.get_fill_outside 0 here
      rw [List.foldl_cons, ih _ (fun other member => inside other (List.mem_cons_of_mem _ member))
        (fun other held => (same other).trans (blank other held)), same]
  exact step _ memory (fun index member => touched_holds (List.mem_range.1 member)) blank

end Block

namespace Chain

/-- The regions of the blocks. -/
def regions (c : Chain) : List Region := c.blocks.map (·.region)

/-- All cursors lie within their blocks, and the blocks of huge pages are counted. -/
structure Sound (c : Chain) : Prop where
  cursors : ∀ block ∈ c.blocks, block.Sound
  huge : c.tally.hugeBlocks = c.regions.countP Region.isHuge

/-- How some blocks answer a request: one of them serves it, or they are left as they are. -/
inductive Serves (r : Request) (blocks : List Block) :
    Except AllocError Placement → List Block → Prop
  | denied (error : AllocError) : Serves r blocks (.error error) blocks
  | taken {index node : Nat} {block : Block} {taken : Block.Taken} :
      blocks[index]? = some block → block.take? r.rounded r.alignment = some taken →
      Serves r blocks (.ok ⟨taken.address, node⟩) (blocks.set index taken.block)

variable {os : Platform σ} {c : Chain} {s : Supply σ} {r : Request} {index node : Nat}

/-- A chain gained some regions for a request, and answered it from all its blocks. -/
structure Answers (os : Platform σ) (r : Request) (c : Chain) (s : Supply σ) (new : List Region)
    (answer : Except AllocError Placement) (after : Chain) (supply : Supply σ) : Prop where
  grows : s.Grows os supply new
  serves : Serves r (c.blocks ++ new.map Block.ofRegion) answer after.blocks
  huge : after.tally.hugeBlocks = c.tally.hugeBlocks + new.countP Region.isHuge

/-- A search finds a block of the node with room for the request. -/
theorem candidate?_spec {start : Nat} (some : c.candidate? start node r = some index) :
    start ≤ index ∧ ∃ block, c.blocks[index]? = .some block ∧ block.node = node ∧
      block.fits r.rounded r.alignment = true := by
  have suits := List.find?_some some
  obtain ⟨block, found, suits⟩ := (Option.any_eq_true _ _).1 suits
  obtain ⟨same, fits⟩ := Bool.and_eq_true_iff.1 suits
  have within := List.mem_range'_1.1 (List.mem_of_find?_eq_some some)
  exact ⟨within.1, block, found, beq_iff_eq.1 same, fits⟩

theorem getElem?_regions {block : Block} (found : c.blocks[index]? = some block) :
    c.regions[index]? = some block.region := by
  rw [regions, List.getElem?_map, found, Option.map_some]

theorem takeFrom?_spec {address : Nat} {after : Chain} (node : Nat)
    (some : c.takeFrom? index r = some (address, after)) :
    Serves r c.blocks (.ok ⟨address, node⟩) after.blocks ∧
      after.tally.hugeBlocks = c.tally.hugeBlocks := by
  simp only [takeFrom?, bind, Option.bind_eq_some_iff, pure, Option.some.injEq, Prod.mk.injEq]
    at some
  obtain ⟨block, found, taken, fits, rfl, rfl⟩ := some
  exact ⟨.taken found fits, rfl⟩

theorem advance_blocks (c : Chain) (node index : Nat) :
    (c.advance node index).blocks = c.blocks ∧
      (c.advance node index).tally.hugeBlocks = c.tally.hugeBlocks := by
  refine ⟨rfl, ?_⟩
  unfold advance
  split <;> rfl

theorem serveFrom_spec {answer : Except AllocError Placement} {after : Chain}
    (served : c.serveFrom node index r = (answer, after)) :
    Serves r c.blocks answer after.blocks ∧ after.tally.hugeBlocks = c.tally.hugeBlocks := by
  obtain ⟨blocks, huge⟩ := c.advance_blocks node index
  simp only [serveFrom] at served
  split at served
  · next address chain some =>
    cases served
    obtain ⟨serves, same⟩ := takeFrom?_spec node some
    exact ⟨blocks ▸ serves, same.trans huge⟩
  · cases served
    exact ⟨blocks ▸ .denied _, huge⟩

theorem blockLength?_pos {blockSize : PowerOfTwo} {rounded length : Nat}
    (some : blockLength? blockSize rounded = some length) : 0 < length := by
  unfold blockLength? at some
  split at some
  · rw [Word.add?, Word.fit?_eq_some_iff, Size.blockSlop] at some
    omega
  · cases some
    exact blockSize.value_pos

/-- A new block is mapped with one region for it, or the chain stays as it is. -/
theorem extend_spec {blockSize : PowerOfTwo} {rounded : Nat} {answer : Except AllocError Chain}
    {supply : Supply σ} (extended : c.extend os blockSize s rounded node = (answer, supply)) :
    (∀ after, answer = .ok after → ∃ region length, s.Grows os supply [region] ∧
      after.blocks = c.blocks ++ [Block.ofRegion region] ∧
      after.tally.hugeBlocks = c.tally.hugeBlocks + region.isHuge.toNat ∧
      blockLength? blockSize rounded = some length ∧ length ≤ region.length) ∧
    (∀ error, answer = .error error → s.Grows os supply []) := by
  unfold extend at extended
  split at extended
  · cases extended
    exact ⟨nofun, fun _ _ => .refl os s⟩
  · next length some =>
    split at extended
    · next cause middle mapped =>
      cases extended
      exact ⟨nofun, fun _ _ => (Supply.map_grows (blockLength?_pos some) mapped).2 cause rfl⟩
    · next region middle mapped =>
      obtain ⟨long, -, grows⟩ := (Supply.map_grows (blockLength?_pos some) mapped).1 region rfl
      cases extended
      refine ⟨?_, nofun⟩
      rintro _ ⟨⟩
      have blank := grows.blank region (List.mem_singleton_self _)
      exact ⟨region, length, ⟨grows.of_get (Block.get_touch os.pageSize blank), grows.mappedBytes⟩,
        rfl, rfl, some, long⟩

theorem allocate_spec {blockSize : PowerOfTwo} {answer : Except AllocError Placement}
    {after : Chain} {supply : Supply σ}
    (served : c.allocate os blockSize s r = (answer, after, supply)) :
    ∃ new, Answers os r c s new answer after supply := by
  have unchanged : ∀ {answer after},
      Serves r c.blocks answer after.blocks ∧ after.tally.hugeBlocks = c.tally.hugeBlocks →
        Answers os r c s [] answer after s := by
    rintro answer after ⟨serves, huge⟩
    exact ⟨.refl os s, by simpa using serves, by simpa using huge⟩
  simp only [allocate] at served
  split at served
  · next address chain some =>
    obtain ⟨index, -, some⟩ := Option.bind_eq_some_iff.1 some
    cases served
    exact ⟨[], unchanged (takeFrom?_spec _ some)⟩
  · split at served
    · next index _ =>
      cases served
      exact ⟨[], unchanged (serveFrom_spec rfl)⟩
    · split at served
      · next error middle extended =>
        cases served
        exact ⟨[], (extend_spec extended).2 error rfl, by simpa using .denied error, rfl⟩
      · next larger middle extended =>
        obtain ⟨region, -, grows, blocks, huge, -⟩ := (extend_spec extended).1 larger rfl
        cases answered : larger.serveFrom (r.node.getD c.preferred) c.blocks.length r with
        | mk placed last =>
          obtain ⟨serves, same⟩ := serveFrom_spec answered
          rw [answered] at served
          cases served
          refine ⟨[region], grows, blocks ▸ serves, ?_⟩
          rw [same, huge, List.countP_singleton]
          cases region.isHuge <;> rfl

variable {blocks after : List Block} {answer : Except AllocError Placement}

theorem Serves.regions (serves : Serves r blocks answer after)
    (sound : ∀ block ∈ blocks, block.Sound) : after.map (·.region) = blocks.map (·.region) := by
  cases serves with
  | denied => rfl
  | @taken index node block taken found fits =>
    obtain ⟨region, -⟩ := Block.take?_spec (sound block (List.mem_of_getElem? found)) fits
    have here : (blocks.map (·.region))[index]? = some block.region := by
      rw [List.getElem?_map, found, Option.map_some]
    obtain ⟨inside, same⟩ := List.getElem?_eq_some_iff.1 here
    rw [List.map_set, region, ← same, List.set_getElem_self]

theorem Serves.sound (serves : Serves r blocks answer after)
    (sound : ∀ block ∈ blocks, block.Sound) : ∀ block ∈ after, block.Sound := by
  cases serves with
  | denied => exact sound
  | @taken index node block taken found fits =>
    intro other member
    rcases List.mem_or_eq_of_mem_set member with old | rfl
    · exact sound other old
    · exact Block.take?_sound (sound block (List.mem_of_getElem? found)) fits

/-- No cursor goes back. -/
theorem Serves.kept (serves : Serves r blocks answer after)
    (sound : ∀ block ∈ blocks, block.Sound) {old : Block} (member : old ∈ blocks) :
    ∃ later ∈ after, later.region = old.region ∧ old.cursor ≤ later.cursor := by
  cases serves with
  | denied => exact ⟨old, member, rfl, Nat.le_refl _⟩
  | @taken index node block taken found fits =>
    obtain ⟨place, inside, rfl⟩ := List.mem_iff_getElem.1 member
    by_cases here : index = place
    · subst here
      obtain ⟨region, cursor, above, -⟩ :=
        Block.take?_spec (sound block (List.mem_of_getElem? found)) fits
      cases Option.some.inj ((List.getElem?_eq_getElem inside).symm.trans found)
      exact ⟨taken.block, List.mem_set inside taken.block, region, by omega⟩
    · refine ⟨blocks[place], ?_, rfl, Nat.le_refl _⟩
      have same := List.getElem?_set_ne (l := blocks) (a := taken.block) here
      rw [List.getElem?_eq_getElem inside] at same
      exact List.mem_of_getElem? same

theorem Serves.served {placement : Placement} (serves : Serves r blocks (.ok placement) after) :
    ∃ block ∈ blocks, ∃ taken, block.take? r.rounded r.alignment = some taken ∧
      taken.address = placement.address ∧ taken.block ∈ after := by
  cases serves with
  | @taken index node block taken found fits =>
    have inside := (List.getElem?_eq_some_iff.1 found).1
    exact ⟨block, List.mem_of_getElem? found, taken, fits, rfl, List.mem_set inside _⟩

theorem reset_regions (c : Chain) : c.reset.regions = c.regions := by
  rw [regions, reset, List.map_map]
  rfl

theorem Sound.reset (sound : c.Sound) : c.reset.Sound where
  cursors block member := by
    obtain ⟨old, -, rfl⟩ := List.mem_map.1 member
    exact old.rewind_sound
  huge := by
    rw [reset_regions]
    exact sound.huge

namespace Answers

variable {new : List Region} {last : Chain} {supply : Supply σ}

theorem extended (sound : c.Sound) :
    ∀ block ∈ c.blocks ++ new.map Block.ofRegion, block.Sound := by
  intro block member
  rcases List.mem_append.1 member with old | fresh
  · exact sound.cursors block old
  · obtain ⟨region, -, rfl⟩ := List.mem_map.1 fresh
    exact Block.ofRegion_sound region

theorem regions (answers : Answers os r c s new answer last supply) (sound : c.Sound) :
    last.regions = c.regions ++ new := by
  rw [Chain.regions, answers.serves.regions (extended sound), List.map_append, List.map_map]
  exact congrArg (c.regions ++ ·) (List.map_id new)

theorem sound (answers : Answers os r c s new answer last supply) (sound : c.Sound) :
    last.Sound where
  cursors := answers.serves.sound (extended sound)
  huge := by rw [answers.huge, answers.regions sound, List.countP_append, sound.huge]

end Answers

end Chain

end NumaHeap.Arena
