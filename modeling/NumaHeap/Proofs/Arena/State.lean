import NumaHeap.Arena.Pool
import NumaHeap.Proofs.Arena.Chain
import NumaHeap.Proofs.Parts
import Mathlib.Data.List.Nodup

/-!
One arena and its slots. The regions of an arena are those of all its slots, and its mapper counts
their bytes. A slot is known by its address and was made in the present generation, so that whoever
finds it by these two finds the slot that was meant.
-/

namespace NumaHeap.Arena

variable {σ : Type}

/-- A field of the report to which every tally adds is a sum over the tallies. -/
theorem Stats.ofTallies_sum (field : Stats → Nat) (part : Tally → Nat)
    (adds : ∀ s t, field (Stats.add s t) = field s + part t) (tallies : List Tally) :
    field (Stats.ofTallies tallies) = field {} + (tallies.map part).sum := by
  have step : ∀ s, field (tallies.foldl Stats.add s) = field s + (tallies.map part).sum := by
    induction tallies with
    | nil => exact fun s => rfl
    | cons tally rest ih =>
      intro s
      rw [List.foldl_cons, ih, adds, List.map_cons, List.sum_cons, Nat.add_assoc]
  exact step {}

namespace State

/-- The blocks of all threads. -/
def held (a : State) : List Block := a.slots.flatMap (·.chain.blocks)

/-- The regions of all threads. -/
def regions (a : State) : List Region := a.slots.flatMap (·.chain.regions)

/-- A slot stands at the address and belongs to the thread. -/
def Hosts (a : State) (address : Nat) (thread : ThreadId) : Prop :=
  ∃ slot ∈ a.slots, slot.address = address ∧ slot.owner = thread

/-- The block belongs to the thread. -/
def Holds (a : State) (thread : ThreadId) (block : Block) : Prop :=
  ∃ slot ∈ a.slots, slot.owner = thread ∧ block ∈ slot.chain.blocks

/-- The slots can be told apart, and the mapper counts what they hold. -/
structure Sound (a : State) : Prop where
  addresses : (a.slots.map (·.address)).Nodup
  generations : ∀ slot ∈ a.slots, slot.generation = a.generation
  chains : ∀ slot ∈ a.slots, slot.chain.Sound
  bytes : a.mapper.mappedBytes = Region.total a.regions

variable {a : State} {slot : Slot} {chain : Chain} {mapper : Mapper} {new : List Region}

theorem regions_eq_map (a : State) : a.regions = a.held.map (·.region) :=
  (List.map_flatMap ..).symm

theorem Sound.eq_of_address (sound : a.Sound) {other : Slot} (first : slot ∈ a.slots)
    (second : other ∈ a.slots) (same : slot.address = other.address) : slot = other :=
  List.inj_on_of_nodup_map sound.addresses first second same

/-- A slot is found at its address. -/
theorem Sound.slotAt? (sound : a.Sound) (member : slot ∈ a.slots) :
    a.slotAt? slot.address = some slot := by
  cases reached : a.slotAt? slot.address with
  | none => exact absurd (List.find?_eq_none.1 reached slot member) (by simp)
  | some other =>
    have place : other.address = slot.address := by simpa using List.find?_some reached
    rw [sound.eq_of_address (List.mem_of_find?_eq_some reached) member place]

theorem Sound.block (sound : a.Sound) {thread : ThreadId} {block : Block}
    (held : a.Holds thread block) : block.Sound := by
  obtain ⟨slot, member, -, inside⟩ := held
  exact (sound.chains slot member).cursors block inside

theorem dropSlot_regions (sound : a.Sound) (member : slot ∈ a.slots) :
    a.regions.Perm (slot.chain.regions ++ (a.dropSlot slot.address).regions) :=
  Parts.perm_filter _ sound.addresses member

theorem setChain_regions (sound : a.Sound) (member : slot ∈ a.slots)
    (grown : chain.regions = slot.chain.regions ++ new) :
    (a.setChain slot.address chain).regions.Perm (new ++ a.regions) := by
  have replaced := Parts.perm_replace (fun slot : Slot => slot.chain.regions) sound.addresses member
    ({ · with chain })
  refine replaced.trans ?_
  change (chain.regions ++ (a.dropSlot slot.address).regions).Perm _
  rw [grown]
  refine (List.perm_append_comm.append_right _).trans ?_
  rw [List.append_assoc]
  exact (dropSlot_regions sound member).symm.append_left new

/-- Without one of its slots an arena is sound once the mapper has forgotten the regions of it. -/
theorem dropSlot_sound (sound : a.Sound) (member : slot ∈ a.slots)
    (bytes : mapper.mappedBytes = a.mapper.mappedBytes - Region.total slot.chain.regions) :
    { a.dropSlot slot.address with mapper }.Sound where
  addresses := sound.addresses.sublist (List.filter_sublist.map _)
  generations other kept := sound.generations other (List.mem_filter.1 kept).1
  chains other kept := sound.chains other (List.mem_filter.1 kept).1
  bytes := by
    have total := Region.total_perm (dropSlot_regions sound member)
    rw [Region.total_append, ← sound.bytes] at total
    change mapper.mappedBytes = Region.total (a.dropSlot slot.address).regions
    omega

theorem mem_setChain {address : Nat} {other : Slot}
    (member : other ∈ (a.setChain address chain).slots) :
    ∃ old ∈ a.slots, other.address = old.address ∧ other.owner = old.owner ∧
      other.generation = old.generation ∧ (other.chain = chain ∨ other.chain = old.chain) := by
  obtain ⟨old, there, rfl⟩ := List.mem_map.1 member
  refine ⟨old, there, ?_⟩
  split
  · exact ⟨rfl, rfl, rfl, .inl rfl⟩
  · exact ⟨rfl, rfl, rfl, .inr rfl⟩

theorem setChain_sound (sound : a.Sound) (member : slot ∈ a.slots) (inner : chain.Sound)
    (grown : chain.regions = slot.chain.regions ++ new)
    (bytes : mapper.mappedBytes = a.mapper.mappedBytes + Region.total new) :
    { a.setChain slot.address chain with mapper }.Sound where
  addresses := by
    have same : (a.setChain slot.address chain).slots.map (·.address) = a.slots.map (·.address) := by
      rw [setChain, List.map_map]
      apply List.map_congr_left
      intro other _
      rw [Function.comp_apply]
      split <;> rfl
    exact same ▸ sound.addresses
  generations other there := by
    obtain ⟨old, before, -, -, same, -⟩ := mem_setChain there
    exact same.trans (sound.generations old before)
  chains other there := by
    obtain ⟨old, before, -, -, -, changed | same⟩ := mem_setChain there
    · exact changed ▸ inner
    · exact same ▸ sound.chains old before
  bytes := by
    have total := Region.total_perm (setChain_regions sound member grown)
    rw [Region.total_append, ← sound.bytes] at total
    change mapper.mappedBytes = Region.total (a.setChain slot.address chain).regions
    omega

/-- A change of one chain keeps every slot where it is. -/
theorem Hosts.setChain {address : Nat} {thread : ThreadId} (hosted : a.Hosts address thread)
    (place : Nat) (chain : Chain) : (a.setChain place chain).Hosts address thread := by
  obtain ⟨slot, member, there, owned⟩ := hosted
  refine ⟨_, List.mem_map_of_mem member, ?_⟩
  split
  · exact ⟨there, owned⟩
  · exact ⟨there, owned⟩

end State

end NumaHeap.Arena
