import NumaHeap.Proofs.Heap.Moves
import NumaHeap.Proofs.Slab.Stock

/-!
What a heap secures for its clients: each live allocation has its place in one part of the heap, in
mapped memory, and shares no byte with another. What memory holds, apart from the bytes that the slabs
keep for themselves, has an explanation, which is a parameter: the same invariant then serves for what
is known of the contents.
-/

namespace NumaHeap

/-- An allocation that was handed out. -/
structure Allocation where
  address : Nat
  size : Nat
  alignment : Nat
  thread : ThreadId
  tier : Tier
deriving DecidableEq

namespace Allocation

/-- The addresses of an allocation. -/
def extent (x : Allocation) : Extent := ⟨x.address, x.size⟩

/-- Two allocations share no byte. -/
def Apart (x y : Allocation) : Prop := x.extent.Apart y.extent

instance : Std.Symm Apart := ⟨fun _ _ => Extent.Apart.symm⟩

end Allocation

/-- The two tiers are served by the same part. -/
def Tier.Alike : Tier → Tier → Prop
  | .arena _, .arena _ | .slab, .slab | .large, .large => True
  | _, _ => False

theorem Tier.Alike.eq_slab {tier : Tier} (alike : tier.Alike .slab) : tier = .slab := by
  cases tier with
  | slab => rfl
  | arena => cases alike
  | large => cases alike

theorem Tier.Alike.eq_large {tier : Tier} (alike : tier.Alike .large) : tier = .large := by
  cases tier with
  | large => rfl
  | arena => cases alike
  | slab => cases alike

theorem Tier.Alike.eq_arena {kind : ArenaKind} {tier : Tier} (alike : (Tier.arena kind).Alike tier) :
    ∃ other, tier = .arena other := by
  cases tier with
  | arena other => exact ⟨other, rfl⟩
  | slab => cases alike
  | large => cases alike

namespace Heap

variable {σ : Type} {os : Platform σ} {contract : os.Contract} {h after : Heap σ}
  {free left : Nat → List Nat} {live : List Allocation} {x y : Allocation} {address : Nat}

/-- The regions of the part that serves a tier. -/
def held (h : Heap σ) : Tier → List Region
  | .arena _ => h.arenas.regions
  | .slab => h.slabRegions
  | .large => h.large.regions

/-- Some cell of the slabs keeps the byte for its own use. -/
def Reserved (h : Heap σ) (free : Nat → List Nat) (address : Nat) : Prop :=
  ∃ slab, h.slab = some slab ∧ slab.Reserved free address

/-- The allocation has its place in the part of its tier: below the cursor of a block of its thread,
in a slot of the slabs, or at the start of a large object. -/
def Places (h : Heap σ) (free : Nat → List Nat) (x : Allocation) : Prop :=
  match x.tier with
  | .arena kind => ∃ block, h.arenas.Holds kind.index x.thread block ∧
      block.region.start ≤ x.address ∧ x.address + x.size ≤ block.cursor
  | .slab => ∃ slab, h.slab = some slab ∧ slab.Places free x.address x.size
  | .large => ∃ object ∈ h.large.objects, object.region.start = x.address ∧ object.size = x.size

/-- Everything that is live is placed, apart from all else, and what memory holds is explained. -/
structure Secured (explanation : Platform.Explanation contract) (h : Heap σ) (free : Nat → List Nat)
    (live : List Allocation) : Prop where
  sound : h.Sound
  custody : os.Custody contract h.machine.system h.regions
  stocked : ∀ slab, h.slab = some slab → slab.Stocked h.machine.memory free
  placed : ∀ x ∈ live, h.Places free x
  nonempty : ∀ x ∈ live, 0 < x.size
  apart : live.Pairwise Allocation.Apart
  content : ∀ region ∈ h.regions, ∀ address, region.extent.Holds address →
    ¬h.Reserved free address →
      explanation.Allows h.machine.system address (h.machine.memory.get address)

/-- Nothing happened to the bytes of these allocations. -/
def Keeps (os : Platform σ) (live : List Allocation) (before after : Machine σ) : Prop :=
  ∀ x ∈ live, ∀ address, x.extent.Holds address → before.Spares os after address

theorem Keeps.refl (os : Platform σ) (live : List Allocation) (machine : Machine σ) :
    Keeps os live machine machine := fun _ _ _ _ => .refl ..

theorem Keeps.trans {before middle last : Machine σ} (first : Keeps os live before middle)
    (second : Keeps os live middle last) : Keeps os live before last :=
  fun x member address inside =>
    (first x member address inside).trans (second x member address inside)

theorem mem_regions {region : Region} (tier : Tier) (member : region ∈ h.held tier) :
    region ∈ h.regions := by
  cases tier with
  | arena => exact List.mem_append_left _ member
  | slab => exact List.mem_append_right _ (List.mem_append_left _ member)
  | large => exact List.mem_append_right _ (List.mem_append_right _ member)

theorem held_slab {slab : Slab} (present : h.slab = some slab) : h.held .slab = slab.regions :=
  slabRegions_eq present

theorem slab_custody {slab : Slab} (custody : os.Custody contract h.machine.system h.regions)
    (present : h.slab = some slab) : os.Custody contract h.machine.system slab.regions := by
  apply custody.sublist
  rw [← slabRegions_eq present]
  exact (List.sublist_append_left ..).trans (List.sublist_append_right ..)

/-- Regions of different parts are apart. -/
theorem held_apart (custody : os.Custody contract h.machine.system h.regions) {t u : Tier}
    (unlike : ¬t.Alike u) {region other : Region} (first : region ∈ h.held t)
    (second : other ∈ h.held u) : region.Apart other := by
  obtain ⟨-, rest, outer⟩ := List.pairwise_append.1 custody.apart
  obtain ⟨-, -, inner⟩ := List.pairwise_append.1 rest
  cases t <;> cases u
  case arena.arena => exact absurd trivial unlike
  case arena.slab => exact outer _ first _ (List.mem_append_left _ second)
  case arena.large => exact outer _ first _ (List.mem_append_right _ second)
  case slab.arena => exact (outer _ second _ (List.mem_append_left _ first)).symm
  case slab.slab => exact absurd trivial unlike
  case slab.large => exact inner _ first _ second
  case large.arena => exact (outer _ second _ (List.mem_append_right _ first)).symm
  case large.slab => exact (inner _ second _ first).symm
  case large.large => exact absurd trivial unlike

theorem Places.within (sound : h.Sound) (places : h.Places free x) :
    ∃ region ∈ h.held x.tier, x.extent.Within region.extent := by
  unfold Places at places
  split at places
  · next kind served =>
    obtain ⟨block, holds, first, last⟩ := places
    rw [served]
    refine ⟨block.region, holds.region_mem, first, ?_⟩
    exact Nat.le_trans last (sound.arenas.of_holds holds).2
  · next served =>
    obtain ⟨slab, present, places⟩ := places
    obtain ⟨region, member, within⟩ := places.within
    rw [served, held_slab present]
    exact ⟨region, member, within⟩
  · next served =>
    obtain ⟨object, member, start, size⟩ := places
    rw [served]
    refine ⟨object.region, List.mem_map_of_mem member, Nat.le_of_eq start, ?_⟩
    have fits := sound.large.fits object member
    change x.address + x.size ≤ object.region.start + object.region.length
    omega

/-- An allocation keeps its place if what holds it is kept, each tier by its own part. -/
theorem Places.map (places : h.Places free x)
    (arena : ∀ kind block, x.tier = .arena kind → h.arenas.Holds kind.index x.thread block →
      ∃ later, after.arenas.Holds kind.index x.thread later ∧ later.region = block.region ∧
        block.cursor ≤ later.cursor)
    (slab : ∀ cells, x.tier = .slab → h.slab = some cells → cells.Places free x.address x.size →
      ∃ last, after.slab = some last ∧ last.Places left x.address x.size)
    (large : ∀ object ∈ h.large.objects, x.tier = .large → object.region.start = x.address →
      object ∈ after.large.objects) : after.Places left x := by
  unfold Places at places ⊢
  split at places
  · next kind served =>
    obtain ⟨block, holds, first, last⟩ := places
    obtain ⟨later, held, same, cursor⟩ := arena kind block served holds
    exact ⟨later, held, same ▸ first, Nat.le_trans last cursor⟩
  · next served =>
    obtain ⟨cells, present, places⟩ := places
    exact slab cells served present places
  · next served =>
    obtain ⟨object, member, start, size⟩ := places
    exact ⟨object, large object member served start, start, size⟩

theorem Places.of_slab {cells : Slab} (places : h.Places free x) (served : x.tier = .slab)
    (present : h.slab = some cells) : cells.Places free x.address x.size := by
  rw [Heap.Places, served] at places
  obtain ⟨other, there, places⟩ := places
  cases Option.some.inj (present.symm.trans there)
  exact places

theorem Reserved.of_slab {cells : Slab} (reserved : h.Reserved free address)
    (present : h.slab = some cells) : cells.Reserved free address := by
  obtain ⟨other, there, kept⟩ := reserved
  cases Option.some.inj (present.symm.trans there)
  exact kept

/-- If only the slabs change, the other tiers keep their places. -/
theorem Places.withSlab {cells last : Slab} {machine : Machine σ} (places : h.Places free x)
    (present : h.slab = some cells)
    (kept : cells.Places free x.address x.size → last.Places left x.address x.size) :
    Heap.Places { h with slab := some last, machine } left x := by
  apply places.map
  · exact fun _ block _ holds => ⟨block, holds, rfl, Nat.le_refl _⟩
  · intro other _ there places
    cases Option.some.inj (present.symm.trans there)
    exact ⟨last, rfl, kept places⟩
  · exact fun _ object _ _ => object

/-- If only the large objects change, the other tiers keep their places. -/
theorem Places.withLarge {large : Large} {machine : Machine σ} (places : h.Places free x)
    (kept : ∀ object ∈ h.large.objects, object.region.start = x.address → object ∈ large.objects) :
    Heap.Places { h with large, machine } free x := by
  apply places.map
  · exact fun _ block _ holds => ⟨block, holds, rfl, Nat.le_refl _⟩
  · exact fun cells _ present places => ⟨cells, present, places⟩
  · exact fun object there _ start => kept object there start

theorem Places.apart_of_unlike (sound : h.Sound)
    (custody : os.Custody contract h.machine.system h.regions) (first : h.Places free x)
    (second : h.Places left y) (unlike : ¬x.tier.Alike y.tier) : x.Apart y := by
  obtain ⟨region, member, within⟩ := first.within sound
  obtain ⟨other, member', within'⟩ := second.within sound
  have apart : region.extent.Apart other.extent := held_apart custody unlike member member'
  exact apart.mono within within'

/-- What is not kept by the slabs was explained before and is as it was, or it is blank. -/
def Carries (os : Platform σ) (h : Heap σ) (free : Nat → List Nat) (after : Heap σ)
    (left : Nat → List Nat) : Prop :=
  ∀ region ∈ after.regions, ∀ address, region.extent.Holds address →
    ¬after.Reserved left address →
    ((∃ home ∈ h.regions, home.extent.Holds address) ∧ ¬h.Reserved free address ∧
      h.machine.Spares os after.machine address) ∨ after.machine.memory.get address = 0

namespace Secured

variable {explanation : Platform.Explanation contract}

theorem content_of_carries (secured : Secured explanation h free live)
    (carries : Carries os h free after left) {region : Region} (member : region ∈ after.regions)
    (inside : region.extent.Holds address) (outside : ¬after.Reserved left address) :
    explanation.Allows after.machine.system address (after.machine.memory.get address) := by
  rcases carries region member address inside outside with ⟨⟨home, held, there⟩, free, spares⟩ | zero
  · have known := secured.content home held address there free
    rw [spares.get]
    exact spares.steady _ (explanation.steady address _) known
  · rw [zero]
    exact explanation.zero ..

theorem sublist {some : List Allocation} (secured : Secured explanation h free live)
    (fewer : some.Sublist live) : Secured explanation h free some :=
  { secured with
    placed := fun x member => secured.placed x (fewer.subset member)
    nonempty := fun x member => secured.nonempty x (fewer.subset member)
    apart := secured.apart.sublist fewer }

theorem perm {other : List Allocation} (secured : Secured explanation h free live)
    (same : live.Perm other) : Secured explanation h free other :=
  { secured with
    placed := fun x member => secured.placed x (same.mem_iff.2 member)
    nonempty := fun x member => secured.nonempty x (same.mem_iff.2 member)
    apart := (same.pairwise_iff Extent.Apart.symm).1 secured.apart }

theorem within (secured : Secured explanation h free live) (member : x ∈ live) :
    ∃ region ∈ h.regions, x.extent.Within region.extent := by
  obtain ⟨region, held, within⟩ := (secured.placed x member).within secured.sound
  exact ⟨region, mem_regions _ held, within⟩

theorem eq_of_address (secured : Secured explanation h free live) (first : x ∈ live)
    (second : y ∈ live) (same : x.address = y.address) : x = y := by
  by_contra different
  have apart := secured.apart.forall first second different
  exact Extent.not_apart_of_start same (secured.nonempty x first) (secured.nonempty y second) apart

/-- The slabs keep no byte of what is live. -/
theorem not_reserved (secured : Secured explanation h free live) (member : x ∈ live)
    (inside : x.extent.Holds address) : ¬h.Reserved free address := by
  intro reserved
  obtain ⟨slab, present, kept⟩ := reserved
  have places := secured.placed x member
  have inner := secured.sound.slab slab present
  have stocked := secured.stocked slab present
  by_cases alike : x.tier.Alike .slab
  · have custody := slab_custody secured.custody present
    have mine := places.of_slab alike.eq_slab present
    exact mine.not_reserved inner custody stocked inside kept
  · obtain ⟨region, held, within⟩ := places.within secured.sound
    obtain ⟨home, held', there⟩ := stocked.reserved_within inner kept
    have apart := held_apart secured.custody alike held ((held_slab present).symm ▸ held')
    exact apart.not_holds (within.holds inside) there

/-- A heap with the same parts on the same machine secures the same. -/
theorem alike (secured : Secured explanation h free live) (alike : Alike h after)
    (memory : after.machine.memory = h.machine.memory) : Secured explanation after free live where
  sound := alike.sound secured.sound
  custody := by
    rw [alike.system, alike.regions]
    exact secured.custody
  stocked slab present := by
    rw [memory]
    exact secured.stocked slab (alike.slab ▸ present)
  placed x member := by
    have places := secured.placed x member
    unfold Heap.Places at places ⊢
    rw [alike.arenas, alike.slab, alike.large]
    exact places
  nonempty := secured.nonempty
  apart := secured.apart
  content region member address inside outside := by
    rw [alike.system, memory]
    refine secured.content region (alike.regions ▸ member) address inside fun reserved => outside ?_
    obtain ⟨slab, present, kept⟩ := reserved
    exact ⟨slab, alike.slab.trans present, kept⟩

/-- The holder of an allocation may write to some part of it whatever can be explained then. -/
theorem write (secured : Secured explanation h free live) (member : x ∈ live) {part : Extent}
    (within : part.Within x.extent) {memory : Memory} {system : σ}
    (custody : os.Custody contract system h.regions)
    (outside : ∀ address, ¬part.Holds address →
      memory.get address = h.machine.memory.get address ∧
        ∀ byte, explanation.Allows h.machine.system address byte →
          explanation.Allows system address byte)
    (explained : ∀ address, part.Holds address →
      explanation.Allows system address (memory.get address)) :
    Secured explanation { h with machine := { h.machine with memory, system } } free live where
  sound := ⟨secured.sound.arenas, secured.sound.count, secured.sound.slab, secured.sound.large⟩
  custody := custody
  stocked slab present := by
    apply (secured.stocked slab present).congr
    intro address kept
    refine (outside address fun inside => ?_).1
    exact secured.not_reserved member (within.holds inside) ⟨slab, present, kept⟩
  placed := secured.placed
  nonempty := secured.nonempty
  apart := secured.apart
  content region held address there unreserved := by
    by_cases inside : part.Holds address
    · exact explained address inside
    · obtain ⟨same, known⟩ := outside address inside
      have old := secured.content region held address there unreserved
      change explanation.Allows system address (memory.get address)
      rw [same]
      exact known _ old

theorem write_keeps (secured : Secured explanation h free (x :: live)) {memory : Memory}
    (outside : ∀ address, ¬x.extent.Holds address →
      memory.get address = h.machine.memory.get address) :
    Keeps os live h.machine (h.machine.withMemory memory) := by
  intro y member address inside
  apply Machine.Spares.of_get
  apply outside
  exact Extent.Apart.not_holds ((List.pairwise_cons.1 secured.apart).1 y member).symm inside

end Secured

end Heap

end NumaHeap
