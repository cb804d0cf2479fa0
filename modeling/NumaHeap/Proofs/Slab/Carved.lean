import NumaHeap.Proofs.Slab.Recycle

/-!
Which objects were ever carved, and where. An object has its slot in one cell and keeps it for good;
a request that is served carves at most the object that it hands out.
-/

namespace NumaHeap.Slab

variable {σ : Type} {os : Platform σ} {contract : os.Contract} {system : σ} {s after : Slab}
  {machine later : Machine σ} {sizeClass node home place object other : Nat} {c last : Cell}
  {new : List Region} {m : Memory} {free : Nat → List Nat}

namespace Cell

variable {supply supply' : Supply σ} {region : Region} {objects : List Nat}

/-- Without room, less than an object is left of the latest region. -/
theorem length_lt_of_roomy?_eq_none (full : c.roomy? = none)
    (latest : c.regions.head? = some region) : region.length < c.carved + c.objectSize := by
  simpa [roomy?, latest] using full

/-- So many objects lie in front of another if that comes later. -/
theorem mul_add_le_mul_iff {size count carved : Nat} (positive : 0 < size) :
    count * size + size ≤ carved * size ↔ count < carved := by
  rw [← Nat.add_one_mul, Nat.mul_le_mul_right_iff positive, Nat.add_one_le_iff]

/-- Carving makes one more slot, where the carved part ended. -/
theorem slot_carve_iff (positive : 0 < c.objectSize) (whole : c.objectSize ∣ c.carved)
    (latest : c.regions.head? = some region) (room : c.carved + c.objectSize ≤ region.length) :
    (c.carve region).2.Slot other ↔ c.Slot other ∨ other = (c.carve region).1 := by
  constructor
  · rintro ⟨home, member, ⟨count, rfl⟩, inside, limit⟩
    by_cases same : c.regions.head? = some home
    · cases Option.some.inj (latest.symm.trans same)
      obtain ⟨carved, multiple⟩ : ∃ carved, c.carved = carved * c.objectSize :=
        ⟨_, (Nat.div_mul_cancel whole).symm⟩
      have below : region.start + count * c.objectSize + c.objectSize ≤
          region.start + (c.carved + c.objectSize) := limit latest
      have order : count < carved + 1 := by
        rw [← mul_add_le_mul_iff positive, Nat.add_one_mul]
        omega
      simp only [carve, multiple]
      rcases Nat.eq_or_lt_of_le (Nat.le_of_lt_succ order) with rfl | before
      · exact .inr rfl
      · have fits := (mul_add_le_mul_iff positive).2 before
        refine .inl ⟨region, member, ⟨count, rfl⟩, inside, fun _ => ?_⟩
        rw [multiple]
        omega
    · exact .inl ⟨home, member, ⟨count, rfl⟩, inside, fun also => absurd also same⟩
  · rintro (slot | rfl)
    · exact slot.carve
    · exact slot_carve whole latest room

/-- Room is made without a slot: a region that is left had no room for one. -/
theorem Room.slot_iff {roomy : Cell} (room : Room os c supply roomy supply' new)
    (custody : os.Custody contract system (new ++ c.regions)) (positive : 0 < c.objectSize)
    (whole : c.objectSize ∣ c.carved) : roomy.Slot other ↔ c.Slot other := by
  refine ⟨fun slot => ?_, room.slot custody⟩
  cases room with
  | kept => exact slot
  | mapped full =>
    obtain ⟨home, member, ⟨count, rfl⟩, inside, limit⟩ := slot
    rcases List.mem_cons.1 member with rfl | old
    · have none := limit rfl
      dsimp only at none
      omega
    · refine ⟨home, old, ⟨count, rfl⟩, inside, fun latest => ?_⟩
      have short := length_lt_of_roomy?_eq_none full latest
      obtain ⟨carved, multiple⟩ : ∃ carved, c.carved = carved * c.objectSize :=
        ⟨_, (Nat.div_mul_cancel whole).symm⟩
      simp only [multiple, Region.stop] at short inside ⊢
      have order : count < carved := by
        apply Nat.lt_of_mul_lt_mul_right (a := c.objectSize)
        omega
      have fits := (mul_add_le_mul_iff positive).2 order
      omega

/-- The object that is handed out has a slot from then on, and no other place gets one. -/
theorem Allocates.slot_iff (allocates : Allocates os c supply (.ok object) last supply' new)
    (least : linkSize ≤ c.objectSize) (custody : os.Custody contract system (new ++ c.regions))
    (stocked : c.Stocked supply.machine.memory objects) :
    last.Slot other ↔ c.Slot other ∨ other = object := by
  have positive : 0 < c.objectSize := Nat.lt_of_lt_of_le (by decide) least
  cases allocates with
  | popped popped =>
    obtain ⟨top, -⟩ := FreeList.pop?_eq_some popped
    have slot := stocked.slots object (stocked.free.linked.head_mem top)
    exact ⟨.inl, fun either => either.elim id fun same => same ▸ slot⟩
  | carved room latest enough =>
    obtain ⟨-, -, size⟩ := room.spec
    have whole := (room.stocked least custody stocked).whole
    rw [← room.slot_iff custody positive stocked.whole]
    exact slot_carve_iff (size ▸ positive) whole latest enough

/-- An object that is handed out came off the list, or it is a new one and was missed there. -/
theorem Allocates.counts (allocates : Allocates os c supply (.ok object) last supply' new)
    (least : linkSize ≤ c.objectSize) (custody : os.Custody contract system (new ++ c.regions))
    (stocked : c.Stocked supply.machine.memory objects) :
    last.node = c.node ∧ last.hits + last.misses = c.hits + c.misses + 1 ∧
      last.misses + objects.length = c.misses + (objects.filter (· != object)).length + 1 := by
  cases allocates with
  | popped popped =>
    obtain ⟨left, rfl, -⟩ := stocked.pop least custody popped
    rw [← stocked.nodup.erase_eq_filter, List.erase_cons_head, List.length_cons]
    exact ⟨rfl, by dsimp only; omega, rfl⟩
  | @carved roomy _ _ region room latest enough =>
    obtain ⟨-, regions, size⟩ := room.spec
    have refilled := room.stocked least custody stocked
    have positive : 0 < roomy.objectSize := size ▸ Nat.lt_of_lt_of_le (by decide) least
    have absent : region.start + roomy.carved ∉ objects := fun member =>
      (refilled.slots _ member).ne_carve (regions ▸ custody) positive latest enough rfl
    rw [← stocked.nodup.erase_eq_filter, List.erase_of_not_mem absent]
    cases room with
    | kept => exact ⟨rfl, rfl, by dsimp only; omega⟩
    | mapped => exact ⟨rfl, rfl, by dsimp only; omega⟩

end Cell

/-- The object was carved from the class on the node. -/
def Carved (s : Slab) (node sizeClass object : Nat) : Prop :=
  sizeClass < Size.slabClassCount ∧ ∃ c, s.cell? node sizeClass = some c ∧ c.Slot object

theorem cellIndex_eq_iff (first : sizeClass < Size.slabClassCount)
    (second : place < Size.slabClassCount) :
    cellIndex node sizeClass = cellIndex home place ↔ node = home ∧ sizeClass = place := by
  unfold cellIndex Size.slabClassCount at *
  omega

/-- One cell is replaced, and no other. -/
theorem cell?_set (found : s.cell? home place = some c) (bounded : place < Size.slabClassCount)
    (cells : after.cells = s.cells.set (cellIndex home place) last)
    (small : sizeClass < Size.slabClassCount) :
    after.cell? node sizeClass =
      if node = home ∧ sizeClass = place then some last else s.cell? node sizeClass := by
  rw [cell?, cells]
  split
  · next same =>
    obtain ⟨rfl, rfl⟩ := same
    exact List.getElem?_set_self (List.getElem?_eq_some_iff.1 found).1
  · next different =>
    apply List.getElem?_set_ne
    rw [ne_comm, Ne, cellIndex_eq_iff small bounded]
    exact different

namespace Carved

/-- No object was carved from two cells. -/
theorem unique (sound : s.Sound) (custody : os.Custody contract system s.regions)
    (first : s.Carved node sizeClass object) (second : s.Carved home place object) :
    node = home ∧ sizeClass = place := by
  obtain ⟨bounded, c, here, slot⟩ := first
  obtain ⟨bounded', d, there, slot'⟩ := second
  rw [← cellIndex_eq_iff bounded bounded']
  apply cell_unique custody here there
  · exact slot.owns (sound.least here)
  · exact slot'.owns (sound.least there)

theorem congr (cells : after.cells = s.cells) :
    after.Carved node sizeClass object ↔ s.Carved node sizeClass object := by
  simp only [Carved, cell?, cells]

/-- A cell is replaced by one that may have more slots. -/
theorem set_iff {more : Nat → Prop} (found : s.cell? home place = some c)
    (bounded : place < Size.slabClassCount)
    (cells : after.cells = s.cells.set (cellIndex home place) last)
    (slots : ∀ other, last.Slot other ↔ c.Slot other ∨ more other) :
    after.Carved node sizeClass other ↔
      s.Carved node sizeClass other ∨ (node = home ∧ sizeClass = place ∧ more other) := by
  by_cases small : sizeClass < Size.slabClassCount
  · rw [Carved, Carved, cell?_set found bounded cells small]
    by_cases same : node = home ∧ sizeClass = place
    · obtain ⟨rfl, rfl⟩ := same
      simp [found, slots, bounded]
    · have outside : ¬(node = home ∧ sizeClass = place ∧ more other) :=
        fun also => same ⟨also.1, also.2.1⟩
      rw [if_neg same, or_iff_left outside]
  · have outside : ¬(node = home ∧ sizeClass = place ∧ more other) :=
      fun also => small (also.2.1 ▸ bounded)
    rw [or_iff_left outside, Carved, Carved]
    simp [small]

/-- An object that is not free stands where it was carved. -/
theorem places (sound : s.Sound) (carved : s.Carved node sizeClass object)
    (used : object ∉ free (cellIndex node sizeClass)) {size : Nat}
    (fits : size ≤ Size.slabObject sizeClass) : s.Places free object size := by
  obtain ⟨bounded, c, found, slot⟩ := carved
  exact ⟨_, c, found, slot, used, sound.objectSize found bounded ▸ fits⟩

end Carved

/-- What is served was carved where it is served from, sooner or later, and nothing else was. -/
theorem Serves.carved_iff {placement : Arena.Placement} (sound : s.Sound)
    (custody : os.Custody contract system (new ++ s.regions))
    (stocked : s.Stocked machine.memory free)
    (serves : Serves os sizeClass s machine (.ok placement) after later new) :
    after.Carved home place other ↔ s.Carved home place other ∨
      (home = placement.node ∧ place = sizeClass ∧ other = placement.address) := by
  cases serves with
  | @served node object c last middle supply after new first found bounded allocates cells =>
    have still : s.Stocked middle.machine.memory free :=
      stocked.congr fun address _ => first.same address nofun
    have inner := custody.sublist ((regions_sublist found).append_left new)
    exact Carved.set_iff found bounded cells fun other =>
      allocates.slot_iff (sound.least found) inner (still _ c found)

/-- One cell counts what is served: as a hit if the object was free, else as a miss. -/
theorem Serves.counts {placement : Arena.Placement} (sound : s.Sound)
    (custody : os.Custody contract system (new ++ s.regions))
    (stocked : s.Stocked machine.memory free)
    (serves : Serves os sizeClass s machine (.ok placement) after later new) :
    ∃ c last, s.cell? placement.node sizeClass = some c ∧
      after.cells = s.cells.set (cellIndex placement.node sizeClass) last ∧ last.node = c.node ∧
      last.hits + last.misses = c.hits + c.misses + 1 ∧
      last.misses + (free (cellIndex placement.node sizeClass)).length =
        c.misses + (without free placement.address (cellIndex placement.node sizeClass)).length + 1 := by
  cases serves with
  | @served node object c last middle supply after new first found bounded allocates cells =>
    have still : s.Stocked middle.machine.memory free :=
      stocked.congr fun address _ => first.same address nofun
    have inner := custody.sublist ((regions_sublist found).append_left new)
    exact ⟨c, last, found, cells, allocates.counts (sound.least found) inner (still _ c found)⟩

end NumaHeap.Slab
