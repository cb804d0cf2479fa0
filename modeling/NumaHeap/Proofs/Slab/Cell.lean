import NumaHeap.Slab.Cell
import NumaHeap.Proofs.Slab.FreeList
import NumaHeap.Proofs.Supply

/-!
One size class on one node. Its slots are the places at which objects were carved; they share no
byte, and an object that is not on the free list has its slot for itself. The cell keeps two kinds of
bytes for its own use: the links of free objects, and the rest of its latest region, which is still
blank.
-/

namespace NumaHeap.Slab.Cell

variable {σ : Type} {os : Platform σ} {contract : os.Contract} {system : σ} {c : Cell}
  {s : Supply σ} {m n : Memory} {object other address : Nat} {objects : List Nat}

/-- An object was carved here. -/
def Slot (c : Cell) (object : Nat) : Prop :=
  ∃ region ∈ c.regions, (∃ count, object = region.start + count * c.objectSize) ∧
    object + c.objectSize ≤ region.stop ∧
    (c.regions.head? = some region → object + c.objectSize ≤ region.start + c.carved)

/-- The addresses of a slot. -/
def slot (c : Cell) (object : Nat) : Extent := ⟨object, c.objectSize⟩

/-- The address lies in the part of the latest region that is not carved yet. -/
def Uncarved (c : Cell) (address : Nat) : Prop :=
  ∃ region, c.regions.head? = some region ∧ region.start + c.carved ≤ address ∧
    address < region.stop

/-- The cell keeps the byte for its own use. -/
def Reserved (c : Cell) (objects : List Nat) (address : Nat) : Prop :=
  (∃ object ∈ objects, (Memory.linkAt object).Holds address) ∨ c.Uncarved address

/-- The free list stands for these objects, and what is not carved yet is blank. -/
structure Stocked (c : Cell) (m : Memory) (objects : List Nat) : Prop where
  free : c.free.Holds m objects
  nodup : objects.Nodup
  slots : ∀ object ∈ objects, c.Slot object
  whole : c.objectSize ∣ c.carved
  blank : ∀ address, c.Uncarved address → m.get address = 0

/-- Nothing is free in a cell that was never used, and nothing is left to carve. -/
theorem stocked_of_unused (free : c.free = {}) (regions : c.regions = []) (carved : c.carved = 0)
    (m : Memory) : c.Stocked m [] where
  free := free ▸ FreeList.empty_holds m
  nodup := .nil
  slots := nofun
  whole := carved ▸ Nat.dvd_zero _
  blank address := by
    rintro ⟨region, latest, -⟩
    rw [regions] at latest
    cases latest

theorem Slot.within (slot : c.Slot object) :
    ∃ region ∈ c.regions, (c.slot object).Within region.extent := by
  obtain ⟨region, member, ⟨count, rfl⟩, inside, -⟩ := slot
  exact ⟨region, member, Nat.le_add_right .., inside⟩

/-- Two slots are apart: in one region they are whole objects away from each other. -/
theorem Slot.apart (custody : os.Custody contract system c.regions) (first : c.Slot object)
    (second : c.Slot other) (different : object ≠ other) : (c.slot object).Apart (c.slot other) := by
  obtain ⟨region, member, ⟨count, start⟩, inside, -⟩ := first
  obtain ⟨region', member', ⟨count', start'⟩, inside', -⟩ := second
  by_cases same : region = region'
  · subst same
    rcases Nat.lt_trichotomy count count' with below | equal | above
    · have room := Nat.mul_le_mul_right c.objectSize (Nat.succ_le_of_lt below)
      rw [Nat.succ_mul] at room
      refine .inl ?_
      change object + c.objectSize ≤ other
      omega
    · exact absurd (start.trans (equal ▸ start'.symm)) different
    · have room := Nat.mul_le_mul_right c.objectSize (Nat.succ_le_of_lt above)
      rw [Nat.succ_mul] at room
      refine .inr ?_
      change other + c.objectSize ≤ object
      omega
  · have apart : region.extent.Apart region'.extent := custody.apart_of_ne member member' same
    have one : (c.slot object).Within region.extent := ⟨start ▸ Nat.le_add_right .., inside⟩
    have two : (c.slot other).Within region'.extent := ⟨start' ▸ Nat.le_add_right .., inside'⟩
    exact apart.mono one two

/-- No slot reaches into what is not carved yet. -/
theorem Slot.not_uncarved (custody : os.Custody contract system c.regions) (slot : c.Slot object)
    (inside : (c.slot object).Holds address) : ¬c.Uncarved address := by
  intro uncarved
  obtain ⟨region, member, ⟨count, start⟩, below, carved⟩ := slot
  obtain ⟨head, latest, above, stop⟩ := uncarved
  have first : region.extent.Holds address := by
    simp only [Cell.slot, Extent.Holds, Extent.stop, Region.extent, Region.stop] at *
    omega
  have second : head.extent.Holds address := by
    simp only [Extent.Holds, Extent.stop, Region.extent, Region.stop] at *
    omega
  have same := custody.eq_of_holds member (List.mem_of_mem_head? latest) first second
  subst same
  have limit := carved latest
  simp only [Cell.slot, Extent.Holds, Extent.stop] at inside
  omega

theorem link_within (least : linkSize ≤ c.objectSize) :
    (Memory.linkAt object).Within (c.slot object) :=
  ⟨Nat.le_refl _, Nat.add_le_add_left least object⟩

theorem Slot.linkable (custody : os.Custody contract system c.regions)
    (least : linkSize ≤ c.objectSize) (slot : c.Slot object) : FreeList.Linkable object := by
  obtain ⟨region, member, ⟨count, rfl⟩, inside, -⟩ := slot
  have positive := custody.start_pos region member
  have bounded := custody.within region member
  unfold FreeList.Linkable
  omega

theorem links_apart (custody : os.Custody contract system c.regions)
    (least : linkSize ≤ c.objectSize) (first : c.Slot object) (second : c.Slot other)
    (different : object ≠ other) : (Memory.linkAt object).Apart (Memory.linkAt other) :=
  (Slot.apart custody first second different).mono (link_within least) (link_within least)

namespace Stocked

theorem reserved_within (stocked : c.Stocked m objects) (least : linkSize ≤ c.objectSize)
    (reserved : c.Reserved objects address) : ∃ region ∈ c.regions, region.extent.Holds address := by
  rcases reserved with ⟨object, member, inside⟩ | ⟨region, latest, above, below⟩
  · obtain ⟨region, held, within⟩ := (stocked.slots object member).within
    exact ⟨region, held, within.holds ((link_within least).holds inside)⟩
  · exact ⟨region, List.mem_of_mem_head? latest, Nat.le_trans (Nat.le_add_right ..) above, below⟩

/-- An object that is not free has its slot for itself. -/
theorem not_reserved (stocked : c.Stocked m objects) (least : linkSize ≤ c.objectSize)
    (custody : os.Custody contract system c.regions) (slot : c.Slot object)
    (taken : object ∉ objects) (inside : (c.slot object).Holds address) :
    ¬c.Reserved objects address := by
  intro reserved
  rcases reserved with ⟨other, member, held⟩ | uncarved
  · have different : object ≠ other := fun same => taken (same ▸ member)
    have apart := Slot.apart custody slot (stocked.slots other member) different
    exact apart.not_holds inside ((link_within least).holds held)
  · exact slot.not_uncarved custody inside uncarved

theorem congr (stocked : c.Stocked m objects)
    (same : ∀ address, c.Reserved objects address → n.get address = m.get address) :
    c.Stocked n objects :=
  { stocked with
    free := stocked.free.congr fun object member address inside =>
      same address (.inl ⟨object, member, inside⟩)
    blank := fun address uncarved => (same address (.inr uncarved)).trans
      (stocked.blank address uncarved) }

theorem pop {free : FreeList} (stocked : c.Stocked m objects) (least : linkSize ≤ c.objectSize)
    (custody : os.Custody contract system c.regions)
    (popped : c.free.pop? m = some (object, free, n)) :
    ∃ rest, objects = object :: rest ∧ n = m.setWord object 0 ∧
      { c with free, hits := c.hits + 1 }.Stocked n rest := by
  obtain ⟨rest, rfl, rfl, holds⟩ := FreeList.pop?_holds stocked.free popped
  have here := stocked.slots object (List.mem_cons_self ..)
  obtain ⟨fresh, nodup⟩ := List.nodup_cons.1 stocked.nodup
  refine ⟨rest, rfl, rfl, holds ?_, nodup, ?_, stocked.whole, ?_⟩
  · intro other member
    have there := stocked.slots other (List.mem_cons_of_mem _ member)
    exact links_apart custody least here there fun same => fresh (same ▸ member)
  · exact fun other member => stocked.slots other (List.mem_cons_of_mem _ member)
  · intro address uncarved
    rw [Memory.get_setWord_outside]
    · exact stocked.blank address uncarved
    · exact fun inside => here.not_uncarved custody ((link_within least).holds inside) uncarved

theorem push (stocked : c.Stocked m objects) (least : linkSize ≤ c.objectSize)
    (custody : os.Custody contract system c.regions) (slot : c.Slot object)
    (taken : object ∉ objects) :
    { c with free := (c.free.push m object).1 }.Stocked (c.free.push m object).2
      (object :: objects) := by
  have others : ∀ other ∈ objects, FreeList.Linkable other :=
    fun other member => (stocked.slots other member).linkable custody least
  have apart : ∀ other ∈ objects, (Memory.linkAt object).Apart (Memory.linkAt other) :=
    fun other member => links_apart custody least slot (stocked.slots other member)
      fun same => taken (same ▸ member)
  refine ⟨FreeList.push_holds stocked.free (slot.linkable custody least) others apart,
    List.nodup_cons.2 ⟨taken, stocked.nodup⟩, ?_, stocked.whole, ?_⟩
  · intro other member
    rcases List.mem_cons.1 member with rfl | old
    · exact slot
    · exact stocked.slots other old
  · intro address uncarved
    refine (Memory.get_setWord_outside fun inside => ?_).trans (stocked.blank address uncarved)
    exact slot.not_uncarved custody ((link_within least).holds inside) uncarved

end Stocked

/-- The cell with room for one more object: as it was, or with a new region. -/
inductive Room (os : Platform σ) (c : Cell) (s : Supply σ) : Cell → Supply σ → List Region → Prop
  | kept : Room os c s c s []
  | mapped {later : Supply σ} {region : Region} : c.roomy? = none → s.Grows os later [region] →
      Room os c s { c with regions := region :: c.regions, carved := 0 } later [region]

/-- How a cell serves a request: with a free object, with a new one, or not at all. -/
inductive Allocates (os : Platform σ) (c : Cell) (s : Supply σ) :
    Except MapError Nat → Cell → Supply σ → List Region → Prop
  | popped {object : Nat} {free : FreeList} {memory : Memory} :
      c.free.pop? s.machine.memory = some (object, free, memory) →
      Allocates os c s (.ok object) { c with free, hits := c.hits + 1 }
        { s with machine := s.machine.withMemory memory } []
  | failed {cause : MapError} {later : Supply σ} :
      s.Grows os later [] → Allocates os c s (.error cause) c later []
  | carved {roomy : Cell} {later : Supply σ} {new : List Region} {region : Region} :
      Room os c s roomy later new → roomy.regions.head? = some region →
      roomy.carved + roomy.objectSize ≤ region.length →
      Allocates os c s (.ok (region.start + roomy.carved))
        { roomy with carved := roomy.carved + roomy.objectSize, misses := roomy.misses + 1 }
        later new

theorem regionLength_spec (page : PowerOfTwo) {size : Nat} (positive : 0 < size) :
    size ≤ regionLength page size ∧ 0 < regionLength page size := by
  have least : size * 1 ≤ size * max (page.value / size) Size.slabMinObjects :=
    Nat.mul_le_mul_left size (Nat.le_trans (by decide) (Nat.le_max_right _ Size.slabMinObjects))
  unfold regionLength
  omega

theorem allocate_spec {answer : Except MapError Nat} {after : Cell} {later : Supply σ}
    (positive : 0 < c.objectSize) (served : c.allocate os s = (answer, after, later)) :
    ∃ new, Allocates os c s answer after later new := by
  unfold allocate pop? at served
  cases popped : c.free.pop? s.machine.memory with
  | some taken =>
    obtain ⟨object, free, memory⟩ := taken
    rw [popped] at served
    cases served
    exact ⟨[], .popped popped⟩
  | none =>
    rw [popped] at served
    simp only [Option.map_none, ensureRoom] at served
    cases roomy : c.roomy? with
    | some region =>
      rw [roomy] at served
      cases served
      obtain ⟨latest, room⟩ := Option.filter_eq_some_iff.1 roomy
      exact ⟨[], .carved .kept latest (of_decide_eq_true room)⟩
    | none =>
      obtain ⟨enough, asked⟩ := regionLength_spec os.pageSize positive
      rw [roomy] at served
      cases mapped : s.map os (regionLength os.pageSize c.objectSize) c.node with
      | mk answer supply =>
        obtain ⟨ok, failed⟩ := Supply.map_grows asked mapped
        rw [mapped] at served
        cases answer with
        | error cause =>
          cases served
          exact ⟨[], .failed (failed cause rfl)⟩
        | ok region =>
          cases served
          obtain ⟨long, -, grows⟩ := ok region rfl
          refine ⟨[region], .carved (.mapped roomy grows) rfl ?_⟩
          change 0 + c.objectSize ≤ region.length
          omega

theorem Room.spec {roomy : Cell} {later : Supply σ} {new : List Region}
    (room : Room os c s roomy later new) :
    s.Grows os later new ∧ roomy.regions = new ++ c.regions ∧ roomy.objectSize = c.objectSize := by
  cases room with
  | kept => exact ⟨.refl os s, rfl, rfl⟩
  | mapped _ grows => exact ⟨grows, rfl, rfl⟩

theorem Allocates.spec {answer : Except MapError Nat} {after : Cell} {later : Supply σ}
    {new : List Region} (allocates : Allocates os c s answer after later new) :
    os.Gains s.machine.system later.machine.system new ∧
      later.mapper.mappedBytes = s.mapper.mappedBytes + Region.total new ∧
      after.regions = new ++ c.regions ∧ after.objectSize = c.objectSize := by
  cases allocates with
  | popped => exact ⟨.refl, rfl, rfl, rfl⟩
  | failed grows => exact ⟨grows.gains, grows.mappedBytes, rfl, rfl⟩
  | carved room =>
    obtain ⟨grows, regions, size⟩ := room.spec
    exact ⟨grows.gains, grows.mappedBytes, regions, size⟩

/-- What was a slot of a cell stays one when room is made in it. -/
theorem Room.slot {roomy : Cell} {later : Supply σ} {new : List Region}
    (room : Room os c s roomy later new)
    (custody : os.Custody contract system (new ++ c.regions)) (slot : c.Slot object) :
    roomy.Slot object := by
  cases room with
  | kept => exact slot
  | mapped =>
    obtain ⟨old, member, place, inside, -⟩ := slot
    refine ⟨old, List.mem_cons_of_mem _ member, place, inside, fun latest => ?_⟩
    cases Option.some.inj latest
    exact absurd member (List.nodup_cons.1 custody.nodup).1

theorem Room.stocked {roomy : Cell} {later : Supply σ} {new : List Region}
    (room : Room os c s roomy later new) (least : linkSize ≤ c.objectSize)
    (custody : os.Custody contract system (new ++ c.regions))
    (stocked : c.Stocked s.machine.memory objects) :
    roomy.Stocked later.machine.memory objects := by
  have slots : ∀ object ∈ objects, roomy.Slot object :=
    fun object member => room.slot custody (stocked.slots object member)
  cases room with
  | kept => exact stocked
  | @mapped later region _ grows =>
    refine ⟨stocked.free.congr ?_, stocked.nodup, slots, Nat.dvd_zero _, ?_⟩
    · intro object member address inside
      obtain ⟨old, held, within⟩ := (stocked.slots object member).within
      have there := within.holds ((link_within least).holds inside)
      apply grows.same
      intro new fresh
      rw [List.mem_singleton.1 fresh]
      exact ((List.pairwise_cons.1 custody.apart).1 old held).symm.not_holds there
    · intro address uncarved
      obtain ⟨latest, same, above, below⟩ := uncarved
      cases Option.some.inj same
      exact grows.blank region (List.mem_singleton_self _) address ⟨above, below⟩

/-- What is left of a region that is too short for one more object stays blank. -/
theorem Room.uncarved {roomy : Cell} {later : Supply σ} {new : List Region}
    (room : Room os c s roomy later new)
    (custody : os.Custody contract system (new ++ c.regions))
    (stocked : c.Stocked s.machine.memory objects) (uncarved : c.Uncarved address) :
    roomy.Uncarved address ∨ later.machine.memory.get address = 0 := by
  cases room with
  | kept => exact .inl uncarved
  | mapped _ grows =>
    refine .inr ((grows.same address ?_).trans (stocked.blank address uncarved))
    intro fresh member
    obtain ⟨old, latest, above, below⟩ := uncarved
    have apart := (List.pairwise_append.1 custody.apart).2.2 fresh member old
      (List.mem_of_mem_head? latest)
    exact apart.symm.not_holds ⟨Nat.le_trans (Nat.le_add_right ..) above, below⟩

section

variable {region : Region}

theorem Uncarved.of_carve (uncarved : (c.carve region).2.Uncarved address) :
    c.Uncarved address := by
  obtain ⟨head, latest, above, below⟩ := uncarved
  dsimp only [carve] at above
  exact ⟨head, latest, by omega, below⟩

theorem Slot.carve (slot : c.Slot object) : (c.carve region).2.Slot object := by
  obtain ⟨home, member, place, inside, limit⟩ := slot
  refine ⟨home, member, place, inside, fun latest => ?_⟩
  have below := limit latest
  dsimp only [Cell.carve]
  omega

theorem Stocked.carve (stocked : c.Stocked m objects) : (c.carve region).2.Stocked m objects where
  free := stocked.free
  nodup := stocked.nodup
  slots object member := (stocked.slots object member).carve
  whole := Nat.dvd_add stocked.whole (Nat.dvd_refl _)
  blank address uncarved := stocked.blank address uncarved.of_carve

/-- What is carved becomes a slot. -/
theorem slot_carve (whole : c.objectSize ∣ c.carved) (latest : c.regions.head? = some region)
    (room : c.carved + c.objectSize ≤ region.length) :
    (c.carve region).2.Slot (c.carve region).1 := by
  obtain ⟨count, multiple⟩ := whole
  refine ⟨region, List.mem_of_mem_head? latest, ⟨count, ?_⟩, ?_, fun _ => ?_⟩
  · dsimp only [Cell.carve]
    rw [multiple, Nat.mul_comm]
  · unfold Region.stop
    dsimp only [Cell.carve]
    omega
  · dsimp only [Cell.carve]
    omega

/-- What is carved was not carved yet. -/
theorem uncarved_of_slot (latest : c.regions.head? = some region)
    (room : c.carved + c.objectSize ≤ region.length)
    (inside : (c.slot (c.carve region).1).Holds address) : c.Uncarved address := by
  obtain ⟨above, below⟩ := Extent.holds_mk.1 inside
  dsimp only [Cell.carve] at above below
  refine ⟨region, latest, above, ?_⟩
  unfold Region.stop
  omega

/-- Whatever has a slot already is not what is carved next. -/
theorem Slot.ne_carve (custody : os.Custody contract system c.regions) (positive : 0 < c.objectSize)
    (latest : c.regions.head? = some region) (room : c.carved + c.objectSize ≤ region.length)
    (slot : c.Slot other) : other ≠ (c.carve region).1 := by
  intro same
  have start : (c.slot other).Holds other := Extent.holds_mk.2 ⟨Nat.le_refl _, by omega⟩
  exact slot.not_uncarved custody start (uncarved_of_slot latest room (same ▸ start))

end

/-- What a cell does when it hands out an object. The slot of the object was nobody's, no other byte
is touched, and bytes that the cell kept for itself are blank when it lets go of them. -/
structure Hands (os : Platform σ) (c : Cell) (before : Machine σ) (objects : List Nat) (object : Nat)
    (after : Cell) (later : Machine σ) (left : List Nat) (new : List Region) : Prop where
  stocked : after.Stocked later.memory left
  slot : after.Slot object
  taken : object ∉ left
  kept : ∀ other, c.Slot other → other ∉ objects → after.Slot other ∧ other ∉ left ∧ other ≠ object
  released : ∀ address, ¬after.Reserved left address →
    ¬c.Reserved objects address ∨ later.memory.get address = 0
  spared : ∀ address, (∀ region ∈ new, ¬region.extent.Holds address) →
    ¬(Memory.linkAt object).Holds address → before.Spares os later address
  clean : ∀ address, (Memory.linkAt object).Holds address → later.memory.get address = 0
  blank : ∀ region ∈ new, ∀ address, region.extent.Holds address → later.memory.get address = 0

/-- A free object is handed out: its link is cleared, and is no longer the cell's. -/
theorem hands_of_pop {free : FreeList} (stocked : c.Stocked s.machine.memory objects)
    (least : linkSize ≤ c.objectSize) (custody : os.Custody contract system c.regions)
    (popped : c.free.pop? s.machine.memory = some (object, free, m)) :
    Hands os c s.machine objects object { c with free, hits := c.hits + 1 }
      (s.machine.withMemory m) (objects.filter (· != object)) [] := by
  obtain ⟨left, rfl, rfl, remains⟩ := stocked.pop least custody popped
  have slot := stocked.slots object (List.mem_cons_self ..)
  have taken := (List.nodup_cons.1 stocked.nodup).1
  rw [← stocked.nodup.erase_eq_filter, List.erase_cons_head]
  refine ⟨remains, slot, taken, ?_, ?_, ?_, ?_, nofun⟩
  · intro other there used
    exact ⟨there, fun member => used (List.mem_cons_of_mem _ member),
      fun same => used (same ▸ List.mem_cons_self ..)⟩
  · intro address outside
    by_cases inside : (Memory.linkAt object).Holds address
    · exact .inr (Memory.get_setWord_zero inside)
    · refine .inl fun reserved => outside ?_
      rcases reserved with ⟨other, member, link⟩ | uncarved
      · rcases List.mem_cons.1 member with rfl | rest
        · exact absurd link inside
        · exact .inl ⟨other, rest, link⟩
      · exact .inr uncarved
  · intro address _ outside
    exact .of_get s.machine (Memory.get_setWord_outside outside)
  · exact fun address inside => Memory.get_setWord_zero inside

/-- A new object is handed out: its bytes are blank, and nothing is written. -/
theorem hands_of_carve {roomy : Cell} {later : Supply σ} {new : List Region} {region : Region}
    (room : Room os c s roomy later new) (latest : roomy.regions.head? = some region)
    (enough : roomy.carved + roomy.objectSize ≤ region.length) (least : linkSize ≤ c.objectSize)
    (custody : os.Custody contract system (new ++ c.regions))
    (stocked : c.Stocked s.machine.memory objects) :
    Hands os c s.machine objects (roomy.carve region).1 (roomy.carve region).2 later.machine
      (objects.filter (· != (roomy.carve region).1)) new := by
  obtain ⟨grows, regions, size⟩ := room.spec
  have roomyCustody : os.Custody contract system roomy.regions := regions ▸ custody
  have refilled := room.stocked least custody stocked
  have positive : 0 < roomy.objectSize := size ▸ Nat.lt_of_lt_of_le (by decide) least
  have fresh : ∀ other, roomy.Slot other → other ≠ (roomy.carve region).1 :=
    fun other slot => slot.ne_carve roomyCustody positive latest enough
  have used : (roomy.carve region).1 ∉ objects :=
    fun member => fresh _ (refilled.slots _ member) rfl
  rw [← stocked.nodup.erase_eq_filter, List.erase_of_not_mem used]
  refine ⟨refilled.carve, slot_carve refilled.whole latest enough, used, ?_, ?_, ?_, ?_, grows.blank⟩
  · intro other there taken
    have still := room.slot custody there
    exact ⟨still.carve, taken, fresh other still⟩
  · intro address outside
    by_cases uncarved : roomy.Uncarved address
    · exact .inr (refilled.blank address uncarved)
    · by_cases reserved : c.Reserved objects address
      · rcases reserved with free | rest
        · exact absurd (.inl free) outside
        · exact .inr ((room.uncarved custody stocked rest).resolve_left uncarved)
      · exact .inl reserved
  · intro address outside _
    exact grows.spares outside
  · intro address inside
    have wide := (link_within (size ▸ least)).holds inside
    exact refilled.blank address (uncarved_of_slot latest enough wide)

theorem Allocates.hands {after : Cell} {later : Supply σ} {new : List Region}
    (allocates : Allocates os c s (.ok object) after later new) (least : linkSize ≤ c.objectSize)
    (custody : os.Custody contract system (new ++ c.regions))
    (stocked : c.Stocked s.machine.memory objects) :
    Hands os c s.machine objects object after later.machine (objects.filter (· != object)) new := by
  cases allocates with
  | popped popped => exact hands_of_pop stocked least custody popped
  | carved room latest enough => exact hands_of_carve room latest enough least custody stocked

end NumaHeap.Slab.Cell
