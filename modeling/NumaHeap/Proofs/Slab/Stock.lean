import NumaHeap.Proofs.Slab.Basic
import Mathlib.Logic.Function.Basic

/-!
The stock of the slabs: which objects are free in each cell. An object that is handed out has left the
stock, and its slot is then its own: none of its bytes is kept by any cell, and no other object that
was handed out shares one with it.
-/

namespace NumaHeap.Slab

variable {σ : Type} {os : Platform σ} {contract : os.Contract} {system : σ} {s after : Slab}
  {machine later : Machine σ} {sizeClass index : Nat} {c : Cell} {new : List Region}
  {m n : Memory} {free left : Nat → List Nat} {object other address size width : Nat}

/-- Each free list stands for the objects that are free in its cell. -/
def Stocked (s : Slab) (m : Memory) (free : Nat → List Nat) : Prop :=
  ∀ (index : Nat) (c : Cell), s.cells[index]? = some c → c.Stocked m (free index)

/-- Some cell keeps the byte for its own use. -/
def Reserved (s : Slab) (free : Nat → List Nat) (address : Nat) : Prop :=
  ∃ (index : Nat) (c : Cell), s.cells[index]? = some c ∧ c.Reserved (free index) address

/-- An object of that size can stand here: in a slot that is not free. -/
def Places (s : Slab) (free : Nat → List Nat) (object size : Nat) : Prop :=
  ∃ (index : Nat) (c : Cell), s.cells[index]? = some c ∧ c.Slot object ∧ object ∉ free index ∧
    size ≤ c.objectSize

theorem regions_sublist (found : s.cells[index]? = some c) : c.regions.Sublist s.regions := by
  rw [regions, List.flatMap_def]
  exact List.sublist_flatten_of_mem (List.mem_map_of_mem (List.mem_of_getElem? found))

theorem region_mem (found : s.cells[index]? = some c) {region : Region}
    (member : region ∈ c.regions) : region ∈ s.regions :=
  List.mem_flatMap.2 ⟨c, List.mem_of_getElem? found, member⟩

/-- No two cells have a byte in common. -/
theorem same_cell (custody : os.Custody contract system s.regions) {place : Nat} {d : Cell}
    (here : s.cells[index]? = some c) (there : s.cells[place]? = some d) {region home : Region}
    (first : region ∈ c.regions) (second : home ∈ d.regions) (one : region.extent.Holds address)
    (two : home.extent.Holds address) : index = place := by
  have same := custody.eq_of_holds (region_mem here first) (region_mem there second) one two
  subst same
  exact Parts.index_unique custody.nodup here there first second

theorem Places.within (places : s.Places free object size) :
    ∃ region ∈ s.regions, Extent.Within ⟨object, size⟩ region.extent := by
  obtain ⟨index, c, found, slot, -, fits⟩ := places
  obtain ⟨region, member, first, last⟩ := slot.within
  exact ⟨region, region_mem found member, first, Nat.le_trans (Nat.add_le_add_left fits _) last⟩

theorem Places.mono (places : s.Places free object size) {less : Nat} (fits : less ≤ size) :
    s.Places free object less := by
  obtain ⟨index, c, found, slot, used, room⟩ := places
  exact ⟨index, c, found, slot, used, Nat.le_trans fits room⟩

theorem Places.link (sound : s.Sound) (places : s.Places free object size) :
    s.Places free object linkSize := by
  obtain ⟨index, c, found, slot, used, -⟩ := places
  exact ⟨index, c, found, slot, used, sound.least found⟩

theorem Places.aligned (sound : s.Sound) (custody : os.Custody contract system s.regions)
    (page : 8 ∣ os.pageSize.value) (places : s.Places free object size) : 8 ∣ object := by
  obtain ⟨index, c, found, ⟨region, member, ⟨count, rfl⟩, -⟩, -⟩ := places
  have start := custody.aligned region (region_mem found member)
  rw [sound.sizes index c found]
  exact Nat.dvd_add (Nat.dvd_trans page start)
    (Nat.dvd_mul_left_of_dvd (Size.eight_dvd_slabObject _) count)

theorem Places.apart (custody : os.Custody contract system s.regions)
    (first : s.Places free object width) (second : s.Places free other size)
    (different : object ≠ other) : Extent.Apart ⟨object, width⟩ ⟨other, size⟩ := by
  obtain ⟨index, c, found, slot, -, fits⟩ := first
  obtain ⟨place, d, there, slot', -, fits'⟩ := second
  have one : Extent.Within ⟨object, width⟩ (c.slot object) :=
    ⟨Nat.le_refl _, Nat.add_le_add_left fits object⟩
  have two : Extent.Within ⟨other, size⟩ (d.slot other) :=
    ⟨Nat.le_refl _, Nat.add_le_add_left fits' other⟩
  by_cases same : index = place
  · subst same
    cases Option.some.inj (found.symm.trans there)
    have inner := custody.sublist (regions_sublist found)
    exact (Cell.Slot.apart inner slot slot' different).mono one two
  · obtain ⟨region, member, inside⟩ := slot.within
    obtain ⟨home, member', inside'⟩ := slot'.within
    have distinct : region ≠ home := fun equal =>
      same (Parts.index_unique custody.nodup found there member (equal ▸ member'))
    have apart : region.extent.Apart home.extent :=
      custody.apart_of_ne (region_mem found member) (region_mem there member') distinct
    exact (apart.mono inside inside').mono one two

theorem Stocked.reserved_within (stocked : s.Stocked m free) (sound : s.Sound)
    (reserved : s.Reserved free address) : ∃ region ∈ s.regions, region.extent.Holds address := by
  obtain ⟨index, c, found, kept⟩ := reserved
  obtain ⟨region, member, inside⟩ := (stocked index c found).reserved_within (sound.least found) kept
  exact ⟨region, region_mem found member, inside⟩

/-- No byte of an object that was handed out is kept by a cell. -/
theorem Places.not_reserved (sound : s.Sound) (custody : os.Custody contract system s.regions)
    (stocked : s.Stocked m free) (places : s.Places free object size)
    (inside : Extent.Holds ⟨object, size⟩ address) : ¬s.Reserved free address := by
  intro reserved
  obtain ⟨index, c, found, slot, used, fits⟩ := places
  obtain ⟨place, d, there, kept⟩ := reserved
  obtain ⟨region, member, within⟩ := slot.within
  obtain ⟨home, member', held⟩ := (stocked place d there).reserved_within (sound.least there) kept
  have wide : (c.slot object).Holds address :=
    Extent.holds_mk.2 ⟨inside.1, Nat.lt_of_lt_of_le inside.2 (Nat.add_le_add_left fits object)⟩
  have same := same_cell custody found there member member' (within.holds wide) held
  subst same
  cases Option.some.inj (found.symm.trans there)
  have inner := custody.sublist (regions_sublist found)
  exact (stocked index c found).not_reserved (sound.least found) inner slot used wide kept

theorem Stocked.congr (stocked : s.Stocked m free)
    (same : ∀ address, s.Reserved free address → n.get address = m.get address) :
    s.Stocked n free :=
  fun index c found => (stocked index c found).congr fun address reserved =>
    same address ⟨index, c, found, reserved⟩

/-- What a cell keeps for itself lies in no region of another cell. -/
theorem same_cell_of_reserved (sound : s.Sound) (custody : os.Custody contract system s.regions)
    {place : Nat} {d : Cell} {objects : List Nat} (here : s.cells[index]? = some c)
    (there : s.cells[place]? = some d) (stocked : d.Stocked m objects)
    (kept : d.Reserved objects address) {region : Region} (member : region ∈ c.regions)
    (inside : region.extent.Holds address) : index = place := by
  obtain ⟨home, held, close⟩ := stocked.reserved_within (sound.least there) kept
  exact same_cell custody here there member held inside close

/-- One cell is replaced, with what is free in it; the others stay as they are. -/
structure Replaces (s : Slab) (free : Nat → List Nat) (index : Nat) (c last : Cell) (after : Slab)
    (left : Nat → List Nat) : Prop where
  found : s.cells[index]? = some c
  cells : after.cells = s.cells.set index last
  stock : ∀ {place d}, index ≠ place → s.cells[place]? = some d → left place = free place

namespace Replaces

variable {last : Cell}

theorem here (replaces : s.Replaces free index c last after left) :
    after.cells[index]? = some last := by
  rw [replaces.cells]
  exact List.getElem?_set_self (List.getElem?_eq_some_iff.1 replaces.found).1

theorem there (replaces : s.Replaces free index c last after left) {place : Nat}
    (different : index ≠ place) : after.cells[place]? = s.cells[place]? := by
  rw [replaces.cells]
  exact List.getElem?_set_ne different

theorem stocked (replaces : s.Replaces free index c last after left) (stocked : s.Stocked m free)
    (own : last.Stocked n (left index))
    (same : ∀ {place : Nat} {d : Cell} {address : Nat}, index ≠ place →
      s.cells[place]? = some d → d.Reserved (free place) address →
        n.get address = m.get address) : after.Stocked n left := by
  intro place d found
  by_cases equal : index = place
  · subst equal
    cases Option.some.inj (replaces.here.symm.trans found)
    exact own
  · have before := (replaces.there equal).symm.trans found
    rw [replaces.stock equal before]
    exact (stocked place d before).congr fun address kept => same equal before kept

theorem places (replaces : s.Replaces free index c last after left)
    (size_eq : last.objectSize = c.objectSize) (places : s.Places free other size)
    (own : c.Slot other → other ∉ free index → last.Slot other ∧ other ∉ left index) :
    after.Places left other size := by
  obtain ⟨place, d, found, slot, used, fits⟩ := places
  by_cases equal : index = place
  · subst equal
    cases Option.some.inj (replaces.found.symm.trans found)
    obtain ⟨still, unused⟩ := own slot used
    exact ⟨index, last, replaces.here, still, unused, size_eq ▸ fits⟩
  · exact ⟨place, d, (replaces.there equal).trans found, slot,
      replaces.stock equal found ▸ used, fits⟩

theorem reserved (replaces : s.Replaces free index c last after left)
    (reserved : s.Reserved free address) :
    c.Reserved (free index) address ∨ after.Reserved left address := by
  obtain ⟨place, d, found, kept⟩ := reserved
  by_cases equal : index = place
  · subst equal
    cases Option.some.inj (replaces.found.symm.trans found)
    exact .inl kept
  · exact .inr ⟨place, d, (replaces.there equal).trans found, replaces.stock equal found ▸ kept⟩

/-- The stock of one cell becomes another. -/
theorem update (found : s.cells[index]? = some c) (cells : after.cells = s.cells.set index last)
    (objects : List Nat) :
    s.Replaces free index c last after (Function.update free index objects) where
  found := found
  cells := cells
  stock different _ := Function.update_of_ne (Ne.symm different) ..

end Replaces

/-- The stock without an object. -/
def without (free : Nat → List Nat) (object : Nat) : Nat → List Nat :=
  fun index => (free index).filter (· != object)

/-- What the slabs do when they hand out an object, as for a single cell. -/
structure Hands (os : Platform σ) (s : Slab) (before : Machine σ) (free : Nat → List Nat)
    (object width : Nat) (after : Slab) (later : Machine σ) (left : Nat → List Nat)
    (new : List Region) : Prop where
  stocked : after.Stocked later.memory left
  placed : after.Places left object width
  kept : ∀ other size, s.Places free other size → after.Places left other size ∧ other ≠ object
  released : ∀ address, ¬after.Reserved left address →
    ¬s.Reserved free address ∨ later.memory.get address = 0
  spared : ∀ address, (∀ region ∈ new, ¬region.extent.Holds address) →
    ¬(Memory.linkAt object).Holds address → before.Spares os later address
  clean : ∀ address, (Memory.linkAt object).Holds address → later.memory.get address = 0
  blank : ∀ region ∈ new, ∀ address, region.extent.Holds address → later.memory.get address = 0

/-- Objects in different cells are different. -/
theorem Replaces.ne_of_slot {last d : Cell} {place : Nat} (sound : s.Sound)
    (replaces : s.Replaces free index c last after left)
    (custody : os.Custody contract system after.regions) (size_eq : last.objectSize = c.objectSize)
    (different : index ≠ place) (found : s.cells[place]? = some d) (slot : last.Slot object)
    (slot' : d.Slot other) : other ≠ object := by
  intro same
  subst same
  have least := sound.least replaces.found
  have least' := sound.least found
  unfold linkSize at least least'
  obtain ⟨region, member, within⟩ := slot.within
  obtain ⟨home, member', within'⟩ := slot'.within
  have start : (last.slot other).Holds other := Extent.holds_mk.2 ⟨Nat.le_refl _, by omega⟩
  have start' : (d.slot other).Holds other := Extent.holds_mk.2 ⟨Nat.le_refl _, by omega⟩
  exact different (same_cell custody replaces.here ((replaces.there different).trans found) member
    member' (within.holds start) (within'.holds start'))

/-- An object that has its slot in one cell is missed in no other. -/
theorem Replaces.without {last : Cell} (sound : s.Sound) (stocked : s.Stocked m free)
    (found : s.cells[index]? = some c) (cells : after.cells = s.cells.set index last)
    (custody : os.Custody contract system after.regions) (size_eq : last.objectSize = c.objectSize)
    (slot : last.Slot object) : s.Replaces free index c last after (without free object) where
  found := found
  cells := cells
  stock {place d} different there := by
    have replaces : s.Replaces free index c last after _ := .update found cells []
    have mine := stocked place d there
    have absent : object ∉ free place := fun member =>
      replaces.ne_of_slot sound custody size_eq different there slot (mine.slots object member) rfl
    rw [Slab.without, ← mine.nodup.erase_eq_filter, List.erase_of_not_mem absent]

/-- What another cell keeps for itself is out of reach of one that gains regions and writes a link. -/
theorem Replaces.out_of_reach {last d : Cell} {place : Nat} {objects : List Nat} {P : Nat → Prop}
    (sound : s.Sound) (afterSound : after.Sound)
    (replaces : s.Replaces free index c last after left)
    (custody : os.Custody contract system after.regions) (regions : last.regions = new ++ c.regions)
    (size_eq : last.objectSize = c.objectSize) (slot : last.Slot object) (different : index ≠ place)
    (found : s.cells[place]? = some d) (stocked : d.Stocked m objects)
    (kept : d.Reserved objects address)
    (spared : ∀ address, (∀ region ∈ new, ¬region.extent.Holds address) →
      ¬(Memory.linkAt object).Holds address → P address) : P address := by
  have outside : ∀ region ∈ last.regions, ¬region.extent.Holds address := by
    intro region member inside
    exact different (same_cell_of_reserved afterSound custody replaces.here
      ((replaces.there different).trans found) stocked kept member inside)
  apply spared
  · exact fun region fresh => outside region (regions ▸ List.mem_append_left _ fresh)
  · intro link
    obtain ⟨region, member, within⟩ := slot.within
    have least : linkSize ≤ last.objectSize := size_eq ▸ sound.least replaces.found
    exact outside region member (within.holds ((Cell.link_within least).holds link))

theorem Hands.of_cell {last : Cell} (sound : s.Sound) (afterSound : after.Sound)
    (custody : os.Custody contract system (new ++ s.regions))
    (stocked : s.Stocked machine.memory free)
    (replaces : s.Replaces free index c last after left) (regions : last.regions = new ++ c.regions)
    (size_eq : last.objectSize = c.objectSize)
    (hands : Cell.Hands os c machine (free index) object last later (left index) new) :
    Hands os s machine free object c.objectSize after later left new := by
  have grown := regions_set replaces.found replaces.cells regions
  have whole : os.Custody contract system after.regions := custody.perm grown.symm
  refine ⟨?_, ?_, ?_, ?_, hands.spared, hands.clean, hands.blank⟩
  · refine replaces.stocked stocked hands.stocked fun {place d address} different found kept => ?_
    exact (replaces.out_of_reach sound afterSound whole regions size_eq hands.slot different found
      (stocked place d found) kept hands.spared).get
  · exact ⟨index, last, replaces.here, hands.slot, hands.taken, Nat.le_of_eq size_eq.symm⟩
  · intro other size places
    refine ⟨replaces.places size_eq places fun slot used => ?_, ?_⟩
    · obtain ⟨still, unused, -⟩ := hands.kept other slot used
      exact ⟨still, unused⟩
    · obtain ⟨place, d, found, slot, used, -⟩ := places
      by_cases equal : index = place
      · subst equal
        cases Option.some.inj (replaces.found.symm.trans found)
        exact (hands.kept other slot used).2.2
      · exact replaces.ne_of_slot sound whole size_eq equal found hands.slot slot
  · intro address outside
    by_cases reserved : s.Reserved free address
    · have kept := (replaces.reserved reserved).resolve_right outside
      have released : ¬last.Reserved (left index) address :=
        fun inside => outside ⟨index, last, replaces.here, inside⟩
      exact .inr ((hands.released address released).resolve_left fun none => none kept)
    · exact .inl reserved

theorem Serves.hands {placement : Arena.Placement} (sound : s.Sound)
    (custody : os.Custody contract system (new ++ s.regions))
    (stocked : s.Stocked machine.memory free)
    (serves : Serves os sizeClass s machine (.ok placement) after later new) :
    Hands os s machine free placement.address (Size.slabObject sizeClass) after later
      (without free placement.address) new := by
  obtain ⟨afterSound, -, grown⟩ := serves.spec sound
  cases serves with
  | @served node object c last middle supply after new first found bounded allocates cells =>
    have still : s.Stocked middle.machine.memory free :=
      stocked.congr fun address _ => first.same address nofun
    have hands := allocates.hands (sound.least found)
      (custody.sublist ((regions_sublist found).append_left _)) (still _ c found)
    obtain ⟨-, -, regions, size⟩ := allocates.spec
    have replaces := Replaces.without sound still found cells (custody.perm grown.symm) size hands.slot
    have handed := Hands.of_cell sound afterSound custody still replaces regions size hands
    rw [sound.objectSize found bounded] at handed
    refine { handed with spared := fun address outside link => ?_ }
    exact (first.toGrows.spares nofun).trans (handed.spared address outside link)

/-- The cell that owns the address of an object is that in which the object has its slot. -/
theorem Places.of_owns (custody : os.Custody contract system s.regions)
    (places : s.Places free object size) (positive : 0 < size) (found : s.cells[index]? = some c)
    (owns : c.owns object = true) : c.Slot object ∧ object ∉ free index := by
  obtain ⟨home, d, there, slot, used, fits⟩ := places
  obtain ⟨region, member, contains⟩ := List.any_eq_true.1 owns
  obtain ⟨region', member', within⟩ := slot.within
  have start : (d.slot object).Holds object := Extent.holds_mk.2 ⟨Nat.le_refl _, by omega⟩
  have same := same_cell custody found there member member' (Region.holds_of_contains contains)
    (within.holds start)
  subst same
  cases Option.some.inj (found.symm.trans there)
  exact ⟨slot, used⟩

/-- An object that is taken back joins the stock of its cell. Its link is all that is written. -/
theorem reclaim_spec (sound : s.Sound) (custody : os.Custody contract system s.regions)
    (stocked : s.Stocked machine.memory free) (places : s.Places free object size)
    (positive : 0 < size) (found : s.cells[index]? = some c) (owns : c.owns object = true)
    (cells : after.cells =
      s.cells.set index { c with free := (c.free.push machine.memory object).1 }) :
    let left := Function.update free index (object :: free index)
    after.Stocked (c.free.push machine.memory object).2 left ∧
      (∀ other size, s.Places free other size → other ≠ object → after.Places left other size) ∧
      (∀ address, s.Reserved free address → after.Reserved left address) ∧
      ∀ address, (Memory.linkAt object).Holds address → after.Reserved left address := by
  intro left
  obtain ⟨slot, used⟩ := places.of_owns custody positive found owns
  have replaces : s.Replaces free index c _ after left := .update found cells (object :: free index)
  have mine : left index = object :: free index := Function.update_self ..
  refine ⟨?_, ?_, ?_, ?_⟩
  · refine replaces.stocked stocked ?_ fun {place d address} different there kept => ?_
    · rw [mine]
      have inner := custody.sublist (regions_sublist found)
      exact (stocked index c found).push (sound.least found) inner slot used
    · refine Memory.get_setWord_outside fun link => different ?_
      obtain ⟨region, member, within⟩ := slot.within
      exact same_cell_of_reserved sound custody found there (stocked place d there) kept member
        (within.holds ((Cell.link_within (sound.least found)).holds link))
  · intro other size places different
    refine replaces.places rfl places fun slot unused => ⟨slot, ?_⟩
    rw [mine]
    exact fun member => (List.mem_cons.1 member).elim different unused
  · intro address reserved
    rcases replaces.reserved reserved with kept | still
    · refine ⟨index, _, replaces.here, ?_⟩
      rw [mine]
      exact kept.imp_left fun ⟨other, member, link⟩ => ⟨other, List.mem_cons_of_mem _ member, link⟩
    · exact still
  · intro address link
    refine ⟨index, _, replaces.here, .inl ⟨object, ?_, link⟩⟩
    rw [mine]
    exact List.mem_cons_self ..

end NumaHeap.Slab
