import NumaHeap.Proofs.Slab.Stock

/-!
Where objects belong. An address belongs to the class in one of whose regions it lies. No cell ever
gives a region up, so what once belongs to a class belongs to it for good; an object is taken back
exactly if it belongs to the class of the size that is named.
-/

namespace NumaHeap.Slab

variable {σ : Type} {os : Platform σ} {contract : os.Contract} {system : σ} {s after last : Slab}
  {machine later : Machine σ} {thread : ThreadId} {sizeClass index node size object : Nat}
  {c d : Cell} {new : List Region} {m n : Memory}

theorem Cell.owns_iff {address : Nat} :
    c.owns address = true ↔ ∃ region ∈ c.regions, region.extent.Holds address := by
  simp only [Cell.owns, List.any_eq_true]
  constructor
  · rintro ⟨region, member, contains⟩
    exact ⟨region, member, Region.holds_of_contains contains⟩
  · rintro ⟨region, member, holds⟩
    exact ⟨region, member, Region.contains_of_holds holds⟩

theorem Cell.Slot.owns (slot : c.Slot object) (least : linkSize ≤ c.objectSize) :
    c.owns object = true := by
  obtain ⟨region, member, within⟩ := slot.within
  have start : (c.slot object).Holds object := by
    refine Extent.holds_mk.2 ⟨Nat.le_refl _, ?_⟩
    unfold linkSize at least
    omega
  exact Cell.owns_iff.2 ⟨region, member, within.holds start⟩

/-- The address lies in a region of the class of the size, on some node. -/
def Houses (s : Slab) (size address : Nat) : Prop :=
  ∃ node sizeClass c, Size.slabClass? size = some sizeClass ∧ s.cell? node sizeClass = some c ∧
    c.owns address = true

/-- Every cell is still there, with all its regions. -/
structure Extends (s after : Slab) : Prop where
  count : after.cells.length = s.cells.length
  cells : ∀ {index : Nat} {c : Cell}, s.cells[index]? = some c →
    ∃ d, after.cells[index]? = some d ∧ c.regions ⊆ d.regions

namespace Extends

theorem refl (s : Slab) : Extends s s := ⟨rfl, fun found => ⟨_, found, List.Subset.refl _⟩⟩

theorem trans (first : Extends s after) (second : Extends after last) : Extends s last where
  count := second.count.trans first.count
  cells found := by
    obtain ⟨d, there, fewer⟩ := first.cells found
    obtain ⟨e, here, more⟩ := second.cells there
    exact ⟨e, here, List.Subset.trans fewer more⟩

theorem of_eq (same : after.cells = s.cells) : Extends s after :=
  ⟨congrArg _ same, fun found => ⟨_, same ▸ found, List.Subset.refl _⟩⟩

theorem of_set (found : s.cells[index]? = some c) (cells : after.cells = s.cells.set index d)
    (more : c.regions ⊆ d.regions) : Extends s after where
  count := by rw [cells, List.length_set]
  cells {place other} there := by
    rw [cells]
    by_cases same : index = place
    · subst same
      cases Option.some.inj (found.symm.trans there)
      exact ⟨d, List.getElem?_set_self (List.getElem?_eq_some_iff.1 found).1, more⟩
    · exact ⟨other, (List.getElem?_set_ne same).trans there, List.Subset.refl _⟩

theorem houses (grown : Extends s after) (houses : s.Houses size object) :
    after.Houses size object := by
  obtain ⟨node, sizeClass, c, fits, found, owns⟩ := houses
  obtain ⟨region, member, holds⟩ := Cell.owns_iff.1 owns
  obtain ⟨d, there, more⟩ := grown.cells found
  exact ⟨node, sizeClass, d, fits, there, Cell.owns_iff.2 ⟨region, more member, holds⟩⟩

end Extends

theorem cellIndex_div_mod (index : Nat) :
    cellIndex (index / Size.slabClassCount) (index % Size.slabClassCount) = index :=
  Nat.div_add_mod' ..

theorem cellIndex_inj {other : Nat}
    (same : cellIndex node sizeClass = cellIndex other sizeClass) : node = other := by
  unfold cellIndex Size.slabClassCount at *
  omega

theorem Serves.extends {answer : Except AllocError Arena.Placement}
    (serves : Serves os sizeClass s machine answer after later new) : Extends s after := by
  cases serves with
  | denied _ cells => exact .of_eq cells
  | served _ found _ allocates cells =>
    obtain ⟨-, -, regions, -⟩ := allocates.spec
    exact .of_set found cells (regions ▸ List.subset_append_right ..)

/-- What is served belongs to the class. -/
theorem Serves.houses {placement : Arena.Placement} {free : Nat → List Nat} (sound : s.Sound)
    (custody : os.Custody contract system (new ++ s.regions))
    (stocked : s.Stocked machine.memory free) (fits : Size.slabClass? size = some sizeClass)
    (serves : Serves os sizeClass s machine (.ok placement) after later new) :
    after.Houses size placement.address := by
  cases serves with
  | @served node object c last middle supply after new first found bounded allocates cells =>
    have still : s.Stocked middle.machine.memory free :=
      stocked.congr fun address _ => first.same address nofun
    have hands := allocates.hands (sound.least found)
      (custody.sublist ((regions_sublist found).append_left _)) (still _ c found)
    obtain ⟨-, -, -, same⟩ := allocates.spec
    have least : linkSize ≤ last.objectSize := same ▸ sound.least found
    refine ⟨node, sizeClass, last, fits, ?_, hands.slot.owns least⟩
    rw [cell?, cells]
    exact List.getElem?_set_self (List.getElem?_eq_some_iff.1 found).1

theorem free_extends {answer : Except FreeError Unit}
    (freed : s.free os machine thread object size = (answer, after, later)) : Extends s after := by
  obtain ⟨failed, ok⟩ := free_spec freed
  cases answer with
  | error error => exact (failed error rfl).1 ▸ .refl s
  | ok =>
    obtain ⟨index, c, found, -, -, cells, -⟩ := ok rfl
    exact .of_set found cells (List.Subset.refl _)

/-- Only one cell owns an address. -/
theorem cell_unique (custody : os.Custody contract system s.regions) {place address : Nat}
    (here : s.cells[index]? = some c) (there : s.cells[place]? = some d)
    (first : c.owns address = true) (second : d.owns address = true) : index = place := by
  obtain ⟨region, member, holds⟩ := Cell.owns_iff.1 first
  obtain ⟨home, member', holds'⟩ := Cell.owns_iff.1 second
  exact same_cell custody here there member member' holds holds'

/-- The first of some nodes that owns an object takes it back. -/
theorem reclaimFirst?_of_owns (custody : os.Custody contract system s.regions)
    (found : s.cell? node sizeClass = some c)
    (owns : c.owns object = true) {nodes : List Nat} (asked : node ∈ nodes) :
    s.reclaimFirst? m sizeClass object nodes =
      some (s.setCell node sizeClass { c with free := (c.free.push m object).1 },
        (c.free.push m object).2) := by
  induction nodes with
  | nil => cases asked
  | cons first rest ih =>
    by_cases here : first = node
    · subst here
      simp only [reclaimFirst?, found, Option.bind_some, Cell.reclaim?, owns, if_true]
    · have skipped : (s.cell? first sizeClass).bind (·.reclaim? m object) = none := by
        cases other : s.cell? first sizeClass with
        | none => rfl
        | some d =>
          simp only [Option.bind_some, Cell.reclaim?]
          refine if_neg fun also => here ?_
          exact cellIndex_inj (cell_unique custody other found also owns)
      simp only [reclaimFirst?, skipped]
      exact ih ((List.mem_cons.1 asked).resolve_left fun same => here same.symm)

theorem reclaimFirst?_of_foreign
    (foreign : ∀ node c, s.cell? node sizeClass = some c → c.owns object = false)
    (nodes : List Nat) : s.reclaimFirst? m sizeClass object nodes = none := by
  induction nodes with
  | nil => rfl
  | cons first rest ih =>
    have skipped : (s.cell? first sizeClass).bind (·.reclaim? m object) = none := by
      cases other : s.cell? first sizeClass with
      | none => rfl
      | some d => simp [Cell.reclaim?, foreign first d other]
    simp only [reclaimFirst?, skipped]
    exact ih

/-- There is a cell for each class on each node. -/
def Counted (os : Platform σ) (s : Slab) : Prop :=
  s.cells.length = os.topology.nodeCount * Size.slabClassCount

theorem length_create (topology : Topology) (hugePages numaAware : Bool) :
    (create topology hugePages numaAware).cells.length =
      topology.nodeCount * Size.slabClassCount := by
  have row : ∀ node : Nat,
      (Size.slabClasses.map fun objectSize => ({ objectSize, node } : Cell)).length = 14 :=
    fun _ => rfl
  simp only [create, List.length_flatMap, row, Topology.nodes, List.map_const',
    List.length_range, List.sum_replicate_nat]
  rfl

theorem create_counted (os : Platform σ) (hugePages numaAware : Bool) :
    (create os.topology hugePages numaAware).Counted os := length_create ..

theorem Extends.counted (grown : Extends s after) (counted : s.Counted os) : after.Counted os :=
  grown.count.trans counted

/-- Every node that has cells is asked, whichever comes first. -/
theorem Counted.asked (counted : s.Counted os) (found : s.cell? node sizeClass = some c)
    (here : Nat) : node ∈ here :: otherNodes os.topology here := by
  have inside := (List.getElem?_eq_some_iff.1 found).1
  rw [counted, cellIndex] at inside
  have below : node < os.topology.nodeCount := by
    unfold Size.slabClassCount at inside
    omega
  by_cases same : node = here
  · exact same ▸ List.mem_cons_self ..
  · refine List.mem_cons_of_mem _ (List.mem_filter.2 ⟨List.mem_range.2 below, ?_⟩)
    exact bne_iff_ne.2 same

/-- An object is taken back by the cell that owns it, whichever thread gives it back. -/
theorem free_of_owns (counted : s.Counted os) (custody : os.Custody contract system s.regions)
    (fits : Size.slabClass? size = some sizeClass) (found : s.cell? node sizeClass = some c)
    (owns : c.owns object = true) (machine : Machine σ) (thread : ThreadId) :
    s.free os machine thread object size =
      (.ok (),
        { s.setCell node sizeClass { c with free := (c.free.push machine.memory object).1 } with
          deallocations := s.deallocations + 1 },
        machine.withMemory (c.free.push machine.memory object).2) := by
  have taken := reclaimFirst?_of_owns (m := machine.memory) custody found owns
    (counted.asked found (s.localNode os machine thread))
  simp only [free, fits, taken]
  rfl

/-- An object that does not belong to the class is not taken back. -/
theorem free_of_foreign (os : Platform σ) (foreign : ¬s.Houses size object) (machine : Machine σ)
    (thread : ThreadId) :
    ∃ error, s.free os machine thread object size = (.error error, s, machine) := by
  unfold free
  split
  · exact ⟨_, rfl⟩
  · next sizeClass fits =>
    have unowned : ∀ node c, s.cell? node sizeClass = some c → c.owns object = false := by
      intro node c found
      refine Bool.eq_false_iff.2 fun owns => foreign ?_
      exact ⟨node, sizeClass, c, fits, found, owns⟩
    simp only [reclaimFirst?_of_foreign unowned]
    exact ⟨_, rfl⟩

/-- All of an object belongs where its start does. -/
theorem Places.houses {free : Nat → List Nat} {width address : Nat}
    (custody : os.Custody contract system s.regions) (places : s.Places free object width)
    (houses : s.Houses size object) (inside : Extent.Holds ⟨object, width⟩ address) :
    s.Houses size address := by
  obtain ⟨node, sizeClass, c, fits, found, owns⟩ := houses
  obtain ⟨home, mine, start⟩ := Cell.owns_iff.1 owns
  obtain ⟨region, member, within⟩ := places.within
  have first : Extent.Holds ⟨object, width⟩ object := by
    simp only [Extent.holds_mk] at inside ⊢
    omega
  have same := custody.eq_of_holds member (region_mem found mine) (within.holds first) start
  subst same
  exact ⟨node, sizeClass, c, fits, found, Cell.owns_iff.2 ⟨region, mine, within.holds inside⟩⟩

/-- What belongs to two sizes belongs to them for the same class. -/
theorem Houses.class_eq {other : Nat} (custody : os.Custody contract system s.regions)
    (first : s.Houses size object) (second : s.Houses other object) :
    Size.slabClass? size = Size.slabClass? other := by
  obtain ⟨node, sizeClass, c, fits, found, owns⟩ := first
  obtain ⟨node', sizeClass', d, fits', found', owns'⟩ := second
  have same := congrArg (· % Size.slabClassCount) (cell_unique custody found found' owns owns')
  simp only [cellIndex_mod (Size.slabClass_lt fits), cellIndex_mod (Size.slabClass_lt fits')] at same
  rw [fits, fits', same]

end NumaHeap.Slab
