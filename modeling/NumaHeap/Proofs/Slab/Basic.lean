import NumaHeap.Slab.Basic
import NumaHeap.Proofs.Parts
import NumaHeap.Proofs.Size.Fit
import NumaHeap.Proofs.Slab.Cell

/-!
All cells together. A request ends at one cell, and so does an object that is taken back: whichever
nodes are asked on the way, all other cells stay as they are.
-/

namespace NumaHeap.Slab

variable {σ : Type} {os : Platform σ} {contract : os.Contract} {system : σ} {s after : Slab}
  {machine later : Machine σ} {sizeClass index : Nat} {c : Cell} {new : List Region}

/-- The regions of all cells. -/
def regions (s : Slab) : List Region := s.cells.flatMap (·.regions)

/-- Every cell stands in the place of its class, and the mapper counts what the cells hold. -/
structure Sound (s : Slab) : Prop where
  sizes : ∀ index c, s.cells[index]? = some c →
    c.objectSize = Size.slabObject (index % Size.slabClassCount)
  bytes : s.mapper.mappedBytes = Region.total s.regions

theorem Sound.least (sound : s.Sound) (found : s.cells[index]? = some c) :
    linkSize ≤ c.objectSize := by
  rw [sound.sizes index c found]
  exact Nat.le_of_dvd (Nat.two_pow_pos _) (Size.eight_dvd_slabObject _)

theorem cellIndex_mod {node : Nat} (bounded : sizeClass < Size.slabClassCount) :
    cellIndex node sizeClass % Size.slabClassCount = sizeClass := by
  rw [cellIndex, Nat.mul_add_mod', Nat.mod_eq_of_lt bounded]

theorem cellIndex_div {node : Nat} (bounded : sizeClass < Size.slabClassCount) :
    cellIndex node sizeClass / Size.slabClassCount = node := by
  unfold cellIndex Size.slabClassCount at *
  omega

theorem Sound.objectSize {node : Nat} (sound : s.Sound) (found : s.cell? node sizeClass = some c)
    (bounded : sizeClass < Size.slabClassCount) : c.objectSize = Size.slabObject sizeClass := by
  rw [sound.sizes _ c found, cellIndex_mod bounded]

/-- The rows of some nodes stand one behind the other. -/
theorem getElem?_rows {nodes : List Nat}
    (found : (nodes.flatMap fun node => Size.slabClasses.map fun objectSize =>
      ({ objectSize, node } : Cell))[index]? = some c) :
    ∃ node, nodes[index / Size.slabClassCount]? = some node ∧
      c = { objectSize := Size.slabObject (index % Size.slabClassCount), node } := by
  induction nodes generalizing index with
  | nil => cases found
  | cons node rest ih =>
    rw [List.flatMap_cons] at found
    by_cases first : index < Size.slabClassCount
    · rw [List.getElem?_append_left first, List.getElem?_map] at found
      obtain ⟨size, here, rfl⟩ := Option.map_eq_some_iff.1 found
      have same := Option.some.inj ((Size.getElem?_slabClasses first).symm.trans here)
      rw [Nat.div_eq_of_lt first, Nat.mod_eq_of_lt first, same]
      exact ⟨node, rfl, rfl⟩
    · have later := Nat.le_of_not_lt first
      rw [List.getElem?_append_right later] at found
      obtain ⟨home, there, rfl⟩ := ih found
      have quotient : index / Size.slabClassCount =
          (index - Size.slabClassCount) / Size.slabClassCount + 1 :=
        Nat.div_eq_sub_div (by decide) later
      rw [quotient, Nat.mod_eq_sub_mod later]
      exact ⟨home, there, rfl⟩

theorem create_cell {topology : Topology} {hugePages numaAware : Bool}
    (found : (create topology hugePages numaAware).cells[index]? = some c) :
    c =
      { objectSize := Size.slabObject (index % Size.slabClassCount)
        node := index / Size.slabClassCount } := by
  obtain ⟨node, there, rfl⟩ := getElem?_rows found
  rw [Topology.nodes, List.getElem?_eq_some_iff] at there
  obtain ⟨_, same⟩ := there
  rw [← same, List.getElem_range]

theorem create_spec (topology : Topology) (hugePages numaAware : Bool) :
    (create topology hugePages numaAware).Sound ∧
      (create topology hugePages numaAware).regions = [] ∧
      ∀ c ∈ (create topology hugePages numaAware).cells,
        c.free = {} ∧ c.regions = [] ∧ c.carved = 0 := by
  have blank : ∀ c ∈ (create topology hugePages numaAware).cells,
      c.free = {} ∧ c.regions = [] ∧ c.carved = 0 := by
    intro c member
    obtain ⟨index, found⟩ := List.getElem?_of_mem member
    rw [create_cell found]
    exact ⟨rfl, rfl, rfl⟩
  have empty : (create topology hugePages numaAware).regions = [] :=
    List.flatMap_eq_nil_iff.2 fun c member => (blank c member).2.1
  refine ⟨⟨fun index c found => ?_, (congrArg Region.total empty).symm⟩, empty, blank⟩
  rw [create_cell found]

/-- How the slabs serve a request: from one cell of the class, or not at all. -/
inductive Serves (os : Platform σ) (sizeClass : Nat) (s : Slab) (machine : Machine σ) :
    Except AllocError Arena.Placement → Slab → Machine σ → List Region → Prop
  | denied {error : AllocError} {after : Slab} {later : Machine σ} :
      machine.Grows os later [] → after.cells = s.cells →
      after.mapper.mappedBytes = s.mapper.mappedBytes →
      Serves os sizeClass s machine (.error error) after later []
  | served {node object : Nat} {c last : Cell} {middle supply : Supply σ} {after : Slab}
      {new : List Region} :
      Supply.Grows os ⟨s.mapper, machine⟩ middle [] → s.cell? node sizeClass = some c →
      sizeClass < Size.slabClassCount →
      Cell.Allocates os c middle (.ok object) last supply new →
      after.cells = s.cells.set (cellIndex node sizeClass) last → after.mapper = supply.mapper →
      Serves os sizeClass s machine (.ok ⟨object, node⟩) after supply.machine new

theorem popFirst?_spec {memory n : Memory} {nodes : List Nat} {placement : Arena.Placement}
    (popped : s.popFirst? memory sizeClass nodes = some (placement, after, n)) :
    ∃ c free, s.cell? placement.node sizeClass = some c ∧
      c.free.pop? memory = some (placement.address, free, n) ∧
      after = s.setCell placement.node sizeClass { c with free, hits := c.hits + 1 } := by
  induction nodes with
  | nil => cases popped
  | cons node rest ih =>
    unfold popFirst? at popped
    split at popped
    · next object last memory' some =>
      obtain ⟨c, found, taken⟩ := Option.bind_eq_some_iff.1 some
      obtain ⟨⟨first, free, left⟩, top, same⟩ := Option.map_eq_some_iff.1 taken
      cases same
      cases popped
      exact ⟨c, free, found, top, rfl⟩
    · exact ih popped

/-- How a request to the slabs ends. It is turned down as it stands, or the cell of its class on a
node is asked. If that has no free object and can map no region, a free object of another node is
taken. -/
inductive Outcome (os : Platform σ) (s : Slab) (machine : Machine σ) (size node : Nat) :
    Except AllocError Arena.Placement → Slab → Machine σ → Prop
  | invalid {error : AllocError} :
      (∀ cause, error ≠ .map cause) → error.isSuspicious = false →
      Outcome os s machine size node (.error error) s machine
  | here {sizeClass object : Nat} {c last : Cell} {supply : Supply σ} :
      Size.slabClass? size = some sizeClass → s.cell? node sizeClass = some c →
      c.allocate os ⟨s.mapper, machine⟩ = (.ok object, last, supply) →
      Outcome os s machine size node (.ok ⟨object, node⟩)
        { s.setCell node sizeClass last with
          mapper := supply.mapper
          allocations := s.allocations + 1 }
        supply.machine
  | elsewhere {sizeClass : Nat} {c last : Cell} {supply : Supply σ} {cause : MapError}
      {placement : Arena.Placement} {left : Slab} {memory : Memory} :
      Size.slabClass? size = some sizeClass → s.cell? node sizeClass = some c →
      c.allocate os ⟨s.mapper, machine⟩ = (.error cause, last, supply) →
      popFirst? { s with mapper := supply.mapper } supply.machine.memory sizeClass
        (otherNodes os.topology node) = some (placement, left, memory) →
      Outcome os s machine size node (.ok placement)
        { left with
          allocations := left.allocations + 1
          remoteFallbacks := left.remoteFallbacks + 1 }
        (supply.machine.withMemory memory)
  | exhausted {sizeClass : Nat} {c last : Cell} {supply : Supply σ} {cause : MapError} :
      Size.slabClass? size = some sizeClass → s.cell? node sizeClass = some c →
      c.allocate os ⟨s.mapper, machine⟩ = (.error cause, last, supply) →
      popFirst? { s with mapper := supply.mapper } supply.machine.memory sizeClass
        (otherNodes os.topology node) = none →
      Outcome os s machine size node (.error (.map cause)) { s with mapper := supply.mapper }
        supply.machine

theorem serve_outcome {node size : Nat} {answer : Except AllocError Arena.Placement}
    (fits : Size.slabClass? size = some sizeClass)
    (served : s.serve os machine node sizeClass = (answer, after, later)) :
    Outcome os s machine size node answer after later := by
  unfold serve at served
  split at served
  · cases served
    exact .invalid (by simp) rfl
  · next c found =>
    split at served
    · next answered =>
      cases served
      exact .here fits found answered
    · next denied =>
      dsimp only at served
      split at served
      · next none =>
        cases served
        exact .exhausted fits found denied none
      · next some =>
        cases served
        exact .elsewhere fits found denied some

theorem allocate_outcome {thread : ThreadId} {size : Nat} {node : Option Nat}
    {answer : Except AllocError Arena.Placement}
    (served : s.allocate os machine thread size node = (answer, after, later)) :
    Outcome os s machine size (node.getD (s.localNode os machine thread)) answer after later := by
  unfold allocate at served
  split at served
  · cases served
    exact .invalid (by simp) rfl
  · split at served
    · cases served
      exact .invalid (by simp) rfl
    · next sizeClass fits =>
      dsimp only at served
      split at served
      · exact serve_outcome fits served
      · cases served
        exact .invalid (by simp) rfl

theorem allocate_spec {thread : ThreadId} {size : Nat} {node : Option Nat}
    {answer : Except AllocError Arena.Placement} (sound : s.Sound)
    (served : s.allocate os machine thread size node = (answer, after, later)) :
    ∃ sizeClass new, Serves os sizeClass s machine answer after later new ∧
      ∀ placement, answer = .ok placement → Size.slabClass? size = some sizeClass := by
  have positive : ∀ {node sizeClass : Nat} {c : Cell}, s.cell? node sizeClass = some c →
      0 < c.objectSize :=
    fun found => Nat.lt_of_lt_of_le (by decide : 0 < linkSize) (sound.least found)
  cases allocate_outcome served with
  | invalid => exact ⟨0, [], .denied (.refl os machine) rfl rfl, by simp⟩
  | @here sizeClass object c last supply fits found answered =>
    obtain ⟨new, allocates⟩ := Cell.allocate_spec (positive found) answered
    exact ⟨sizeClass, new,
      .served (.refl os _) found (Size.slabClass_lt fits) allocates rfl rfl,
      fun _ _ => fits⟩
  | @elsewhere sizeClass c last supply cause placement left memory fits found denied popped =>
    obtain ⟨new, allocates⟩ := Cell.allocate_spec (positive found) denied
    obtain ⟨c', free, there, taken, rfl⟩ := popFirst?_spec popped
    cases allocates with
    | failed grows =>
      exact ⟨sizeClass, [],
        .served grows there (Size.slabClass_lt fits) (.popped taken) rfl rfl,
        fun _ _ => fits⟩
  | @exhausted sizeClass c last supply cause fits found denied none =>
    obtain ⟨new, allocates⟩ := Cell.allocate_spec (positive found) denied
    cases allocates with
    | failed grows => exact ⟨sizeClass, [], .denied grows.toGrows rfl grows.mappedBytes, by simp⟩

/-- The slabs gain what a cell gains. -/
theorem regions_set {last : Cell} (found : s.cells[index]? = some c)
    (cells : after.cells = s.cells.set index last) (gained : last.regions = new ++ c.regions) :
    after.regions.Perm (new ++ s.regions) := by
  obtain ⟨others, before, set⟩ := Parts.perm_set (fun c : Cell => c.regions) found
  have whole : after.regions.Perm (last.regions ++ others) := by
    rw [regions, cells]
    exact set last
  rw [gained, List.append_assoc] at whole
  exact whole.trans (before.symm.append_left new)

theorem Sound.set (sound : s.Sound) (found : s.cells[index]? = some c) {last : Cell}
    (cells : after.cells = s.cells.set index last) (size : last.objectSize = c.objectSize)
    (bytes : after.mapper.mappedBytes = Region.total after.regions) : after.Sound where
  sizes place other there := by
    rw [cells] at there
    rcases Parts.set_cases there with ⟨rfl, rfl⟩ | there
    · exact size.trans (sound.sizes _ c found)
    · exact sound.sizes place other there
  bytes := bytes

/-- A request gains regions for the slabs, and these are counted. -/
theorem Serves.spec {answer : Except AllocError Arena.Placement} (sound : s.Sound)
    (serves : Serves os sizeClass s machine answer after later new) :
    after.Sound ∧ os.Gains machine.system later.system new ∧
      after.regions.Perm (new ++ s.regions) := by
  cases serves with
  | denied grows cells mapper =>
    have same : after.regions = s.regions := congrArg (·.flatMap Cell.regions) cells
    refine ⟨⟨?_, ?_⟩, grows.gains, .of_eq same⟩
    · rw [cells]
      exact sound.sizes
    · rw [mapper, same, sound.bytes]
  | served first found _ allocates cells mapper =>
    obtain ⟨gains, bytes, regions, size⟩ := allocates.spec
    have grown := regions_set found cells regions
    refine ⟨sound.set found cells size ?_, by simpa using first.gains.trans gains, grown⟩
    rw [mapper, bytes, first.mappedBytes, Region.total_perm grown, Region.total_append,
      ← sound.bytes]
    change s.mapper.mappedBytes + 0 + _ = _
    omega

theorem reclaimFirst?_spec {memory n : Memory} {nodes : List Nat} {object : Nat}
    (reclaimed : s.reclaimFirst? memory sizeClass object nodes = some (after, n)) :
    ∃ index c, s.cells[index]? = some c ∧ c.owns object = true ∧ after.mapper = s.mapper ∧
      after.cells = s.cells.set index { c with free := (c.free.push memory object).1 } ∧
      n = (c.free.push memory object).2 := by
  induction nodes with
  | nil => cases reclaimed
  | cons node rest ih =>
    unfold reclaimFirst? at reclaimed
    split at reclaimed
    · next last memory' some =>
      obtain ⟨c, found, taken⟩ := Option.bind_eq_some_iff.1 some
      unfold Cell.reclaim? at taken
      split at taken
      · next owns =>
        cases taken
        cases reclaimed
        exact ⟨cellIndex node sizeClass, c, found, owns, rfl, rfl, rfl⟩
      · cases taken
    · exact ih reclaimed

/-- An object that is taken back is put on the free list of a cell that owns its address. -/
theorem free_spec {thread : ThreadId} {object size : Nat} {answer : Except FreeError Unit}
    (freed : s.free os machine thread object size = (answer, after, later)) :
    (∀ error, answer = .error error → after = s ∧ later = machine) ∧
      (answer = .ok () → ∃ index c, s.cells[index]? = some c ∧ c.owns object = true ∧
        after.mapper = s.mapper ∧
        after.cells =
          s.cells.set index { c with free := (c.free.push machine.memory object).1 } ∧
        later = machine.withMemory (c.free.push machine.memory object).2) := by
  unfold free at freed
  split at freed
  · cases freed
    exact ⟨fun _ _ => ⟨rfl, rfl⟩, nofun⟩
  · dsimp only at freed
    split at freed
    · cases freed
      exact ⟨fun _ _ => ⟨rfl, rfl⟩, nofun⟩
    · next last memory some =>
      cases freed
      obtain ⟨index, c, found, owns, mapper, cells, rfl⟩ := reclaimFirst?_spec some
      exact ⟨nofun, fun _ => ⟨index, c, found, owns, mapper, cells, rfl⟩⟩

/-- Taking objects back leaves the regions where they are. -/
theorem free_regions {thread : ThreadId} {object size : Nat} {answer : Except FreeError Unit}
    (sound : s.Sound) (freed : s.free os machine thread object size = (answer, after, later)) :
    after.Sound ∧ after.regions.Perm s.regions ∧ later.system = machine.system := by
  obtain ⟨error, ok⟩ := free_spec freed
  cases answer with
  | error cause =>
    obtain ⟨rfl, rfl⟩ := error cause rfl
    exact ⟨sound, .refl _, rfl⟩
  | ok =>
    obtain ⟨index, c, found, -, mapper, cells, rfl⟩ := ok rfl
    have grown : after.regions.Perm ([] ++ s.regions) := regions_set found cells rfl
    rw [List.nil_append] at grown
    refine ⟨sound.set found cells rfl ?_, grown, rfl⟩
    rw [mapper, Region.total_perm grown, sound.bytes]

/-- Slabs that are closed hold nothing. -/
theorem close_spec (closed : s.close os machine = (after, later)) :
    after.regions = [] ∧ ∃ removed, s.regions.Perm removed ∧
      later = { machine with system := os.unmapAll machine.system removed } := by
  unfold close at closed
  cases closed
  refine ⟨?_, s.cells.flatMap (·.regions.reverse), ?_, (Supply.unmapAll_spec ..).1⟩
  · rw [regions, List.flatMap_map]
    exact List.flatMap_eq_nil_iff.2 fun _ _ => rfl
  · exact List.Perm.flatMap_left _ fun c _ => c.regions.reverse_perm.symm

end NumaHeap.Slab
