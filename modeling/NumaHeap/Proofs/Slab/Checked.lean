import NumaHeap.Proofs.Platform.Bounded
import NumaHeap.Proofs.Slab.Footprint
import NumaHeap.Proofs.Topology

/-!
The slabs with every check made. There is a cell for each class on each node, so that whichever node is
asked its cell is found; regions are never carved beyond their end, and the free lists hold no more
objects than there are addresses. So no check fails, as long as what is given back is aligned.
-/

namespace NumaHeap.Slab

variable {σ : Type} {os : Platform σ} {contract : os.Contract}

namespace FreeList

/-- Puts an object on top of the list, at an address at which a link can be kept. -/
def pushChecked (l : FreeList) (memory : Memory) (object : Nat) : Option (FreeList × Memory) := do
  guard (8 ∣ object)
  let length ← Word.add? l.length 1
  return (⟨some object, length⟩, memory.setWord object (link l.head))

def popChecked (l : FreeList) (memory : Memory) : Option (Option (Nat × FreeList × Memory)) :=
  match l.head with
  | none => some none
  | some object => do
    let length ← Word.sub? l.length 1
    return some (object, ⟨ofLink (memory.getWord object), length⟩, memory.setWord object 0)

variable {l : FreeList} {object : Nat}

theorem pushChecked_eq (memory : Memory) (aligned : 8 ∣ object) (short : l.length + 1 < Word.bound) :
    l.pushChecked memory object = some (l.push memory object) := by
  rw [pushChecked, guard_eq_some aligned, Word.add?_of_lt short]
  rfl

theorem popChecked_eq (memory : Memory) (counted : l.head.isSome = true → 0 < l.length) :
    l.popChecked memory = some (l.pop? memory) := by
  unfold popChecked pop?
  cases top : l.head with
  | none => rfl
  | some object =>
    have some := counted (by rw [top, Option.isSome_some])
    simp only [Word.sub?_of_le some]
    rfl

/-- Objects that can hold a link start at different addresses, so there are fewer of them than
addresses. -/
theorem Holds.length_lt {m : Memory} {objects : List Nat} (holds : l.Holds m objects)
    (once : objects.Nodup) (linkable : ∀ object ∈ objects, Linkable object) :
    l.length + 1 < Word.bound := by
  have within : ∀ object ∈ objects, 1 ≤ object ∧ object < Word.bound - 7 := by
    intro object member
    obtain ⟨positive, room⟩ := linkable object member
    unfold linkSize at room
    omega
  have few := Parts.length_le_of_nodup once within
  rw [holds.length]
  unfold Word.bound at few ⊢
  omega

end FreeList

namespace Cell

def popChecked (c : Cell) (memory : Memory) : Option (Option (Nat × Cell × Memory)) := do
  match ← c.free.popChecked memory with
  | some (object, free, memory) => return some (object, { c with free, hits := c.hits + 1 }, memory)
  | none => return none

/-- Bytes of a region; they are divided by the size of an object. -/
def regionLengthChecked (page : PowerOfTwo) (objectSize : Nat) : Option Nat := do
  guard (0 < objectSize)
  Word.mul? objectSize (max (page.value / objectSize) Size.slabMinObjects)

def roomyChecked (c : Cell) : Option (Option Region) :=
  match c.regions.head? with
  | none => some none
  | some region => do
    let needed ← Word.add? c.carved c.objectSize
    return if needed ≤ region.length then some region else none

def ensureRoomChecked (os : Platform σ) (c : Cell) (s : Supply σ) :
    Option (Except MapError (Region × Cell) × Supply σ) := do
  match ← c.roomyChecked with
  | some region => return (.ok (region, c), s)
  | none =>
    let length ← regionLengthChecked os.pageSize c.objectSize
    match ← s.mapChecked os length c.node with
    | (.error cause, s) => return (.error cause, s)
    | (.ok region, s) =>
      return (.ok (region, { c with regions := region :: c.regions, carved := 0 }), s)

def carveChecked (c : Cell) (region : Region) : Option (Nat × Cell) := do
  let carved ← Word.add? c.carved c.objectSize
  let object ← Word.add? region.start c.carved
  return (object, { c with carved, misses := c.misses + 1 })

def allocateChecked (os : Platform σ) (c : Cell) (s : Supply σ) :
    Option (Except MapError Nat × Cell × Supply σ) := do
  match ← c.popChecked s.machine.memory with
  | some (object, c, memory) =>
    return (.ok object, c, { s with machine := s.machine.withMemory memory })
  | none =>
    match ← c.ensureRoomChecked os s with
    | (.error cause, s) => return (.error cause, c, s)
    | (.ok (region, c), s) =>
      let (object, c) ← c.carveChecked region
      return (.ok object, c, s)

def ownsChecked (c : Cell) (address : Nat) : Option Bool :=
  c.regions.anyM (·.containsChecked address)

def reclaimChecked (c : Cell) (memory : Memory) (object : Nat) : Option (Option (Cell × Memory)) := do
  if ← c.ownsChecked object then
    let (free, memory) ← c.free.pushChecked memory object
    return some ({ c with free }, memory)
  else return none

/-- Regions end before the last address, and neither what is carved from them nor what is free ever
exceeds a word. -/
structure InWords (page : PowerOfTwo) (c : Cell) : Prop where
  stops : ∀ region ∈ c.regions, region.stop < Word.bound
  object : 0 < c.objectSize
  asked : regionLength page c.objectSize < Word.bound
  carved : c.regions ≠ [] → c.carved + c.objectSize < Word.bound
  short : c.free.length + 1 < Word.bound
  listed : c.free.head.isSome = true → 0 < c.free.length

variable {c : Cell} {s : Supply σ} {page : PowerOfTwo} {object address : Nat}

/-- The bytes of a region are those of a page or of a few objects, hence far from the bound. -/
theorem regionLength_add_lt (page : PowerOfTwo) {objectSize : Nat} (small : objectSize ≤ Size.slabMax) :
    regionLength page objectSize + objectSize < Word.bound := by
  have half : page.value ≤ 2 ^ 63 :=
    Nat.pow_le_pow_right (by decide) (Nat.le_of_lt_succ page.exponent_lt)
  have whole := Nat.mul_div_le page.value objectSize
  unfold Size.slabMax at small
  rw [regionLength, ← Nat.mul_max_mul_left, Word.bound_eq]
  unfold Size.slabMinObjects
  omega

namespace InWords

theorem popChecked_eq (words : c.InWords page) (memory : Memory) :
    c.popChecked memory = some (c.pop? memory) := by
  simp only [popChecked, pop?, FreeList.popChecked_eq memory words.listed, bind, Option.bind_some]
  cases c.free.pop? memory <;> rfl

theorem regionLengthChecked_eq (words : c.InWords page) :
    regionLengthChecked page c.objectSize = some (regionLength page c.objectSize) := by
  rw [regionLengthChecked, guard_eq_some words.object]
  exact Word.mul?_of_lt words.asked

theorem roomyChecked_eq (words : c.InWords page) : c.roomyChecked = some c.roomy? := by
  unfold roomyChecked roomy?
  cases latest : c.regions.head? with
  | none => rfl
  | some region =>
    have used : c.regions ≠ [] := List.ne_nil_of_mem (List.mem_of_mem_head? latest)
    simp only [Word.add?_of_lt (words.carved used), bind, Option.bind_some, Option.filter_some,
      decide_eq_true_eq]
    rfl

theorem ensureRoomChecked_eq (words : c.InWords os.pageSize) (s : Supply σ) :
    c.ensureRoomChecked os s = some (c.ensureRoom os s) := by
  have asked := (regionLength_spec os.pageSize words.object).2
  simp only [ensureRoomChecked, ensureRoom, words.roomyChecked_eq, words.regionLengthChecked_eq,
    Supply.mapChecked_eq asked, bind, Option.bind_some]
  cases c.roomy? with
  | some region => rfl
  | none =>
    cases s.map os (regionLength os.pageSize c.objectSize) c.node with
    | mk answer supply => cases answer <;> rfl

/-- Where there is room, the next object ends before the last address. -/
theorem carveChecked_eq {d : Cell} {later : Supply σ} {region : Region}
    (words : c.InWords os.pageSize) (bounded : contract.Bounded)
    (possible : contract.Possible s.machine.system)
    (roomed : c.ensureRoom os s = (.ok (region, d), later)) :
    d.carveChecked region = some (d.carve region) := by
  have fits : region.stop < Word.bound ∧ d.carved ≤ region.length ∧
      d.carved + d.objectSize < Word.bound := by
    unfold ensureRoom at roomed
    split at roomed
    · next kept roomy =>
      cases roomed
      obtain ⟨latest, room⟩ := Option.filter_eq_some_iff.1 roomy
      have member := List.mem_of_mem_head? latest
      have enough : c.carved + c.objectSize ≤ region.length := of_decide_eq_true room
      exact ⟨words.stops region member, by omega, words.carved (List.ne_nil_of_mem member)⟩
    · obtain ⟨single, asked⟩ := regionLength_spec os.pageSize words.object
      split at roomed
      · cases roomed
      · next mapped =>
        cases roomed
        have below := Supply.map_stop_lt bounded possible asked mapped
        have whole := words.asked
        refine ⟨below, Nat.zero_le _, ?_⟩
        show 0 + c.objectSize < Word.bound
        omega
  obtain ⟨stop, inside, sum⟩ := fits
  unfold Region.stop at stop
  have start : Word.add? region.start d.carved = some (region.start + d.carved) :=
    Word.add?_of_lt (by omega)
  simp only [carveChecked, Word.add?_of_lt sum, start]
  rfl

/-- No check fails when a cell serves a request. -/
theorem allocateChecked_eq (words : c.InWords os.pageSize) (bounded : contract.Bounded)
    (possible : contract.Possible s.machine.system) :
    c.allocateChecked os s = some (c.allocate os s) := by
  simp only [allocateChecked, allocate, words.popChecked_eq, words.ensureRoomChecked_eq, bind,
    Option.bind_some]
  cases c.pop? s.machine.memory with
  | some taken => rfl
  | none =>
    cases roomed : c.ensureRoom os s with
    | mk answer supply =>
      cases answer with
      | error cause => rfl
      | ok found =>
        simp only [words.carveChecked_eq bounded possible roomed, Option.bind_some]
        rfl

theorem ownsChecked_eq (words : c.InWords page) (address : Nat) :
    c.ownsChecked address = some (c.owns address) :=
  Parts.anyM_eq_some fun region member => Region.containsChecked_eq (words.stops region member) address

/-- No check fails when an object is taken back, if it is aligned. -/
theorem reclaimChecked_eq (words : c.InWords page) (memory : Memory)
    (aligned : c.owns object = true → 8 ∣ object) :
    c.reclaimChecked memory object = some (c.reclaim? memory object) := by
  simp only [reclaimChecked, reclaim?, words.ownsChecked_eq, bind, Option.bind_some]
  split
  · next owns =>
    simp only [FreeList.pushChecked_eq memory (aligned owns) words.short, Option.bind_some]
    rfl
  · rfl

end InWords

/-- What is packed and stocked keeps to words. -/
theorem inWords {system : σ} {m : Memory} {objects : List Nat} (stocked : c.Stocked m objects)
    (packed : c.Packed os.pageSize) (least : linkSize ≤ c.objectSize)
    (small : c.objectSize ≤ Size.slabMax) (custody : os.Custody contract system c.regions)
    (bounded : contract.Bounded) : c.InWords os.pageSize where
  stops _ member := custody.stop_lt bounded member
  object := Nat.lt_of_lt_of_le (by decide) least
  asked := Nat.lt_of_le_of_lt (Nat.le_add_right ..) (regionLength_add_lt os.pageSize small)
  carved used := by
    have inside := (packed.filled used).2.2
    exact Nat.lt_of_le_of_lt (Nat.add_le_add_right inside _) (regionLength_add_lt os.pageSize small)
  short := stocked.free.length_lt stocked.nodup fun object member =>
    (stocked.slots object member).linkable custody least
  listed some := by
    rw [stocked.free.length]
    obtain ⟨object, top⟩ := Option.isSome_iff_exists.1 some
    exact List.length_pos_of_mem (stocked.free.linked.head_mem top)

end Cell

/-- The cell of a class on a node, found by its position. -/
def cellChecked (s : Slab) (node sizeClass : Nat) : Option Cell := do
  let row ← Word.mul? node Size.slabClassCount
  let index ← Word.add? row sizeClass
  s.cells[index]?

def popFirstChecked (s : Slab) (memory : Memory) (sizeClass : Nat) :
    List Nat → Option (Option (Arena.Placement × Slab × Memory))
  | [] => some none
  | node :: rest => do
    let c ← s.cellChecked node sizeClass
    match ← c.popChecked memory with
    | some (object, c, memory) => return some (⟨object, node⟩, s.setCell node sizeClass c, memory)
    | none => s.popFirstChecked memory sizeClass rest

/-- Serves a class on a node. An object of another node is announced with the size of its class, which
is read from the table. -/
def serveChecked (os : Platform σ) (s : Slab) (machine : Machine σ) (node sizeClass : Nat) :
    Option (Except AllocError Arena.Placement × Slab × Machine σ) := do
  let c ← s.cellChecked node sizeClass
  match ← c.allocateChecked os ⟨s.mapper, machine⟩ with
  | (.ok object, c, supply) =>
    return (.ok ⟨object, node⟩,
      { s.setCell node sizeClass c with
        mapper := supply.mapper
        allocations := s.allocations + 1 },
      supply.machine)
  | (.error cause, _, supply) =>
    let s := { s with mapper := supply.mapper }
    match ← s.popFirstChecked supply.machine.memory sizeClass (otherNodes os.topology node) with
    | none => return (.error (.map cause), s, supply.machine)
    | some (placement, s, memory) =>
      let _ ← Size.slabClasses[sizeClass]?
      return (.ok placement,
        { s with
          allocations := s.allocations + 1
          remoteFallbacks := s.remoteFallbacks + 1 },
        supply.machine.withMemory memory)

/-- Allocates an object. Only a node that was asked for is looked up in the topology first. -/
def allocateChecked (os : Platform σ) (s : Slab) (machine : Machine σ) (thread : ThreadId) (size : Nat)
    (node : Option Nat) : Option (Except AllocError Arena.Placement × Slab × Machine σ) :=
  if size = 0 then some (.error .zeroSize, s, machine)
  else do
    match ← Size.slabClassChecked size with
    | none => return (.error (.noSizeClass size), s, machine)
    | some sizeClass =>
      match node with
      | none => s.serveChecked os machine (s.localNode os machine thread) sizeClass
      | some node =>
        if os.topology.contains node then s.serveChecked os machine node sizeClass
        else return (.error (.invalidNode node), s, machine)

def reclaimFirstChecked (s : Slab) (memory : Memory) (sizeClass object : Nat) :
    List Nat → Option (Option (Slab × Memory))
  | [] => some none
  | node :: rest => do
    let c ← s.cellChecked node sizeClass
    match ← c.reclaimChecked memory object with
    | some (c, memory) => return some (s.setCell node sizeClass c, memory)
    | none => s.reclaimFirstChecked memory sizeClass object rest

def freeChecked (os : Platform σ) (s : Slab) (machine : Machine σ) (thread : ThreadId)
    (object size : Nat) : Option (Except FreeError Unit × Slab × Machine σ) := do
  match ← Size.slabClassChecked size with
  | none => return (.error (.unknownSizeClass size), s, machine)
  | some sizeClass =>
    let here := s.localNode os machine thread
    match ← s.reclaimFirstChecked machine.memory sizeClass object
        (here :: otherNodes os.topology here) with
    | none => return (.error (.unknownPointer object), s, machine)
    | some (s, memory) =>
      return (.ok (), { s with deallocations := s.deallocations + 1 }, machine.withMemory memory)

/-- There is a cell for each class on each node, and all of them keep to words. -/
structure InWords (os : Platform σ) (s : Slab) : Prop where
  counted : s.Counted os
  cells : ∀ (index : Nat) (c : Cell), s.cells[index]? = some c → c.InWords os.pageSize

theorem localNode_lt (closed : os.topology.Closed) (s : Slab) (machine : Machine σ)
    (thread : ThreadId) : s.localNode os machine thread < os.topology.nodeCount := by
  unfold localNode
  split
  · exact os.currentNode_lt closed machine.system thread
  · exact closed.positive

theorem otherNodes_lt {node other : Nat} (member : other ∈ otherNodes os.topology node) :
    other < os.topology.nodeCount :=
  List.mem_range.1 (List.mem_filter.1 member).1

namespace InWords

variable {s : Slab} {machine : Machine σ} {node sizeClass size object : Nat} {thread : ThreadId}

/-- On every node the cell of a class is found. -/
theorem cellChecked_eq (words : s.InWords os) (closed : os.topology.Closed)
    (below : node < os.topology.nodeCount) (bounded : sizeClass < Size.slabClassCount) :
    ∃ c, s.cell? node sizeClass = some c ∧ s.cellChecked node sizeClass = some c ∧
      c.InWords os.pageSize := by
  obtain ⟨c, found⟩ := words.counted.cell (Topology.contains_iff.2 below) bounded
  refine ⟨c, found, ?_, words.cells _ c found⟩
  have few := closed.few
  unfold Topology.maxNodes at few
  unfold Size.slabClassCount at bounded
  have row : Word.mul? node Size.slabClassCount = some (node * Size.slabClassCount) := by
    refine Word.mul?_of_lt ?_
    unfold Size.slabClassCount Word.bound
    omega
  have index : Word.add? (node * Size.slabClassCount) sizeClass = some (cellIndex node sizeClass) := by
    refine Word.add?_of_lt ?_
    unfold Size.slabClassCount Word.bound
    omega
  simp only [cellChecked, row, index, bind, Option.bind_some]
  exact found

theorem popFirstChecked_eq (words : s.InWords os) (closed : os.topology.Closed) (memory : Memory)
    (bounded : sizeClass < Size.slabClassCount) {nodes : List Nat}
    (below : ∀ node ∈ nodes, node < os.topology.nodeCount) :
    s.popFirstChecked memory sizeClass nodes = some (s.popFirst? memory sizeClass nodes) := by
  induction nodes with
  | nil => rfl
  | cons node rest ih =>
    obtain ⟨here, later⟩ := List.forall_mem_cons.1 below
    obtain ⟨c, found, checked, inner⟩ := words.cellChecked_eq closed here bounded
    simp only [popFirstChecked, popFirst?, found, checked, inner.popChecked_eq, bind, Option.bind_some]
    cases c.pop? memory with
    | some taken => rfl
    | none => exact ih later

theorem serveChecked_eq {contract : os.Contract} (words : s.InWords os) (closed : os.topology.Closed)
    (ends : contract.Bounded) (possible : contract.Possible machine.system)
    (below : node < os.topology.nodeCount) (bounded : sizeClass < Size.slabClassCount) :
    s.serveChecked os machine node sizeClass = some (s.serve os machine node sizeClass) := by
  obtain ⟨c, found, checked, inner⟩ := words.cellChecked_eq closed below bounded
  have served : c.allocateChecked os ⟨s.mapper, machine⟩ = some (c.allocate os ⟨s.mapper, machine⟩) :=
    inner.allocateChecked_eq ends possible
  simp only [serveChecked, serve, found, checked, served, bind, Option.bind_some]
  cases c.allocate os ⟨s.mapper, machine⟩ with
  | mk answer rest =>
    cases answer with
    | ok object => rfl
    | error cause =>
      have other : ({ s with mapper := rest.2.mapper } : Slab).InWords os :=
        ⟨words.counted, words.cells⟩
      have inside : sizeClass < Size.slabClasses.length := bounded
      have entry := List.getElem?_eq_getElem inside
      simp only [other.popFirstChecked_eq closed rest.2.machine.memory bounded
        fun _ member => otherNodes_lt member, Option.bind_some, entry]
      cases popFirst? { s with mapper := rest.2.mapper } rest.2.machine.memory sizeClass
        (otherNodes os.topology node) <;> rfl

/-- No check fails when the slabs are asked for anything. -/
theorem allocateChecked_eq {contract : os.Contract} (words : s.InWords os)
    (closed : os.topology.Closed) (ends : contract.Bounded)
    (possible : contract.Possible machine.system) (node : Option Nat) :
    s.allocateChecked os machine thread size node =
      some (s.allocate os machine thread size node) := by
  unfold allocateChecked allocate
  split
  · rfl
  · simp only [Size.slabClassChecked_eq, bind, Option.bind_some]
    cases fits : Size.slabClass? size with
    | none => rfl
    | some sizeClass =>
      have bounded := Size.slabClass_lt fits
      cases node with
      | none =>
        have below := localNode_lt closed s machine thread
        simp only [Option.getD_none, Topology.contains_iff.2 below, if_true]
        exact words.serveChecked_eq closed ends possible below bounded
      | some node =>
        simp only [Option.getD_some]
        split
        · next there =>
          exact words.serveChecked_eq closed ends possible (Topology.contains_iff.1 there) bounded
        · rfl

theorem reclaimFirstChecked_eq (words : s.InWords os) (closed : os.topology.Closed) (memory : Memory)
    (bounded : sizeClass < Size.slabClassCount)
    (aligned : ∀ node c, s.cell? node sizeClass = some c → c.owns object = true → 8 ∣ object)
    {nodes : List Nat} (below : ∀ node ∈ nodes, node < os.topology.nodeCount) :
    s.reclaimFirstChecked memory sizeClass object nodes =
      some (s.reclaimFirst? memory sizeClass object nodes) := by
  induction nodes with
  | nil => rfl
  | cons node rest ih =>
    obtain ⟨here, later⟩ := List.forall_mem_cons.1 below
    obtain ⟨c, found, checked, inner⟩ := words.cellChecked_eq closed here bounded
    simp only [reclaimFirstChecked, reclaimFirst?, found, checked,
      inner.reclaimChecked_eq memory (aligned node c found), bind, Option.bind_some]
    cases c.reclaim? memory object with
    | some taken => rfl
    | none => exact ih later

/-- No check fails when an object is given back, if it is aligned or belongs to no cell of its class. -/
theorem freeChecked_eq (words : s.InWords os) (closed : os.topology.Closed)
    (aligned : s.Houses size object → 8 ∣ object) :
    s.freeChecked os machine thread object size =
      some (s.free os machine thread object size) := by
  simp only [freeChecked, free, Size.slabClassChecked_eq, bind, Option.bind_some]
  cases fits : Size.slabClass? size with
  | none => rfl
  | some sizeClass =>
    have owned : ∀ node c, s.cell? node sizeClass = some c → c.owns object = true → 8 ∣ object :=
      fun node c found owns => aligned ⟨node, sizeClass, c, fits, found, owns⟩
    have below : ∀ node ∈ s.localNode os machine thread ::
        otherNodes os.topology (s.localNode os machine thread), node < os.topology.nodeCount :=
      List.forall_mem_cons.2 ⟨localNode_lt closed s machine thread, fun _ => otherNodes_lt⟩
    simp only [words.reclaimFirstChecked_eq closed machine.memory (Size.slabClass_lt fits) owned below,
      Option.bind_some]
    cases s.reclaimFirst? machine.memory sizeClass object
      (s.localNode os machine thread :: otherNodes os.topology (s.localNode os machine thread)) <;> rfl

end InWords

/-- Every cell is packed. -/
def Packed (page : PowerOfTwo) (s : Slab) : Prop :=
  ∀ (index : Nat) (c : Cell), s.cells[index]? = some c → c.Packed page

namespace Packed

variable {s after : Slab} {page : PowerOfTwo} {machine later : Machine σ} {thread : ThreadId}

theorem create (page : PowerOfTwo) (topology : Topology) (hugePages numaAware : Bool) :
    (create topology hugePages numaAware).Packed page := by
  intro index c found
  rw [create_cell found]
  exact .of_unused rfl rfl

/-- One cell is replaced. -/
theorem set {index : Nat} {last : Cell} (packed : s.Packed page) (inner : last.Packed page)
    (cells : after.cells = s.cells.set index last) : after.Packed page := by
  intro place d there
  rw [cells] at there
  obtain ⟨-, rfl⟩ | before := Parts.set_cases there
  · exact inner
  · exact packed place d before

theorem allocate {size : Nat} {node : Option Nat} {free : Nat → List Nat}
    {answer : Except AllocError Arena.Placement} (packed : s.Packed os.pageSize) (sound : s.Sound)
    (stocked : s.Stocked machine.memory free)
    (served : s.allocate os machine thread size node = (answer, after, later)) :
    after.Packed os.pageSize := by
  obtain same | ⟨home, sizeClass, c, last, -, found, fills, cells⟩ :=
    (allocate_outcome served).fills sound
  · intro index c found
    exact packed index c (same ▸ found)
  · have positive : 0 < c.objectSize := Nat.lt_of_lt_of_le (by decide) (sound.least found)
    have inner := (packed _ c found).fills positive (stocked _ c found).whole fills
    exact packed.set inner cells

theorem free {object size : Nat} {answer : Except FreeError Unit} (packed : s.Packed page)
    (freed : s.free os machine thread object size = (answer, after, later)) : after.Packed page := by
  obtain ⟨failed, ok⟩ := free_spec freed
  cases answer with
  | error error => exact (failed error rfl).1 ▸ packed
  | ok =>
    obtain ⟨index, c, found, -, -, cells, -⟩ := ok rfl
    have before := packed index c found
    refine packed.set ?_ cells
    exact ⟨before.length, before.unused, before.filled⟩

end Packed

/-- Slabs that are packed and stocked keep to words. -/
theorem inWords {s : Slab} {system : σ} {m : Memory} {free : Nat → List Nat} (sound : s.Sound)
    (counted : s.Counted os) (packed : s.Packed os.pageSize) (stocked : s.Stocked m free)
    (custody : os.Custody contract system s.regions) (bounded : contract.Bounded) : s.InWords os where
  counted := counted
  cells index c found := by
    have small : c.objectSize ≤ Size.slabMax := by
      have last := Nat.mod_lt index (by decide : 0 < Size.slabClassCount)
      rw [sound.sizes index c found]
      exact Nat.pow_le_pow_right (by decide) (Nat.add_le_add_right (Nat.le_of_lt_succ last) 3)
    exact Cell.inWords (stocked index c found) (packed index c found) (sound.least found) small
      (custody.sublist (regions_sublist found)) bounded

end NumaHeap.Slab
