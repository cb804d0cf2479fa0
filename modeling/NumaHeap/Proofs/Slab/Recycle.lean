import NumaHeap.Proofs.Slab.Home

/-!
An object that is taken off its free list and put back. The slabs hand out blank memory unless they
recycle, so an object that still holds something was on a free list. Once it is wiped and taken back,
its list is the same as before, link for link; and since what the slabs answer depends on their lists
and regions alone, the same request is then answered with the same object.
-/

namespace NumaHeap.Slab

variable {σ : Type} {os : Platform σ} {contract : os.Contract} {system : σ} {s after last : Slab}
  {machine later : Machine σ} {thread : ThreadId} {sizeClass index node size object : Nat}
  {c d : Cell} {new : List Region} {m n : Memory} {free : Nat → List Nat} {wish : Option Nat}

namespace FreeList

variable {l rest : FreeList}

/-- What is popped was on top, and its link is cleared. -/
theorem pop?_eq_some (popped : l.pop? m = some (object, rest, n)) :
    l.head = some object ∧ rest.length = l.length - 1 ∧ n = m.setWord object 0 := by
  obtain ⟨first, top, same⟩ := Option.map_eq_some_iff.1 popped
  simp only [Prod.mk.injEq] at same
  obtain ⟨rfl, rfl, rfl⟩ := same
  exact ⟨top, rfl, rfl⟩

/-- Pushing what was popped restores the list, whatever was done to memory in between. -/
theorem push_of_pop? (popped : l.pop? m = some (object, rest, n)) (nonempty : 0 < l.length)
    (memory : Memory) : (rest.push memory object).1 = l := by
  obtain ⟨top, shorter, -⟩ := pop?_eq_some popped
  calc (rest.push memory object).1
    _ = ⟨some object, rest.length + 1⟩ := rfl
    _ = ⟨l.head, l.length⟩ := by rw [top, shorter, Nat.sub_add_cancel nonempty]

/-- Popping, wiping and pushing write nothing but to the slot of the object. -/
theorem get_recycle {width address : Nat} (popped : l.pop? m = some (object, rest, n))
    (least : linkSize ≤ width) (fits : size ≤ width)
    (outside : ¬Extent.Holds ⟨object, width⟩ address) :
    (rest.push (n.clear object size) object).2.get address = m.get address := by
  obtain ⟨-, -, rfl⟩ := pop?_eq_some popped
  have other : ¬(Memory.linkAt object).Holds address := fun inside =>
    outside ⟨inside.1, Nat.lt_of_lt_of_le inside.2 (Nat.add_le_add_left least object)⟩
  have unwiped : ¬Extent.Holds ⟨object, size⟩ address := fun inside =>
    outside ⟨inside.1, Nat.lt_of_lt_of_le inside.2 (Nat.add_le_add_left fits object)⟩
  calc (rest.push ((m.setWord object 0).clear object size) object).2.get address
    _ = ((m.setWord object 0).clear object size).get address := Memory.get_setWord_outside other
    _ = (m.setWord object 0).get address := Memory.get_clear_outside unwiped
    _ = m.get address := Memory.get_setWord_outside other

end FreeList

namespace Cell

/-- An object of which some byte is not zero comes off the free list. -/
theorem Allocates.recycled {s later : Supply σ} {objects : List Nat} {address : Nat}
    (allocates : Allocates os c s (.ok object) d later new) (least : linkSize ≤ c.objectSize)
    (custody : os.Custody contract system (new ++ c.regions))
    (stocked : c.Stocked s.machine.memory objects) (inside : (c.slot object).Holds address)
    (dirty : later.machine.memory.get address ≠ 0) :
    new = [] ∧ ∃ free memory, c.free.pop? s.machine.memory = some (object, free, memory) ∧
      d = { c with free, hits := c.hits + 1 } ∧
      later = { s with machine := s.machine.withMemory memory } := by
  cases allocates with
  | popped popped => exact ⟨rfl, _, _, popped, rfl, rfl⟩
  | @carved roomy _ _ region room latest enough =>
    obtain ⟨-, -, same⟩ := room.spec
    have refilled := room.stocked least custody stocked
    have wide : (roomy.slot (roomy.carve region).1).Holds address := by
      rw [slot, same]
      exact inside
    exact absurd (refilled.blank address (uncarved_of_slot latest enough wide)) dirty

/-- A popped object that is wiped and pushed leaves the list as it was, with the same objects. -/
theorem Stocked.recycle {objects : List Nat} {rest : FreeList} (stocked : c.Stocked m objects)
    (least : linkSize ≤ c.objectSize) (custody : os.Custody contract system c.regions)
    (popped : c.free.pop? m = some (object, rest, n)) (fits : size ≤ c.objectSize) :
    (rest.push (n.clear object size) object).1 = c.free ∧
      { c with hits := c.hits + 1 }.Stocked (rest.push (n.clear object size) object).2 objects := by
  obtain ⟨others, rfl, -, left⟩ := stocked.pop least custody popped
  have slot := stocked.slots object (List.mem_cons_self ..)
  have used := (List.nodup_cons.1 stocked.nodup).1
  have wiped : { c with free := rest, hits := c.hits + 1 }.Stocked (n.clear object size) others := by
    refine left.congr fun address kept => Memory.get_clear_outside fun inside => ?_
    have wide : (c.slot object).Holds address :=
      ⟨inside.1, Nat.lt_of_lt_of_le inside.2 (Nat.add_le_add_left fits object)⟩
    exact left.not_reserved least custody slot used wide kept
  have nonempty : 0 < c.free.length := by
    rw [stocked.free.length]
    exact Nat.zero_lt_succ _
  have restored := FreeList.push_of_pop? popped nonempty (n.clear object size)
  have pushed := wiped.push least custody slot used
  rw [restored] at pushed
  exact ⟨restored, pushed⟩

/-- The cell without its counts. -/
def uncounted (c : Cell) : Cell := { c with hits := 0, misses := 0 }

/-- What a cell answers: the object on top of its list, else the next one of its latest region, else
the first one of a new region. -/
theorem allocate_answer (os : Platform σ) (c : Cell) (s : Supply σ) :
    (c.allocate os s).1 =
      match c.free.head, c.roomy? with
      | some object, _ => .ok object
      | none, some region => .ok (region.start + c.carved)
      | none, none => (s.map os (regionLength os.pageSize c.objectSize) c.node).1.map Region.start := by
  cases top : c.free.head with
  | some object => simp [allocate, pop?, FreeList.pop?, top]
  | none =>
    simp only [allocate, pop?, FreeList.pop?, top, Option.map_none, ensureRoom]
    cases roomy : c.roomy? with
    | some region => rfl
    | none =>
      cases s.map os (regionLength os.pageSize c.objectSize) c.node with
      | mk answer later => cases answer <;> rfl

/-- What a cell answers depends neither on its counts nor on what memory holds. -/
theorem allocate_congr {s again : Supply σ} (same : d.uncounted = c.uncounted)
    (wishes : again.mapper.wishes = s.mapper.wishes)
    (system : again.machine.system = s.machine.system) :
    (d.allocate os again).1 = (c.allocate os s).1 := by
  obtain ⟨_, _, _, _, _, _, _⟩ := c
  obtain ⟨objectSize, node, free, regions, carved, _, _⟩ := d
  simp only [uncounted, Cell.mk.injEq, and_true] at same
  obtain ⟨rfl, rfl, rfl, rfl, rfl⟩ := same
  have mapped := Supply.map_congr os (regionLength os.pageSize objectSize) node
    (congrArg Prod.fst wishes) system
  simp only [allocate_answer, mapped]
  rfl

end Cell

/-- The object on top of the free list of a class on a node. -/
def top? (s : Slab) (node sizeClass : Nat) : Option Nat :=
  (s.cell? node sizeClass).bind (·.free.head)

/-- Of some nodes, the first that has a free object serves the one on top. -/
theorem popFirst?_map (s : Slab) (m : Memory) (sizeClass : Nat) (nodes : List Nat) :
    (s.popFirst? m sizeClass nodes).map (·.1) =
      nodes.findSome? fun node => (s.top? node sizeClass).map (Arena.Placement.mk · node) := by
  induction nodes with
  | nil => rfl
  | cons node rest ih =>
    have here : s.top? node sizeClass = (s.cell? node sizeClass).bind (·.free.head) := rfl
    rw [popFirst?, List.findSome?_cons, here]
    cases s.cell? node sizeClass with
    | none => exact ih
    | some c =>
      cases top : c.free.head with
      | none => simpa [Cell.pop?, FreeList.pop?, top] using ih
      | some object => simp [Cell.pop?, FreeList.pop?, top]

/-- What the slabs answer for a class on a node whose cell gives this answer: where that can map no
region, the first free object of another node. -/
def answer (topology : Topology) (s : Slab) (node sizeClass : Nat) :
    Except MapError Nat → Except AllocError Arena.Placement
  | .ok object => .ok ⟨object, node⟩
  | .error cause =>
    ((otherNodes topology node).findSome? fun other =>
      (s.top? other sizeClass).map (Arena.Placement.mk · other)).elim (.error (.map cause)) .ok

theorem serve_answer (found : s.cell? node sizeClass = some c) :
    (s.serve os machine node sizeClass).1 =
      s.answer os.topology node sizeClass (c.allocate os ⟨s.mapper, machine⟩).1 := by
  cases answered : c.allocate os ⟨s.mapper, machine⟩ with
  | mk result rest =>
    obtain ⟨last, supply⟩ := rest
    cases result with
    | ok object => simp only [serve, found, answered, answer]
    | error cause =>
      have popped := popFirst?_map { s with mapper := supply.mapper } supply.machine.memory sizeClass
        (otherNodes os.topology node)
      have same : ∀ other, top? { s with mapper := supply.mapper } other sizeClass =
          s.top? other sizeClass := fun _ => rfl
      simp only [same] at popped
      simp only [serve, found, answered, answer, ← popped]
      cases popFirst? { s with mapper := supply.mapper } supply.machine.memory sizeClass
        (otherNodes os.topology node) <;> rfl

/-- The cells are the same, but for their counts. -/
def Agrees (s t : Slab) : Prop :=
  ∀ node sizeClass,
    (t.cell? node sizeClass).map Cell.uncounted = (s.cell? node sizeClass).map Cell.uncounted

namespace Agrees

variable {t : Slab} {again : Machine σ}

theorem top? (agrees : Agrees s t) (node sizeClass : Nat) :
    t.top? node sizeClass = s.top? node sizeClass := by
  have told : ∀ cell : Option Cell,
      cell.bind (·.free.head) = (cell.map Cell.uncounted).bind (·.free.head) := by
    intro cell
    cases cell <;> rfl
  rw [Slab.top?, Slab.top?, told, agrees node sizeClass, ← told]

theorem answer (agrees : Agrees s t) (topology : Topology) (node sizeClass : Nat)
    (result : Except MapError Nat) :
    t.answer topology node sizeClass result = s.answer topology node sizeClass result := by
  cases result with
  | ok => rfl
  | error => simp only [Slab.answer, agrees.top?]

/-- What the slabs answer depends neither on their counts nor on what memory holds. -/
theorem serve (agrees : Agrees s t) (wishes : t.mapper.wishes = s.mapper.wishes)
    (system : again.system = machine.system) (node sizeClass : Nat) :
    (t.serve os again node sizeClass).1 = (s.serve os machine node sizeClass).1 := by
  have cells := agrees node sizeClass
  cases found : s.cell? node sizeClass with
  | none =>
    rw [found, Option.map_none, Option.map_eq_none_iff] at cells
    simp only [Slab.serve, found, cells]
  | some c =>
    rw [found, Option.map_some] at cells
    obtain ⟨d, there, same⟩ := Option.map_eq_some_iff.1 cells
    calc (t.serve os again node sizeClass).1
      _ = t.answer os.topology node sizeClass (d.allocate os ⟨t.mapper, again⟩).1 :=
        serve_answer there
      _ = s.answer os.topology node sizeClass (c.allocate os ⟨s.mapper, machine⟩).1 := by
        rw [Cell.allocate_congr (s := ⟨s.mapper, machine⟩) same wishes system]
        exact agrees.answer os.topology node sizeClass _
      _ = (s.serve os machine node sizeClass).1 := (serve_answer found).symm

theorem allocate (agrees : Agrees s t) (wishes : t.mapper.wishes = s.mapper.wishes)
    (system : again.system = machine.system) (thread : ThreadId) (size : Nat) (wish : Option Nat) :
    (t.allocate os again thread size wish).1 = (s.allocate os machine thread size wish).1 := by
  have aware : t.mapper.numaAware = s.mapper.numaAware := congrArg Prod.snd wishes
  have here : t.localNode os again thread = s.localNode os machine thread := by
    simp only [localNode, Machine.currentNode, aware, system]
  unfold Slab.allocate
  rw [here]
  split
  · rfl
  · split
    · rfl
    · dsimp only
      split
      · exact agrees.serve wishes system ..
      · rfl

end Agrees

theorem Cell.allocate_wishes (os : Platform σ) (c : Cell) (s : Supply σ) :
    (c.allocate os s).2.2.mapper.wishes = s.mapper.wishes := by
  unfold allocate ensureRoom
  split
  · rfl
  · cases c.roomy? with
    | some region => rfl
    | none =>
      have wishes := Supply.map_wishes os s (regionLength os.pageSize c.objectSize) c.node
      dsimp only
      cases mapped : s.map os (regionLength os.pageSize c.objectSize) c.node with
      | mk answer supply =>
        rw [mapped] at wishes
        cases answer <;> exact wishes

/-- The same slabs with another count of fallbacks. -/
def withFallbacks (s : Slab) (count : Nat) : Slab := { s with mapper := s.mapper.withFallbacks count }

/-- What is served is counted once, and the wishes stay. -/
structure Tallied (s after : Slab) (answer : Except AllocError Arena.Placement) : Prop where
  wishes : after.mapper.wishes = s.mapper.wishes
  deallocations : after.deallocations = s.deallocations
  allocations : ∀ placement, answer = .ok placement → after.allocations = s.allocations + 1
  denied : ∀ error, answer = .error error → after.allocations = s.allocations

theorem allocate_tallied {answer : Except AllocError Arena.Placement}
    (served : s.allocate os machine thread size wish = (answer, after, later)) :
    Tallied s after answer := by
  have wishes {c last : Cell} {supply : Supply σ} {result : Except MapError Nat}
      (answered : c.allocate os ⟨s.mapper, machine⟩ = (result, last, supply)) :
      supply.mapper.wishes = s.mapper.wishes := by
    have kept := Cell.allocate_wishes os c ⟨s.mapper, machine⟩
    rwa [answered] at kept
  cases allocate_outcome served with
  | invalid => exact ⟨rfl, rfl, nofun, fun _ _ => rfl⟩
  | here _ _ answered => exact ⟨wishes answered, rfl, fun _ _ => rfl, nofun⟩
  | elsewhere _ _ denied popped =>
    obtain ⟨c', free, -, -, rfl⟩ := popFirst?_spec popped
    exact ⟨wishes denied, rfl, fun _ _ => rfl, nofun⟩
  | exhausted _ _ denied _ => exact ⟨wishes denied, rfl, nofun, fun _ _ => rfl⟩

theorem Cell.allocate_error {supply left : Supply σ} {cause : MapError}
    (denied : c.allocate os supply = (.error cause, d, left)) :
    c.free.head = none ∧ c.roomy? = none ∧
      supply.map os (regionLength os.pageSize c.objectSize) c.node = (.error cause, left) := by
  cases top : c.free.head with
  | some object =>
    simp only [allocate, pop?, FreeList.pop?, top, Option.map_some] at denied
    cases denied
  | none =>
    simp only [allocate, pop?, FreeList.pop?, top, Option.map_none, ensureRoom] at denied
    cases roomy : c.roomy? with
    | some region =>
      rw [roomy] at denied
      cases denied
    | none =>
      simp only [roomy] at denied
      cases mapped : supply.map os (regionLength os.pageSize c.objectSize) c.node with
      | mk answer later =>
        rw [mapped] at denied
        cases answer with
        | ok => cases denied
        | error =>
          cases denied
          exact ⟨rfl, rfl, rfl⟩

/-- A request fails for want of a mapping only if no node has a free object of the class. -/
theorem allocate_exhausted {cause : MapError} (counted : s.Counted os)
    (served : s.allocate os machine thread size wish = (.error (.map cause), after, later)) :
    ∃ sizeClass, Size.slabClass? size = some sizeClass ∧ ∀ home, s.top? home sizeClass = none := by
  cases allocate_outcome served with
  | invalid unmapped => exact absurd rfl (unmapped cause)
  | @exhausted sizeClass c last supply _ fits found denied none =>
    refine ⟨sizeClass, fits, fun home => ?_⟩
    let node := wish.getD (s.localNode os machine thread)
    have first : s.top? node sizeClass = .none := by
      rw [top?, found, Option.bind_some]
      exact (Cell.allocate_error denied).1
    have rest := popFirst?_map { s with mapper := supply.mapper } supply.machine.memory sizeClass
      (otherNodes os.topology node)
    rw [none, Option.map_none] at rest
    cases there : s.cell? home sizeClass with
    | none => rw [top?, there, Option.bind_none]
    | some d =>
      rcases List.mem_cons.1 (counted.asked there node) with rfl | other
      · exact first
      · exact Option.map_eq_none_iff.1 (List.findSome?_eq_none_iff.1 rest.symm home other)

/-- What is served is blank where memory was blank before, apart from the link of the object. -/
theorem allocate_blank {placement : Arena.Placement} {address : Nat} (sound : s.Sound)
    (custody : os.Custody contract machine.system s.regions)
    (stocked : s.Stocked machine.memory free)
    (served : s.allocate os machine thread size wish = (.ok placement, after, later))
    (blank : ¬(Memory.linkAt placement.address).Holds address → machine.memory.get address = 0) :
    later.memory.get address = 0 := by
  obtain ⟨sizeClass, new, serves, -⟩ := allocate_spec sound served
  obtain ⟨-, gains, -⟩ := serves.spec sound
  have hands := serves.hands sound (gains.custody custody) stocked
  by_cases link : (Memory.linkAt placement.address).Holds address
  · exact hands.clean address link
  · by_cases fresh : ∃ region ∈ new, region.extent.Holds address
    · obtain ⟨region, member, inside⟩ := fresh
      exact hands.blank region member address inside
    · push Not at fresh
      exact (hands.spared address fresh link).get.trans (blank link)

/-- An object of which some byte is not zero was taken off a free list of its class. -/
theorem Serves.recycled {placement : Arena.Placement} {address : Nat} (sound : s.Sound)
    (custody : os.Custody contract system (new ++ s.regions))
    (stocked : s.Stocked machine.memory free)
    (serves : Serves os sizeClass s machine (.ok placement) after later new)
    (inside : Extent.Holds ⟨placement.address, Size.slabObject sizeClass⟩ address)
    (dirty : later.memory.get address ≠ 0) :
    new = [] ∧ ∃ node c rest m, s.cell? node sizeClass = some c ∧
      (∀ a, m.get a = machine.memory.get a) ∧
      c.free.pop? m = some (placement.address, rest, later.memory) ∧
      after.cells =
        s.cells.set (cellIndex node sizeClass) { c with free := rest, hits := c.hits + 1 } := by
  cases serves with
  | @served node object c last middle supply after new first found bounded allocates cells =>
    have least := sound.least found
    have still : s.Stocked middle.machine.memory free :=
      stocked.congr fun address _ => first.same address nofun
    have wide : (c.slot object).Holds address := by
      rw [Cell.slot, sound.objectSize found bounded]
      exact inside
    obtain ⟨rfl, rest, memory, popped, rfl, rfl⟩ := allocates.recycled least
      (custody.sublist ((regions_sublist found).append_left _)) (still _ c found) wide dirty
    exact ⟨rfl, node, c, rest, middle.machine.memory, found,
      fun address => first.same address nofun, popped, cells⟩

/-- An object was taken off the free list of the cell that owns it, and is back on top with its bytes
wiped: every list stands for the objects that it stood for before. -/
structure Recycled (s last : Slab) (before after : Memory) (size node sizeClass object : Nat)
    (c : Cell) : Prop where
  fits : Size.slabClass? size = some sizeClass
  found : s.cell? node sizeClass = some c
  owns : c.owns object = true
  top : c.free.head = some object
  cells : last.cells = s.cells.set (cellIndex node sizeClass) { c with hits := c.hits + 1 }
  allocations : last.allocations = s.allocations + 1
  deallocations : last.deallocations = s.deallocations + 1
  wishes : last.mapper.wishes = s.mapper.wishes
  stocked : ∃ free, s.Stocked before free ∧ last.Stocked after free
  wiped : ∀ address, Extent.Holds ⟨object, size⟩ address →
    ¬(Memory.linkAt object).Holds address → after.get address = 0

theorem Recycled.agrees (recycled : s.Recycled last m n size node sizeClass object c) :
    Agrees s last := by
  intro home other
  rw [cell?, cell?, recycled.cells]
  by_cases same : cellIndex node sizeClass = cellIndex home other
  · have found := recycled.found
    rw [cell?] at found
    rw [← same, found, List.getElem?_set_self (List.getElem?_eq_some_iff.1 found).1]
    rfl
  · rw [List.getElem?_set_ne same]

theorem Recycled.regions (recycled : s.Recycled last m n size node sizeClass object c) :
    last.regions.Perm s.regions := by
  have kept : last.regions.Perm ([] ++ s.regions) :=
    regions_set recycled.found recycled.cells rfl
  rwa [List.nil_append] at kept

/-- An object that was popped goes back to its cell, whose list is then as it was. -/
theorem free_of_pop {rest : FreeList} (counted : after.Counted os)
    (custody : os.Custody contract system after.regions) (fits : Size.slabClass? size = some sizeClass)
    (found : s.cell? node sizeClass = some c)
    (cells : after.cells =
      s.cells.set (cellIndex node sizeClass) { c with free := rest, hits := c.hits + 1 })
    (owns : c.owns object = true) (restored : (rest.push m object).1 = c.free)
    (machine : Machine σ) (caller : ThreadId) :
    after.free os (machine.withMemory m) caller object size =
      (.ok (),
        { after with
          cells := s.cells.set (cellIndex node sizeClass) { c with hits := c.hits + 1 }
          deallocations := after.deallocations + 1 },
        machine.withMemory (rest.push m object).2) := by
  have here : after.cell? node sizeClass = some { c with free := rest, hits := c.hits + 1 } := by
    rw [cell?, cells]
    exact List.getElem?_set_self (List.getElem?_eq_some_iff.1 found).1
  rw [free_of_owns counted custody fits here owns, setCell, cells, List.set_set]
  simp only [Machine.withMemory, restored]

/-- Once a popped object is wiped and pushed, every list stands for the objects it stood for before. -/
theorem Stocked.recycle {rest : FreeList} (sound : s.Sound)
    (custody : os.Custody contract system s.regions) (stocked : s.Stocked m free)
    (found : s.cells[index]? = some c) (popped : c.free.pop? m = some (object, rest, n))
    (fits : size ≤ c.objectSize)
    (cells : last.cells = s.cells.set index { c with hits := c.hits + 1 }) :
    (rest.push (n.clear object size) object).1 = c.free ∧
      last.Stocked (rest.push (n.clear object size) object).2 free := by
  have least := sound.least found
  have mine := stocked index c found
  obtain ⟨restored, refilled⟩ :=
    mine.recycle least (custody.sublist (regions_sublist found)) popped fits
  have replaces : s.Replaces free index c { c with hits := c.hits + 1 } last free :=
    ⟨found, cells, fun _ _ => rfl⟩
  refine ⟨restored, replaces.stocked stocked refilled
    fun {other d address} different there kept => ?_⟩
  -- What another cell keeps lies in its own regions, the object in those of this cell.
  obtain ⟨top, -⟩ := FreeList.pop?_eq_some popped
  obtain ⟨region, member, within⟩ := (mine.slots _ (mine.free.linked.head_mem top)).within
  refine FreeList.get_recycle popped least fits fun holds => different ?_
  exact same_cell_of_reserved sound custody found there (stocked other d there) kept member
    (within.holds holds)

/-- An object that is refused for what it holds, wiped and given back is recycled. -/
theorem recycle {placement : Arena.Placement} {address : Nat} (sound : s.Sound)
    (counted : s.Counted os) (custody : os.Custody contract machine.system s.regions)
    (stocked : s.Stocked machine.memory free)
    (served : s.allocate os machine thread size wish = (.ok placement, after, later))
    (inside : Extent.Holds ⟨placement.address, size⟩ address)
    (dirty : later.memory.get address ≠ 0) (caller : ThreadId) :
    os.Gains machine.system later.system [] ∧ ∃ last memory node sizeClass c,
      after.free os (later.withMemory (later.memory.clear placement.address size)) caller
        placement.address size = (.ok (), last, later.withMemory memory) ∧
      s.Recycled last machine.memory memory size node sizeClass placement.address c := by
  obtain ⟨sizeClass, new, serves, class_eq⟩ := allocate_spec sound served
  have fits := class_eq placement rfl
  obtain ⟨small, -⟩ := Size.le_slabObject fits
  obtain ⟨afterSound, gains, regions⟩ := serves.spec sound
  have whole := gains.custody custody
  have wide : Extent.Holds ⟨placement.address, Size.slabObject sizeClass⟩ address :=
    ⟨inside.1, Nat.lt_of_lt_of_le inside.2 (Nat.add_le_add_left small _)⟩
  obtain ⟨rfl, node, c, rest, middle, found, same, popped, cells⟩ :=
    serves.recycled sound whole stocked wide dirty
  have room : size ≤ c.objectSize := by
    rw [sound.objectSize found (Size.slabClass_lt fits)]
    exact small
  let last : Slab :=
    { after with
      cells := s.cells.set (cellIndex node sizeClass) { c with hits := c.hits + 1 }
      deallocations := after.deallocations + 1 }
  have untouched : s.Stocked middle free := stocked.congr fun a _ => same a
  obtain ⟨restored, refilled⟩ :=
    untouched.recycle sound custody found popped room (rfl : last.cells = _)
  obtain ⟨top, -⟩ := FreeList.pop?_eq_some popped
  have mine := untouched _ c found
  have owns := (mine.slots _ (mine.free.linked.head_mem top)).owns (sound.least found)
  have taken := free_of_pop (serves.extends.counted counted) (whole.perm regions.symm) fits found
    cells owns restored later caller
  have tallied := allocate_tallied served
  refine ⟨gains, last, _, node, sizeClass, c, taken, ?_⟩
  exact
    { fits, top, owns, found
      cells := rfl
      allocations := tallied.allocations placement rfl
      deallocations := congrArg (· + 1) tallied.deallocations
      wishes := tallied.wishes
      stocked := ⟨free, stocked, refilled⟩
      wiped := fun a wiped link =>
        (Memory.get_setWord_outside link).trans (Memory.get_clear_inside wiped) }

end NumaHeap.Slab
