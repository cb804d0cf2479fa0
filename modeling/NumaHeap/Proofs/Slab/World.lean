import NumaHeap.Proofs.Slab.Carved
import NumaHeap.Proofs.Slab.History

/-!
The slabs in use. Next to them stands the history of what they did for their clients. Clients give
back only what they hold, and write only there; the platform and its other users may do whatever
leaves the regions of the slabs mapped and their other bytes alone. Then the slabs and the history
agree: every object has its slot where it was carved, and every free list stands for its stack.
-/

namespace NumaHeap.Slab

namespace History

/-- The stacks, in the order of the cells. -/
def stock (h : History) (index : Nat) : List Nat :=
  h.stack (index / Size.slabClassCount) (index % Size.slabClassCount)

variable {h : History} {node sizeClass object : Nat}

theorem stock_cellIndex (bounded : sizeClass < Size.slabClassCount) :
    h.stock (cellIndex node sizeClass) = h.stack node sizeClass := by
  rw [stock, cellIndex_div bounded, cellIndex_mod bounded]

theorem stock_served (h : History) (placement : Arena.Placement) (size : Nat) :
    stock (.served placement size :: h) = without h.stock placement.address := rfl

/-- What is freed is put on the stack of the cell from which it was carved. -/
theorem stock_freed (bounded : sizeClass < Size.slabClassCount)
    (carved : origin? h object = some (node, sizeClass)) :
    stock (.freed object :: h) =
      Function.update h.stock (cellIndex node sizeClass)
        (object :: h.stock (cellIndex node sizeClass)) := by
  funext index
  by_cases here : index = cellIndex node sizeClass
  · subst here
    rw [Function.update_self, stock_cellIndex bounded, stock_cellIndex bounded, stack, if_pos carved]
  · rw [Function.update_of_ne here, stock, stack, if_neg, stock]
    intro also
    rw [carved, Option.some.injEq, Prod.mk.injEq] at also
    rw [also.1, also.2, cellIndex_div_mod] at here
    exact here rfl

end History

/-- The slabs, the machine below them, and what was done for clients so far. -/
structure World (σ : Type) where
  slab : Slab
  machine : Machine σ
  history : History := []

namespace World

variable {σ : Type}

/-- Asks for an object. -/
def allocate (os : Platform σ) (w : World σ) (thread : ThreadId) (size : Nat) (wish : Option Nat) :
    Except AllocError Arena.Placement × World σ :=
  match w.slab.allocate os w.machine thread size wish with
  | (.ok placement, slab, machine) =>
    (.ok placement, { slab, machine, history := .served placement size :: w.history })
  | (.error error, slab, machine) => (.error error, { w with slab, machine })

/-- Gives an object back. -/
def free (os : Platform σ) (w : World σ) (thread : ThreadId) (object size : Nat) :
    Except FreeError Unit × World σ :=
  match w.slab.free os w.machine thread object size with
  | (.ok (), slab, machine) => (.ok (), { slab, machine, history := .freed object :: w.history })
  | (.error error, slab, machine) => (.error error, { w with slab, machine })

/-- What others may make of the machine: all regions stay mapped, and in them nothing is written but
to objects that are live. -/
structure Leaves {os : Platform σ} (contract : os.Contract) (w : World σ) (machine : Machine σ) :
    Prop where
  possible : contract.Possible machine.system
  mapped : ∀ region ∈ w.slab.regions, contract.Mapped machine.system region.extent
  same : ∀ region ∈ w.slab.regions, ∀ address, region.extent.Holds address →
    (∀ x ∈ w.history.live, ¬x.Holds address) →
      machine.memory.get address = w.machine.memory.get address

/-- What becomes of new slabs while each object is freed at most once, with its size. -/
inductive Reached {os : Platform σ} (contract : os.Contract) : World σ → Prop
  | create {machine : Machine σ} (hugePages numaAware : Bool) :
      contract.Possible machine.system →
      Reached contract { slab := .create os.topology hugePages numaAware, machine }
  | allocate {w : World σ} (thread : ThreadId) (size : Nat) (wish : Option Nat) :
      Reached contract w → Reached contract (w.allocate os thread size wish).2
  | free {w : World σ} (thread : ThreadId) {x : Extent} :
      Reached contract w → x ∈ w.history.live →
      Reached contract (w.free os thread x.start x.length).2
  | others {w : World σ} {machine : Machine σ} :
      Reached contract w → w.Leaves contract machine → Reached contract { w with machine }

/-- The slabs agree with the history. -/
structure Tracked {os : Platform σ} (contract : os.Contract) (w : World σ) : Prop where
  sound : w.slab.Sound
  counted : w.slab.Counted os
  custody : os.Custody contract w.machine.system w.slab.regions
  nodes : ∀ (index : Nat) (c : Cell), w.slab.cells[index]? = some c →
    c.node = index / Size.slabClassCount
  /-- Every free list stands for its stack. -/
  stocked : w.slab.Stocked w.machine.memory w.history.stock
  homes : ∀ {node sizeClass object : Nat},
    w.history.origin? object = some (node, sizeClass) ↔ w.slab.Carved node sizeClass object
  known : ∀ x ∈ w.history.live, ∃ node sizeClass,
    w.history.origin? x.start = some (node, sizeClass) ∧ Size.slabClass? x.length = some sizeClass
  once : (w.history.live.map (·.start)).Nodup

variable {os : Platform σ} {contract : os.Contract} {w : World σ} {thread : ThreadId}
  {size node sizeClass object : Nat} {wish : Option Nat} {x : Extent}

namespace Tracked

theorem create {machine : Machine σ} (hugePages numaAware : Bool)
    (possible : contract.Possible machine.system) :
    Tracked contract { slab := .create os.topology hugePages numaAware, machine } := by
  obtain ⟨sound, none, blank⟩ := create_spec os.topology hugePages numaAware
  refine
    { sound
      counted := create_counted os hugePages numaAware
      custody := none ▸ .nil possible
      nodes := fun index c found => by rw [create_cell found]
      stocked := fun index c found => ?_
      homes := ⟨nofun, ?_⟩
      known := nofun
      once := .nil }
  · obtain ⟨free, regions, carved⟩ := blank c (List.mem_of_getElem? found)
    exact Cell.stocked_of_unused free regions carved _
  · rintro ⟨-, c, found, region, member, -⟩
    rw [(blank c (List.mem_of_getElem? found)).2.1] at member
    cases member

/-- A live object stands where it was carved. -/
theorem placed (tracked : Tracked contract w) (held : x ∈ w.history.live) :
    w.slab.Places w.history.stock x.start x.length := by
  obtain ⟨node, sizeClass, carved, fits⟩ := tracked.known x held
  have used : x.start ∉ w.history.stock (cellIndex node sizeClass) := by
    rw [History.stock_cellIndex (Size.slabClass_lt fits)]
    exact fun waits => History.start_ne_of_mem_stack waits held rfl
  exact (tracked.homes.1 carved).places tracked.sound used (Size.le_slabObject fits).1

/-- What the cells hold and what they keep in memory is all that matters. -/
theorem of_cells {slab : Slab} {machine : Machine σ} (tracked : Tracked contract w)
    (cells : slab.cells = w.slab.cells)
    (bytes : slab.mapper.mappedBytes = w.slab.mapper.mappedBytes)
    (custody : os.Custody contract machine.system w.slab.regions)
    (same : ∀ address, w.slab.Reserved w.history.stock address →
      machine.memory.get address = w.machine.memory.get address) :
    Tracked contract { w with slab, machine } where
  sound :=
    { sizes := cells ▸ tracked.sound.sizes
      bytes := by
        rw [bytes, tracked.sound.bytes, regions, regions, cells] }
  counted := by
    rw [Counted, cells]
    exact tracked.counted
  custody := by
    rw [regions, cells]
    exact custody
  nodes := cells ▸ tracked.nodes
  stocked index c found := tracked.stocked.congr same index c (cells ▸ found)
  homes := tracked.homes.trans (Carved.congr cells).symm
  known := tracked.known
  once := tracked.once

theorem others {machine : Machine σ} (tracked : Tracked contract w)
    (leaves : w.Leaves contract machine) : Tracked contract { w with machine } := by
  apply tracked.of_cells rfl rfl
  · exact tracked.custody.of_system leaves.possible leaves.mapped
  · intro address reserved
    obtain ⟨region, member, inside⟩ := tracked.stocked.reserved_within tracked.sound reserved
    apply leaves.same region member address inside
    intro x held within
    exact (tracked.placed held).not_reserved tracked.sound tracked.custody tracked.stocked within
      reserved

section

variable {slab : Slab} {machine : Machine σ} {placement : Arena.Placement} {new : List Region}

/-- What is served was carved there, now or before. -/
theorem origin?_served (tracked : Tracked contract w) (fits : Size.slabClass? size = some sizeClass)
    (serves : Serves os sizeClass w.slab w.machine (.ok placement) slab machine new) :
    History.origin? (.served placement size :: w.history) placement.address =
      some (placement.node, sizeClass) := by
  obtain ⟨sound, gains, grown⟩ := serves.spec tracked.sound
  have custody := gains.custody tracked.custody
  have carved {node place other : Nat} : slab.Carved node place other ↔ _ :=
    serves.carved_iff tracked.sound custody tracked.stocked
  cases before : w.history.origin? placement.address with
  | none => exact History.origin?_served_self before fits
  | some place =>
    have there : slab.Carved place.1 place.2 placement.address :=
      carved.2 (.inl (tracked.homes.1 before))
    obtain ⟨node, sizeClass⟩ :=
      there.unique sound (custody.perm grown.symm) (carved.2 (.inr ⟨rfl, rfl, rfl⟩))
    rw [History.origin?_served_of_some before, ← node, ← sizeClass]

/-- The object that is served becomes live, and it was not live before. -/
theorem served (tracked : Tracked contract w) (fits : Size.slabClass? size = some sizeClass)
    (serves : Serves os sizeClass w.slab w.machine (.ok placement) slab machine new) :
    Tracked contract { slab, machine, history := .served placement size :: w.history } := by
  obtain ⟨sound, gains, grown⟩ := serves.spec tracked.sound
  have custody := gains.custody tracked.custody
  have hands := serves.hands tracked.sound custody tracked.stocked
  have carved {node place other : Nat} : slab.Carved node place other ↔ _ :=
    serves.carved_iff tracked.sound custody tracked.stocked
  have here : slab.Carved placement.node sizeClass placement.address :=
    carved.2 (.inr ⟨rfl, rfl, rfl⟩)
  have origin := tracked.origin?_served fits serves
  refine
    { sound
      counted := serves.extends.counted tracked.counted
      custody := custody.perm grown.symm
      nodes := ?_
      stocked := hands.stocked
      homes := ?_
      known := ?_
      once := ?_ }
  · intro index d found
    obtain ⟨c, last, there, cells, same, -⟩ :=
      serves.counts tracked.sound custody tracked.stocked
    rw [cells] at found
    rcases Parts.set_cases found with ⟨rfl, rfl⟩ | old
    · rw [same, tracked.nodes _ c there]
    · exact tracked.nodes index d old
  · intro node place object
    by_cases same : placement.address = object
    · subst same
      rw [origin, Option.some.injEq, Prod.mk.injEq]
      constructor
      · rintro ⟨rfl, rfl⟩
        exact here
      · exact fun there => here.unique sound (custody.perm grown.symm) there
    · rw [History.origin?_served_of_ne same, tracked.homes, carved]
      exact (or_iff_left fun also => same also.2.2.symm).symm
  · intro x held
    rcases List.mem_cons.1 held with rfl | old
    · exact ⟨placement.node, sizeClass, origin, fits⟩
    · obtain ⟨node, place, known, room⟩ := tracked.known x old
      exact ⟨node, place, History.origin?_served_of_some known, room⟩
  · refine List.nodup_cons.2 ⟨fun member => ?_, tracked.once⟩
    obtain ⟨x, held, same⟩ := List.mem_map.1 member
    exact (hands.kept x.start x.length (tracked.placed held)).2 same

end

theorem allocate (tracked : Tracked contract w) (thread : ThreadId) (size : Nat)
    (wish : Option Nat) : Tracked contract (w.allocate os thread size wish).2 := by
  unfold World.allocate
  split
  · next placement slab machine answered =>
    obtain ⟨sizeClass, new, serves, fits⟩ := allocate_spec tracked.sound answered
    exact tracked.served (fits placement rfl) serves
  · next error slab machine answered =>
    obtain ⟨sizeClass, new, serves, -⟩ := allocate_spec tracked.sound answered
    cases serves with
    | denied grows cells bytes =>
      apply tracked.of_cells cells bytes (grows.gains.custody tracked.custody)
      exact fun address _ => grows.same address nofun

/-- A live object is taken back by the cell from which it was carved, whoever gives it back. -/
theorem free_eq (tracked : Tracked contract w) (held : x ∈ w.history.live) (thread : ThreadId) :
    ∃ node sizeClass c, w.history.origin? x.start = some (node, sizeClass) ∧
      sizeClass < Size.slabClassCount ∧ w.slab.cell? node sizeClass = some c ∧ c.Slot x.start ∧
      w.free os thread x.start x.length =
        (.ok (),
          { slab :=
              { w.slab.setCell node sizeClass
                  { c with free := (c.free.push w.machine.memory x.start).1 } with
                deallocations := w.slab.deallocations + 1 }
            machine := w.machine.withMemory (c.free.push w.machine.memory x.start).2
            history := .freed x.start :: w.history }) := by
  obtain ⟨node, sizeClass, carved, fits⟩ := tracked.known x held
  obtain ⟨bounded, c, found, slot⟩ := tracked.homes.1 carved
  have owns := slot.owns (tracked.sound.least found)
  refine ⟨node, sizeClass, c, carved, bounded, found, slot, ?_⟩
  rw [World.free, free_of_owns tracked.counted tracked.custody fits found owns]

theorem free (tracked : Tracked contract w) (held : x ∈ w.history.live) (thread : ThreadId) :
    Tracked contract (w.free os thread x.start x.length).2 := by
  obtain ⟨node, sizeClass, c, origin, bounded, found, slot, freed⟩ := tracked.free_eq held thread
  obtain ⟨_, _, _, fits⟩ := tracked.known x held
  let last : Cell := { c with free := (c.free.push w.machine.memory x.start).1 }
  let after : Slab := w.slab.setCell node sizeClass last
  have cells : after.cells = w.slab.cells.set (cellIndex node sizeClass) last := rfl
  have same : after.regions.Perm ([] ++ w.slab.regions) := regions_set found cells rfl
  obtain ⟨stocked, -⟩ := reclaim_spec tracked.sound tracked.custody tracked.stocked
    (tracked.placed held) (Size.le_slabObject fits).2 found (slot.owns (tracked.sound.least found))
    cells
  rw [freed]
  refine
    { sound := tracked.sound.set found rfl rfl ?_
      counted := ?_
      custody := tracked.custody.perm same.symm
      nodes := ?_
      stocked := ?_
      homes := ?_
      known := fun y member => tracked.known y (List.mem_filter.1 member).1
      once := tracked.once.sublist (List.filter_sublist.map _) }
  · exact tracked.sound.bytes.trans (Region.total_perm same.symm)
  · rw [Counted, setCell, List.length_set]
    exact tracked.counted
  · intro index d there
    rcases Parts.set_cases there with ⟨rfl, rfl⟩ | old
    · exact tracked.nodes _ c found
    · exact tracked.nodes index d old
  · rw [History.stock_freed bounded origin]
    exact stocked
  · intro home place object
    have none : ∀ other, last.Slot other ↔ c.Slot other ∨ False := fun _ => (or_iff_left id).symm
    have unmoved : after.Carved home place object ↔ _ := Carved.set_iff found bounded cells none
    simp only [and_false, or_false] at unmoved
    exact tracked.homes.trans unmoved.symm

end Tracked

theorem Reached.tracked (reached : w.Reached contract) : w.Tracked contract := by
  induction reached with
  | create hugePages numaAware possible => exact .create hugePages numaAware possible
  | allocate thread size wish _ ih => exact ih.allocate thread size wish
  | free thread _ held ih => exact ih.free held thread
  | others _ leaves ih => exact ih.others leaves

end World

end NumaHeap.Slab
