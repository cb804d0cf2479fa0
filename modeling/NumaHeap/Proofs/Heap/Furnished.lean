import NumaHeap.Proofs.Arena.Indexed
import NumaHeap.Proofs.Heap.Entries
import NumaHeap.Proofs.Heap.Handled
import NumaHeap.Proofs.Large.Checked
import NumaHeap.Proofs.Slab.Checked

/-!
What a heap has for each node of its platform: cells of all classes and a registry of large objects. Its
cells are packed and its accounts agree with the objects, and every chain prefers a node that exists;
whatever is done to the heap, all of this stays so.
-/

namespace NumaHeap

namespace Heap

variable {σ : Type} {os : Platform σ} {contract : os.Contract} {h after : Heap σ}
  {explanation : Platform.Explanation contract} {left : Nat → List Nat} {live : List Allocation}
  {thread : ThreadId} {size : Nat} {tier : Tier} {node : Option Nat} {alignment : PowerOfTwo}

/-- All parts are laid out for the nodes of the platform, and keep their accounts. -/
structure Furnished (os : Platform σ) (h : Heap σ) : Prop where
  arenas : h.arenas.Indexed os.topology.nodeCount
  counted : ∀ cells, h.slab = some cells → cells.Counted os
  packed : ∀ cells, h.slab = some cells → cells.Packed os.pageSize
  registries : h.large.registries.length = os.topology.nodeCount
  accounts : h.large.validate = true

namespace Furnished

theorem create {machine : Machine σ} {configuration : Configuration}
    (created : Heap.create os machine configuration = .ok h) : h.Furnished os := by
  simp only [Heap.create, bind, Except.bind] at created
  split at created
  · cases created
  · split at created
    · cases created
    · cases created
      refine ⟨?_, fun cells present => ?_, fun cells present => ?_, ?_, Large.create_validate ..⟩
      · exact ((Arena.Pool.Indexed.empty.add _ _ _).add _ _ _).add _ _ _
      · dsimp only at present
        split at present
        · cases present
          exact Slab.create_counted ..
        · cases present
      · dsimp only at present
        split at present
        · cases present
          exact Slab.Packed.create _ _ _ _
        · cases present
      · exact (List.length_map ..).trans List.length_range

/-- Only the parts count. -/
theorem of_parts (furnished : h.Furnished os) (arenas : after.arenas.Indexed os.topology.nodeCount)
    (slab : after.slab = h.slab) (large : after.large = h.large) : after.Furnished os where
  arenas := arenas
  counted cells present := furnished.counted cells (slab ▸ present)
  packed cells present := furnished.packed cells (slab ▸ present)
  registries := large ▸ furnished.registries
  accounts := large ▸ furnished.accounts

theorem of_alike (furnished : h.Furnished os) (alike : Alike h after) : after.Furnished os :=
  furnished.of_parts (alike.arenas ▸ furnished.arenas) alike.slab alike.large

theorem withSlab {cells : Slab} (furnished : h.Furnished os) (counted : cells.Counted os)
    (packed : cells.Packed os.pageSize) (machine : Machine σ) :
    Furnished os { h with slab := some cells, machine } where
  arenas := furnished.arenas
  counted _ present := Option.some.inj present ▸ counted
  packed _ present := Option.some.inj present ▸ packed
  registries := furnished.registries
  accounts := furnished.accounts

theorem withLarge {large : Large} (furnished : h.Furnished os)
    (length : large.registries.length = h.large.registries.length)
    (accounts : large.validate = true) (machine : Machine σ) :
    Furnished os { h with large, machine } :=
  { furnished with registries := length.trans furnished.registries, accounts }

theorem serveArena {kind : ArenaKind} {answer : Except AllocError Arena.Placement}
    (closed : os.topology.Closed) (furnished : h.Furnished os) (sound : h.Sound)
    (served : h.serveArena os thread size kind node alignment = (answer, after)) :
    after.Furnished os := by
  cases allocated : h.arenas.allocate os h.machine kind.index thread size alignment node with
  | mk result rest =>
    obtain ⟨arenas, machine⟩ := rest
    have indexed := furnished.arenas.allocate closed sound.arenas allocated
    simp only [Heap.serveArena, allocated] at served
    cases served
    exact furnished.of_parts indexed rfl rfl

theorem dispatch {answer : Except AllocError Arena.Placement} (closed : os.topology.Closed)
    (furnished : h.Furnished os) (secured : Secured explanation h left live)
    (served : h.dispatch os thread size tier node alignment = (answer, after)) :
    after.Furnished os := by
  simp only [Heap.dispatch] at served
  split at served
  · cases allocated : h.large.allocate os h.machine size (node.getD (h.localNode os thread)) with
    | mk result rest =>
      obtain ⟨large, machine⟩ := rest
      have length := Large.allocate_length allocated
      have accounts := Large.allocate_validate furnished.accounts allocated
      rw [allocated] at served
      cases result with
      | error error =>
        cases served
        exact furnished.withLarge length accounts machine
      | ok address =>
        cases served
        exact furnished.withLarge length accounts machine
  · next cells present =>
    cases allocated : cells.allocate os h.machine thread size node with
    | mk result rest =>
      obtain ⟨last, machine⟩ := rest
      have sound := secured.sound.slab cells present
      obtain ⟨_, _, serves, -⟩ := Slab.allocate_spec sound allocated
      have counted := serves.extends.counted (furnished.counted cells present)
      have packed := (furnished.packed cells present).allocate sound
        (secured.stocked cells present) allocated
      rw [allocated] at served
      cases served
      exact furnished.withSlab counted packed machine
  · exact furnished.serveArena closed secured.sound served
  · exact furnished.serveArena closed secured.sound served

theorem discard (furnished : h.Furnished os) (thread : ThreadId) (address size : Nat) (tier : Tier) :
    (h.discard os thread address size tier).Furnished os := by
  unfold Heap.discard
  dsimp only
  split
  · generalize freed : h.large.free os _ address = result
    obtain ⟨answer, large, machine⟩ := result
    exact furnished.withLarge (Large.free_length freed) (Large.free_validate furnished.accounts freed) _
  · next cells present =>
    generalize freed : cells.free os _ thread address size = result
    obtain ⟨answer, last, machine⟩ := result
    have counted := (Slab.free_extends freed).counted (furnished.counted cells present)
    exact furnished.withSlab counted ((furnished.packed cells present).free freed) _
  · exact furnished.of_parts furnished.arenas rfl rfl

theorem allocate {kind : ObjectKind} {answer : Except AllocError Nat} (closed : os.topology.Closed)
    (furnished : h.Furnished os) (secured : Secured explanation h left live)
    (served : h.allocate os thread size kind tier node alignment = (answer, after)) :
    after.Furnished os := by
  cases allocate_outcome served with
  | barred => exact furnished.of_alike (fail_alike ..)
  | denied denied => exact (furnished.dispatch closed secured denied).of_alike (fail_alike ..)
  | @refused placement _ _ _ dispatched =>
    have middle := furnished.dispatch closed secured dispatched
    exact (middle.discard thread placement.address size tier).of_alike (fail_alike ..)
  | granted dispatched clean =>
    have middle := furnished.dispatch closed secured dispatched
    exact (middle.of_alike (inspect_alike clean)).of_alike (record_alike ..)

theorem meet {demand : Session.Demand} {answer : Except AllocError Nat} (closed : os.topology.Closed)
    (furnished : h.Furnished os) (secured : Secured explanation h left live)
    (met : h.meet os thread demand = (answer, after)) : after.Furnished os := by
  obtain ⟨retried, meets⟩ := exists_meets met
  cases meets with
  | barred => exact furnished.of_alike (fail_alike ..)
  | once _ served => exact furnished.allocate closed secured served
  | again first second =>
    obtain ⟨between, good, -⟩ := allocate_secured secured tierOf_slab first
    exact (furnished.allocate closed secured first).allocate closed good second
  | cleared given => exact (furnished.allocate closed secured given).of_alike ⟨rfl, rfl, rfl, rfl⟩

theorem free {address : Nat} {answer : Except FreeError Unit} (furnished : h.Furnished os)
    (freed : h.free os thread address size = (answer, after)) : after.Furnished os := by
  cases free_releases freed with
  | refused => exact furnished
  | large _ released =>
    have accounts := Large.free_validate furnished.accounts released
    exact (furnished.withLarge (Large.free_length released) accounts _).of_alike ⟨rfl, rfl, rfl, rfl⟩
  | slab _ present released =>
    have counted := (Slab.free_extends released).counted (furnished.counted _ present)
    have packed := (furnished.packed _ present).free released
    exact (furnished.withSlab counted packed _).of_alike ⟨rfl, rfl, rfl, rfl⟩

/-- Arenas that only shed slots keep what is left. -/
theorem forArenas {f : Arena.Pool → Machine σ → (id : Nat) → Arena.Pool × Machine σ}
    (furnished : h.Furnished os) (sound : h.arenas.Sound)
    (sheds : ∀ {p : Arena.Pool}, p.Sound → ∀ machine id, ∃ lost,
      Arena.Pool.Sheds os lost p machine (f p machine id).1 (f p machine id).2) :
    (h.forArenas f).Furnished os := by
  obtain ⟨_, first⟩ := sheds sound h.machine 0
  obtain ⟨_, second⟩ := sheds first.sound (f h.arenas h.machine 0).2 1
  obtain ⟨_, third⟩ := sheds second.sound (f _ (f h.arenas h.machine 0).2 1).2 2
  have indexed := ((furnished.arenas.sheds first).sheds second).sheds third
  exact furnished.of_parts indexed rfl rfl

theorem compact (os : Platform σ) (furnished : h.Furnished os) : (h.compact os).2.Furnished os :=
  furnished.of_parts (((furnished.arenas.compact 0).compact 1).compact 2) rfl rfl

theorem checkPressure (furnished : h.Furnished os) : (h.checkPressure os).2.Furnished os := by
  simp only [Heap.checkPressure, maybeCompact]
  split
  · exact furnished.of_parts furnished.arenas rfl rfl
  · split
    · exact compact os (furnished.of_parts furnished.arenas rfl rfl)
    · exact furnished.of_parts furnished.arenas rfl rfl

/-- Whatever is done to a heap, it stays furnished. -/
theorem act (closed : os.topology.Closed) (furnished : h.Furnished os)
    (secured : Secured explanation h left live) (action : Action) :
    (h.act os action).Furnished os := by
  have sound := secured.sound.arenas
  cases action with
  | allocate thread demand => exact furnished.meet closed secured rfl
  | free thread address size => exact furnished.free rfl
  | resetArenas =>
    exact furnished.of_parts (((furnished.arenas.reset 0).reset 1).reset 2) rfl rfl
  | destroyArenas thread =>
    have shed := furnished.forArenas (f := fun pool machine id => pool.destroy os machine id thread)
      sound fun good _ _ => ⟨_, (Arena.Pool.destroy_spec good rfl).1⟩
    exact shed.of_alike ⟨rfl, rfl, rfl, rfl⟩
  | releaseThread thread =>
    exact furnished.forArenas (f := fun pool machine id => pool.releaseThread os machine id thread)
      sound fun good _ _ => ⟨_, Arena.Pool.releaseThread_spec good rfl⟩
  | exitThread thread =>
    have sheds : Arena.Pool.Sheds os (fun _ t => t = thread) h.arenas h.machine _ _ :=
      Arena.Pool.exitThread_spec sound rfl
    exact furnished.of_parts (furnished.arenas.sheds sheds) rfl rfl
  | compact => exact furnished.compact
  | compactArena kind => exact furnished.of_parts (furnished.arenas.compact kind.index) rfl rfl
  | checkPressure => exact furnished.checkPressure
  | handlePressure => exact furnished.compact.of_parts furnished.compact.arenas rfl rfl
  | bindThread thread node =>
    simp only [Heap.act, bindThread]
    split
    · exact furnished.of_parts furnished.arenas rfl rfl
    · exact furnished
  | write | setMode | collectionDone | setCallback => exact furnished.of_parts furnished.arenas rfl rfl

end Furnished

end Heap

/-- However clients use a heap, it stays furnished. -/
theorem World.Handled.furnished {σ : Type} {os : Platform σ} {contract : os.Contract} {w : World σ}
    (closed : os.topology.Closed) (handled : w.Handled contract) : w.heap.Furnished os := by
  obtain ⟨machine, configuration, heap, possible, created, run⟩ := handled
  induction run with
  | start => exact .create created
  | perform action before _ ih =>
    have kept := Handled.kept ⟨machine, configuration, heap, possible, created, before⟩
    obtain ⟨free, secured⟩ := kept.secured.heap
    exact ih.act closed secured action
  | drift _ _ ih => exact ih.of_parts ih.arenas rfl rfl

end NumaHeap
