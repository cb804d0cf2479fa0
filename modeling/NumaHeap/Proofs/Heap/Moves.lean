import NumaHeap.Proofs.Arena.Teardown
import NumaHeap.Proofs.Heap.Action
import NumaHeap.Proofs.Large
import NumaHeap.Proofs.Platform.Trades
import NumaHeap.Proofs.Slab.Basic

/-!
The regions of a heap are those of its arenas, of its slabs and of its large objects. Whatever is done
to a heap, with maps and binds failing as they like, the regions that it holds change by trades with
the platform, and each part keeps count of its own.
-/

namespace NumaHeap.Heap

variable {σ : Type} {os : Platform σ} {h after : Heap σ} {thread : ThreadId}

/-- The regions of the slabs, if there are any. -/
def slabRegions (h : Heap σ) : List Region := h.slab.elim [] Slab.regions

/-- The regions of all parts. -/
def regions (h : Heap σ) : List Region := h.arenas.regions ++ (h.slabRegions ++ h.large.regions)

theorem slabRegions_eq {slab : Slab} (present : h.slab = some slab) :
    h.slabRegions = slab.regions := by
  rw [slabRegions, present]
  rfl

/-- There are three arenas, and every part is sound. -/
structure Sound (h : Heap σ) : Prop where
  arenas : h.arenas.Sound
  count : h.arenas.arenas.length = 3
  slab : ∀ slab, h.slab = some slab → slab.Sound
  large : h.large.Sound

theorem Sound.arena? (sound : h.Sound) (kind : ArenaKind) :
    ∃ a, h.arenas.arena? kind.index = some a := by
  have below : kind.index < h.arenas.arenas.length := by
    rw [sound.count]
    cases kind <;> decide
  exact ⟨_, List.getElem?_eq_getElem below⟩

/-- From one heap to another, by trades with the platform. -/
structure Moves (os : Platform σ) (h after : Heap σ) : Prop where
  sound : after.Sound
  slab : after.slab.isSome = h.slab.isSome
  trades : os.Trades h.machine.system h.regions after.machine.system after.regions

/-- Two heaps have the same parts on the same platform; memory may differ. -/
structure Alike (h after : Heap σ) : Prop where
  arenas : after.arenas = h.arenas
  slab : after.slab = h.slab
  large : after.large = h.large
  system : after.machine.system = h.machine.system

theorem Alike.regions (alike : Alike h after) : after.regions = h.regions := by
  rw [Heap.regions, slabRegions, alike.arenas, alike.slab, alike.large]
  rfl

theorem Alike.sound (alike : Alike h after) (sound : h.Sound) : after.Sound where
  arenas := by
    rw [alike.arenas]
    exact sound.arenas
  count := by rw [alike.arenas, sound.count]
  slab := by
    rw [alike.slab]
    exact sound.slab
  large := by
    rw [alike.large]
    exact sound.large

namespace Moves

theorem of_alike (sound : h.Sound) (alike : Alike h after) : Moves os h after where
  sound := alike.sound sound
  slab := by rw [alike.slab]
  trades := by
    rw [alike.system, alike.regions]
    exact .refl

theorem refl (sound : h.Sound) : Moves os h h := of_alike sound ⟨rfl, rfl, rfl, rfl⟩

theorem trans {last : Heap σ} (first : Moves os h after) (second : Moves os after last) :
    Moves os h last where
  sound := second.sound
  slab := second.slab.trans first.slab
  trades := first.trades.trans second.trades

/-- What follows a move without concerning the parts belongs to it. -/
theorem alike {last : Heap σ} (first : Moves os h after) (alike : Alike after last) :
    Moves os h last := first.trans (of_alike first.sound alike)

end Moves

section

variable {a b s t l k new : List Region}

theorem perm_arenas (changed : b.Perm (new ++ a)) :
    (b ++ (s ++ l)).Perm (new ++ (a ++ (s ++ l))) := by
  rw [← List.append_assoc new]
  exact changed.append_right _

theorem perm_slab (changed : t.Perm (new ++ s)) :
    (a ++ (t ++ l)).Perm (new ++ (a ++ (s ++ l))) := by
  have inner : (t ++ l).Perm (new ++ (s ++ l)) := by
    rw [← List.append_assoc new]
    exact changed.append_right l
  exact (inner.append_left a).trans (List.perm_append_comm_assoc ..)

theorem perm_large (changed : k.Perm (new ++ l)) :
    (a ++ (s ++ k)).Perm (new ++ (a ++ (s ++ l))) := by
  have inner : (s ++ k).Perm (new ++ (s ++ l)) :=
    (changed.append_left s).trans (List.perm_append_comm_assoc ..)
  exact (inner.append_left a).trans (List.perm_append_comm_assoc ..)

end

theorem serveArena_moves {size : Nat} {kind : ArenaKind} {node : Option Nat}
    {alignment : PowerOfTwo} {answer : Except AllocError Arena.Placement} (sound : h.Sound)
    (served : h.serveArena os thread size kind node alignment = (answer, after)) :
    Moves os h after := by
  cases allocated : h.arenas.allocate os h.machine kind.index thread size alignment node with
  | mk result rest =>
    obtain ⟨arenas, machine⟩ := rest
    obtain ⟨new, rounded, serves, -⟩ := Arena.Pool.allocate_spec sound.arenas allocated
    simp only [serveArena, allocated] at served
    cases served
    refine ⟨⟨serves.sound, ?_, sound.slab, sound.large⟩, rfl, ?_⟩
    · exact serves.count.trans sound.count
    · exact .of_gains serves.grows.gains (perm_arenas serves.regions)

theorem allocate_large_moves {size node : Nat} {answer : Except AllocError Nat} {large : Large}
    {machine : Machine σ} (sound : h.Sound)
    (allocated : h.large.allocate os h.machine size node = (answer, large, machine)) :
    Moves os h { h with large, machine } := by
  obtain ⟨failed, ok⟩ := Large.allocate_spec allocated
  cases answer with
  | error error =>
    obtain ⟨objects, huge, grows⟩ := failed error rfl
    have inner := sound.large.perm objects huge
    have same : large.regions = h.large.regions := congrArg (List.map _) objects
    refine ⟨⟨sound.arenas, sound.count, sound.slab, inner⟩, rfl, ?_⟩
    exact .of_gains grows.gains (perm_large (.of_eq same))
  | ok address =>
    obtain ⟨-, region, -, fits, grows, objects, huge⟩ := ok address rfl
    obtain ⟨inner, same⟩ := sound.large.insert fits objects huge
    refine ⟨⟨sound.arenas, sound.count, sound.slab, inner⟩, rfl, ?_⟩
    exact .of_gains grows.gains (perm_large same)

theorem allocate_slab_moves {size : Nat} {node : Option Nat}
    {answer : Except AllocError Arena.Placement} {slab last : Slab} {machine : Machine σ}
    (sound : h.Sound) (present : h.slab = some slab)
    (allocated : slab.allocate os h.machine thread size node = (answer, last, machine)) :
    Moves os h { h with slab := some last, machine } := by
  obtain ⟨sizeClass, new, serves, -⟩ := Slab.allocate_spec (sound.slab slab present) allocated
  obtain ⟨inner, gains, same⟩ := serves.spec (sound.slab slab present)
  refine ⟨⟨sound.arenas, sound.count, ?_, sound.large⟩, ?_, ?_⟩
  · intro other there
    cases there
    exact inner
  · rw [present]
    rfl
  · refine .of_gains gains (perm_slab ?_)
    rw [slabRegions_eq present]
    exact same

theorem dispatch_moves {size : Nat} {tier : Tier} {node : Option Nat} {alignment : PowerOfTwo}
    {answer : Except AllocError Arena.Placement} (sound : h.Sound)
    (served : h.dispatch os thread size tier node alignment = (answer, after)) :
    Moves os h after := by
  unfold dispatch at served
  split at served
  · cases allocated : h.large.allocate os h.machine size (node.getD (h.localNode os thread)) with
    | mk result rest =>
      obtain ⟨large, machine⟩ := rest
      have moves := allocate_large_moves sound allocated
      simp only [allocated] at served
      cases result with
      | error error =>
        cases served
        exact moves
      | ok address =>
        cases served
        exact moves
  · next slab present =>
    cases allocated : slab.allocate os h.machine thread size node with
    | mk result rest =>
      obtain ⟨last, machine⟩ := rest
      have moves := allocate_slab_moves sound present allocated
      simp only [allocated] at served
      cases served
      exact moves
  · exact serveArena_moves sound served
  · exact serveArena_moves sound served

theorem free_large_moves {address : Nat} {answer : Except FreeError Nat} {large : Large}
    {machine : Machine σ} (sound : h.Sound)
    (freed : h.large.free os h.machine address = (answer, large, machine)) :
    Moves os h { h with large, machine } := by
  obtain ⟨failed, ok⟩ := Large.free_spec freed
  cases answer with
  | error error =>
    obtain ⟨rfl, rfl⟩ := failed error rfl
    exact .refl sound
  | ok size =>
    obtain ⟨object, -, -, left, huge, rfl⟩ := ok size rfl
    obtain ⟨inner, same⟩ := sound.large.erase left huge
    refine ⟨⟨sound.arenas, sound.count, sound.slab, inner⟩, rfl, ?_⟩
    exact .of_shed (perm_large same)

theorem free_slab_moves {address size : Nat} {answer : Except FreeError Unit} {slab last : Slab}
    {machine : Machine σ} (sound : h.Sound) (present : h.slab = some slab)
    (freed : slab.free os h.machine thread address size = (answer, last, machine)) :
    Moves os h { h with slab := some last, machine } := by
  obtain ⟨inner, same, system⟩ := Slab.free_regions (sound.slab slab present) freed
  refine ⟨⟨sound.arenas, sound.count, ?_, sound.large⟩, ?_, ?_⟩
  · intro other there
    cases there
    exact inner
  · rw [present]
    rfl
  · rw [system]
    apply Platform.Trades.of_perm
    rw [regions, slabRegions_eq present]
    exact ((same.append_right _).append_left _).symm

theorem discard_moves {address size : Nat} {tier : Tier} (sound : h.Sound) :
    Moves os h (h.discard os thread address size tier) := by
  let wiped : Heap σ :=
    { h with machine := h.machine.withMemory (h.machine.memory.clear address size) }
  have first : Moves os h wiped := .of_alike sound ⟨rfl, rfl, rfl, rfl⟩
  unfold discard
  split
  · exact first.trans (free_large_moves first.sound rfl)
  · next slab present => exact first.trans (free_slab_moves first.sound present rfl)
  · exact first

theorem fail_alike (h : Heap σ) (error : AllocError) : Alike h (h.fail error).2 :=
  ⟨rfl, rfl, rfl, rfl⟩

theorem record_alike (os : Platform σ) (h : Heap σ) (thread : ThreadId) (size : Nat)
    (kind : ObjectKind) (tier : Tier) (node start : Nat) :
    Alike h (h.record os thread size kind tier node start) := ⟨rfl, rfl, rfl, rfl⟩

/-- What is inspected and found clean is handed out as it is, or cleared. -/
theorem inspect_spec {address size : Nat} (inspected : h.inspect address size = .ok after) :
    h.mode.validate size (h.machine.memory.read address) = .ok () ∧
      after = if h.mode.zeroFills then
        { h with machine := h.machine.withMemory (h.machine.memory.clear address size) } else h := by
  simp only [inspect, bind, Except.bind] at inspected
  split at inspected
  · cases inspected
  · next valid =>
    refine ⟨valid, ?_⟩
    split at inspected
    · next fills =>
      cases inspected
      rw [if_pos fills]
    · next fills =>
      cases inspected
      rw [if_neg fills]

/-- What an inspection refuses, it refuses for what it read. -/
theorem inspect_error {address size : Nat} {cause : Rejection}
    (refused : h.inspect address size = .error cause) :
    h.mode.validate size (h.machine.memory.read address) = .error cause := by
  simp only [inspect, bind, Except.bind] at refused
  split at refused
  · next invalid =>
    cases refused
    exact invalid
  · split at refused
    · cases refused
    · cases refused

theorem inspect_alike {address size : Nat} (inspected : h.inspect address size = .ok after) :
    Alike h after := by
  rw [(inspect_spec inspected).2]
  split
  · exact ⟨rfl, rfl, rfl, rfl⟩
  · exact ⟨rfl, rfl, rfl, rfl⟩

theorem allocate_moves (os : Platform σ) (sound : h.Sound) (thread : ThreadId) (size : Nat) (kind : ObjectKind)
    (tier : Tier) (node : Option Nat) (alignment : PowerOfTwo) :
    Moves os h (h.allocate os thread size kind tier node alignment).2 := by
  simp only [allocate]
  split
  · exact .of_alike sound (fail_alike h _)
  · split
    · next error middle served =>
      have first := dispatch_moves sound served
      exact first.alike (fail_alike middle error)
    · next placement middle served =>
      have first := dispatch_moves sound served
      split
      · next cause _ =>
        have second : Moves os middle (middle.discard os thread placement.address size tier) :=
          discard_moves first.sound
        exact first.trans (second.trans (.of_alike second.sound (fail_alike _ _)))
      · next inspected clean =>
        have second : Moves os middle inspected := .of_alike first.sound (inspect_alike clean)
        exact first.trans (second.trans (.of_alike second.sound (record_alike ..)))

theorem allocAlignedIn_moves (os : Platform σ) (sound : h.Sound) (thread : ThreadId)
    (size alignment : Nat) (arena : ArenaKind) :
    Moves os h (h.allocAlignedIn os thread size alignment arena).2 := by
  unfold allocAlignedIn
  split
  · exact .of_alike sound (fail_alike h _)
  · exact allocate_moves os sound ..

theorem allocNuma_moves (os : Platform σ) (sound : h.Sound) (thread : ThreadId)
    (size node : Nat) : Moves os h (h.allocNuma os thread size node).2 := by
  simp only [allocNuma]
  split
  · split
    · next cause middle served =>
      have first := allocate_moves os sound thread size .generic (h.classify size .generic)
        (some node) wordAlignment
      rw [served] at first
      exact first.trans (allocate_moves os first.sound ..)
    · exact allocate_moves os sound ..
  · exact .of_alike sound (fail_alike h _)

theorem allocZeroed_moves (os : Platform σ) (sound : h.Sound) (thread : ThreadId)
    (count size : Nat) (kind : ObjectKind) :
    Moves os h (h.allocZeroed os thread count size kind).2 := by
  unfold allocZeroed
  split
  · exact .of_alike sound (fail_alike h _)
  · next total _ =>
    have first : Moves os h (h.alloc os thread total kind).2 := allocate_moves os sound ..
    split
    · next address middle served =>
      rw [served] at first
      exact first.alike ⟨rfl, rfl, rfl, rfl⟩
    · exact first

theorem meet_moves (sound : h.Sound) (thread : ThreadId) (demand : Session.Demand) :
    Moves os h (h.meet os thread demand).2 := by
  cases demand with
  | object => exact allocate_moves os sound ..
  | onNode => exact allocNuma_moves os sound ..
  | aligned => exact allocAlignedIn_moves os sound ..
  | cacheAligned => exact allocAlignedIn_moves os sound ..
  | zeroed => exact allocZeroed_moves os sound ..

theorem free_moves (sound : h.Sound) (thread : ThreadId) (address size : Nat) :
    Moves os h (h.free os thread address size).2 := by
  unfold free
  split
  · split
    · next large machine refused => exact free_large_moves sound refused
    · next freed large machine released =>
      have first := free_large_moves sound released
      exact first.alike ⟨rfl, rfl, rfl, rfl⟩
  · next slab _ present =>
    split
    · next last machine refused => exact free_slab_moves sound present refused
    · next last machine released =>
      have first := free_slab_moves sound present released
      exact first.alike ⟨rfl, rfl, rfl, rfl⟩
  · exact .refl sound

/-- Arenas shed regions, and no other part is concerned. -/
theorem arenas_moves {lost : Nat → ThreadId → Prop} {arenas : Arena.Pool} {machine : Machine σ}
    (sound : h.Sound) (sheds : Arena.Pool.Sheds os lost h.arenas h.machine arenas machine) :
    Moves os h { h with arenas, machine } := by
  obtain ⟨removed, same, rfl⟩ := sheds.returned
  refine ⟨⟨sheds.sound, sheds.count.trans sound.count, sound.slab, sound.large⟩, rfl, ?_⟩
  exact .of_shed (perm_arenas same)

theorem forArenas_moves (os : Platform σ)
    {f : Arena.Pool → Machine σ → (id : Nat) → Arena.Pool × Machine σ}
    (sound : h.Sound)
    (each : ∀ {h : Heap σ}, h.Sound → ∀ id, Moves os h
      { h with arenas := (f h.arenas h.machine id).1, machine := (f h.arenas h.machine id).2 }) :
    Moves os h (h.forArenas f) := by
  have first := each sound 0
  have second := each first.sound 1
  exact first.trans (second.trans (each second.sound 2))

theorem destroyArenas_moves (sound : h.Sound) (thread : ThreadId) :
    Moves os h (h.destroyArenas os thread) := by
  have first := forArenas_moves os
    (f := fun pool machine id => pool.destroy os machine id thread) sound
    fun good id => arenas_moves good (Arena.Pool.destroy_spec good.arenas rfl).1
  exact first.alike ⟨rfl, rfl, rfl, rfl⟩

theorem releaseThread_moves (sound : h.Sound) (thread : ThreadId) :
    Moves os h (h.releaseThread os thread) :=
  forArenas_moves os sound fun good _ =>
    arenas_moves good (Arena.Pool.releaseThread_spec good.arenas rfl)

theorem exitThread_moves (sound : h.Sound) (thread : ThreadId) :
    Moves os h (h.exitThread os thread) :=
  arenas_moves sound (Arena.Pool.exitThread_spec sound.arenas rfl)

theorem resetArenas_moves (os : Platform σ) (sound : h.Sound) : Moves os h h.resetArenas := by
  obtain ⟨first, one⟩ := Arena.Pool.reset_spec sound.arenas 0
  obtain ⟨second, two⟩ := Arena.Pool.reset_spec first 1
  obtain ⟨third, three⟩ := Arena.Pool.reset_spec second 2
  have same : (((h.arenas.reset 0).reset 1).reset 2).regions.Perm h.arenas.regions :=
    three.trans (two.trans one)
  have count : (((h.arenas.reset 0).reset 1).reset 2).arenas.length = 3 := by
    simp only [Arena.Pool.reset, Arena.Pool.modify, List.length_modify]
    exact sound.count
  refine ⟨⟨third, count, sound.slab, sound.large⟩, rfl, ?_⟩
  exact .of_perm (same.append_right _).symm

theorem compact_arenas_moves (os : Platform σ) (sound : h.Sound) (id : Nat) :
    Moves os h { h with arenas := h.arenas.compact id } :=
  arenas_moves sound (Arena.Pool.compact_spec os (fun _ _ => False) sound.arenas id)

theorem compact_moves (os : Platform σ) (sound : h.Sound) : Moves os h (h.compact os).2 := by
  have first := compact_arenas_moves os sound 0
  have second := compact_arenas_moves os first.sound 1
  have third := compact_arenas_moves os second.sound 2
  have last := first.trans (second.trans third)
  exact last.alike ⟨rfl, rfl, rfl, rfl⟩

theorem checkPressure_moves (sound : h.Sound) : Moves os h (h.checkPressure os).2 := by
  let checked : Heap σ :=
    { h with pressure := (h.pressure.check h.counters.currentBytes (h.clock os)).state }
  have first : Moves os h checked := .of_alike sound ⟨rfl, rfl, rfl, rfl⟩
  change Moves os h (checked.maybeCompact os (h.clock os))
  simp only [maybeCompact]
  split
  · exact first
  · split
    · exact first.trans (compact_moves os first.sound)
    · exact first

theorem bindThread_moves (sound : h.Sound) (thread : ThreadId) (node : Nat) :
    Moves os h (h.bindThread os thread node).2 := by
  unfold bindThread
  split
  · exact ⟨⟨sound.arenas, sound.count, sound.slab, sound.large⟩, rfl, .place .refl⟩
  · exact .refl sound

/-- Whatever is done to a heap, its regions change by trades with the platform. -/
theorem act_moves (os : Platform σ) (sound : h.Sound) (action : Action) : Moves os h (h.act os action) := by
  have alike : ∀ {after : Heap σ}, Alike h after → Moves os h after := .of_alike sound
  cases action with
  | allocate thread demand => exact meet_moves sound thread demand
  | free thread address size => exact free_moves sound thread address size
  | write => exact alike ⟨rfl, rfl, rfl, rfl⟩
  | resetArenas => exact resetArenas_moves os sound
  | destroyArenas thread => exact destroyArenas_moves sound thread
  | releaseThread thread => exact releaseThread_moves sound thread
  | exitThread thread => exact exitThread_moves sound thread
  | setMode => exact alike ⟨rfl, rfl, rfl, rfl⟩
  | compact => exact compact_moves os sound
  | compactArena kind => exact compact_arenas_moves os sound kind.index
  | checkPressure => exact checkPressure_moves sound
  | handlePressure =>
    have first := compact_moves os sound
    exact first.alike ⟨rfl, rfl, rfl, rfl⟩
  | collectionDone => exact alike ⟨rfl, rfl, rfl, rfl⟩
  | setCallback => exact alike ⟨rfl, rfl, rfl, rfl⟩
  | bindThread thread node => exact bindThread_moves sound thread node

/-- A new heap holds nothing, and its machine is as it was given. -/
theorem create_spec {machine : Machine σ} {configuration : Configuration}
    (created : create os machine configuration = .ok h) :
    h.Sound ∧ h.regions = [] ∧ h.machine = machine ∧
      ∀ slab, h.slab = some slab →
        ∀ c ∈ slab.cells, c.free = {} ∧ c.regions = [] ∧ c.carved = 0 := by
  simp only [create, bind, Except.bind] at created
  split at created
  · cases created
  · split at created
    · cases created
    · next blockSize _ =>
      cases created
      let size kind := ArenaKind.blockSize kind blockSize Configuration.minimumBlock
      let huge := configuration.hugePages
      let aware := configuration.numaAware
      obtain ⟨first, one⟩ := Arena.Pool.add_spec Arena.Pool.empty_sound (size .general) huge aware
      obtain ⟨second, two⟩ := Arena.Pool.add_spec first (size .object) huge aware
      obtain ⟨third, three⟩ := Arena.Pool.add_spec second (size .string) huge aware
      obtain ⟨inner, empty, blank⟩ := Slab.create_spec os.topology huge aware
      obtain ⟨large, none⟩ := Large.create_spec os.topology huge aware
      have arenas := three.trans (two.trans one)
      refine ⟨⟨third, rfl, ?_, large⟩, ?_, rfl, ?_⟩
      · intro slab present
        dsimp only at present
        split at present
        · cases present
          exact inner
        · cases present
      · rw [regions, slabRegions]
        dsimp only
        refine List.append_eq_nil_iff.2 ⟨arenas, List.append_eq_nil_iff.2 ⟨?_, none⟩⟩
        split
        · exact empty
        · rfl
      · intro slab present
        dsimp only at present
        split at present
        · cases present
          exact blank
        · cases present

/-- Nothing is held any more, though threads may still exit. -/
structure Closed (h : Heap σ) : Prop where
  arenas : h.arenas.Sound
  empty : h.regions = []

/-- Once all three arenas are closed, none of them has a slot. -/
theorem closeArenas_spec (os : Platform σ) (sound : h.Sound) (thread : ThreadId) :
    ∃ arenas machine,
      (h.forArenas fun pool machine id => pool.close os machine id thread) =
          { h with arenas, machine } ∧
        Arena.Pool.Sheds os (fun _ _ => True) h.arenas h.machine arenas machine ∧
        arenas.regions = [] := by
  cases one : h.arenas.close os h.machine 0 thread with
  | mk p m =>
    cases two : p.close os m 1 thread with
    | mk q n =>
      cases three : q.close os n 2 thread with
      | mk r o =>
        obtain ⟨first, general⟩ := Arena.Pool.close_spec sound.arenas one
        obtain ⟨second, object⟩ := Arena.Pool.close_spec first.sound two
        obtain ⟨third, string⟩ := Arena.Pool.close_spec second.sound three
        have sheds : Arena.Pool.Sheds os (fun _ _ => True) h.arenas h.machine r o :=
          (first.mono fun _ _ _ => trivial).trans
            ((second.mono fun _ _ _ => trivial).trans (third.mono fun _ _ _ => trivial))
        refine ⟨r, o, ?_, sheds, ?_⟩
        · simp only [forArenas, ArenaKind.all, List.foldl, ArenaKind.index, one, two, three]
        · refine List.flatMap_eq_nil_iff.2 fun a member => ?_
          obtain ⟨id, found⟩ := List.mem_iff_getElem?.1 member
          have below : id < 3 := by
            have inside := (List.getElem?_eq_some_iff.1 found).1
            rwa [sheds.count, sound.count] at inside
          have empty : a.slots = [] := by
            match id, below with
            | 0, _ => exact third.empty (second.empty general) a found
            | 1, _ => exact third.empty object a found
            | 2, _ => exact string a found
          rw [Arena.State.regions, empty, List.flatMap_nil]

/-- Closing sheds all regions. -/
theorem close_spec (os : Platform σ) (sound : h.Sound) (thread : ThreadId) :
    (h.close os thread).Closed ∧
      os.Trades h.machine.system h.regions (h.close os thread).machine.system [] := by
  obtain ⟨arenas, machine, shut, sheds, bare⟩ := closeArenas_spec os sound thread
  have first : os.Trades h.machine.system h.regions machine.system
      (arenas.regions ++ (h.slabRegions ++ h.large.regions)) := (arenas_moves sound sheds).trades
  rw [bare, List.nil_append] at first
  cases present : h.slab with
  | none =>
    have none : h.slabRegions = [] := by rw [slabRegions, present, Option.elim_none]
    cases closed : h.large.close os machine with
    | mk large last =>
      obtain ⟨empty, same⟩ := Large.close_spec closed
      have whole : h.close os thread = { h with arenas, machine := last, large } := by
        simp only [close, shut, present, closed]
      rw [whole]
      refine ⟨⟨sheds.sound, ?_⟩, ?_⟩
      · change arenas.regions ++ (h.slabRegions ++ large.regions) = []
        rw [bare, none, empty]
        rfl
      · rw [none, List.nil_append] at first
        rw [same]
        refine first.trans (.of_shed ?_)
        rw [List.append_nil]
  | some slab =>
    cases emptied : slab.close os machine with
    | mk bareSlab middle =>
      cases closed : h.large.close os middle with
      | mk large last =>
        obtain ⟨bareCells, removed, shed, sameFirst⟩ := Slab.close_spec emptied
        obtain ⟨empty, same⟩ := Large.close_spec closed
        have whole : h.close os thread =
            { h with arenas, machine := last, slab := some bareSlab, large } := by
          simp only [close, shut, present, emptied, closed]
        rw [whole]
        refine ⟨⟨sheds.sound, ?_⟩, ?_⟩
        · change arenas.regions ++ (bareSlab.regions ++ large.regions) = []
          rw [bare, bareCells, empty]
          rfl
        · rw [slabRegions_eq present] at first
          rw [same, sameFirst]
          refine (first.trans (.of_shed (shed.append_right _))).trans (.of_shed ?_)
          rw [List.append_nil]

/-- A thread that exits after all was closed gives nothing back. -/
theorem Closed.exitThread (closed : h.Closed) (os : Platform σ) (thread : ThreadId) :
    (h.exitThread os thread).Closed ∧
      os.Trades h.machine.system [] (h.exitThread os thread).machine.system [] := by
  cases exited : h.arenas.exitThread os h.machine thread with
  | mk arenas machine =>
    have sheds := Arena.Pool.exitThread_spec closed.arenas exited
    obtain ⟨removed, same, rfl⟩ := sheds.returned
    obtain ⟨none, others⟩ := List.append_eq_nil_iff.1 closed.empty
    rw [none] at same
    obtain ⟨noRemoved, noArenas⟩ := List.append_eq_nil_iff.1 (List.nil_perm.1 same)
    subst noRemoved
    have whole : h.exitThread os thread = { h with arenas } := by
      simp only [Heap.exitThread, exited]
      rfl
    rw [whole]
    refine ⟨⟨sheds.sound, List.append_eq_nil_iff.2 ⟨noArenas, others⟩⟩, .refl⟩

end NumaHeap.Heap
