import NumaHeap.Proofs.Arena.Teardown

/-!
Which slots stand in which arenas, and what becomes of them. A slot is named by the guard that was
made with it. As long as every slot is guarded by its own thread, to drop guards is the only way in
which slots of live arenas are lost one by one, and a thread that has no guard has no slot.
-/

namespace NumaHeap.Arena

/-- The guard that leads to a slot of an arena. -/
def Slot.guard (slot : Slot) (id : Nat) : Guard := ⟨slot.generation, slot.address, id⟩

theorem Slot.guard_eq_iff {slot : Slot} {g : Guard} :
    slot.guard g.arena = g ↔ slot.generation = g.generation ∧ slot.address = g.slot := by
  cases g
  simp [guard]

namespace Pool

variable {σ : Type} {os : Platform σ} {p after last : Pool} {machine later : Machine σ} {id : Nat}
  {thread other : ThreadId} {slot : Slot} {a : State} {g k : Guard} {gone also : Guard → Bool}

/-- The guard leads to a slot that stands in its arena and belongs to the thread. -/
def Stands (p : Pool) (thread : ThreadId) (g : Guard) : Prop :=
  ∃ slot, p.Owns g.arena thread slot ∧ slot.guard g.arena = g

theorem Owns.stands (owns : p.Owns id thread slot) : p.Stands thread (slot.guard id) :=
  ⟨slot, owns, rfl⟩

theorem Stands.generation (sound : p.Sound) (stands : p.Stands thread g)
    (found : p.arena? g.arena = some a) : g.generation = a.generation := by
  obtain ⟨slot, ⟨b, there, member, -⟩, named⟩ := stands
  cases found.symm.trans there
  exact (congrArg Guard.generation named).symm.trans
    ((sound.arenas g.arena a found).generations slot member)

/-- At one address of an arena stands one slot, of one thread. -/
theorem Stands.unique (sound : p.Sound) (first : p.Stands thread g) (second : p.Stands other k)
    (arena : g.arena = k.arena) (address : g.slot = k.slot) : thread = other ∧ g = k := by
  obtain ⟨one, ⟨a, found, member, owner⟩, named⟩ := first
  obtain ⟨two, ⟨b, there, inside, owned⟩, called⟩ := second
  rw [← arena] at there called
  cases found.symm.trans there
  have places : one.address = two.address := calc
    one.address = g.slot := congrArg Guard.slot named
    _ = k.slot := address
    _ = two.address := (congrArg Guard.slot called).symm
  cases (sound.arenas _ a found).eq_of_address member inside places
  exact ⟨owner.symm.trans owned, named.symm.trans called⟩

/-- A guard of the present generation leads to a slot. -/
theorem Sound.stands (sound : p.Sound) (guarded : g ∈ p.guards thread)
    (found : p.arena? g.arena = some a) (current : a.generation = g.generation) :
    p.Stands thread g := by
  obtain ⟨-, slot, member, address, owner⟩ :=
    (sound.guards thread g guarded).2 g.arena a found current
  have generation := (sound.arenas g.arena a found).generations slot member
  exact ⟨slot, ⟨a, found, member, owner⟩, Slot.guard_eq_iff.2 ⟨generation.trans current, address⟩⟩

/-- The slots to which some guards lead are gone, and all others stand as they stood. If an arena
was closed, it is empty. -/
structure Clears (gone : Guard → Bool) (p after : Pool) : Prop where
  arena : ∀ {id b}, after.arena? id = some b → ∃ a, p.arena? id = some a ∧
    b.slots = a.slots.filter (fun slot => !gone (slot.guard id)) ∧
      (b.active = a.active ∨ b.slots = [])
  count : after.arenas.length = p.arenas.length

namespace Clears

/-- Nothing is gone where no guard leads to a slot. -/
theorem of_none (none : ∀ {id a slot}, p.arena? id = some a → slot ∈ a.slots →
    gone (slot.guard id) = false) : Clears gone p p where
  arena {id b} there := by
    refine ⟨b, there, (List.filter_eq_self.2 fun slot member => ?_).symm, .inl rfl⟩
    rw [none there member, Bool.not_false]
  count := rfl

theorem trans (first : Clears gone p after) (second : Clears also after last) :
    Clears (fun g => gone g || also g) p last where
  arena {id c} there := by
    obtain ⟨b, middle, fewer, same⟩ := second.arena there
    obtain ⟨a, found, few, equal⟩ := first.arena middle
    refine ⟨a, found, ?_, ?_⟩
    · rw [fewer, few, List.filter_filter]
      congr 1
      funext slot
      rw [Bool.not_or, Bool.and_comm]
    · rcases same with same | empty
      · rcases equal with equal | empty
        · exact .inl (same.trans equal)
        · exact .inr (by rw [fewer, empty, List.filter_nil])
      · exact .inr empty
  count := second.count.trans first.count

theorem stands (clears : Clears gone p after) :
    after.Stands thread g ↔ p.Stands thread g ∧ gone g = false := by
  constructor
  · rintro ⟨slot, ⟨b, there, member, owner⟩, named⟩
    obtain ⟨a, found, fewer, -⟩ := clears.arena there
    rw [fewer] at member
    obtain ⟨inside, kept⟩ := List.mem_filter.1 member
    rw [named, Bool.not_eq_true'] at kept
    exact ⟨⟨slot, ⟨a, found, inside, owner⟩, named⟩, kept⟩
  · rintro ⟨⟨slot, ⟨a, found, member, owner⟩, named⟩, kept⟩
    obtain ⟨b, there⟩ := arena?_isSome clears.count found
    obtain ⟨c, same, fewer, -⟩ := clears.arena there
    cases found.symm.trans same
    refine ⟨slot, ⟨b, there, ?_, owner⟩, named⟩
    rw [fewer]
    refine List.mem_filter.2 ⟨member, ?_⟩
    rw [named, kept, Bool.not_false]

/-- Guards may be given up before. -/
theorem of_setGuards {kept : List Guard} (clears : Clears gone (p.setGuards thread kept) after) :
    Clears gone p after :=
  ⟨clears.arena, clears.count⟩

end Clears

/-- Slots of one arena are of one generation, and arenas that are closed have none. -/
structure Uniform (p : Pool) : Prop where
  generations : ∀ {id a}, p.arena? id = some a → ∀ first ∈ a.slots, ∀ second ∈ a.slots,
    first.generation = second.generation
  closed : ∀ {id a}, p.arena? id = some a → a.active = false → a.slots = []

theorem Clears.uniform (clears : Clears gone p after) (uniform : p.Uniform) : after.Uniform where
  generations there first one second two := by
    obtain ⟨a, found, fewer, -⟩ := clears.arena there
    rw [fewer] at one two
    exact uniform.generations found first (List.mem_filter.1 one).1 second
      (List.mem_filter.1 two).1
  closed there closed := by
    obtain ⟨a, found, fewer, same | empty⟩ := clears.arena there
    · rw [fewer, uniform.closed found (same.symm.trans closed), List.filter_nil]
    · exact empty

/-- A guard releases the slot to which it leads. -/
theorem dropGuard_clears (uniform : p.Uniform)
    (dropped : p.dropGuard os machine g = (after, later)) :
    Clears (· == g) p after ∧ after.guards = p.guards := by
  have nothing : (∀ a slot, p.arena? g.arena = some a → slot ∈ a.slots →
      slot.generation = g.generation → slot.address ≠ g.slot) → Clears (· == g) p p := by
    intro lost
    refine .of_none fun {id a slot} found member => beq_eq_false_iff_ne.2 ?_
    rintro rfl
    exact lost a slot found member rfl rfl
  unfold dropGuard at dropped
  split at dropped
  · next none =>
    cases dropped
    refine ⟨nothing fun a slot found => ?_, rfl⟩
    rw [none] at found
    cases found
  · next a found =>
    split at dropped
    · split at dropped
      · next none =>
        cases dropped
        refine ⟨nothing fun b slot there member generation address => ?_, rfl⟩
        cases found.symm.trans there
        have passed := List.find?_eq_none.1 none slot member
        simp [generation, address] at passed
      · next slot some =>
        have member := List.mem_of_find?_eq_some some
        have meets := List.find?_some some
        rw [Bool.and_eq_true, beq_iff_eq, beq_iff_eq] at meets
        obtain ⟨mapper, released, -⟩ := releaseSlot_eq os machine
          (arena?_modify_self (f := (·.dropSlot slot.address)) found) slot
        rw [released, modify_modify] at dropped
        cases dropped
        refine ⟨⟨fun {other b} there => ?_, List.length_modify ..⟩, rfl⟩
        obtain ⟨rfl, rfl⟩ | ⟨different, before⟩ := arena?_modify_cases found there
        · refine ⟨a, found, List.filter_congr fun other inside => ?_, .inl rfl⟩
          have same := uniform.generations found other inside slot member
          rw [Bool.eq_iff_iff, bne_iff_ne, Bool.not_eq_true', beq_eq_false_iff_ne, ne_eq, ne_eq,
            Slot.guard_eq_iff, meets.2, same, and_iff_right meets.1]
        · refine ⟨b, before, (List.filter_eq_self.2 fun other _ => ?_).symm, .inl rfl⟩
          rw [Bool.not_eq_true', beq_eq_false_iff_ne]
          rintro rfl
          exact different rfl
    · next closed =>
      cases dropped
      refine ⟨nothing fun b slot there member => ?_, rfl⟩
      cases found.symm.trans there
      rw [uniform.closed found (Bool.not_eq_true _ ▸ closed)] at member
      cases member

theorem dropGuards_clears {gs : List Guard} (uniform : p.Uniform)
    (dropped : p.dropGuards os machine gs = (after, later)) :
    Clears (gs.contains ·) p after ∧ after.guards = p.guards := by
  induction gs generalizing p machine with
  | nil =>
    cases dropped
    exact ⟨.of_none fun _ _ => rfl, rfl⟩
  | cons g rest ih =>
    cases first : p.dropGuard os machine g with
    | mk middle between =>
      change List.foldl _ (p.dropGuard os machine g) rest = _ at dropped
      rw [first] at dropped
      obtain ⟨clears, guards⟩ := dropGuard_clears uniform first
      obtain ⟨others, same⟩ := ih (clears.uniform uniform) dropped
      refine ⟨?_, same.trans guards⟩
      simpa only [List.contains_cons] using clears.trans others

theorem dropGuardsWhere_clears {test : Guard → Bool} (uniform : p.Uniform)
    (dropped : p.dropGuardsWhere os machine thread test = (after, later)) :
    Clears (((p.guards thread).filter test).contains ·) p after ∧
      after.guards = fun t => if t = thread then (p.guards thread).filter fun g => !test g
        else p.guards t := by
  rw [dropGuardsWhere_eq] at dropped
  have trimmed : (p.setGuards thread ((p.guards thread).filter fun g => !test g)).Uniform :=
    ⟨uniform.generations, uniform.closed⟩
  obtain ⟨clears, guards⟩ := dropGuards_clears trimmed dropped
  exact ⟨clears.of_setGuards, guards⟩

theorem mem_of_filtered {test : Guard → Bool} (guards : after.guards = fun t => if t = thread
      then (p.guards thread).filter test else p.guards t) (member : g ∈ after.guards other) :
    g ∈ p.guards other := by
  rw [guards] at member
  dsimp only at member
  split at member
  · next same => exact same ▸ (List.mem_filter.1 member).1
  · exact member

/-- Every slot is guarded by its own thread, which has no other in the same arena. -/
structure Orderly (p : Pool) : Prop where
  sound : p.Sound
  guarded : ∀ {thread g}, p.Stands thread g → g ∈ p.guards thread
  alone : ∀ {thread g k}, p.Stands thread g → p.Stands thread k → g.arena = k.arena → g = k
  closed : ∀ {id a}, p.arena? id = some a → a.active = false → a.slots = []

namespace Orderly

theorem uniform (orderly : p.Orderly) : p.Uniform where
  generations {id a} found first one second two := by
    have inner := orderly.sound.arenas id a found
    exact (inner.generations first one).trans (inner.generations second two).symm
  closed := orderly.closed

/-- Guards may be given up together with the slots to which they lead. -/
theorem clears (orderly : p.Orderly) (sound : after.Sound) (clears : Clears gone p after)
    (kept : ∀ {thread g}, g ∈ p.guards thread → gone g = false → g ∈ after.guards thread) :
    after.Orderly where
  sound := sound
  guarded stands := by
    obtain ⟨before, spared⟩ := clears.stands.1 stands
    exact kept (orderly.guarded before) spared
  alone first second := orderly.alone (clears.stands.1 first).1 (clears.stands.1 second).1
  closed := (clears.uniform orderly.uniform).closed

theorem dropGuardsWhere {test : Guard → Bool} (orderly : p.Orderly)
    (uniform : ∀ g k : Guard, g.generation = k.generation → test g = test k)
    (dropped : p.dropGuardsWhere os machine thread test = (after, later)) : after.Orderly := by
  obtain ⟨sheds, -⟩ := dropGuardsWhere_spec orderly.sound uniform dropped
  obtain ⟨clears, guards⟩ := dropGuardsWhere_clears orderly.uniform dropped
  refine orderly.clears sheds.sound clears fun {t g} member spared => ?_
  rw [guards]
  dsimp only
  split
  · next same =>
    subst same
    have off : ¬test g = true := fun on => by simp [member, on] at spared
    exact List.mem_filter.2 ⟨member, by simpa using off⟩
  · exact member

/-- A thread that has no guard has no slot. -/
theorem absent (orderly : p.Orderly) (none : p.guards thread = []) : ¬p.Owns id thread slot := by
  intro owns
  have member := orderly.guarded owns.stands
  rw [none] at member
  cases member

/-- To give up the guard of a slot is to give up the slot. -/
theorem releaseThread_eq (orderly : p.Orderly) (found : p.arena? id = some a) :
    p.releaseThread os machine id thread =
      p.dropGuardsWhere os machine thread (·.generation == a.generation) := by
  unfold releaseThread
  rw [found]
  dsimp only
  cases dropped : p.dropGuardsWhere os machine thread (·.generation == a.generation) with
  | mk middle between =>
    dsimp only
    split
    · rfl
    · next slot some =>
      obtain ⟨b, there, some⟩ := Option.bind_eq_some_iff.1 some
      unfold State.slotOf? at some
      have owner : slot.owner = thread := by simpa using List.find?_some some
      have owns : middle.Owns id thread slot := ⟨b, there, List.mem_of_find?_eq_some some, owner⟩
      obtain ⟨clears, -⟩ := dropGuardsWhere_clears orderly.uniform dropped
      obtain ⟨stood, spared⟩ := clears.stands.1 owns.stands
      have current := stood.generation orderly.sound found
      simp [orderly.guarded stood, current] at spared

/-- An arena that starts over is empty, and no other has changed. -/
theorem destroy_clears (orderly : p.Orderly) (found : p.arena? id = some a)
    (destroyed : p.destroy os machine id thread = (after, later)) :
    Clears (·.arena == id) p after ∧
      after.guards = fun t => if t = thread
        then (p.guards thread).filter fun g => !(g.generation == a.generation)
        else p.guards t := by
  unfold Pool.destroy at destroyed
  rw [found] at destroyed
  dsimp only at destroyed
  cases dropped : p.dropGuardsWhere os machine thread (·.generation == a.generation) with
  | mk middle between =>
    obtain ⟨clears, guards⟩ := dropGuardsWhere_clears orderly.uniform dropped
    obtain ⟨b, there⟩ := arena?_isSome clears.count found
    obtain ⟨mapper, released, -⟩ := releaseSlots_eq os b.slots
      (arena?_modify_self (f := ({ · with slots := [] })) there) between
    simp only [dropped, there, Option.map_some, Option.getD_some, released] at destroyed
    rw [modify_modify, modify_modify] at destroyed
    cases destroyed
    refine ⟨⟨fun {other c} here => ?_, (List.length_modify ..).trans clears.count⟩, guards⟩
    obtain ⟨rfl, rfl⟩ | ⟨different, before⟩ := arena?_modify_cases there here
    · refine ⟨a, found, ?_, .inr rfl⟩
      symm
      simp [Slot.guard]
    · obtain ⟨d, first, fewer, same⟩ := clears.arena before
      refine ⟨d, first, fewer.trans (List.filter_congr fun slot member => ?_), same⟩
      -- The guards of this generation lead to the arena that starts over.
      have apart : slot.guard other ∉
          (p.guards thread).filter fun g => g.generation == a.generation := by
        intro taken
        obtain ⟨guarded, current⟩ := List.mem_filter.1 taken
        exact different ((orderly.sound.guards thread _ guarded).2 id a found
          (beq_iff_eq.1 current).symm).1
      have elsewhere : (other == id) = false := beq_eq_false_iff_ne.2 different
      have spared := Bool.eq_false_iff.2 fun taken => apart (List.contains_iff_mem.1 taken)
      exact congrArg not (spared.trans elsewhere.symm)

theorem destroy (orderly : p.Orderly) (found : p.arena? id = some a)
    (destroyed : p.destroy os machine id thread = (after, later)) : after.Orderly := by
  obtain ⟨clears, guards⟩ := orderly.destroy_clears found destroyed
  refine orderly.clears (destroy_spec orderly.sound destroyed).1.sound clears
    fun {t g} member spared => ?_
  rw [guards]
  dsimp only
  split
  · next same =>
    subst same
    refine List.mem_filter.2 ⟨member, ?_⟩
    rw [Bool.not_eq_true', beq_eq_false_iff_ne]
    intro equal
    exact beq_eq_false_iff_ne.1 spared
      ((orderly.sound.guards t g member).2 id a found equal.symm).1
  · exact member

end Orderly

section

variable {f : State → State} {h : Slot → Slot}

/-- Slots are told apart by their guards and their owners, whatever becomes of their chains. -/
theorem stands_modify (slots : ∀ a, (f a).slots = a.slots.map h)
    (keeps : ∀ slot, (h slot).owner = slot.owner ∧ (h slot).guard = slot.guard) :
    (p.modify id f).Stands thread g ↔ p.Stands thread g := by
  constructor
  · rintro ⟨slot, ⟨b, there, member, owner⟩, named⟩
    rw [arena?_modify] at there
    split at there
    · next same =>
      obtain ⟨a, found, rfl⟩ := Option.map_eq_some_iff.1 there
      rw [slots] at member
      obtain ⟨old, inside, rfl⟩ := List.mem_map.1 member
      obtain ⟨owned, guards⟩ := keeps old
      exact ⟨old, ⟨a, same ▸ found, inside, owned.symm.trans owner⟩, guards ▸ named⟩
    · exact ⟨slot, ⟨b, there, member, owner⟩, named⟩
  · rintro ⟨slot, ⟨a, found, member, owner⟩, named⟩
    by_cases here : id = g.arena
    · subst here
      obtain ⟨owned, guards⟩ := keeps slot
      refine ⟨h slot, ⟨f a, arena?_modify_self found, ?_, owned.trans owner⟩, guards ▸ named⟩
      rw [slots]
      exact List.mem_map_of_mem member
    · exact ⟨slot, ⟨a, (arena?_modify_of_ne here).trans found, member, owner⟩, named⟩

theorem Orderly.modify (orderly : p.Orderly) (sound : (p.modify id f).Sound)
    (slots : ∀ a, (f a).slots = a.slots.map h)
    (keeps : ∀ slot, (h slot).owner = slot.owner ∧ (h slot).guard = slot.guard)
    (closed : ∀ a, p.arena? id = some a → (f a).active = false → a.slots = []) :
    (p.modify id f).Orderly where
  sound := sound
  guarded stands := orderly.guarded ((stands_modify slots keeps).1 stands)
  alone first second :=
    orderly.alone ((stands_modify slots keeps).1 first) ((stands_modify slots keeps).1 second)
  closed {other b} there off := by
    rw [arena?_modify] at there
    split at there
    · obtain ⟨a, found, rfl⟩ := Option.map_eq_some_iff.1 there
      rw [slots, closed a found off, List.map_nil]
    · exact orderly.closed there off

theorem Orderly.reset (orderly : p.Orderly) (id : Nat) : (p.reset id).Orderly :=
  orderly.modify (reset_spec orderly.sound id).1 (fun _ => rfl) (fun _ => ⟨rfl, rfl⟩)
    fun _ found off => orderly.closed found off

theorem Orderly.compact (orderly : p.Orderly) (os : Platform σ) (machine : Machine σ) (id : Nat) :
    (p.compact id).Orderly := by
  have sheds : Sheds os (fun _ _ => False) p machine (p.compact id) machine :=
    compact_spec os _ orderly.sound id
  refine orderly.modify sheds.sound (h := fun slot => slot) (fun a => (List.map_id' a.slots).symm)
    (fun _ => ⟨rfl, rfl⟩) fun _ found off => orderly.closed found off

theorem close_eq (destroyed : p.destroy os machine id thread = (after, later)) :
    p.close os machine id thread = (after.modify id ({ · with active := false }), later) := by
  rw [close, destroyed]

theorem Orderly.close (orderly : p.Orderly) (found : p.arena? id = some a)
    (closed : p.close os machine id thread = (after, later)) : after.Orderly := by
  have sound := (close_spec orderly.sound closed).1.sound
  cases destroyed : p.destroy os machine id thread with
  | mk middle between =>
    obtain ⟨-, empty⟩ := destroy_spec orderly.sound destroyed
    rw [close_eq destroyed] at closed
    cases closed
    refine (orderly.destroy found destroyed).modify sound (h := fun slot => slot)
      (fun a => (List.map_id' a.slots).symm) (fun _ => ⟨rfl, rfl⟩) fun b there _ => empty b there

theorem Orderly.exitThread (orderly : p.Orderly)
    (exited : p.exitThread os machine thread = (after, later)) :
    after.Orderly ∧ after.guards thread = [] := by
  obtain ⟨-, guards⟩ := dropGuardsWhere_clears orderly.uniform exited
  refine ⟨orderly.dropGuardsWhere (fun _ _ _ => rfl) exited, ?_⟩
  rw [guards]
  simp

theorem arena?_add {blockSize : PowerOfTwo} {hugePages numaAware : Bool} {b : State}
    (there : (p.add blockSize hugePages numaAware).arena? id = some b) :
    p.arena? id = some b ∨ b.active = true ∧ b.slots = [] := by
  simp only [arena?, Pool.add, List.getElem?_append, List.getElem?_singleton] at there
  split at there
  · exact .inl there
  · split at there
    · cases there
      exact .inr ⟨rfl, rfl⟩
    · cases there

theorem stands_add {blockSize : PowerOfTwo} {hugePages numaAware : Bool}
    (stands : (p.add blockSize hugePages numaAware).Stands thread g) : p.Stands thread g := by
  obtain ⟨slot, ⟨b, there, member, owner⟩, named⟩ := stands
  rcases arena?_add there with old | ⟨-, empty⟩
  · exact ⟨slot, ⟨b, old, member, owner⟩, named⟩
  · rw [empty] at member
    cases member

theorem Orderly.add (orderly : p.Orderly) (blockSize : PowerOfTwo) (hugePages numaAware : Bool) :
    (p.add blockSize hugePages numaAware).Orderly where
  sound := (add_spec orderly.sound ..).1
  guarded stands := orderly.guarded (stands_add stands)
  alone first second := orderly.alone (stands_add first) (stands_add second)
  closed there off := by
    rcases arena?_add there with old | ⟨on, -⟩
    · exact orderly.closed old off
    · rw [on] at off
      cases off

end

/-- A slot is made for a thread that has none in the arena, and the guard that leads to it takes the
place of those that are stale. -/
structure Makes (p : Pool) (id : Nat) (thread : ThreadId) (slot : Slot) (after : Pool) : Prop where
  arena : ∃ a, p.arena? id = some a ∧ slot.generation = a.generation
  none : ∀ {g}, p.Stands thread g → g.arena ≠ id
  fresh : slot.address ∉ p.slotAddresses
  owner : slot.owner = thread
  empty : ∃ preferred, slot.chain = { preferred }
  after : after = (p.modify id fun a => { a with slots := a.slots ++ [slot] }).setGuards thread
    ((p.guards thread).filter (fun g => !p.isStale g) ++ [slot.guard id])

theorem slotOf?_eq_none (none : a.slotOf? thread = none) (member : slot ∈ a.slots) :
    slot.owner ≠ thread := by
  have passed := List.find?_eq_none.1 none slot member
  simpa using passed

/-- A thread that has a slot finds it through its guards. -/
theorem Orderly.guardedSlot? (orderly : p.Orderly) (stands : p.Stands thread g)
    (found : p.arena? g.arena = some a) : p.guardedSlot? g.arena thread ≠ none := fun lost =>
  generation_ne_of_unguarded orderly.sound found lost (orderly.guarded stands)
    (stands.generation orderly.sound found)

theorem setGuards_setGuards (p : Pool) (thread : ThreadId) (first second : List Guard) :
    (p.setGuards thread first).setGuards thread second = p.setGuards thread second := by
  simp only [setGuards, Pool.mk.injEq, true_and, and_true]
  funext other
  split <;> rfl

theorem isStale_append (p : Pool) (id : Nat) (slot : Slot) :
    (p.modify id fun a => { a with slots := a.slots ++ [slot] }).isStale = p.isStale := by
  funext g
  unfold isStale
  rw [arena?_modify]
  by_cases same : id = g.arena
  · subst same
    rw [if_pos rfl]
    cases p.arena? g.arena <;> rfl
  · rw [if_neg same]

theorem register_empty (found : p.arena? id = some a) (none : a.slotOf? thread = none)
    (registered : p.register os machine id thread = some (slot, after)) :
    ∃ preferred, slot.chain = { preferred } := by
  simp only [register, found, none, bind, Option.bind_some, pure, Option.some.injEq,
    Prod.mk.injEq] at registered
  obtain ⟨rfl, -⟩ := registered
  exact ⟨_, rfl⟩

/-- A thread finds its slot through its guard, or has a slot made. -/
theorem threadSlot_cases (orderly : p.Orderly)
    (found : p.threadSlot os machine id thread = some (slot, after, later)) :
    after = p ∧ p.Stands thread (slot.guard id) ∨ p.Makes id thread slot after := by
  unfold threadSlot at found
  split at found
  · next old guarded =>
    cases found
    exact .inl ⟨rfl, (guardedSlot?_owns orderly.sound guarded).stands⟩
  · next unguarded =>
    simp only [bind, Option.bind_eq_some_iff] at found
    obtain ⟨⟨made, middle⟩, registered, found⟩ := found
    have good := (register_spec orderly.sound registered).1
    rw [dropGuardsWhere_stale good.arenas] at found
    cases there : p.arena? id with
    | none => simp [register, there, bind] at registered
    | some a =>
      cases present : a.slotOf? thread with
      | some old =>
        have owner : old.owner = thread := by simpa using List.find?_some present
        have stands : p.Stands thread (old.guard id) :=
          ⟨old, ⟨a, there, List.mem_of_find?_eq_some present, owner⟩, rfl⟩
        exact absurd unguarded (orderly.guardedSlot? stands there)
      | none =>
        have empty := register_empty there present registered
        obtain ⟨address, owner, generation, -, -, rfl⟩ := register_some there present registered
        rw [isStale_append] at found
        cases found
        refine .inr ⟨⟨a, there, generation⟩, ?_, ?_, owner, empty, ?_⟩
        · rintro g ⟨old, ⟨b, here, member, owned⟩, -⟩ rfl
          cases there.symm.trans here
          exact slotOf?_eq_none present member owned
        · exact address ▸ freshAddress_not_mem p
        · rw [setGuards_setGuards]
          simp [setGuards, Pool.modify, Slot.guard]

namespace Makes

variable {t : ThreadId}

theorem stands (makes : p.Makes id thread slot after) :
    after.Stands t g ↔ p.Stands t g ∨ t = thread ∧ g = slot.guard id := by
  obtain ⟨a, found, -⟩ := makes.arena
  have here := arena?_modify_self (f := fun a => { a with slots := a.slots ++ [slot] }) found
  rw [makes.after]
  constructor
  · rintro ⟨old, ⟨b, there, member, owner⟩, named⟩
    obtain ⟨rfl, rfl⟩ | ⟨-, before⟩ := arena?_modify_cases found there
    · rcases List.mem_append.1 member with member | new
      · exact .inl ⟨old, ⟨a, found, member, owner⟩, named⟩
      · cases List.mem_singleton.1 new
        exact .inr ⟨owner.symm.trans makes.owner, named.symm⟩
    · exact .inl ⟨old, ⟨b, before, member, owner⟩, named⟩
  · rintro (⟨old, ⟨b, there, member, owner⟩, named⟩ | ⟨rfl, rfl⟩)
    · by_cases same : id = g.arena
      · subst same
        cases found.symm.trans there
        exact ⟨old, ⟨_, here, List.mem_append_left _ member, owner⟩, named⟩
      · exact ⟨old, ⟨b, (arena?_modify_of_ne same).trans there, member, owner⟩, named⟩
    · exact ⟨slot, ⟨_, here, List.mem_append_right _ (List.mem_singleton_self _), makes.owner⟩, rfl⟩

theorem guards (makes : p.Makes id thread slot after) :
    after.guards = fun t => if t = thread
      then (p.guards thread).filter (fun g => !p.isStale g) ++ [slot.guard id]
      else p.guards t := by
  rw [makes.after]
  rfl

theorem arena?_eq (makes : p.Makes id thread slot after) (found : p.arena? id = some a) :
    after.arena? id = some { a with slots := a.slots ++ [slot] } := by
  rw [makes.after]
  exact arena?_modify_self (f := fun a => { a with slots := a.slots ++ [slot] }) found

/-- Nothing else has become of the arenas. -/
theorem before {b : State} (makes : p.Makes id thread slot after) {other : Nat}
    (there : after.arena? other = some b) :
    ∃ a, p.arena? other = some a ∧ b.generation = a.generation ∧
      ∀ new ∈ b.slots, new ∈ a.slots ∨ other = id ∧ new.owner = thread := by
  obtain ⟨a, found, -⟩ := makes.arena
  rw [makes.after] at there
  obtain ⟨rfl, rfl⟩ | ⟨-, before⟩ := arena?_modify_cases found there
  · refine ⟨a, found, rfl, fun new member => ?_⟩
    rcases List.mem_append.1 member with old | made
    · exact .inl old
    · exact .inr ⟨rfl, List.mem_singleton.1 made ▸ makes.owner⟩
  · exact ⟨b, before, rfl, fun new member => .inl member⟩

theorem mem_guards (makes : p.Makes id thread slot after) (guarded : g ∈ after.guards t) :
    g ∈ p.guards t ∨ t = thread ∧ g = slot.guard id := by
  rw [makes.guards] at guarded
  dsimp only at guarded
  split at guarded
  · next same =>
    rcases List.mem_append.1 guarded with old | new
    · exact .inl (same ▸ (List.mem_filter.1 old).1)
    · exact .inr ⟨same, List.mem_singleton.1 new⟩
  · exact .inl guarded

/-- The address of the new slot is that of no other. -/
theorem address_ne (makes : p.Makes id thread slot after) (stands : p.Stands t g) :
    g.slot ≠ slot.address := by
  obtain ⟨old, ⟨a, found, member, -⟩, named⟩ := stands
  intro same
  apply makes.fresh
  rw [← same, ← named]
  exact List.mem_flatMap.2 ⟨a, List.mem_of_getElem? found, List.mem_map_of_mem member⟩

/-- No guard leads to a slot before it is made. -/
theorem not_mem_guards (makes : p.Makes id thread slot after) (sound : p.Sound) :
    slot.guard id ∉ p.guards t := by
  obtain ⟨a, found, generation⟩ := makes.arena
  intro guarded
  exact makes.address_ne (sound.stands guarded found generation.symm) rfl

end Makes

/-- A slot that stands is not stale. -/
theorem Orderly.isStale (orderly : p.Orderly) (stands : p.Stands thread g) :
    p.isStale g = false := by
  obtain ⟨slot, ⟨a, found, member, -⟩, -⟩ := id stands
  have current := stands.generation orderly.sound found
  have active : a.active = true := by
    by_contra off
    rw [orderly.closed found (Bool.eq_false_iff.2 off)] at member
    cases member
  simp [Pool.isStale, found, active, current]

theorem Orderly.makes (orderly : p.Orderly) (sound : after.Sound) (on : ∀ {a},
    p.arena? id = some a → a.active = true) (makes : p.Makes id thread slot after) :
    after.Orderly where
  sound := sound
  guarded {t g} stands := by
    rw [makes.guards]
    dsimp only
    rcases makes.stands.1 stands with old | ⟨rfl, rfl⟩
    · split
      · next same =>
        subst same
        refine List.mem_append_left _ (List.mem_filter.2 ⟨orderly.guarded old, ?_⟩)
        rw [orderly.isStale old, Bool.not_false]
      · exact orderly.guarded old
    · rw [if_pos rfl]
      exact List.mem_append_right _ (List.mem_singleton_self _)
  alone first second arena := by
    rcases makes.stands.1 first with one | ⟨rfl, rfl⟩
    · rcases makes.stands.1 second with two | ⟨rfl, rfl⟩
      · exact orderly.alone one two arena
      · exact absurd arena (makes.none one)
    · rcases makes.stands.1 second with two | ⟨-, rfl⟩
      · exact absurd arena.symm (makes.none two)
      · rfl
  closed {other b} there off := by
    obtain ⟨a, found, -⟩ := makes.arena
    rw [makes.after] at there
    obtain ⟨rfl, rfl⟩ | ⟨-, before⟩ := arena?_modify_cases found there
    · rw [on found] at off
      cases off
    · exact orderly.closed before off

end Pool

end NumaHeap.Arena
