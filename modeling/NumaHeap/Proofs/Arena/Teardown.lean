import NumaHeap.Proofs.Arena.Serve

/-!
The ways in which arena memory is given back: by a guard that is dropped, for one thread, or for a
whole arena. Each of them sheds regions and takes blocks from no thread but those it is meant for,
because a guard leads to a slot of its own thread.
-/

namespace NumaHeap.Arena.Pool

variable {σ : Type} {os : Platform σ} {p after : Pool} {machine later : Machine σ} {id : Nat}
  {thread : ThreadId} {slot : Slot} {a : State} {lost : Nat → ThreadId → Prop}

/-- Some regions are given back, and only the threads that are named lose blocks, each in the arenas
it is named with. -/
structure Sheds (os : Platform σ) (lost : Nat → ThreadId → Prop) (p : Pool) (machine : Machine σ)
    (after : Pool) (later : Machine σ) : Prop where
  sound : after.Sound
  returned : ∃ removed, p.regions.Perm (removed ++ after.regions) ∧
    later = { machine with system := os.unmapAll machine.system removed }
  kept : ∀ {id : Nat} {thread : ThreadId} {block : Block}, p.Holds id thread block →
    ¬lost id thread → after.Holds id thread block
  shrinks : ∀ id b, after.arena? id = some b → ∃ a, p.arena? id = some a ∧ b.slots ⊆ a.slots
  count : after.arenas.length = p.arenas.length

namespace Sheds

theorem refl (os : Platform σ) (lost : Nat → ThreadId → Prop) (sound : p.Sound)
    (machine : Machine σ) : Sheds os lost p machine p machine where
  sound := sound
  returned := ⟨[], .refl _, rfl⟩
  kept holds _ := holds
  shrinks _ b there := ⟨b, there, List.Subset.refl _⟩
  count := rfl

theorem trans {last : Pool} {final : Machine σ} (first : Sheds os lost p machine after later)
    (second : Sheds os lost after later last final) : Sheds os lost p machine last final where
  sound := second.sound
  returned := by
    obtain ⟨one, before, rfl⟩ := first.returned
    obtain ⟨two, middle, rfl⟩ := second.returned
    refine ⟨one ++ two, ?_, ?_⟩
    · rw [List.append_assoc]
      exact before.trans (middle.append_left one)
    · rw [Platform.unmapAll_append]
  kept holds spared := second.kept (first.kept holds spared) spared
  shrinks id c there := by
    obtain ⟨b, middle, some⟩ := second.shrinks id c there
    obtain ⟨a, before, all⟩ := first.shrinks id b middle
    exact ⟨a, before, List.Subset.trans some all⟩
  count := second.count.trans first.count

theorem mono {more : Nat → ThreadId → Prop} (sheds : Sheds os lost p machine after later)
    (named : ∀ id thread, lost id thread → more id thread) :
    Sheds os more p machine after later :=
  { sheds with kept := fun holds spared => sheds.kept holds fun lost => spared (named _ _ lost) }

theorem empty (sheds : Sheds os lost p machine after later)
    (none : ∀ a, p.arena? id = some a → a.slots = []) :
    ∀ b, after.arena? id = some b → b.slots = [] := by
  intro b there
  obtain ⟨a, found, subset⟩ := sheds.shrinks id b there
  rw [none a found] at subset
  exact List.eq_nil_of_subset_nil subset

/-- Guards hold nothing. -/
theorem of_setGuards {guards : List Guard}
    (sheds : Sheds os lost (p.setGuards thread guards) machine after later) :
    Sheds os lost p machine after later where
  sound := sheds.sound
  returned := sheds.returned
  kept := sheds.kept
  shrinks := sheds.shrinks
  count := sheds.count

end Sheds

theorem arena?_isSome (same : after.arenas.length = p.arenas.length)
    (found : p.arena? id = some a) : ∃ b, after.arena? id = some b := by
  have inside := (List.getElem?_eq_some_iff.1 found).1
  exact ⟨_, List.getElem?_eq_getElem (same ▸ inside)⟩

/-- What becomes of one arena depends on that arena alone. -/
theorem modify_congr {f g : State → State} (found : p.arena? id = some a) (same : f a = g a) :
    p.modify id f = p.modify id g := by
  have arenas : p.arenas.modify id f = p.arenas.modify id g := by
    apply List.ext_getElem?
    intro other
    rw [List.getElem?_modify, List.getElem?_modify]
    split
    · next here =>
      subst here
      change f <$> p.arena? id = g <$> p.arena? id
      rw [found]
      exact congrArg some same
    · rfl
  rw [modify, modify, arenas]

theorem modify_of_eq {f : State → State} (found : p.arena? id = some a) (same : f a = a) :
    p.modify id f = p :=
  (modify_congr found same).trans (congrArg (fun arenas => { p with arenas }) (List.modify_id ..))

theorem modify_of_none {f : State → State} (none : p.arena? id = none) : p.modify id f = p := by
  rw [modify, List.modify_eq_self (List.getElem?_eq_none_iff.1 none)]

theorem modify_modify (p : Pool) (id : Nat) (f g : State → State) :
    (p.modify id f).modify id g = p.modify id (g ∘ f) := by
  simp only [modify, List.modify_modify_eq]

theorem releaseSlot_eq (os : Platform σ) (machine : Machine σ) (found : p.arena? id = some a) (slot : Slot) :
    ∃ mapper, p.releaseSlot os machine id slot =
        (p.modify id ({ · with mapper }),
          { machine with system := os.unmapAll machine.system slot.chain.regions }) ∧
      mapper.mappedBytes = a.mapper.mappedBytes - Region.total slot.chain.regions := by
  obtain ⟨same, bytes⟩ := Supply.unmapAll_spec os ⟨a.mapper, machine⟩ slot.chain.regions
  refine ⟨(Supply.unmapAll os ⟨a.mapper, machine⟩ slot.chain.regions).mapper, ?_, bytes⟩
  unfold releaseSlot
  rw [found]
  exact congrArg (Prod.mk _) same

/-- A slot that no guard leads to is taken out of its arena. -/
theorem evict_spec (sound : p.Sound) (found : p.arena? id = some a) (member : slot ∈ a.slots)
    (unguarded : ∀ g ∈ p.guards slot.owner, g.generation ≠ slot.generation)
    (evicted : (p.modify id (·.dropSlot slot.address)).releaseSlot os machine id slot =
      (after, later)) :
    Sheds os (fun i t => i = id ∧ t = slot.owner) p machine after later ∧
      after.guards = p.guards := by
  have inner := sound.arenas id a found
  obtain ⟨mapper, same, bytes⟩ := releaseSlot_eq os machine
    (arena?_modify_self (f := (·.dropSlot slot.address)) found) slot
  rw [modify_modify] at same
  cases same.symm.trans evicted
  refine ⟨⟨?_, ⟨slot.chain.regions, ?_, rfl⟩, ?_, ?_, List.length_modify ..⟩, rfl⟩
  · refine sound.modify found (State.dropSlot_sound inner member bytes) rfl ?_
    rintro thread g guarded generation ⟨other, inside, address, owner⟩
    refine ⟨other, List.mem_filter.2 ⟨inside, bne_iff_ne.2 fun equal => ?_⟩, address, owner⟩
    cases inner.eq_of_address inside member equal
    exact unguarded g (owner ▸ guarded) (generation.trans (inner.generations slot member).symm)
  · obtain ⟨others, all, some⟩ := regions_modify found
    have dropped := (State.dropSlot_regions inner member).append_right others
    rw [List.append_assoc] at dropped
    refine all.trans (dropped.trans (List.Perm.append_left _ ?_))
    exact (some (({ · with mapper }) ∘ (·.dropSlot slot.address))).symm
  · intro other owner block holds spared
    refine holds.modify id ?_ fun _ => rfl
    rintro b there rfl ⟨slot', inside, owned, within⟩
    cases Option.some.inj (there.symm.trans found)
    refine ⟨slot', List.mem_filter.2 ⟨inside, bne_iff_ne.2 fun equal => spared ⟨rfl, ?_⟩⟩, owned,
      within⟩
    rw [← owned, inner.eq_of_address inside member equal]
  · intro other b there
    obtain ⟨rfl, rfl⟩ | ⟨-, before⟩ := arena?_modify_cases found there
    · exact ⟨a, found, fun slot inside => (List.mem_filter.1 inside).1⟩
    · exact ⟨b, before, List.Subset.refl _⟩

/-- Whatever slot a guard finds in its arena belongs to the thread. -/
def Reaches (p : Pool) (thread : ThreadId) (g : Guard) : Prop :=
  ∀ a slot, p.arena? g.arena = some a → slot ∈ a.slots → slot.generation = g.generation →
    slot.address = g.slot → slot.owner = thread

theorem Sound.reaches (sound : p.Sound) {g : Guard} (guarded : g ∈ p.guards thread) :
    p.Reaches thread g := by
  intro a slot found member generation address
  have inner := sound.arenas g.arena a found
  obtain ⟨-, leads⟩ := sound.guards thread g guarded
  have current := (inner.generations slot member).symm.trans generation
  obtain ⟨-, other, inside, place, owner⟩ := leads g.arena a found current
  rwa [inner.eq_of_address member inside (address.trans place.symm)]

theorem dropGuard_spec {g : Guard} (sound : p.Sound) (reaches : p.Reaches thread g)
    (unguarded : ∀ k ∈ p.guards thread, k.generation ≠ g.generation)
    (dropped : p.dropGuard os machine g = (after, later)) :
    Sheds os (fun i t => i = g.arena ∧ t = thread) p machine after later ∧
      after.guards = p.guards := by
  have nothing : Sheds os (fun i t => i = g.arena ∧ t = thread) p machine p machine :=
    .refl os _ sound machine
  unfold dropGuard at dropped
  split at dropped
  · cases dropped
    exact ⟨nothing, rfl⟩
  · next a found =>
    split at dropped
    · split at dropped
      · cases dropped
        exact ⟨nothing, rfl⟩
      · next slot here =>
        have meets := List.find?_some here
        rw [Bool.and_eq_true, beq_iff_eq, beq_iff_eq] at meets
        have member := List.mem_of_find?_eq_some here
        have owner := reaches a slot found member meets.1 meets.2
        subst owner
        exact evict_spec sound found member (meets.1 ▸ unguarded) dropped
    · cases dropped
      exact ⟨nothing, rfl⟩

/-- Guards that a thread has given up are dropped one by one; none of them was kept under the same
generation, so that no guard is left without its slot. -/
theorem dropGuards_spec {gs : List Guard} (sound : p.Sound)
    (reaches : ∀ g ∈ gs, p.Reaches thread g)
    (unguarded : ∀ g ∈ gs, ∀ k ∈ p.guards thread, k.generation ≠ g.generation)
    (dropped : p.dropGuards os machine gs = (after, later)) :
    Sheds os (fun i t => t = thread ∧ ∃ g ∈ gs, i = g.arena) p machine after later ∧
      after.guards = p.guards := by
  induction gs generalizing p machine with
  | nil =>
    cases dropped
    exact ⟨.refl os _ sound _, rfl⟩
  | cons g rest ih =>
    cases first : p.dropGuard os machine g with
    | mk middle between =>
      obtain ⟨sheds, guards⟩ := dropGuard_spec sound (reaches g (List.mem_cons_self ..))
        (unguarded g (List.mem_cons_self ..)) first
      change List.foldl _ (p.dropGuard os machine g) rest = _ at dropped
      rw [first] at dropped
      have still : ∀ k ∈ rest, middle.Reaches thread k := by
        intro k member b slot there inside
        obtain ⟨a, found, subset⟩ := sheds.shrinks _ b there
        exact reaches k (List.mem_cons_of_mem _ member) a slot found (subset inside)
      have apart : ∀ k ∈ rest, ∀ g ∈ middle.guards thread, g.generation ≠ k.generation := by
        rw [guards]
        exact fun k member => unguarded k (List.mem_cons_of_mem _ member)
      obtain ⟨others, same⟩ := ih sheds.sound still apart dropped
      refine ⟨(sheds.mono ?_).trans (others.mono ?_), same.trans guards⟩
      · rintro i t ⟨rfl, rfl⟩
        exact ⟨rfl, g, List.mem_cons_self .., rfl⟩
      · rintro i t ⟨owner, k, member, arena⟩
        exact ⟨owner, k, List.mem_cons_of_mem _ member, arena⟩

/-- Guards are taken away by their generations, so that those that are kept lead elsewhere. -/
theorem dropGuardsWhere_spec {test : Guard → Bool} (sound : p.Sound)
    (uniform : ∀ g k : Guard, g.generation = k.generation → test g = test k)
    (dropped : p.dropGuardsWhere os machine thread test = (after, later)) :
    Sheds os (fun i t => t = thread ∧ ∃ g ∈ p.guards thread, test g = true ∧ i = g.arena) p machine
        after later ∧
      after.guards = fun t => if t = thread then (p.guards thread).filter fun g => !test g
        else p.guards t := by
  rw [dropGuardsWhere_eq] at dropped
  let kept := (p.guards thread).filter fun g => !test g
  have trimmed : (p.setGuards thread kept).Sound :=
    sound.subset_guards fun g member => (List.mem_filter.1 member).1
  have reaches : ∀ g ∈ (p.guards thread).filter test, (p.setGuards thread kept).Reaches thread g :=
    fun g member => sound.reaches (List.mem_filter.1 member).1
  have apart : ∀ g ∈ (p.guards thread).filter test,
      ∀ k ∈ (p.setGuards thread kept).guards thread, k.generation ≠ g.generation := by
    intro g taken k member same
    rw [setGuards] at member
    dsimp only at member
    rw [if_pos rfl] at member
    have off := (List.mem_filter.1 member).2
    rw [uniform k g same, (List.mem_filter.1 taken).2] at off
    cases off
  obtain ⟨sheds, guards⟩ := dropGuards_spec trimmed reaches apart dropped
  refine ⟨(Sheds.of_setGuards sheds).mono ?_, guards⟩
  rintro i t ⟨owner, g, member, arena⟩
  exact ⟨owner, g, (List.mem_filter.1 member).1, (List.mem_filter.1 member).2, arena⟩

/-- A thread that exits loses its own blocks. -/
theorem exitThread_spec (sound : p.Sound)
    (exited : p.exitThread os machine thread = (after, later)) :
    Sheds os (fun _ t => t = thread) p machine after later :=
  (dropGuardsWhere_spec sound (fun _ _ _ => rfl) exited).1.mono fun _ _ named => named.1

/-- The guards of one generation lead to one arena. -/
theorem dropGeneration_spec (sound : p.Sound) (found : p.arena? id = some a)
    (dropped : p.dropGuardsWhere os machine thread (·.generation == a.generation) =
      (after, later)) :
    Sheds os (fun i t => i = id ∧ t = thread) p machine after later ∧
      (∀ t, ∀ g ∈ after.guards t, g ∈ p.guards t ∧ (t = thread → g.generation ≠ a.generation)) := by
  obtain ⟨sheds, guards⟩ := dropGuardsWhere_spec sound
    (fun g k same => congrArg (· == a.generation) same) dropped
  refine ⟨sheds.mono ?_, ?_⟩
  · rintro i t ⟨owner, g, member, current, rfl⟩
    exact ⟨((sound.guards thread g member).2 id a found (beq_iff_eq.1 current).symm).1, owner⟩
  · intro t g member
    rw [guards] at member
    dsimp only at member
    split at member
    · next same =>
      subst same
      obtain ⟨before, other⟩ := List.mem_filter.1 member
      refine ⟨before, fun _ equal => ?_⟩
      rw [beq_iff_eq.2 equal] at other
      cases other
    · next different => exact ⟨member, fun same => absurd same different⟩

/-- A thread that gives up its blocks in an arena loses these. -/
theorem releaseThread_spec (sound : p.Sound)
    (released : p.releaseThread os machine id thread = (after, later)) :
    Sheds os (fun i t => i = id ∧ t = thread) p machine after later := by
  unfold releaseThread at released
  split at released
  · cases released
    exact .refl os _ sound machine
  · next a found =>
    cases dropped : p.dropGuardsWhere os machine thread (·.generation == a.generation) with
    | mk middle between =>
      obtain ⟨sheds, guards⟩ := dropGeneration_spec sound found dropped
      simp only [dropped] at released
      split at released
      · cases released
        exact sheds
      · next slot here =>
        obtain ⟨b, there, member⟩ := Option.bind_eq_some_iff.1 here
        unfold State.slotOf? at member
        have owner : slot.owner = thread := by simpa using List.find?_some member
        have inside : slot ∈ b.slots := List.mem_of_find?_eq_some member
        obtain ⟨before, same, subset⟩ := sheds.shrinks id b there
        cases Option.some.inj (found.symm.trans same)
        have generation := (sound.arenas id a found).generations slot (subset inside)
        have unguarded : ∀ g ∈ middle.guards slot.owner, g.generation ≠ slot.generation := by
          intro g guarded
          rw [generation]
          exact (guards slot.owner g guarded).2 owner
        have evicted := (evict_spec sheds.sound there inside unguarded released).1
        exact sheds.trans (evicted.mono fun _ _ named => owner ▸ named)

theorem releaseSlots_eq (os : Platform σ) (slots : List Slot) (found : p.arena? id = some a)
    (machine : Machine σ) :
    ∃ mapper,
      slots.foldl (fun (p, machine) slot => p.releaseSlot os machine id slot) (p, machine) =
        (p.modify id ({ · with mapper }),
          { machine with
            system := os.unmapAll machine.system (slots.flatMap (·.chain.regions)) }) ∧
      mapper.mappedBytes =
        a.mapper.mappedBytes - Region.total (slots.flatMap (·.chain.regions)) := by
  induction slots generalizing p a machine with
  | nil => exact ⟨a.mapper, congrArg (·, machine) (modify_of_eq found rfl).symm, rfl⟩
  | cons slot rest ih =>
    obtain ⟨mapper, first, bytes⟩ := releaseSlot_eq os machine found slot
    obtain ⟨last, others, total⟩ := ih (arena?_modify_self (f := ({ · with mapper })) found)
      { machine with system := os.unmapAll machine.system slot.chain.regions }
    refine ⟨last, ?_, ?_⟩
    · change List.foldl _ (p.releaseSlot os machine id slot) rest = _
      rw [first, others, modify_modify, List.flatMap_cons, Platform.unmapAll_append]
      rfl
    · rw [total, List.flatMap_cons, Region.total_append]
      change mapper.mappedBytes - _ = _
      omega

/-- An arena may start over in a generation that was never used. -/
theorem Sound.renew {f : State → State} (sound : p.Sound) (found : p.arena? id = some a)
    (inner : (f a).Sound) (fresh : (f a).generation = p.nextGeneration) :
    { p.modify id f with nextGeneration := p.nextGeneration + 1 }.Sound where
  arenas other b there := by
    obtain ⟨rfl, rfl⟩ | ⟨-, before⟩ := arena?_modify_cases found there
    · exact inner
    · exact sound.arenas other b before
  recent other b there := by
    obtain ⟨rfl, rfl⟩ | ⟨-, before⟩ := arena?_modify_cases found there
    · exact fresh ▸ Nat.lt_succ_self _
    · exact Nat.lt_succ_of_lt (sound.recent other b before)
  distinct first second b c one two equal := by
    obtain ⟨rfl, rfl⟩ | ⟨-, before⟩ := arena?_modify_cases found one
    · obtain ⟨rfl, rfl⟩ | ⟨-, also⟩ := arena?_modify_cases found two
      · rfl
      · exact absurd (sound.recent _ c also) (by omega)
    · obtain ⟨rfl, rfl⟩ | ⟨-, also⟩ := arena?_modify_cases found two
      · exact absurd (sound.recent _ b before) (by omega)
      · exact sound.distinct _ _ b c before also equal
  guards thread g member := by
    obtain ⟨old, leads⟩ := sound.guards thread g member
    refine ⟨Nat.lt_succ_of_lt old, fun other b there equal => ?_⟩
    obtain ⟨rfl, rfl⟩ | ⟨-, before⟩ := arena?_modify_cases found there
    · exact absurd old (by omega)
    · exact leads other b before equal

/-- An arena that is destroyed holds nothing, and all other arenas keep what they hold. -/
theorem destroy_spec (sound : p.Sound)
    (destroyed : p.destroy os machine id thread = (after, later)) :
    Sheds os (fun i _ => i = id) p machine after later ∧
      ∀ b, after.arena? id = some b → b.slots = [] := by
  unfold destroy at destroyed
  split at destroyed
  · next none =>
    cases destroyed
    exact ⟨.refl os _ sound machine, fun b there => by rw [none] at there; cases there⟩
  · next a found =>
    cases dropped : p.dropGuardsWhere os machine thread (·.generation == a.generation) with
    | mk middle between =>
      obtain ⟨sheds, -⟩ := dropGeneration_spec sound found dropped
      obtain ⟨b, there⟩ := arena?_isSome sheds.count found
      have inner := sheds.sound.arenas id b there
      obtain ⟨mapper, released, bytes⟩ := releaseSlots_eq os b.slots
        (arena?_modify_self (f := ({ · with slots := [] })) there) between
      simp only [dropped, there, Option.map_some, Option.getD_some, released] at destroyed
      rw [modify_modify, modify_modify] at destroyed
      cases destroyed
      have emptied : mapper.mappedBytes = 0 := by
        rw [bytes]
        exact Nat.sub_eq_zero_of_le (Nat.le_of_eq inner.bytes)
      refine ⟨(sheds.mono fun _ _ named => named.1).trans ?_, ?_⟩
      · refine ⟨?_, ⟨b.regions, ?_, rfl⟩, ?_, ?_, List.length_modify ..⟩
        · refine sheds.sound.renew there ⟨List.nodup_nil, nofun, nofun, ?_⟩ rfl
          exact emptied
        · obtain ⟨others, all, some⟩ := regions_modify there
          exact all.trans ((some (({ · with generation := middle.nextGeneration }) ∘
            ({ · with mapper }) ∘ ({ · with slots := [] }))).symm.append_left _)
        · rintro other owner block ⟨c, here, inside⟩ spared
          exact ⟨c, (arena?_modify_of_ne fun same => spared same.symm).trans here, inside⟩
        · intro other c here
          obtain ⟨rfl, rfl⟩ | ⟨-, before⟩ := arena?_modify_cases there here
          · exact ⟨b, there, List.nil_subset _⟩
          · exact ⟨c, before, List.Subset.refl _⟩
      · intro c here
        obtain ⟨-, rfl⟩ | ⟨different, -⟩ := arena?_modify_cases there here
        · rfl
        · exact absurd rfl different

/-- What is noted of an arena apart from its slots may change. -/
theorem Sheds.relabel {f : State → State} (sound : p.Sound)
    (slots : ∀ a, (f a).slots = a.slots) (generation : ∀ a, (f a).generation = a.generation)
    (mapper : ∀ a, (f a).mapper = a.mapper) :
    Sheds os lost p machine (p.modify id f) machine := by
  cases found : p.arena? id with
  | none =>
    rw [modify_of_none found]
    exact .refl os lost sound machine
  | some a =>
    have inner := sound.arenas id a found
    have regions : (f a).regions = a.regions := by rw [State.regions, slots, State.regions]
    refine ⟨sound.modify found ⟨?_, ?_, ?_, ?_⟩ (generation a) ?_,
      ⟨[], (regions_modify_of_eq found regions).symm, rfl⟩, ?_, ?_, List.length_modify ..⟩
    · exact slots a ▸ inner.addresses
    · rw [slots, generation]
      exact inner.generations
    · exact slots a ▸ inner.chains
    · rw [mapper, regions]
      exact inner.bytes
    · rintro _ _ _ _ ⟨slot, member, there⟩
      exact ⟨slot, slots a ▸ member, there⟩
    · intro other owner block holds _
      refine holds.modify id ?_ fun _ => rfl
      rintro b _ _ ⟨slot, member, there⟩
      exact ⟨slot, slots b ▸ member, there⟩
    · intro other b there
      obtain ⟨rfl, rfl⟩ | ⟨-, before⟩ := arena?_modify_cases found there
      · exact ⟨a, found, slots a ▸ List.Subset.refl _⟩
      · exact ⟨b, before, List.Subset.refl _⟩

theorem close_spec (sound : p.Sound) (closed : p.close os machine id thread = (after, later)) :
    Sheds os (fun i _ => i = id) p machine after later ∧
      ∀ b, after.arena? id = some b → b.slots = [] := by
  cases destroyed : p.destroy os machine id thread with
  | mk middle between =>
    obtain ⟨sheds, empty⟩ := destroy_spec sound destroyed
    simp only [close, destroyed] at closed
    cases closed
    have relabelled : Sheds os (fun i _ => i = id) middle later
        (middle.modify id ({ · with active := false })) later :=
      .relabel sheds.sound (fun _ => rfl) (fun _ => rfl) fun _ => rfl
    exact ⟨sheds.trans relabelled, relabelled.empty empty⟩

theorem compact_spec (os : Platform σ) (lost : Nat → ThreadId → Prop) (sound : p.Sound)
    (id : Nat) :
    Sheds os lost p machine (p.compact id) machine :=
  .relabel sound (fun _ => rfl) (fun _ => rfl) fun _ => rfl

/-- Rewinding keeps every region, though no block keeps its cursor. -/
theorem reset_spec (sound : p.Sound) (id : Nat) :
    (p.reset id).Sound ∧ (p.reset id).regions.Perm p.regions := by
  cases found : p.arena? id with
  | none =>
    rw [reset, modify_of_none found]
    exact ⟨sound, .refl _⟩
  | some a =>
    have inner := sound.arenas id a found
    let rewound : State :=
      { a with slots := a.slots.map fun slot => { slot with chain := slot.chain.reset } }
    have regions : rewound.regions = a.regions := by
      rw [State.regions, List.flatMap_map]
      apply List.flatMap_congr
      intro slot _
      exact slot.chain.reset_regions
    refine ⟨sound.modify found ⟨?_, ?_, ?_, ?_⟩ rfl ?_, regions_modify_of_eq found regions⟩
    · change ((a.slots.map _).map _).Nodup
      rw [List.map_map]
      exact inner.addresses
    · intro slot member
      obtain ⟨old, before, rfl⟩ := List.mem_map.1 member
      exact inner.generations old before
    · intro slot member
      obtain ⟨old, before, rfl⟩ := List.mem_map.1 member
      exact (inner.chains old before).reset
    · exact inner.bytes.trans (congrArg _ regions.symm)
    · rintro _ _ _ _ ⟨slot, member, there⟩
      exact ⟨_, List.mem_map_of_mem member, there⟩

theorem empty_sound : ({} : Pool).Sound where
  arenas _ _ there := by cases there
  recent _ _ there := by cases there
  distinct _ _ _ _ there := by cases there
  guards _ _ member := by cases member

theorem add_spec (sound : p.Sound) (blockSize : PowerOfTwo) (hugePages numaAware : Bool) :
    (p.add blockSize hugePages numaAware).Sound ∧
      (p.add blockSize hugePages numaAware).regions = p.regions := by
  have arena : ∀ {other b}, (p.add blockSize hugePages numaAware).arena? other = some b →
      p.arena? other = some b ∨ other = p.arenas.length ∧
        b = { generation := p.nextGeneration, blockSize, mapper := { hugePages, numaAware } } := by
    intro other b there
    rcases Nat.lt_trichotomy other p.arenas.length with below | here | above
    · exact .inl ((List.getElem?_append_left below).symm.trans there)
    · subst here
      simp only [arena?, add, List.getElem?_concat_length, Option.some.injEq] at there
      exact .inr ⟨rfl, there.symm⟩
    · rw [arena?, List.getElem?_eq_none (by simp [add]; omega)] at there
      cases there
  refine ⟨⟨?_, ?_, ?_, ?_⟩, by simp [regions, add, State.regions]⟩
  · intro other b there
    rcases arena there with old | ⟨-, rfl⟩
    · exact sound.arenas other b old
    · exact ⟨List.nodup_nil, List.forall_mem_nil _, List.forall_mem_nil _, rfl⟩
  · intro other b there
    rcases arena there with old | ⟨-, rfl⟩
    · exact Nat.lt_succ_of_lt (sound.recent other b old)
    · exact Nat.lt_succ_self _
  · intro first second b c one two equal
    rcases arena one with old | ⟨rfl, rfl⟩ <;> rcases arena two with also | ⟨rfl, rfl⟩
    · exact sound.distinct first second b c old also equal
    · exact absurd equal (Nat.ne_of_lt (sound.recent first b old))
    · exact absurd equal.symm (Nat.ne_of_lt (sound.recent second c also))
    · rfl
  · intro thread g member
    obtain ⟨recent, leads⟩ := sound.guards thread g member
    refine ⟨Nat.lt_succ_of_lt recent, fun other b there equal => ?_⟩
    rcases arena there with old | ⟨-, rfl⟩
    · exact leads other b old equal
    · exact absurd equal.symm (Nat.ne_of_lt recent)

end NumaHeap.Arena.Pool
