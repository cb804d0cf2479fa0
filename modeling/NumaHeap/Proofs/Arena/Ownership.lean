import NumaHeap.Proofs.Arena.World
import NumaHeap.Proofs.Platform.Simulated

/-!
Whose memory a thread is given, and what a guard releases. A thread is served from the one slot that
it has in the present generation of the arena, in which no other slot has a part. A guard releases
the slot with which it was made, or nothing once that is gone, even where a later slot stands at its
address. So nothing is released twice, and nothing of a thread is left once all its guards are
dropped.
-/

namespace NumaHeap.Arena

namespace Pool

variable {σ : Type} {os : Platform σ} {p after : Pool} {machine later : Machine σ} {id other : Nat}
  {thread owner : ThreadId} {slot foreign : Slot} {a : State}

/-- A region belongs to one slot of one arena. -/
theorem Owns.unique_region {region : Region} (once : p.regions.Nodup)
    (first : p.Owns id thread slot) (second : p.Owns other owner foreign)
    (inFirst : region ∈ slot.chain.regions) (inSecond : region ∈ foreign.chain.regions) :
    other = id ∧ foreign = slot := by
  obtain ⟨a, found, member, -⟩ := first
  obtain ⟨b, there, inside, -⟩ := second
  have arenas : other = id := by
    apply Parts.index_unique once there found
    · exact List.mem_flatMap.2 ⟨foreign, inside, inSecond⟩
    · exact List.mem_flatMap.2 ⟨slot, member, inFirst⟩
  subst arenas
  cases found.symm.trans there
  have within : a.regions.Nodup := (List.nodup_flatMap.1 once).1 a (List.mem_of_getElem? found)
  obtain ⟨i, here⟩ := List.mem_iff_getElem?.1 inside
  obtain ⟨j, also⟩ := List.mem_iff_getElem?.1 member
  have index := Parts.index_unique within here also inSecond inFirst
  exact ⟨rfl, Option.some.inj (here.symm.trans (index ▸ also))⟩

theorem Owns.region_mem {region : Region} (owns : p.Owns id thread slot)
    (inside : region ∈ slot.chain.regions) : region ∈ p.regions := by
  obtain ⟨a, found, member, -⟩ := owns
  refine List.mem_flatMap.2 ⟨a, List.mem_of_getElem? found, ?_⟩
  exact List.mem_flatMap.2 ⟨slot, member, inside⟩

/-- Slots of different owners have no byte in common. -/
theorem Owns.not_holds {contract : os.Contract} {system : σ} {first second : Block} {address : Nat}
    (custody : os.Custody contract system p.regions) (owns : p.Owns id thread slot)
    (also : p.Owns other owner foreign) (stranger : other ≠ id ∨ owner ≠ thread)
    (mine : first ∈ slot.chain.blocks) (others : second ∈ foreign.chain.blocks)
    (holds : first.region.extent.Holds address) : ¬second.region.extent.Holds address := by
  have inFirst : first.region ∈ slot.chain.regions := List.mem_map_of_mem mine
  have inSecond : second.region ∈ foreign.chain.regions := List.mem_map_of_mem others
  intro inside
  have same := custody.eq_of_holds (owns.region_mem inFirst) (also.region_mem inSecond) holds inside
  obtain ⟨rfl, rfl⟩ := owns.unique_region custody.nodup also inFirst (same ▸ inSecond)
  obtain ⟨-, -, -, owner⟩ := owns
  obtain ⟨-, -, -, owned⟩ := also
  exact stranger.elim (· rfl) (· (owned.symm.trans owner))

/-- One slot of the thread serves a request, and all slots of others stay as they are. -/
theorem Orderly.served {size : Nat} {alignment : PowerOfTwo} {node : Option Nat}
    {placement : Placement} (orderly : p.Orderly) (found : p.arena? id = some a)
    (served : p.allocate os machine id thread size alignment node = (.ok placement, after, later)) :
    ∃ slot, after.Owns id thread slot ∧ slot.generation = a.generation ∧
      (∃ block ∈ slot.chain.blocks, Extent.Within ⟨placement.address, size⟩ block.region.extent) ∧
      ∀ {other owner foreign}, after.Owns other owner foreign → other ≠ id ∨ owner ≠ thread →
        p.Owns other owner foreign := by
  cases allocate_outcome served with
  | @chained _ _ slot middle between b _ chain supply enough located there answered =>
    have before {other b} (there : middle.arena? other = some b) : ∃ a, p.arena? other = some a ∧
        b.generation = a.generation ∧
          ∀ new ∈ b.slots, new ∈ a.slots ∨ other = id ∧ new.owner = thread := by
      rcases threadSlot_cases orderly located with ⟨rfl, -⟩ | makes
      · exact ⟨b, there, rfl, fun _ member => .inl member⟩
      · exact makes.before there
    obtain ⟨-, good, -, c, here, member, mine⟩ := threadSlot_spec orderly.sound located
    cases there.symm.trans here
    have inner := good.arenas id b there
    have sound := inner.chains slot member
    obtain ⟨new, answers⟩ := Chain.allocate_spec answered
    obtain ⟨block, origin, taken, fits, address, kept⟩ := answers.serves.served
    obtain ⟨region, -, above, below⟩ :=
      Block.take?_spec (Chain.Answers.extended sound block origin) fits
    have least : block.region.start ≤ block.cursor :=
      (Chain.Answers.extended sound block origin).1
    obtain ⟨long, -⟩ := Size.le_arenaRounded enough
    have current := inner.generations slot member
    refine ⟨{ slot with chain }, ⟨_, arena?_modify_self there, ?_, mine⟩, ?_,
      ⟨taken.block, kept, ?_⟩, ?_⟩
    · exact List.mem_map.2 ⟨slot, member, if_pos rfl⟩
    · obtain ⟨d, same, generation, -⟩ := before there
      cases found.symm.trans same
      exact current.trans generation
    · rw [region, ← address]
      simp only [Extent.Within, Extent.stop, Region.extent, Region.stop] at below ⊢
      omega
    · rintro other owner foreign ⟨d, after, inside, owned⟩ stranger
      obtain ⟨rfl, rfl⟩ | ⟨different, untouched⟩ := arena?_modify_cases there after
      · obtain ⟨old, was, rfl⟩ := List.mem_map.1 inside
        have elsewhere : old.address ≠ slot.address := by
          intro same
          rw [if_pos same] at owned
          cases inner.eq_of_address was member same
          exact stranger.elim (· rfl) (· (owned.symm.trans mine))
        rw [if_neg elsewhere] at owned ⊢
        obtain ⟨e, same, -, slots⟩ := before there
        rcases slots old was with still | ⟨-, new⟩
        · exact ⟨e, same, still, owned⟩
        · exact absurd (owned.symm.trans new) (stranger.resolve_left fun no => no rfl)
      · obtain ⟨e, same, -, slots⟩ := before untouched
        rcases slots foreign inside with still | ⟨here, -⟩
        · exact ⟨e, same, still, owned⟩
        · exact absurd here different

theorem releaseSlot_setGuards (os : Platform σ) (p : Pool) (machine : Machine σ) (id : Nat)
    (slot : Slot) (thread : ThreadId) (kept : List Guard) :
    (p.setGuards thread kept).releaseSlot os machine id slot =
      ((p.releaseSlot os machine id slot).1.setGuards thread kept,
        (p.releaseSlot os machine id slot).2) := by
  have same : (p.setGuards thread kept).arena? id = p.arena? id := rfl
  unfold releaseSlot
  rw [same]
  cases p.arena? id <;> rfl

/-- To drop a guard is to act on the arena, whatever guards are kept. -/
theorem dropGuard_setGuards (os : Platform σ) (p : Pool) (machine : Machine σ) (g : Guard)
    (thread : ThreadId) (kept : List Guard) :
    (p.setGuards thread kept).dropGuard os machine g =
      ((p.dropGuard os machine g).1.setGuards thread kept, (p.dropGuard os machine g).2) := by
  have same : (p.setGuards thread kept).arena? g.arena = p.arena? g.arena := rfl
  unfold dropGuard
  rw [same]
  cases p.arena? g.arena with
  | none => rfl
  | some a =>
    dsimp only
    split
    · split
      · rfl
      · next slot _ =>
        exact releaseSlot_setGuards os (p.modify g.arena (·.dropSlot slot.address)) machine g.arena
          slot thread kept
    · rfl

theorem dropGuards_setGuards (os : Platform σ) (p : Pool) (machine : Machine σ) (gs : List Guard)
    (thread : ThreadId) (kept : List Guard) :
    (p.setGuards thread kept).dropGuards os machine gs =
      ((p.dropGuards os machine gs).1.setGuards thread kept, (p.dropGuards os machine gs).2) := by
  induction gs generalizing p machine with
  | nil => rfl
  | cons g rest ih =>
    change List.foldl _ ((p.setGuards thread kept).dropGuard os machine g) rest = _
    rw [dropGuard_setGuards]
    exact ih ..

/-- The regions of the slots that guards of a thread release are given back, once each. -/
theorem Sound.dropGuards_returned {gs : List Guard} (sound : p.Sound)
    (guarded : ∀ g ∈ gs, g ∈ p.guards thread)
    (dropped : p.dropGuards os machine gs = (after, later)) :
    ∃ removed, p.regions.Perm (removed ++ after.regions) ∧
      later = { machine with system := os.unmapAll machine.system removed } := by
  have trimmed : (p.setGuards thread []).Sound := sound.subset_guards (List.forall_mem_nil _)
  have reaches : ∀ g ∈ gs, (p.setGuards thread []).Reaches thread g :=
    fun g member => sound.reaches (guarded g member)
  have bare : ∀ k, k ∉ (p.setGuards thread []).guards thread := by
    intro k member
    simp [Pool.setGuards] at member
  have emptied := dropGuards_setGuards os p machine gs thread []
  rw [dropped] at emptied
  exact (dropGuards_spec trimmed reaches (fun _ _ k member => absurd member (bare k))
    emptied).1.returned

end Pool

namespace World

variable {σ : Type} {os : Platform σ} {contract : os.Contract} {w : World σ}

/-- Threads are served from their own slots, and guards release the slots they were made for. -/
structure Guarded (os : Platform σ) (w : World σ) : Prop where
  /-- No thread has two slots in an arena. -/
  single : ∀ {id a}, w.pool.arena? id = some a → (a.slots.map (·.owner)).Nodup
  /-- Who allocates is served from the slot it has in the present generation, made for it if it had
  none. Other slots stay as they are, and have no part in what is served. -/
  served : ∀ {id a thread size alignment node placement after later},
    w.pool.arena? id = some a → a.active = true → thread ∉ w.leaving →
    w.pool.allocate os w.machine id thread size alignment node = (.ok placement, after, later) →
    ∃ slot, after.Owns id thread slot ∧ slot.guard id ∈ after.guards thread ∧
      slot.generation = a.generation ∧
      (∀ {old}, w.pool.Owns id thread old → old.guard id = slot.guard id) ∧
      (∃ block ∈ slot.chain.blocks, Extent.Within ⟨placement.address, size⟩ block.region.extent) ∧
      ∀ {other owner foreign}, after.Owns other owner foreign → other ≠ id ∨ owner ≠ thread →
        w.pool.Owns other owner foreign ∧ ∀ block ∈ foreign.chain.blocks, ∀ address,
          Extent.Holds ⟨placement.address, size⟩ address → ¬block.region.extent.Holds address
  /-- Slots are told apart by their numbers. -/
  numbers : ∀ {id other thread owner slot foreign}, w.pool.Owns id thread slot →
    w.pool.Owns other owner foreign →
    w.slotNumber id slot.address = w.slotNumber other foreign.address → other = id ∧ foreign = slot
  /-- Guards that are dropped take the slots of their numbers out of the arenas, and these alone,
  and give back what these hold. -/
  dropped : ∀ {thread gs after later}, (∀ g ∈ gs, g ∈ w.pool.guards thread) →
    w.pool.dropGuards os w.machine gs = (after, later) →
    (∀ {id a}, w.pool.arena? id = some a → ∃ b, after.arena? id = some b ∧
      b.slots = a.slots.filter fun slot =>
        !(gs.map (w.guardNumber thread)).contains (w.slotNumber id slot.address)) ∧
    ∃ removed, w.pool.regions.Perm (removed ++ after.regions) ∧
      later = { w.machine with system := os.unmapAll w.machine.system removed }
  /-- Nothing is left of a thread that has exited. -/
  exited : ∀ {thread id slot}, thread ∈ w.exited → ¬w.pool.Owns id thread slot

namespace Tracked

variable {id : Nat} {thread : ThreadId} {a : State}

theorem single (tracked : w.Tracked contract) (found : w.pool.arena? id = some a) :
    (a.slots.map (·.owner)).Nodup := by
  have inner := tracked.orderly.sound.arenas id a found
  refine (List.Nodup.of_map _ inner.addresses).map_on fun one first two second same => ?_
  have mine : w.pool.Stands one.owner (one.guard id) := ⟨one, ⟨a, found, first, rfl⟩, rfl⟩
  have also : w.pool.Stands one.owner (two.guard id) := ⟨two, ⟨a, found, second, same.symm⟩, rfl⟩
  have guards := tracked.orderly.alone mine also rfl
  exact inner.eq_of_address first second (congrArg Guard.slot guards)

/-- A guard has the number of a slot just if it leads to it. -/
theorem released {gs : List Guard} {slot : Slot} (tracked : w.Tracked contract)
    (guarded : ∀ g ∈ gs, g ∈ w.pool.guards thread) (found : w.pool.arena? id = some a)
    (member : slot ∈ a.slots) :
    (gs.map (w.guardNumber thread)).contains (w.slotNumber id slot.address) =
      gs.contains (slot.guard id) := by
  have stands : w.pool.Stands slot.owner (slot.guard id) := ⟨slot, ⟨a, found, member, rfl⟩, rfl⟩
  rw [Bool.eq_iff_iff, List.contains_iff_mem, List.contains_iff_mem, List.mem_map]
  constructor
  · rintro ⟨g, taken, same⟩
    exact (tracked.named (guarded g taken) stands).1 same ▸ taken
  · intro taken
    exact ⟨slot.guard id, taken, (tracked.named (guarded _ taken) stands).2 rfl⟩

end Tracked

/-- Whatever threads have done, and whatever arenas were added, destroyed or closed, every thread
has its own slot, and every guard its own. -/
theorem slots_guarded (reached : w.Reached contract) : w.Guarded os := by
  have tracked := reached.tracked
  have orderly := tracked.orderly
  refine
    { single := tracked.single
      served := fun {id a thread size alignment node placement after later} found active _
        answered => ?_
      numbers := fun {id other thread owner slot foreign} first second same => ?_
      dropped := fun {thread gs after later} guarded dropped => ?_
      exited := fun gone => orderly.absent (tracked.exited gone) }
  · obtain ⟨slot, owns, generation, within, others⟩ := orderly.served found answered
    obtain ⟨last, middle, made, -, stands⟩ := orderly.allocate ⟨a, found, active⟩ answered
    obtain ⟨new, rounded, serves, -⟩ := Pool.allocate_spec orderly.sound answered
    have trades : os.Trades w.machine.system w.pool.regions _ after.regions :=
      .of_gains serves.grows.gains serves.regions
    have custody := trades.custody tracked.custody
    refine ⟨slot, owns, last.guarded owns.stands, generation, fun {old} before => ?_, within,
      fun {other owner foreign} after stranger => ⟨others after stranger, ?_⟩⟩
    · refine last.alone (stands.2 ?_) owns.stands rfl
      rcases made with rfl | ⟨_, makes⟩
      · exact before.stands
      · exact makes.stands.2 (.inl before.stands)
    · intro block inside address taken
      obtain ⟨source, mine, covers⟩ := within
      exact owns.not_holds custody after stranger mine inside (covers.holds taken)
  · have guards := tracked.apart first.stands second.stands same
    obtain ⟨rfl, -⟩ : id = other ∧ True := ⟨congrArg Guard.arena guards, trivial⟩
    obtain ⟨a, found, member, -⟩ := first
    obtain ⟨b, there, inside, -⟩ := second
    cases found.symm.trans there
    have inner := orderly.sound.arenas id a found
    exact ⟨rfl, inner.eq_of_address inside member (congrArg Guard.slot guards).symm⟩
  · obtain ⟨clears, -⟩ := Pool.dropGuards_clears orderly.uniform dropped
    refine ⟨fun {id a} found => ?_, orderly.sound.dropGuards_returned guarded dropped⟩
    obtain ⟨b, there⟩ := Pool.arena?_isSome clears.count found
    obtain ⟨c, same, fewer, -⟩ := clears.arena there
    cases found.symm.trans same
    refine ⟨b, there, fewer.trans (List.filter_congr fun slot member => ?_)⟩
    exact congrArg not (tracked.released guarded found member).symm

/-- A slot is made where another thread had one before the arena was destroyed, and that thread
still keeps its guard. -/
theorem slots_guarded_same_address :
    ∃ w : World Simulated.State,
      w.Reached (Simulated.contract {} (by decide) (by decide)) ∧ w.pool.guards 1 = [⟨1, 0, 0⟩] ∧
        (w.pool.slotOf? 0 0).map (·.guard 0) = some ⟨2, 0, 0⟩ ∧
        w.Guarded (Simulated.platform {}) := by
  let os := Simulated.platform {}
  let new : World Simulated.State := { machine := Simulated.machine {} }
  let bare := { new with pool := new.pool.add ⟨12, by decide⟩ false false }
  let used := (bare.allocate os 0 1 100 wordAlignment none).2
  let emptied := used.moved (used.pool.destroy os used.machine 0 0)
  let again := (emptied.allocate os 0 0 100 wordAlignment none).2
  have started : bare.Reached (Simulated.contract {} (by decide) (by decide)) :=
    .add _ false false (.start (Simulated.machine_sound {}))
  have live (w : World Simulated.State) (active : (w.pool.arena? 0).any (·.active) = true) :
      w.pool.Live 0 := (Option.any_eq_true _ _).1 active
  have destroyed : emptied.Reached (Simulated.contract {} (by decide) (by decide)) :=
    .destroy 0 (.allocate 100 wordAlignment none started (live bare rfl) (by decide))
      (live used (by decide +kernel))
  have reached : again.Reached (Simulated.contract {} (by decide) (by decide)) :=
    .allocate 100 wordAlignment none destroyed (live emptied (by decide +kernel)) (by decide)
  exact ⟨again, reached, by decide +kernel, by decide +kernel, slots_guarded reached⟩

end World

end NumaHeap.Arena
