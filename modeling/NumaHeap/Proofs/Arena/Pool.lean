import NumaHeap.Proofs.Arena.State

/-!
The arenas together with the guards of all threads. Generations tell the arenas apart, and a guard
whose generation is that of an arena leads to a slot of its own thread there. So a thread finds its
own slot, and a guard that outlives its slot finds none.
-/

namespace NumaHeap.Arena.Pool

variable {σ : Type}

/-- The blocks of all arenas. -/
def held (p : Pool) : List Block := p.arenas.flatMap State.held

/-- The regions of all arenas. -/
def regions (p : Pool) : List Region := p.arenas.flatMap State.regions

/-- The block belongs to the thread in the arena. -/
def Holds (p : Pool) (id : Nat) (thread : ThreadId) (block : Block) : Prop :=
  ∃ a, p.arena? id = some a ∧ a.Holds thread block

/-- The guard leads nowhere but to a slot of the thread. -/
def Leads (p : Pool) (thread : ThreadId) (g : Guard) : Prop :=
  g.generation < p.nextGeneration ∧
    ∀ id a, p.arena? id = some a → a.generation = g.generation →
      g.arena = id ∧ a.Hosts g.slot thread

/-- The arenas can be told apart by their generations, and guards lead to slots of their threads. -/
structure Sound (p : Pool) : Prop where
  arenas : ∀ id a, p.arena? id = some a → a.Sound
  recent : ∀ id a, p.arena? id = some a → a.generation < p.nextGeneration
  distinct : ∀ id other a b, p.arena? id = some a → p.arena? other = some b →
    a.generation = b.generation → id = other
  guards : ∀ thread, ∀ g ∈ p.guards thread, p.Leads thread g

variable {p : Pool} {id : Nat} {thread : ThreadId} {a : State} {block : Block} {f : State → State}

theorem regions_eq_map (p : Pool) : p.regions = p.held.map (·.region) := by
  rw [regions, held, List.map_flatMap]
  congr 1
  funext a
  exact a.regions_eq_map

theorem Holds.mem (holds : p.Holds id thread block) : block ∈ p.held := by
  obtain ⟨a, found, slot, member, -, inside⟩ := holds
  exact List.mem_flatMap.2 ⟨a, List.mem_of_getElem? found,
    List.mem_flatMap.2 ⟨slot, member, inside⟩⟩

theorem Holds.region_mem (holds : p.Holds id thread block) : block.region ∈ p.regions := by
  rw [regions_eq_map]
  exact List.mem_map_of_mem holds.mem

/-- Blocks are known by their regions. -/
theorem Holds.unique {other : Nat} {owner : ThreadId} {second : Block} (once : p.regions.Nodup)
    (holds : p.Holds id thread block) (also : p.Holds other owner second)
    (same : block.region = second.region) : block = second :=
  List.inj_on_of_nodup_map (p.regions_eq_map ▸ once) holds.mem also.mem same

theorem Sound.of_holds (sound : p.Sound) (holds : p.Holds id thread block) : block.Sound := by
  obtain ⟨a, found, inside⟩ := holds
  exact (sound.arenas id a found).block inside

theorem arena?_modify (p : Pool) (id other : Nat) (f : State → State) :
    (p.modify id f).arena? other = if id = other then (p.arena? id).map f else p.arena? other := by
  simp only [arena?, modify, List.getElem?_modify]
  split
  · next same =>
    subst same
    rfl
  · exact congrFun Option.map_id _

theorem arena?_modify_self (found : p.arena? id = some a) :
    (p.modify id f).arena? id = some (f a) := by
  rw [arena?_modify, if_pos rfl, found, Option.map_some]

theorem arena?_modify_of_ne {other : Nat} (different : id ≠ other) :
    (p.modify id f).arena? other = p.arena? other := by
  rw [arena?_modify, if_neg different]

/-- An arena of the changed pool is the one that was changed, or as it was. -/
theorem arena?_modify_cases {other : Nat} {b : State} (found : p.arena? id = some a)
    (there : (p.modify id f).arena? other = some b) :
    (other = id ∧ b = f a) ∨ (other ≠ id ∧ p.arena? other = some b) := by
  rw [arena?_modify] at there
  split at there
  · next same =>
    rw [found] at there
    cases there
    exact .inl ⟨same.symm, rfl⟩
  · next different => exact .inr ⟨fun same => different same.symm, there⟩

theorem Holds.modify {later : Block} (holds : p.Holds id thread block) (other : Nat)
    (changed : ∀ a, p.arena? id = some a → id = other → a.Holds thread block →
      (f a).Holds thread later)
    (same : id ≠ other → later = block) : (p.modify other f).Holds id thread later := by
  obtain ⟨a, found, inside⟩ := holds
  by_cases here : id = other
  · subst here
    exact ⟨f a, arena?_modify_self found, changed a found rfl inside⟩
  · rw [same here]
    exact ⟨a, (arena?_modify_of_ne fun eq => here eq.symm).trans found, inside⟩

/-- An arena may change as long as its generation stays and guards still find what they lead to. -/
theorem Sound.modify (sound : p.Sound) (found : p.arena? id = some a) (inner : (f a).Sound)
    (same : (f a).generation = a.generation)
    (reached : ∀ thread, ∀ g ∈ p.guards thread, g.generation = a.generation →
      a.Hosts g.slot thread → (f a).Hosts g.slot thread) : (p.modify id f).Sound where
  arenas other b there := by
    obtain ⟨rfl, rfl⟩ | ⟨-, before⟩ := arena?_modify_cases found there
    · exact inner
    · exact sound.arenas other b before
  recent other b there := by
    obtain ⟨rfl, rfl⟩ | ⟨-, before⟩ := arena?_modify_cases found there
    · exact same ▸ sound.recent other a found
    · exact sound.recent other b before
  distinct first second b c one two equal := by
    obtain ⟨rfl, rfl⟩ | ⟨-, before⟩ := arena?_modify_cases found one
    · obtain ⟨rfl, rfl⟩ | ⟨-, also⟩ := arena?_modify_cases found two
      · rfl
      · exact sound.distinct _ _ a c found also (same ▸ equal)
    · obtain ⟨rfl, rfl⟩ | ⟨-, also⟩ := arena?_modify_cases found two
      · exact sound.distinct _ _ b a before found (equal.trans same)
      · exact sound.distinct _ _ b c before also equal
  guards thread g member := by
    obtain ⟨old, leads⟩ := sound.guards thread g member
    refine ⟨old, fun other b there equal => ?_⟩
    obtain ⟨rfl, rfl⟩ | ⟨-, before⟩ := arena?_modify_cases found there
    · obtain ⟨arena, hosted⟩ := leads _ a found (same ▸ equal)
      exact ⟨arena, reached thread g member (equal.symm.trans same) hosted⟩
    · exact leads other b before equal

theorem Sound.setGuards (sound : p.Sound) {kept : List Guard}
    (leads : ∀ g ∈ kept, p.Leads thread g) : (p.setGuards thread kept).Sound where
  arenas := sound.arenas
  recent := sound.recent
  distinct := sound.distinct
  guards other g member := by
    rw [Pool.setGuards] at member
    dsimp only at member
    split at member
    · next same => exact same ▸ leads g member
    · exact sound.guards other g member

theorem Sound.subset_guards (sound : p.Sound) {kept : List Guard}
    (subset : ∀ g ∈ kept, g ∈ p.guards thread) : (p.setGuards thread kept).Sound :=
  sound.setGuards fun g member => sound.guards thread g (subset g member)

/-- A change of one arena exchanges its regions for others. -/
theorem regions_modify (found : p.arena? id = some a) :
    ∃ others, p.regions.Perm (a.regions ++ others) ∧
      ∀ f, (p.modify id f).regions.Perm ((f a).regions ++ others) :=
  Parts.perm_modify State.regions found

theorem regions_modify_of_eq (found : p.arena? id = some a) (same : (f a).regions = a.regions) :
    (p.modify id f).regions.Perm p.regions := by
  obtain ⟨others, before, after⟩ := regions_modify found
  exact (after f).trans (same ▸ before.symm)

/-- Where no slot of its thread is found, a guard drops nothing. -/
theorem dropGuard_of_none {os : Platform σ} {machine : Machine σ} {g : Guard}
    (lost : ∀ a slot, p.arena? g.arena = some a → a.active = true → slot ∈ a.slots →
      slot.generation = g.generation → slot.address ≠ g.slot) :
    p.dropGuard os machine g = (p, machine) := by
  unfold dropGuard
  split
  · rfl
  · next a found =>
    split
    · next active =>
      split
      · rfl
      · next slot some =>
        have meets := List.find?_some some
        rw [Bool.and_eq_true, beq_iff_eq, beq_iff_eq] at meets
        exact absurd meets.2 (lost a slot found active (List.mem_of_find?_eq_some some) meets.1)
    · rfl

/-- Stale guards are dropped in vain. -/
theorem dropGuards_of_stale {os : Platform σ} {machine : Machine σ} {gs : List Guard}
    (sound : ∀ id a, p.arena? id = some a → a.Sound)
    (stale : ∀ g ∈ gs, p.isStale g = true) : p.dropGuards os machine gs = (p, machine) := by
  induction gs with
  | nil => rfl
  | cons g rest ih =>
    have useless : p.dropGuard os machine g = (p, machine) := by
      apply dropGuard_of_none
      intro a slot found active member generation
      have outdated := stale g (List.mem_cons_self ..)
      rw [isStale, found] at outdated
      have current := (sound g.arena a found).generations slot member
      simp [active, ← current, generation] at outdated
    change List.foldl _ (p.dropGuard os machine g) rest = _
    rw [useless]
    exact ih fun other member => stale other (List.mem_cons_of_mem _ member)

end NumaHeap.Arena.Pool
