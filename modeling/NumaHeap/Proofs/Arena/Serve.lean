import NumaHeap.Proofs.Arena.Pool

/-!
Requests to an arena. The thread's own slot is found or made, without any effect on the regions or
on the blocks of others; its chain then serves the request, and gains what the request has mapped.
-/

namespace NumaHeap.Arena.Pool

variable {σ : Type} {os : Platform σ} {p after : Pool} {machine later : Machine σ} {id : Nat}
  {thread : ThreadId} {slot : Slot}

/-- Two pools hold the same blocks for the same threads. -/
structure Same (p after : Pool) : Prop where
  regions : after.regions.Perm p.regions
  holds : ∀ id thread block, after.Holds id thread block ↔ p.Holds id thread block
  count : after.arenas.length = p.arenas.length

/-- The slot stands in the arena and belongs to the thread. -/
def Owns (p : Pool) (id : Nat) (thread : ThreadId) (slot : Slot) : Prop :=
  ∃ a, p.arena? id = some a ∧ slot ∈ a.slots ∧ slot.owner = thread

theorem Same.trans {last : Pool} (first : Same p after) (second : Same after last) :
    Same p last where
  regions := second.regions.trans first.regions
  holds id thread block := (second.holds id thread block).trans (first.holds id thread block)
  count := second.count.trans first.count

theorem freshAddress_not_mem (p : Pool) : p.freshAddress ∉ p.slotAddresses := by
  unfold freshAddress
  cases found : (List.range (p.slotAddresses.length + 1)).find? fun address =>
      !p.slotAddresses.contains address with
  | some address =>
    have free := List.find?_some found
    simpa using free
  | none =>
    -- The addresses in use are fewer than those that are tried.
    have used : List.range (p.slotAddresses.length + 1) ⊆ p.slotAddresses := by
      intro address member
      have taken := List.find?_eq_none.1 found address member
      simpa using taken
    have few := (List.subperm_of_subset List.nodup_range used).length_le
    rw [List.length_range] at few
    omega

theorem register_some {a : State} (found : p.arena? id = some a) (none : a.slotOf? thread = none)
    (registered : p.register os machine id thread = some (slot, after)) :
    slot.address = p.freshAddress ∧ slot.owner = thread ∧ slot.generation = a.generation ∧
      slot.chain.blocks = [] ∧ slot.chain.tally = {} ∧
      after = p.modify id fun a => { a with slots := a.slots ++ [slot] } := by
  simp only [register, found, none, bind, Option.bind_some, pure, Option.some.injEq,
    Prod.mk.injEq] at registered
  obtain ⟨rfl, rfl⟩ := registered
  exact ⟨rfl, rfl, rfl, rfl, rfl, rfl⟩

/-- A slot that is added holds nothing. -/
theorem append_sound {a : State} (sound : a.Sound) (fresh : slot.address ∉ a.slots.map (·.address))
    (generation : slot.generation = a.generation) (empty : slot.chain.blocks = [])
    (blank : slot.chain.tally = {}) :
    { a with slots := a.slots ++ [slot] }.Sound ∧
      { a with slots := a.slots ++ [slot] }.regions = a.regions := by
  have nothing : slot.chain.regions = [] := by rw [Chain.regions, empty, List.map_nil]
  have same : { a with slots := a.slots ++ [slot] }.regions = a.regions := by
    simp [State.regions, nothing]
  refine ⟨⟨?_, ?_, ?_, ?_⟩, same⟩
  · rw [List.map_append, List.map_singleton, List.nodup_append]
    refine ⟨sound.addresses, List.nodup_singleton _, fun address old other new => ?_⟩
    rw [List.mem_singleton.1 new]
    exact fun equal => fresh (equal ▸ old)
  · intro other member
    rcases List.mem_append.1 member with old | new
    · exact sound.generations other old
    · exact List.mem_singleton.1 new ▸ generation
  · intro other member
    rcases List.mem_append.1 member with old | new
    · exact sound.chains other old
    · rw [List.mem_singleton.1 new]
      refine ⟨fun block inside => ?_, ?_⟩
      · rw [empty] at inside
        cases inside
      · rw [nothing, blank, List.countP_nil]
  · exact sound.bytes.trans (congrArg _ same.symm)

theorem register_spec (sound : p.Sound)
    (registered : p.register os machine id thread = some (slot, after)) :
    after.Sound ∧ Same p after ∧ after.guards = p.guards ∧ after.Owns id thread slot := by
  cases found : p.arena? id with
  | none => simp [register, found, bind] at registered
  | some a =>
    cases present : a.slotOf? thread with
    | some old =>
      simp only [register, found, present, bind, Option.bind_some, pure, Option.some.injEq,
        Prod.mk.injEq] at registered
      obtain ⟨rfl, rfl⟩ := registered
      have owned := List.find?_some present
      exact ⟨sound, ⟨.refl _, fun _ _ _ => Iff.rfl, rfl⟩, rfl, a, found,
        List.mem_of_find?_eq_some present, beq_iff_eq.1 owned⟩
    | none =>
      obtain ⟨address, owner, generation, empty, blank, rfl⟩ :=
        register_some found present registered
      have fresh : slot.address ∉ a.slots.map (·.address) := by
        intro used
        apply freshAddress_not_mem p
        rw [← address]
        exact List.mem_flatMap.2 ⟨a, List.mem_of_getElem? found, used⟩
      obtain ⟨inner, same⟩ := append_sound (sound.arenas id a found) fresh generation empty blank
      refine ⟨sound.modify found inner rfl ?_, ⟨regions_modify_of_eq found same, ?_, List.length_modify ..⟩,
        rfl, _, arena?_modify_self found, List.mem_append_right _ (List.mem_singleton_self _), owner⟩
      · rintro _ _ _ _ ⟨other, member, there⟩
        exact ⟨other, List.mem_append_left _ member, there⟩
      · intro other owner block
        constructor
        · rintro ⟨b, there, slot', member, owned, inside⟩
          obtain ⟨rfl, rfl⟩ | ⟨-, before⟩ := arena?_modify_cases found there
          · rcases List.mem_append.1 member with old | new
            · exact ⟨a, found, slot', old, owned, inside⟩
            · rw [List.mem_singleton.1 new, empty] at inside
              cases inside
          · exact ⟨b, before, slot', member, owned, inside⟩
        · intro holds
          refine holds.modify id ?_ fun _ => rfl
          rintro b _ _ ⟨slot', member, there⟩
          exact ⟨slot', List.mem_append_left _ member, there⟩

theorem dropGuardsWhere_eq (test : Guard → Bool) :
    p.dropGuardsWhere os machine thread test =
      (p.setGuards thread ((p.guards thread).filter fun g => !test g)).dropGuards os machine
        ((p.guards thread).filter test) := by
  simp only [dropGuardsWhere, List.partition_eq_filter_filter]
  rfl

/-- To drop its stale guards is all that a thread does about them. -/
theorem dropGuardsWhere_stale (sound : ∀ id a, p.arena? id = some a → a.Sound) :
    p.dropGuardsWhere os machine thread p.isStale =
      (p.setGuards thread ((p.guards thread).filter fun g => !p.isStale g), machine) := by
  rw [dropGuardsWhere_eq]
  exact dropGuards_of_stale sound fun g member => (List.mem_filter.1 member).2

/-- A guard of the present generation leads to a slot. -/
theorem generation_ne_of_unguarded (sound : p.Sound) (found : p.arena? id = some a)
    (unguarded : p.guardedSlot? id thread = none) {g : Guard} (member : g ∈ p.guards thread) :
    g.generation ≠ a.generation := by
  intro current
  cases first : (p.guards thread).find? (·.generation == a.generation) with
  | none => exact absurd (List.find?_eq_none.1 first g member) (by simpa using current)
  | some k =>
    have same : k.generation = a.generation := by simpa using List.find?_some first
    obtain ⟨-, slot, inside, address, -⟩ :=
      (sound.guards thread k (List.mem_of_find?_eq_some first)).2 id a found same.symm
    simp only [guardedSlot?, found, bind, Option.bind_some, first] at unguarded
    exact absurd (List.find?_eq_none.1 unguarded slot inside) (by simpa using address)

theorem guardedSlot?_owns (sound : p.Sound) (some : p.guardedSlot? id thread = some slot) :
    p.Owns id thread slot := by
  simp only [guardedSlot?, bind, Option.bind_eq_some_iff] at some
  obtain ⟨a, found, g, guarded, there⟩ := some
  have current : g.generation = a.generation := by simpa using List.find?_some guarded
  obtain ⟨-, other, member, address, owner⟩ :=
    (sound.guards thread g (List.mem_of_find?_eq_some guarded)).2 id a found current.symm
  have inside := List.mem_of_find?_eq_some there
  have place : slot.address = g.slot := by simpa using List.find?_some there
  have same := (sound.arenas id a found).eq_of_address inside member (place.trans address.symm)
  exact ⟨a, found, inside, same ▸ owner⟩

/-- In an arena that is there, every thread has a slot or gets one. -/
theorem threadSlot_ne_none {a : State} (found : p.arena? id = some a) :
    p.threadSlot os machine id thread ≠ none := by
  unfold threadSlot
  split
  · exact Option.some_ne_none _
  · simp only [register, found, bind, Option.bind_some, pure]
    split <;> exact Option.some_ne_none _

/-- A thread finds its own slot, and nothing else comes of it. -/
theorem threadSlot_spec (sound : p.Sound)
    (some : p.threadSlot os machine id thread = some (slot, after, later)) :
    later = machine ∧ after.Sound ∧ Same p after ∧ after.Owns id thread slot := by
  unfold threadSlot at some
  split at some
  · next old guarded =>
    cases some
    exact ⟨rfl, sound, ⟨.refl _, fun _ _ _ => Iff.rfl, rfl⟩, guardedSlot?_owns sound guarded⟩
  · simp only [bind, Option.bind_eq_some_iff] at some
    obtain ⟨⟨made, middle⟩, registered, some⟩ := some
    obtain ⟨good, same, -, owned⟩ := register_spec sound registered
    rw [dropGuardsWhere_stale good.arenas] at some
    let kept := (middle.guards thread).filter fun g => !middle.isStale g
    have trimmed : (middle.setGuards thread kept).Sound :=
      good.subset_guards fun g member => (List.mem_filter.1 member).1
    cases some
    obtain ⟨a, found, member, owner⟩ := owned
    have generation := (good.arenas id a found).generations made member
    refine ⟨rfl, trimmed.setGuards ?_, same.trans ⟨.refl _, fun _ _ _ => Iff.rfl, rfl⟩, a, found,
      member, owner⟩
    intro g guarded
    rcases List.mem_append.1 guarded with old | new
    · exact trimmed.guards thread g old
    · rw [List.mem_singleton.1 new]
      refine ⟨generation ▸ good.recent id a found, fun other b there equal => ?_⟩
      have here := good.distinct _ _ b a there found (equal.trans generation)
      subst here
      cases Option.some.inj (there.symm.trans found)
      exact ⟨rfl, made, member, rfl, owner⟩

/-- What comes of a request of `rounded` bytes: some regions are gained, no block is lost, and what
is served was taken from a block of the thread or from a new one. -/
structure Serves (os : Platform σ) (id : Nat) (thread : ThreadId) (rounded : Nat)
    (alignment : PowerOfTwo) (p : Pool) (machine : Machine σ) (new : List Region)
    (answer : Except AllocError Placement) (after : Pool) (later : Machine σ) : Prop where
  grows : machine.Grows os later new
  sound : after.Sound
  regions : after.regions.Perm (new ++ p.regions)
  kept : ∀ {other : Nat} {owner : ThreadId} {block : Block}, p.Holds other owner block →
    ∃ last, after.Holds other owner last ∧ last.region = block.region ∧ block.cursor ≤ last.cursor
  served : ∀ placement, answer = .ok placement → ∃ block taken,
    (p.Holds id thread block ∨ ∃ region ∈ new, block = .ofRegion region) ∧
      block.take? rounded alignment = some taken ∧ taken.address = placement.address ∧
      after.Holds id thread taken.block
  count : after.arenas.length = p.arenas.length

section

variable {answer : Except AllocError Placement} {rounded : Nat} {alignment : PowerOfTwo}
  {new : List Region}

/-- A request that is denied at once changes nothing. -/
theorem Serves.denied (sound : p.Sound) (error : AllocError) :
    Serves os id thread rounded alignment p machine [] (.error error) p machine where
  grows := .refl os machine
  sound := sound
  regions := .refl _
  kept holds := ⟨_, holds, rfl, Nat.le_refl _⟩
  served := nofun
  count := rfl

/-- A pool that holds the same blocks serves in the same way. -/
theorem Serves.of_same {middle : Pool} (same : Same p middle)
    (serves : Serves os id thread rounded alignment middle machine new answer after later) :
    Serves os id thread rounded alignment p machine new answer after later where
  grows := serves.grows
  sound := serves.sound
  regions := serves.regions.trans (same.regions.append_left new)
  kept holds := serves.kept ((same.holds ..).2 holds)
  served placement ok := by
    obtain ⟨block, taken, origin, rest⟩ := serves.served placement ok
    exact ⟨block, taken, origin.imp_left (same.holds ..).1, rest⟩
  count := serves.count.trans same.count

/-- The chain of a slot answers, and takes the place of the old one. -/
theorem Serves.of_chain {a : State} {request : Request} {chain : Chain} {supply : Supply σ}
    (sound : p.Sound) (found : p.arena? id = some a) (member : slot ∈ a.slots)
    (owner : slot.owner = thread)
    (answers : Chain.Answers os request slot.chain ⟨a.mapper, machine⟩ new answer chain supply) :
    Serves os id thread request.rounded request.alignment p machine new answer
      (p.modify id fun a => { a.setChain slot.address chain with mapper := supply.mapper })
      supply.machine := by
  have inner := sound.arenas id a found
  have before := inner.chains slot member
  have grown := answers.regions before
  let changed : State := { a.setChain slot.address chain with mapper := supply.mapper }
  have present : { slot with chain } ∈ changed.slots := by
    refine List.mem_map.2 ⟨slot, member, if_pos rfl⟩
  refine ⟨answers.grows.toGrows, ?_, ?_, ?_, ?_, List.length_modify ..⟩
  · refine sound.modify found ?_ rfl fun _ _ _ _ hosted => hosted.setChain slot.address chain
    exact State.setChain_sound inner member (answers.sound before) grown answers.grows.mappedBytes
  · obtain ⟨others, all, some⟩ := regions_modify found
    have exchanged := (State.setChain_regions inner member grown).append_right others
    rw [List.append_assoc] at exchanged
    exact ((some _).trans exchanged).trans (all.symm.append_left new)
  · rintro other _ block ⟨b, there, slot', member', rfl, inside⟩
    by_cases here : other = id
    · subst here
      cases Option.some.inj (there.symm.trans found)
      by_cases same : slot'.address = slot.address
      · cases inner.eq_of_address member' member same
        obtain ⟨last, held, region, cursor⟩ :=
          answers.serves.kept (Chain.Answers.extended before) (List.mem_append_left _ inside)
        exact ⟨last, ⟨_, arena?_modify_self found, _, present, rfl, held⟩, region, cursor⟩
      · refine ⟨block, ⟨_, arena?_modify_self found, slot', ?_, rfl, inside⟩, rfl, Nat.le_refl _⟩
        exact List.mem_map.2 ⟨slot', member', if_neg same⟩
    · refine ⟨block, ⟨b, ?_, slot', member', rfl, inside⟩, rfl, Nat.le_refl _⟩
      exact (arena?_modify_of_ne fun eq => here eq.symm).trans there
  · rintro placement rfl
    obtain ⟨block, origin, taken, fits, address, held⟩ := answers.serves.served
    refine ⟨block, taken, ?_, fits, address, _, arena?_modify_self found, _, present, owner, held⟩
    rcases List.mem_append.1 origin with old | fresh
    · exact .inl ⟨a, found, slot, member, owner, old⟩
    · obtain ⟨region, gained, rfl⟩ := List.mem_map.1 fresh
      exact .inr ⟨region, gained, rfl⟩

/-- How a request to an arena ends. It is turned down as it stands, or the chain of the thread answers
it, unless there is no such arena. -/
inductive Outcome (os : Platform σ) (id : Nat) (thread : ThreadId) (size : Nat)
    (alignment : PowerOfTwo) (p : Pool) (machine : Machine σ) :
    Except AllocError Placement → Pool → Machine σ → Prop
  | invalid {error : AllocError} :
      error.isSuspicious = false → Outcome os id thread size alignment p machine (.error error) p machine
  | lost {slot : Slot} {middle : Pool} {between : Machine σ} :
      p.threadSlot os machine id thread = some (slot, middle, between) → middle.arena? id = none →
      Outcome os id thread size alignment p machine (.error .overflow) middle between
  | chained {rounded : Nat} {node : Option Nat} {slot : Slot} {middle : Pool} {between : Machine σ}
      {a : State} {answer : Except AllocError Placement} {chain : Chain} {supply : Supply σ} :
      Size.arenaRounded? size = some rounded →
      p.threadSlot os machine id thread = some (slot, middle, between) → middle.arena? id = some a →
      slot.chain.allocate os a.blockSize ⟨a.mapper, between⟩ ⟨size, rounded, alignment, node⟩ =
        (answer, chain, supply) →
      Outcome os id thread size alignment p machine answer
        (middle.modify id fun a => { a.setChain slot.address chain with mapper := supply.mapper })
        supply.machine

theorem allocate_outcome {size : Nat} {node : Option Nat}
    (served : p.allocate os machine id thread size alignment node = (answer, after, later)) :
    Outcome os id thread size alignment p machine answer after later := by
  unfold allocate at served
  split at served
  · cases served
    exact .invalid rfl
  · split at served
    · cases served
      exact .invalid rfl
    · split at served
      · cases served
        exact .invalid rfl
      · next rounded enough =>
        unfold serve at served
        split at served
        · cases served
          exact .invalid rfl
        · next slot middle between found =>
          split at served
          · next none =>
            cases served
            exact .lost found none
          · next a there =>
            cases served
            exact .chained enough found there rfl

theorem allocate_spec {size : Nat} {node : Option Nat} (sound : p.Sound)
    (served : p.allocate os machine id thread size alignment node = (answer, after, later)) :
    ∃ new rounded, Serves os id thread rounded alignment p machine new answer after later ∧
      ∀ placement, answer = .ok placement → size ≤ rounded ∧ 0 < size := by
  cases allocate_outcome served with
  | invalid => exact ⟨[], 0, .denied sound _, by simp⟩
  | lost found none =>
    obtain ⟨-, -, -, a, there, -⟩ := threadSlot_spec sound found
    cases none.symm.trans there
  | chained enough found there answered =>
    obtain ⟨rfl, good, same, a, here, member, owner⟩ := threadSlot_spec sound found
    cases there.symm.trans here
    obtain ⟨new, answers⟩ := Chain.allocate_spec answered
    exact ⟨new, _, .of_same same (.of_chain good there member owner answers),
      fun _ _ => Size.le_arenaRounded enough⟩

end

end NumaHeap.Arena.Pool
