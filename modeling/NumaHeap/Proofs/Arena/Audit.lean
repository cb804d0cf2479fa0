import NumaHeap.Proofs.Arena.Checked
import NumaHeap.Proofs.Arena.Ownership
import NumaHeap.Proofs.Arena.Rerun
import NumaHeap.Proofs.Arena.Spent
import NumaHeap.Proofs.Ratio

/-!
What an arena reports, held against what it was asked for. Every request that is served is entered
under the number of the slot that served it, with its size and the bytes for which the slot was
charged. A reset begins a new account for every slot of the arena, and a slot that is given back takes
its account with it.
-/

namespace NumaHeap.Arena

/-- What is entered: a request that a slot served, or a reset of an arena. -/
inductive Charge where
  | served (number size : Nat) (bytes : List Extent)
  | reset (id : Nat)

namespace Charge

/-- What a slot of an arena has served since the last reset. What happened last stands first. -/
def recent (id number : Nat) : List Charge → List (Nat × List Extent)
  | [] => []
  | .served slot size bytes :: earlier =>
    if slot = number then (size, bytes) :: recent id number earlier else recent id number earlier
  | .reset other :: earlier => if other = id then [] else recent id number earlier

/-- The sizes that a slot was asked for since the last reset. -/
def sizes (id number : Nat) (log : List Charge) : List Nat := (recent id number log).map (·.1)

/-- The bytes for which a slot was charged since the last reset. -/
def bytes (id number : Nat) (log : List Charge) : List Extent := (recent id number log).flatMap (·.2)

/-- Nothing is known of a slot that is not there yet. -/
theorem recent_of_unknown {id number : Nat} {log : List Charge}
    (unknown : ∀ {size bytes}, .served number size bytes ∉ log) : recent id number log = [] := by
  induction log with
  | nil => rfl
  | cons charge earlier ih =>
    have before := ih fun member => unknown (List.mem_cons_of_mem _ member)
    cases charge with
    | served slot size bytes =>
      have other : slot ≠ number := by
        rintro rfl
        exact unknown List.mem_cons_self
      rw [recent, if_neg other, before]
    | reset other => rw [recent, before, ite_self]

/-- What other slots are charged for does not concern a slot. -/
theorem recent_append {id number : Nat} {new log : List Charge}
    (others : ∀ charge ∈ new, ∃ slot size bytes, charge = .served slot size bytes ∧ slot ≠ number) :
    recent id number (new ++ log) = recent id number log := by
  induction new with
  | nil => rfl
  | cons charge rest ih =>
    obtain ⟨⟨slot, size, bytes, rfl, different⟩, later⟩ := List.forall_mem_cons.1 others
    rw [List.cons_append, recent, if_neg different, ih later]

theorem recent_served (id number size : Nat) (bytes : List Extent) (log : List Charge) :
    recent id number (.served number size bytes :: log) = (size, bytes) :: recent id number log :=
  if_pos rfl

end Charge

namespace Pool

variable {σ : Type} {os : Platform σ} {p after middle : Pool} {machine later between : Machine σ}
  {id other : Nat} {thread owner : ThreadId} {slot foreign : Slot} {a : State}
  {lost : Nat → ThreadId → Prop}

/-- What is left after a shedding was there before. -/
theorem Sheds.owns (sheds : Sheds os lost p machine after later)
    (owns : after.Owns id thread slot) : p.Owns id thread slot := by
  obtain ⟨b, there, member, owner⟩ := owns
  obtain ⟨a, found, fewer⟩ := sheds.shrinks id b there
  exact ⟨a, found, fewer member, owner⟩

theorem owns_add {blockSize : PowerOfTwo} {hugePages numaAware : Bool}
    (owns : (p.add blockSize hugePages numaAware).Owns id thread slot) : p.Owns id thread slot := by
  obtain ⟨b, there, member, owner⟩ := owns
  rcases arena?_add there with old | ⟨-, empty⟩
  · exact ⟨b, old, member, owner⟩
  · rw [empty] at member
    cases member

/-- A slot of an arena that was reset was there before, and was rewound if it is of that arena. -/
theorem owns_reset (owns : (p.reset id).Owns other owner slot) :
    (∃ old, p.Owns other owner old ∧ other = id ∧ slot = { old with chain := old.chain.reset }) ∨
      other ≠ id ∧ p.Owns other owner slot := by
  obtain ⟨b, there, member, mine⟩ := owns
  rw [reset, arena?_modify] at there
  split at there
  · next same =>
    subst same
    obtain ⟨a, found, rfl⟩ := Option.map_eq_some_iff.1 there
    obtain ⟨old, before, rfl⟩ := List.mem_map.1 member
    exact .inl ⟨old, ⟨a, found, before, mine⟩, rfl, rfl⟩
  · next different => exact .inr ⟨fun same => different same.symm, b, there, member, mine⟩

/-- The slot of the thread gets another chain. It was there before, or it was made just now, and all
others stay as they are. -/
theorem Orderly.replaced (orderly : p.Orderly) (chain : Chain) (mapper : Mapper)
    (located : p.threadSlot os machine id thread = some (slot, middle, between))
    (there : middle.arena? id = some a) :
    (p.Owns id thread slot ∨
      p.Makes id thread slot middle ∧ p.slotOf? id thread = none) ∧
    (middle.modify id fun a => { a.setChain slot.address chain with mapper }).Owns id thread
      { slot with chain } ∧
    ∀ {other owner foreign},
      (middle.modify id fun a => { a.setChain slot.address chain with mapper }).Owns other owner
        foreign →
      other = id ∧ foreign = { slot with chain } ∨
        p.Owns other owner foreign ∧ foreign.guard other ≠ slot.guard id := by
  obtain ⟨-, good, -, b, here, member, mine⟩ := threadSlot_spec orderly.sound located
  cases there.symm.trans here
  have inner := good.arenas id a there
  have before {other owner foreign} (owns : middle.Owns other owner foreign) :
      p.Owns other owner foreign ∨ other = id ∧ foreign = slot := by
    rcases threadSlot_cases orderly located with ⟨rfl, -⟩ | makes
    · exact .inl owns
    · obtain ⟨c, found, inside, owned⟩ := owns
      obtain ⟨d, known, -⟩ := makes.arena
      rw [makes.after] at found
      obtain ⟨rfl, rfl⟩ | ⟨-, untouched⟩ := arena?_modify_cases known found
      · rcases List.mem_append.1 inside with old | new
        · exact .inl ⟨d, known, old, owned⟩
        · exact .inr ⟨rfl, List.mem_singleton.1 new⟩
      · exact .inl ⟨c, untouched, inside, owned⟩
  refine ⟨?_, ⟨_, arena?_modify_self there, List.mem_map.2 ⟨slot, member, if_pos rfl⟩, mine⟩, ?_⟩
  · rcases threadSlot_cases orderly located with ⟨rfl, -⟩ | makes
    · exact .inl ⟨a, there, member, mine⟩
    · refine .inr ⟨makes, Option.eq_none_iff_forall_ne_some.2 fun old some => ?_⟩
      exact makes.none (owns_of_slotOf? some).stands rfl
  · rintro other owner foreign ⟨c, found, inside, owned⟩
    obtain ⟨rfl, rfl⟩ | ⟨different, untouched⟩ := arena?_modify_cases there found
    · obtain ⟨old, was, rfl⟩ := List.mem_map.1 inside
      by_cases same : old.address = slot.address
      · cases inner.eq_of_address was member same
        exact .inl ⟨rfl, if_pos rfl⟩
      · rw [if_neg same] at owned ⊢
        rcases before ⟨a, there, was, owned⟩ with owns | ⟨-, rfl⟩
        · exact .inr ⟨owns, fun guards => same (congrArg Guard.slot guards)⟩
        · exact absurd rfl same
    · rcases before ⟨c, untouched, inside, owned⟩ with owns | ⟨here, -⟩
      · exact .inr ⟨owns, fun guards => different (congrArg Guard.arena guards)⟩
      · exact absurd here different

end Pool

namespace State

variable {a : State} {sizes : Slot → List Nat} {bytes : Slot → List Extent}

/-- What every chain accounts for, the arena reports. -/
theorem stats_accounted (a : State)
    (accounted : ∀ slot ∈ a.slots, slot.chain.Accounted (sizes slot) (bytes slot)) :
    a.stats.bytesUsed = a.stats.wastedBytes + (a.slots.flatMap sizes).sum ∧
      a.stats.bytesUsed = ((a.slots.flatMap bytes).map (·.length)).sum := by
  have used := Stats.ofTallies_sum Stats.bytesUsed Tally.bytesUsed (fun _ _ => rfl)
    (a.slots.map (·.chain.tally))
  have wasted := Stats.ofTallies_sum Stats.wastedBytes Tally.wastedBytes (fun _ _ => rfl)
    (a.slots.map (·.chain.tally))
  change a.stats.bytesUsed = 0 + _ at used
  change a.stats.wastedBytes = 0 + _ at wasted
  rw [used, wasted]
  clear used wasted
  generalize a.slots = slots at accounted
  induction slots with
  | nil => exact ⟨rfl, rfl⟩
  | cons slot rest ih =>
    obtain ⟨here, later⟩ := List.forall_mem_cons.1 accounted
    obtain ⟨one, two⟩ := ih later
    have first := here.wasted
    have second := here.counted
    simp only [List.map_cons, List.sum_cons, List.flatMap_cons, List.sum_append, List.map_append]
      at one two ⊢
    omega

/-- What chains are charged for lies apart, as their blocks do. -/
theorem Sound.charges_apart (sound : a.Sound) (apart : a.regions.Pairwise Region.Apart)
    (accounted : ∀ slot ∈ a.slots, slot.chain.Accounted (sizes slot) (bytes slot)) :
    (a.slots.flatMap bytes).Pairwise Extent.Apart ∧
      ∀ e ∈ a.slots.flatMap bytes, ∃ region ∈ a.regions, e.Within region.extent := by
  have inside : ∀ slot ∈ a.slots, ∀ e ∈ bytes slot, ∃ region ∈ slot.chain.regions,
      e.Within region.extent := fun slot member e charged =>
    ((accounted slot member).within e charged).within (sound.chains slot member).cursors
  refine ⟨List.pairwise_flatMap.2 ⟨fun slot member => (accounted slot member).apart, ?_⟩, ?_⟩
  · refine (List.pairwise_flatMap.1 apart).2.imp_of_mem fun one two slots e first f second => ?_
    obtain ⟨region, mine, here⟩ := inside _ one e first
    obtain ⟨other, its, there⟩ := inside _ two f second
    exact Extent.Apart.mono (slots region mine other its) here there
  · intro e member
    obtain ⟨slot, there, charged⟩ := List.mem_flatMap.1 member
    obtain ⟨region, mine, here⟩ := inside slot there e charged
    exact ⟨region, List.mem_flatMap.2 ⟨slot, there, mine⟩, here⟩

end State

namespace World

variable {σ : Type}

/-- What is entered for a request: nothing unless it is served. -/
def charge (w : World σ) (id : Nat) (thread : ThreadId) (size : Nat) :
    Except AllocError Placement × World σ → List Charge
  | (.error _, _) => []
  | (.ok placement, next) =>
    (next.pool.slotOf? id thread).elim [] fun slot =>
      let before := (w.pool.chainOf? id thread).getD { preferred := 0 }
      [.served (next.slotNumber id slot.address) size (before.charges slot.chain placement.node)]

/-- What may become of the arenas apart from requests and resets. -/
inductive Changes {os : Platform σ} (contract : os.Contract) (w : World σ) : World σ → Prop
  | add (blockSize : PowerOfTwo) (hugePages numaAware : Bool) :
      Changes contract w { w with pool := w.pool.add blockSize hugePages numaAware }
  | compact {id : Nat} :
      w.pool.Live id → Changes contract w { w with pool := w.pool.compact id }
  | releaseThread {id : Nat} (thread : ThreadId) :
      w.pool.Live id →
      Changes contract w (w.moved (w.pool.releaseThread os w.machine id thread))
  | destroy {id : Nat} (thread : ThreadId) :
      w.pool.Live id → Changes contract w (w.moved (w.pool.destroy os w.machine id thread))
  | close {id : Nat} (thread : ThreadId) :
      w.pool.Live id → Changes contract w (w.moved (w.pool.close os w.machine id thread))
  | leave (thread : ThreadId) : Changes contract w { w with leaving := thread :: w.leaving }
  | expire {thread : ThreadId} (generation : Nat) :
      thread ∈ w.leaving → Changes contract w
        (w.moved (w.pool.dropGuardsWhere os w.machine thread (·.generation == generation)))
  | exit {thread : ThreadId} :
      thread ∈ w.leaving → Changes contract w
        { w.moved (w.pool.exitThread os w.machine thread) with exited := thread :: w.exited }
  | others {machine : Machine σ} :
      w.Leaves contract machine → Changes contract w { w with machine }

/-- What becomes of the arenas of a program, and what is entered meanwhile. What was entered last
stands first. -/
inductive Kept {os : Platform σ} (contract : os.Contract) : World σ → List Charge → Prop
  | start {machine : Machine σ} :
      contract.Possible machine.system → Kept contract { machine } []
  | allocate {w : World σ} {log : List Charge} {id : Nat} {thread : ThreadId} (size : Nat)
      (alignment : PowerOfTwo) (node : Option Nat) :
      Kept contract w log → w.pool.Live id → thread ∉ w.leaving →
      alignment.value ≤ Max.max os.pageSize.value wordAlignment.value →
      Kept contract (w.allocate os id thread size alignment node).2
        (w.charge id thread size (w.allocate os id thread size alignment node) ++ log)
  | reset {w : World σ} {log : List Charge} {id : Nat} :
      Kept contract w log → w.pool.Live id →
      Kept contract { w with pool := w.pool.reset id } (.reset id :: log)
  | change {w next : World σ} {log : List Charge} :
      Kept contract w log → w.Changes contract next → Kept contract next log

/-- Every slot accounts for what was entered under its number. -/
structure Booked (w : World σ) (log : List Charge) : Prop where
  slots : ∀ {id thread slot}, w.pool.Owns id thread slot → slot.chain.Ordered ∧
    slot.chain.Accounted (Charge.sizes id (w.slotNumber id slot.address) log)
      (Charge.bytes id (w.slotNumber id slot.address) log)
  known : ∀ {number size bytes}, .served number size bytes ∈ log → number < w.made

variable {os : Platform σ} {contract : os.Contract} {w next : World σ} {log : List Charge}
  {machine later : Machine σ} {pool : Pool} {id size : Nat} {alignment : PowerOfTwo}
  {node : Option Nat} {thread : ThreadId} {slot : Slot} {answer : Except AllocError Placement}

theorem Reached.changes (reached : w.Reached contract) (changes : w.Changes contract next) :
    next.Reached contract := by
  cases changes with
  | add blockSize hugePages numaAware => exact .add blockSize hugePages numaAware reached
  | compact live => exact .compact reached live
  | releaseThread thread live => exact .releaseThread thread reached live
  | destroy thread live => exact .destroy thread reached live
  | close thread live => exact .close thread reached live
  | leave thread => exact .leave thread reached
  | expire generation gone => exact .expire generation reached gone
  | exit gone => exact .exit reached gone
  | others leaves => exact .others reached leaves

theorem Kept.reached (kept : w.Kept contract log) : w.Reached contract := by
  induction kept with
  | start possible => exact .start possible
  | allocate size alignment node _ live staying _ ih =>
    exact .allocate size alignment node ih live staying
  | reset _ live ih => exact .reset ih live
  | change _ changes ih => exact ih.changes changes

/-- No slot is made by a change, and none is numbered anew. -/
theorem Changes.fewer (changes : w.Changes contract next) (sound : w.pool.Sound) :
    (∀ {id thread slot}, next.pool.Owns id thread slot → w.pool.Owns id thread slot) ∧
      next.slotNumber = w.slotNumber ∧ next.made = w.made := by
  cases changes with
  | add => exact ⟨Pool.owns_add, rfl, rfl⟩
  | @compact id =>
    have sheds : Pool.Sheds os (fun _ _ => False) w.pool w.machine _ _ :=
      Pool.compact_spec os _ sound id
    exact ⟨sheds.owns, rfl, rfl⟩
  | releaseThread => exact ⟨(Pool.releaseThread_spec sound rfl).owns, rfl, rfl⟩
  | destroy => exact ⟨(Pool.destroy_spec sound rfl).1.owns, rfl, rfl⟩
  | close => exact ⟨(Pool.close_spec sound rfl).1.owns, rfl, rfl⟩
  | expire generation =>
    have uniform : ∀ g k : Guard, g.generation = k.generation →
        (g.generation == generation) = (k.generation == generation) :=
      fun g k same => congrArg (· == generation) same
    exact ⟨(Pool.dropGuardsWhere_spec sound uniform rfl).1.owns, rfl, rfl⟩
  | exit => exact ⟨(Pool.exitThread_spec sound rfl).owns, rfl, rfl⟩
  | leave => exact ⟨fun owns => owns, rfl, rfl⟩
  | others => exact ⟨fun owns => owns, rfl, rfl⟩

/-- A request for which no slot is made moves the arenas and the machine. -/
theorem allocate_of_known
    (served : w.pool.allocate os w.machine id thread size alignment node = (answer, pool, later))
    (known : w.pool.slotOf? id thread = none → pool.slotOf? id thread = none) :
    w.allocate os id thread size alignment node = (answer, w.moved (pool, later)) := by
  unfold World.allocate
  rw [served]
  dsimp only
  split
  · next none some => cases (known none).symm.trans some
  · rfl

/-- A slot that is made for a request is numbered. -/
theorem allocate_of_made
    (served : w.pool.allocate os w.machine id thread size alignment node = (answer, pool, later))
    (none : w.pool.slotOf? id thread = none) (some : pool.slotOf? id thread = some slot) :
    w.allocate os id thread size alignment node =
      (answer, (w.moved (pool, later)).enroll thread (slot.guard id)) := by
  unfold World.allocate
  rw [served]
  dsimp only
  rw [none, some]

/-- The slot that answers a request is known by its number: the one that it had, or the next one if it
was made for the request. -/
structure Uses (w : World σ) (id : Nat) (thread : ThreadId) (slot : Slot) (chain : Chain)
    (next : World σ) : Prop where
  found : next.pool.slotOf? id thread = some { slot with chain }
  origin : w.pool.Owns id thread slot ∧
      next.slotNumber id slot.address = w.slotNumber id slot.address ∨
    w.pool.slotOf? id thread = none ∧ (∃ preferred, slot.chain = { preferred }) ∧
      next.slotNumber id slot.address = w.made
  made : w.made ≤ next.made ∧ next.slotNumber id slot.address < next.made
  others : ∀ {other owner foreign}, next.pool.Owns other owner foreign →
    other = id ∧ foreign = { slot with chain } ∨
      w.pool.Owns other owner foreign ∧
        next.slotNumber other foreign.address = w.slotNumber other foreign.address ∧
        w.slotNumber other foreign.address ≠ next.slotNumber id slot.address

theorem Tracked.uses {middle : Pool} {between : Machine σ} {a : State} {chain : Chain}
    {mapper : Mapper} (tracked : w.Tracked contract) (live : w.pool.Live id)
    (located : w.pool.threadSlot os w.machine id thread = some (slot, middle, between))
    (there : middle.arena? id = some a)
    (replaced : pool = middle.modify id fun a => { a.setChain slot.address chain with mapper })
    (served : w.pool.allocate os w.machine id thread size alignment node = (answer, pool, later)) :
    ∃ next : World σ, w.allocate os id thread size alignment node = (answer, next) ∧
      w.Uses id thread slot chain next ∧ next.machine = later := by
  have tidy := (tracked.orderly.allocate live served).1
  obtain ⟨origin, owns, others⟩ := tracked.orderly.replaced chain mapper located there
  rw [← replaced] at owns others
  have found := tidy.slotOf?_eq owns
  rcases origin with old | ⟨makes, none⟩
  · have known := tracked.orderly.slotOf?_eq old
    refine ⟨_, allocate_of_known served (fun none => nomatch known.symm.trans none),
      ⟨found, .inl ⟨old, rfl⟩, ⟨Nat.le_refl _, tracked.numbered old.stands⟩,
        fun {other owner foreign} has => (others has).imp_right fun ⟨before, apart⟩ =>
          ⟨before, rfl, fun same => apart (tracked.apart before.stands old.stands same)⟩⟩, rfl⟩
  · have number := slotNumber_self (w.moved (pool, later)) thread (slot.guard id)
    refine ⟨_, allocate_of_made served none found,
      ⟨found, .inr ⟨none, makes.empty, number⟩, ⟨Nat.le_succ _, ?_⟩,
        fun {other owner foreign} has => (others has).imp_right fun ⟨before, apart⟩ =>
          ⟨before, ?_, ?_⟩⟩, rfl⟩
    · exact number ▸ Nat.lt_succ_self w.made
    · exact slotNumber_of_ne (k := foreign.guard other) _ thread (makes.address_ne before.stands)
    · exact number ▸ Nat.ne_of_lt (tracked.numbered before.stands)

theorem Uses.charge {chain : Chain} {placement : Placement} (uses : w.Uses id thread slot chain next)
    (orderly : w.pool.Orderly) (size : Nat) :
    w.charge id thread size (.ok placement, next) =
      [.served (next.slotNumber id slot.address) size
        (slot.chain.charges chain placement.node)] := by
  have before : ((w.pool.chainOf? id thread).getD { preferred := 0 }).charges chain placement.node =
      slot.chain.charges chain placement.node := by
    rcases uses.origin with ⟨old, -⟩ | ⟨none, ⟨preferred, empty⟩, -⟩
    · rw [Pool.chainOf?, orderly.slotOf?_eq old, Option.map_some, Option.getD_some]
    · rw [Pool.chainOf?, none, Option.map_none, Option.getD_none, empty]
      rfl
  simp only [World.charge, uses.found, Option.elim_some, before]

namespace Booked

theorem change (booked : w.Booked log) (sound : w.pool.Sound) (changes : w.Changes contract next) :
    next.Booked log := by
  obtain ⟨fewer, numbers, made⟩ := changes.fewer sound
  exact ⟨fun owns => numbers ▸ booked.slots (fewer owns), fun member => made ▸ booked.known member⟩

theorem reset (booked : w.Booked log) (id : Nat) :
    { w with pool := w.pool.reset id }.Booked (.reset id :: log) where
  slots {other owner slot} owns := by
    rcases Pool.owns_reset owns with ⟨old, before, rfl, rfl⟩ | ⟨different, before⟩
    · have none : Charge.recent other (w.slotNumber other old.address) (.reset other :: log) = [] :=
        if_pos rfl
      rw [Charge.sizes, Charge.bytes, none]
      exact ⟨.reset old.chain, (Chain.Begins.reset old.chain).accounted⟩
    · have same : Charge.recent other (w.slotNumber other slot.address) (.reset id :: log) =
          Charge.recent other (w.slotNumber other slot.address) log :=
        if_neg fun here => different here.symm
      rw [Charge.sizes, Charge.bytes, same]
      exact booked.slots before
  known member := by
    rcases List.mem_cons.1 member with reset | old
    · cases reset
    · exact booked.known old

/-- One slot answers for what is entered, and all others account for what they did before. -/
theorem uses {chain : Chain} {new : List Charge} (booked : w.Booked log)
    (uses : w.Uses id thread slot chain next)
    (mine : chain.Ordered ∧
      chain.Accounted (Charge.sizes id (next.slotNumber id slot.address) (new ++ log))
        (Charge.bytes id (next.slotNumber id slot.address) (new ++ log)))
    (own : ∀ charge ∈ new, ∃ size bytes,
      charge = .served (next.slotNumber id slot.address) size bytes) :
    next.Booked (new ++ log) where
  slots {other owner foreign} owns := by
    rcases uses.others owns with ⟨rfl, rfl⟩ | ⟨before, same, different⟩
    · exact mine
    · have untouched : Charge.recent other (w.slotNumber other foreign.address) (new ++ log) =
          Charge.recent other (w.slotNumber other foreign.address) log := by
        refine Charge.recent_append fun charge member => ?_
        obtain ⟨size, bytes, rfl⟩ := own charge member
        exact ⟨_, size, bytes, rfl, different.symm⟩
      rw [same, Charge.sizes, Charge.bytes, untouched]
      exact booked.slots before
  known member := by
    rcases List.mem_append.1 member with new | old
    · obtain ⟨_, _, same⟩ := own _ new
      cases same
      exact uses.made.2
    · exact Nat.lt_of_lt_of_le (booked.known old) uses.made.1

/-- The slot that answers a request accounted for what it did before. -/
theorem before {chain : Chain} (booked : w.Booked log) (uses : w.Uses id thread slot chain next) :
    slot.chain.Ordered ∧
      slot.chain.Accounted (Charge.sizes id (next.slotNumber id slot.address) log)
        (Charge.bytes id (next.slotNumber id slot.address) log) := by
  rcases uses.origin with ⟨old, same⟩ | ⟨-, ⟨preferred, empty⟩, new⟩
  · exact same ▸ booked.slots old
  · have none : Charge.recent id w.made log = [] :=
      Charge.recent_of_unknown fun member => Nat.lt_irrefl _ (booked.known member)
    rw [new, Charge.sizes, Charge.bytes, none, empty]
    exact ⟨(Chain.Begins.created preferred).ordered, (Chain.Begins.created preferred).accounted⟩

theorem allocate (booked : w.Booked log) (tracked : w.Tracked contract) (live : w.pool.Live id)
    (modest : alignment.value ≤ Max.max os.pageSize.value wordAlignment.value) :
    (w.allocate os id thread size alignment node).2.Booked
      (w.charge id thread size (w.allocate os id thread size alignment node) ++ log) := by
  cases served : w.pool.allocate os w.machine id thread size alignment node with
  | mk answer result =>
    obtain ⟨pool, later⟩ := result
    cases Pool.allocate_outcome served with
    | invalid =>
      rw [allocate_of_known served fun none => none]
      exact booked
    | lost located none =>
      obtain ⟨-, -, -, a, there, -⟩ := Pool.threadSlot_spec tracked.orderly.sound located
      cases none.symm.trans there
    | @chained rounded _ slot middle between a answer chain supply enough located there answered =>
      obtain ⟨next, moved, uses, -⟩ := tracked.uses live located there rfl served
      have ⟨ordered, accounted⟩ := booked.before uses
      obtain ⟨rfl, sound, -, b, here, member, -⟩ :=
        Pool.threadSlot_spec tracked.orderly.sound located
      cases there.symm.trans here
      have custody : os.Custody contract w.machine.system slot.chain.regions := by
        rcases uses.origin with ⟨⟨c, found, inside, -⟩, -⟩ | ⟨-, ⟨preferred, empty⟩, -⟩
        · exact tracked.custody.sublist (Pool.regions_sublist found inside)
        · exact empty ▸ .nil tracked.custody.possible
      have good : slot.chain.Good contract ⟨a.mapper, w.machine⟩ :=
        ⟨(sound.arenas id a there).chains slot member, ordered, custody⟩
      rw [moved]
      cases answer with
      -- Nothing is entered for a denial, and the chain is as it was. This needs the bound on the
      -- alignment: else a new block may be too short, and leave the rest of the previous one used.
      | error cause =>
        obtain ⟨rfl, -⟩ := Chain.extend_of_denied good.custody.possible modest
          (Size.eight_le_arenaRounded enough) answered
        exact booked.uses uses ⟨ordered, accounted⟩ nofun
      | ok placement =>
        have proper := (Size.le_arenaRounded enough).1
        rw [uses.charge tracked.orderly]
        refine booked.uses uses ⟨(good.allocate answered).ordered, ?_⟩ ?_
        · rw [Charge.sizes, Charge.bytes, List.singleton_append, Charge.recent_served]
          exact accounted.allocate good proper answered
        · exact List.forall_mem_singleton.2 ⟨_, _, rfl⟩

end Booked

/-- Whatever becomes of the arenas, every slot accounts for what it has served. -/
theorem Kept.booked (kept : w.Kept contract log) : w.Booked log := by
  induction kept with
  | start =>
    refine ⟨?_, nofun⟩
    rintro _ _ _ ⟨_, there, -⟩
    cases there
  | allocate size alignment node kept live _ modest ih =>
    exact ih.allocate kept.reached.tracked live modest
  | @reset w log id _ _ ih => exact ih.reset id
  | change kept changes ih => exact ih.change kept.reached.tracked.orderly.sound changes

/-- An arena that is in use since some time, with whatever else there was in the program, has used what
its slots were charged for since it was reset last. It wasted all of that but the sizes that were
requested. No byte was charged twice, so the charges are no more than the blocks. -/
theorem Kept.audited {a : State} (kept : w.Kept contract log) (found : w.pool.arena? id = some a) :
    let stats := w.pool.stats id
    let requested := a.slots.flatMap fun slot =>
      Charge.sizes id (w.slotNumber id slot.address) log
    let charged := a.slots.flatMap fun slot =>
      Charge.bytes id (w.slotNumber id slot.address) log
    stats.bytesUsed - stats.wastedBytes = requested.sum ∧ stats.wastedBytes ≤ stats.bytesUsed ∧
      (0.0 ≤ stats.fragmentation.value ∧ stats.fragmentation.value ≤ 1.0) ∧
      stats.bytesUsed ≤ stats.bytesReserved ∧
      stats.bytesUsed = (charged.map (·.length)).sum ∧ charged.Pairwise Extent.Apart ∧
      ∀ e ∈ charged, ∃ region ∈ a.regions, e.Within region.extent := by
  intro stats requested charged
  have tracked := kept.reached.tracked
  have sound := tracked.orderly.sound.arenas id a found
  have accounted : ∀ slot ∈ a.slots, slot.chain.Accounted
      (Charge.sizes id (w.slotNumber id slot.address) log)
      (Charge.bytes id (w.slotNumber id slot.address) log) :=
    fun slot member => (kept.booked.slots ⟨a, found, member, rfl⟩).2
  have custody : os.Custody contract w.machine.system a.regions :=
    tracked.custody.sublist (List.sublist_flatten_of_mem
      (List.mem_map_of_mem (List.mem_of_getElem? found)))
  have same : stats = a.stats := by
    simp only [stats, Pool.stats, found, Option.elim_some]
  obtain ⟨wasted, counted⟩ := a.stats_accounted accounted
  obtain ⟨apart, within⟩ := sound.charges_apart custody.apart accounted
  have reserved : a.stats.bytesUsed ≤ a.stats.bytesReserved := by
    have bytes : a.stats.bytesReserved = Region.total a.regions := sound.bytes
    rw [counted, bytes]
    exact Extent.total_le apart within
  have word : a.stats.bytesUsed < 2 ^ 64 :=
    Nat.lt_of_le_of_lt reserved (Nat.lt_of_le_of_lt (Nat.le_of_eq sound.bytes) custody.total_lt)
  have part : a.stats.wastedBytes ≤ a.stats.bytesUsed := wasted ▸ Nat.le_add_right _ _
  rw [same]
  exact ⟨by rw [wasted, Nat.add_sub_cancel_left], part, Ratio.value_bounds part word, reserved, counted,
    apart, within⟩

/-- After a reset one thread leaves the rest of a block behind, and another one is served for the first
time. -/
theorem Kept.audited_two_threads :
    let settings : Simulated.Settings := { topology := Topology.singleNode.describe ⟨1, "1", none⟩ }
    let contract := Simulated.contract settings (by decide) (by decide)
    ∃ w log a, Kept contract w log ∧ w.pool.arena? 0 = some a ∧
      (a.slots.flatMap fun slot => Charge.sizes 0 (w.slotNumber 0 slot.address) log) =
        [4000, 100, 5000] ∧
      (a.slots.flatMap fun slot => Charge.bytes 0 (w.slotNumber 0 slot.address) log) =
        [⟨94208, 4096⟩, ⟨82048, 3968⟩, ⟨81920, 128⟩, ⟨86016, 6144⟩] ∧
      (w.pool.stats 0).bytesUsed = 14336 ∧ (w.pool.stats 0).wastedBytes = 5236 ∧
      (w.pool.stats 0).bytesUsed - (w.pool.stats 0).wastedBytes = 9100 := by
  let settings : Simulated.Settings := { topology := Topology.singleNode.describe ⟨1, "1", none⟩ }
  let os := Simulated.platform settings
  let contract := Simulated.contract settings (by decide) (by decide)
  let new : World Simulated.State := { machine := Simulated.machine {} }
  let bare := { new with pool := new.pool.add ⟨12, by decide⟩ false false }
  let early := bare.allocate os 0 0 9000 wordAlignment (some 1)
  let fresh := { early.2 with pool := early.2.pool.reset 0 }
  let first := fresh.allocate os 0 0 100 wordAlignment none
  let second := first.2.allocate os 0 1 5000 wordAlignment none
  let third := second.2.allocate os 0 0 4000 wordAlignment none
  let log := second.2.charge 0 0 4000 third ++ (first.2.charge 0 1 5000 second ++
    (fresh.charge 0 0 100 first ++ .reset 0 :: (bare.charge 0 0 9000 early ++ [])))
  have live (w : World Simulated.State) (active : (w.pool.arena? 0).any (·.active) = true) :
      w.pool.Live 0 := (Option.any_eq_true _ _).1 active
  have begun : Kept contract bare [] :=
    .change (.start (Simulated.machine_sound {})) (.add ⟨12, by decide⟩ false false)
  have served : Kept contract early.2 _ :=
    .allocate 9000 wordAlignment (some 1) begun (live bare rfl) List.not_mem_nil (by decide)
  have rewound : Kept contract fresh _ := .reset served (live early.2 (by decide +kernel))
  have one : Kept contract first.2 _ :=
    .allocate 100 wordAlignment none rewound (live fresh (by decide +kernel)) (by decide +kernel)
      (by decide)
  have two : Kept contract second.2 _ :=
    .allocate 5000 wordAlignment none one (live first.2 (by decide +kernel)) (by decide +kernel)
      (by decide)
  have kept : Kept contract third.2 log :=
    .allocate 4000 wordAlignment none two (live second.2 (by decide +kernel)) (by decide +kernel)
      (by decide)
  obtain ⟨a, found, -⟩ := live third.2 (by decide +kernel)
  have reads {β : Type} (read : State → β) {known : β}
      (same : (third.2.pool.arena? 0).map read = some known) : read a = known := by
    rw [found] at same
    exact Option.some.inj same
  have sizes := reads (fun a => a.slots.flatMap fun slot =>
    Charge.sizes 0 (third.2.slotNumber 0 slot.address) log)
    (by decide +kernel : _ = some [4000, 100, 5000])
  have bytes := reads (fun a => a.slots.flatMap fun slot =>
    Charge.bytes 0 (third.2.slotNumber 0 slot.address) log)
    (by decide +kernel :
      _ = some [⟨94208, 4096⟩, ⟨82048, 3968⟩, ⟨81920, 128⟩, ⟨86016, 6144⟩])
  refine ⟨third.2, log, a, kept, found, sizes, bytes, by decide +kernel, by decide +kernel, ?_⟩
  rw [(kept.audited found).1, sizes]
  rfl

end World

end NumaHeap.Arena
