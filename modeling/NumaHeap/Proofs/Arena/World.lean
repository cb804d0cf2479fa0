import NumaHeap.Proofs.Arena.Standing
import NumaHeap.Proofs.Platform.Trades

/-!
Arenas in use by any number of threads. Every slot is numbered when it is made, and the guard that
is made with it gets the same number, so that a slot can be told from a later one at the same
address. A thread that exits first leaves: from then on it allocates nothing, and its guards are
dropped one by one while other threads go on.
-/

namespace NumaHeap.Arena

namespace Pool

variable {σ : Type} {os : Platform σ} {p after : Pool} {machine later : Machine σ} {id : Nat}
  {thread : ThreadId} {slot : Slot} {a : State} {g : Guard}

/-- The slot of a thread in an arena. -/
def slotOf? (p : Pool) (id : Nat) (thread : ThreadId) : Option Slot :=
  (p.arena? id).bind (·.slotOf? thread)

/-- The arena is there, and was not closed. -/
def Live (p : Pool) (id : Nat) : Prop := ∃ a, p.arena? id = some a ∧ a.active = true

theorem owns_of_slotOf? (found : p.slotOf? id thread = some slot) :
    p.Owns id thread slot := by
  obtain ⟨a, there, some⟩ := Option.bind_eq_some_iff.1 found
  unfold State.slotOf? at some
  exact ⟨a, there, List.mem_of_find?_eq_some some, by simpa using List.find?_some some⟩

theorem slotOf?_isSome (stands : p.Stands thread g) :
    ∃ slot, p.slotOf? g.arena thread = some slot := by
  obtain ⟨slot, ⟨a, found, member, owner⟩, -⟩ := stands
  refine Option.ne_none_iff_exists'.1 fun none => ?_
  rw [slotOf?, found, Option.bind_some] at none
  exact slotOf?_eq_none none member owner

/-- A request finds the slot of the thread or has it made; but for that, it changes only a chain. -/
theorem Orderly.allocate {size : Nat} {alignment : PowerOfTwo} {node : Option Nat}
    {answer : Except AllocError Placement} (orderly : p.Orderly) (live : p.Live id)
    (served : p.allocate os machine id thread size alignment node = (answer, after, later)) :
    after.Orderly ∧ ∃ middle : Pool, (middle = p ∨ ∃ slot, p.Makes id thread slot middle) ∧
      after.guards = middle.guards ∧ ∀ {t g}, after.Stands t g ↔ middle.Stands t g := by
  obtain ⟨new, rounded, serves, -⟩ := allocate_spec orderly.sound served
  cases allocate_outcome served with
  | invalid => exact ⟨orderly, p, .inl rfl, rfl, Iff.rfl⟩
  | lost found none =>
    obtain ⟨-, -, -, a, there, -⟩ := threadSlot_spec orderly.sound found
    cases none.symm.trans there
  | @chained _ _ slot middle between a answer chain supply enough found there answered =>
    have made := threadSlot_cases orderly found
    have tidy : middle.Orderly := by
      rcases made with ⟨rfl, -⟩ | makes
      · exact orderly
      · refine orderly.makes (threadSlot_spec orderly.sound found).2.1 (fun here => ?_) makes
        obtain ⟨b, same, on⟩ := live
        cases same.symm.trans here
        exact on
    have slots (b : State) :
        ({ b.setChain slot.address chain with mapper := supply.mapper }).slots = b.slots.map
          fun old => if old.address = slot.address then { old with chain } else old := rfl
    have keeps (old : Slot) :
        (if old.address = slot.address then { old with chain } else old).owner = old.owner ∧
          (if old.address = slot.address then { old with chain } else old).guard = old.guard := by
      split <;> exact ⟨rfl, rfl⟩
    refine ⟨tidy.modify serves.sound slots keeps fun b here off => tidy.closed here off, middle,
      made.imp And.left fun makes => ⟨slot, makes⟩, rfl, ?_⟩
    exact stands_modify slots keeps

end Pool

/-- The arenas, the machine below them, and which slots were made so far. -/
structure World (σ : Type) where
  pool : Pool := {}
  machine : Machine σ
  /-- How many slots were made. -/
  made : Nat := 0
  /-- The number of the slot made last at an address of an arena. -/
  slotNumber : Nat → Nat → Nat := fun _ _ => 0
  /-- The number of the slot for which a guard of a thread was made. -/
  guardNumber : ThreadId → Guard → Nat := fun _ _ => 0
  /-- Threads that allocate no more. -/
  leaving : List ThreadId := []
  exited : List ThreadId := []

namespace World

variable {σ : Type}

/-- The arenas and the machine have changed, but no slot was made. -/
def moved (w : World σ) (result : Pool × Machine σ) : World σ :=
  { w with pool := result.1, machine := result.2 }

/-- Numbers the slot that was made for a thread, and its guard. -/
def enroll (w : World σ) (thread : ThreadId) (g : Guard) : World σ :=
  { w with
    made := w.made + 1
    slotNumber := fun id address =>
      if id = g.arena ∧ address = g.slot then w.made else w.slotNumber id address
    guardNumber := fun t k => if t = thread ∧ k = g then w.made else w.guardNumber t k }

/-- Asks an arena for memory. -/
def allocate (os : Platform σ) (w : World σ) (id : Nat) (thread : ThreadId) (size : Nat)
    (alignment : PowerOfTwo) (node : Option Nat) : Except AllocError Placement × World σ :=
  let (answer, result) := w.pool.allocate os w.machine id thread size alignment node
  match w.pool.slotOf? id thread, result.1.slotOf? id thread with
  | none, some slot => (answer, (w.moved result).enroll thread (slot.guard id))
  | _, _ => (answer, w.moved result)

/-- What others may make of the machine: all regions stay mapped. -/
structure Leaves {os : Platform σ} (contract : os.Contract) (w : World σ) (machine : Machine σ) :
    Prop where
  possible : contract.Possible machine.system
  mapped : ∀ region ∈ w.pool.regions, contract.Mapped machine.system region.extent

/-- What becomes of the arenas of a program: at first there is none, and arenas that were closed are
not used any more. -/
inductive Reached {os : Platform σ} (contract : os.Contract) : World σ → Prop
  | start {machine : Machine σ} :
      contract.Possible machine.system → Reached contract { machine }
  | add {w : World σ} (blockSize : PowerOfTwo) (hugePages numaAware : Bool) :
      Reached contract w →
      Reached contract { w with pool := w.pool.add blockSize hugePages numaAware }
  | allocate {w : World σ} {id : Nat} {thread : ThreadId} (size : Nat) (alignment : PowerOfTwo)
      (node : Option Nat) :
      Reached contract w → w.pool.Live id → thread ∉ w.leaving →
      Reached contract (w.allocate os id thread size alignment node).2
  | reset {w : World σ} {id : Nat} :
      Reached contract w → w.pool.Live id → Reached contract { w with pool := w.pool.reset id }
  | compact {w : World σ} {id : Nat} :
      Reached contract w → w.pool.Live id → Reached contract { w with pool := w.pool.compact id }
  | releaseThread {w : World σ} {id : Nat} (thread : ThreadId) :
      Reached contract w → w.pool.Live id →
      Reached contract (w.moved (w.pool.releaseThread os w.machine id thread))
  | destroy {w : World σ} {id : Nat} (thread : ThreadId) :
      Reached contract w → w.pool.Live id →
      Reached contract (w.moved (w.pool.destroy os w.machine id thread))
  | close {w : World σ} {id : Nat} (thread : ThreadId) :
      Reached contract w → w.pool.Live id →
      Reached contract (w.moved (w.pool.close os w.machine id thread))
  | leave {w : World σ} (thread : ThreadId) :
      Reached contract w → Reached contract { w with leaving := thread :: w.leaving }
  | expire {w : World σ} {thread : ThreadId} (generation : Nat) :
      Reached contract w → thread ∈ w.leaving →
      Reached contract
        (w.moved (w.pool.dropGuardsWhere os w.machine thread (·.generation == generation)))
  | exit {w : World σ} {thread : ThreadId} :
      Reached contract w → thread ∈ w.leaving →
      Reached contract
        { w.moved (w.pool.exitThread os w.machine thread) with exited := thread :: w.exited }
  | others {w : World σ} {machine : Machine σ} :
      Reached contract w → w.Leaves contract machine → Reached contract { w with machine }

/-- Slots and guards are numbered as they were made. -/
structure Tracked {os : Platform σ} (contract : os.Contract) (w : World σ) : Prop where
  orderly : w.pool.Orderly
  custody : os.Custody contract w.machine.system w.pool.regions
  numbered : ∀ {thread g}, w.pool.Stands thread g → w.slotNumber g.arena g.slot < w.made
  apart : ∀ {thread other g k}, w.pool.Stands thread g → w.pool.Stands other k →
    w.slotNumber g.arena g.slot = w.slotNumber k.arena k.slot → g = k
  known : ∀ {thread g}, g ∈ w.pool.guards thread → w.guardNumber thread g < w.made
  named : ∀ {thread other g k}, g ∈ w.pool.guards thread → w.pool.Stands other k →
    (w.guardNumber thread g = w.slotNumber k.arena k.slot ↔ g = k)
  leaving : ∀ {thread}, thread ∈ w.exited → thread ∈ w.leaving
  exited : ∀ {thread}, thread ∈ w.exited → w.pool.guards thread = []

variable {os : Platform σ} {contract : os.Contract} {w : World σ} {machine : Machine σ}
  {pool : Pool} {id : Nat} {thread : ThreadId} {slot : Slot}

theorem slotNumber_of_ne (w : World σ) (thread : ThreadId) {g k : Guard}
    (different : k.slot ≠ g.slot) :
    (w.enroll thread g).slotNumber k.arena k.slot = w.slotNumber k.arena k.slot :=
  if_neg fun same => different same.2

theorem slotNumber_self (w : World σ) (thread : ThreadId) (g : Guard) :
    (w.enroll thread g).slotNumber g.arena g.slot = w.made :=
  if_pos ⟨rfl, rfl⟩

theorem guardNumber_of_ne (w : World σ) (other thread : ThreadId) {g k : Guard}
    (different : k ≠ g) :
    (w.enroll thread g).guardNumber other k = w.guardNumber other k :=
  if_neg fun same => different same.2

theorem guardNumber_self (w : World σ) (thread : ThreadId) (g : Guard) :
    (w.enroll thread g).guardNumber thread g = w.made :=
  if_pos ⟨rfl, rfl⟩

namespace Tracked

theorem start (possible : contract.Possible machine.system) :
    Tracked contract { machine } where
  orderly :=
    { sound := Pool.empty_sound
      guarded := by rintro _ _ ⟨_, ⟨_, there, -⟩, -⟩; cases there
      alone := by rintro _ _ _ ⟨_, ⟨_, there, -⟩, -⟩; cases there
      closed := nofun }
  custody := .nil possible
  numbered := by rintro _ _ ⟨_, ⟨_, there, -⟩, -⟩; cases there
  apart := by rintro _ _ _ _ ⟨_, ⟨_, there, -⟩, -⟩; cases there
  known := nofun
  named := nofun
  leaving := nofun
  exited := nofun

/-- Where no slot is made, the numbers stay good. -/
theorem fewer (tracked : Tracked contract w) (orderly : pool.Orderly)
    (custody : os.Custody contract machine.system pool.regions)
    (stands : ∀ {thread g}, pool.Stands thread g → w.pool.Stands thread g)
    (guards : ∀ {thread g}, g ∈ pool.guards thread → g ∈ w.pool.guards thread) :
    Tracked contract { w with pool, machine } where
  orderly := orderly
  custody := custody
  numbered standing := tracked.numbered (stands standing)
  apart first second := tracked.apart (stands first) (stands second)
  known member := tracked.known (guards member)
  named member standing := tracked.named (guards member) (stands standing)
  leaving := tracked.leaving
  exited gone := List.eq_nil_iff_forall_not_mem.2 fun g member => by
    have none := tracked.exited gone ▸ guards member
    cases none

/-- Slots that are given back take their guards with them. -/
theorem sheds {later : Machine σ} {lost : Nat → ThreadId → Prop} {gone : Guard → Bool}
    (tracked : Tracked contract w) (orderly : pool.Orderly)
    (sheds : Pool.Sheds os lost w.pool w.machine pool later) (clears : Pool.Clears gone w.pool pool)
    (guards : ∀ {thread g}, g ∈ pool.guards thread → g ∈ w.pool.guards thread) :
    Tracked contract (w.moved (pool, later)) := by
  obtain ⟨removed, same, rfl⟩ := sheds.returned
  have trades : os.Trades w.machine.system w.pool.regions _ pool.regions := .of_shed same
  exact tracked.fewer orderly (trades.custody tracked.custody)
    (fun standing => (clears.stands.1 standing).1) guards

/-- A slot that was made has a number that no other has, and only its guard has the same. -/
theorem enroll {middle : Pool} (tracked : Tracked contract w) (orderly : pool.Orderly)
    (custody : os.Custody contract machine.system pool.regions)
    (makes : w.pool.Makes id thread slot middle) (guards : pool.guards = middle.guards)
    (stands : ∀ {t g}, pool.Stands t g ↔ middle.Stands t g) (staying : thread ∉ w.leaving) :
    Tracked contract ((w.moved (pool, machine)).enroll thread (slot.guard id)) := by
  have standing {t g} (there : pool.Stands t g) := makes.stands.1 (stands.1 there)
  have guarded {t g} (member : g ∈ pool.guards t) := makes.mem_guards (guards ▸ member)
  have placed {t g} (there : w.pool.Stands t g) :
      ((w.moved (pool, machine)).enroll thread (slot.guard id)).slotNumber g.arena g.slot =
        w.slotNumber g.arena g.slot :=
    slotNumber_of_ne _ thread (makes.address_ne there)
  have kept {t g} (member : g ∈ w.pool.guards t) :
      ((w.moved (pool, machine)).enroll thread (slot.guard id)).guardNumber t g =
        w.guardNumber t g :=
    guardNumber_of_ne _ t thread fun same =>
      makes.not_mem_guards tracked.orderly.sound (same ▸ member)
  have new := slotNumber_self (w.moved (pool, machine)) thread (slot.guard id)
  have mine := guardNumber_self (w.moved (pool, machine)) thread (slot.guard id)
  refine
    { orderly
      custody
      numbered := fun {t g} there => ?_
      apart := fun {t u g k} first second equal => ?_
      known := fun {t g} member => ?_
      named := fun {t u g k} member there => ?_
      leaving := tracked.leaving
      exited := fun {t} gone => ?_ }
  · rcases standing there with old | ⟨-, rfl⟩
    · rw [placed old]
      exact Nat.lt_succ_of_lt (tracked.numbered old)
    · exact new ▸ Nat.lt_succ_self w.made
  · rcases standing first with one | ⟨-, rfl⟩ <;> rcases standing second with two | ⟨-, rfl⟩
    · rw [placed one, placed two] at equal
      exact tracked.apart one two equal
    · rw [placed one, new] at equal
      exact absurd equal (Nat.ne_of_lt (tracked.numbered one))
    · rw [new, placed two] at equal
      exact absurd equal.symm (Nat.ne_of_lt (tracked.numbered two))
    · rfl
  · rcases guarded member with old | ⟨rfl, rfl⟩
    · rw [kept old]
      exact Nat.lt_succ_of_lt (tracked.known old)
    · exact mine ▸ Nat.lt_succ_self w.made
  · rcases guarded member with one | ⟨rfl, rfl⟩ <;> rcases standing there with two | ⟨rfl, rfl⟩
    · rw [kept one, placed two]
      exact tracked.named one two
    · rw [kept one, new]
      refine iff_of_false (Nat.ne_of_lt (tracked.known one)) fun same => ?_
      exact makes.not_mem_guards tracked.orderly.sound (same ▸ one)
    · rw [mine, placed two]
      refine iff_of_false (Nat.ne_of_gt (tracked.numbered two)) fun same => ?_
      exact makes.address_ne two (congrArg Guard.slot same).symm
    · exact iff_of_true (mine.trans new.symm) rfl
  · refine List.eq_nil_iff_forall_not_mem.2 fun g member => ?_
    rcases guarded member with old | ⟨rfl, -⟩
    · rw [tracked.exited gone] at old
      cases old
    · exact staying (tracked.leaving gone)

theorem allocate (tracked : Tracked contract w) (live : w.pool.Live id)
    (staying : thread ∉ w.leaving) (size : Nat) (alignment : PowerOfTwo) (node : Option Nat) :
    Tracked contract (w.allocate os id thread size alignment node).2 := by
  cases served : w.pool.allocate os w.machine id thread size alignment node with
  | mk answer result =>
    obtain ⟨pool, machine⟩ := result
    obtain ⟨orderly, middle, made, guards, stands⟩ := tracked.orderly.allocate live served
    obtain ⟨new, rounded, serves, -⟩ := Pool.allocate_spec tracked.orderly.sound served
    have trades := Platform.Trades.of_gains serves.grows.gains serves.regions
    have custody := trades.custody tracked.custody
    have owned (slot : Slot) (found : w.pool.slotOf? id thread = some slot) :
        w.pool.Stands thread (slot.guard id) := (Pool.owns_of_slotOf? found).stands
    unfold World.allocate
    rw [served]
    dsimp only
    rcases made with rfl | ⟨slot, makes⟩
    · have same : Tracked contract (w.moved (pool, machine)) :=
        tracked.fewer orderly custody stands.1 fun member => guards ▸ member
      split
      · next none some =>
        obtain ⟨before, found⟩ := Pool.slotOf?_isSome (stands.1 (Pool.owns_of_slotOf? some).stands)
        cases none.symm.trans found
      · exact same
    · have there : pool.Stands thread (slot.guard id) :=
        stands.2 (makes.stands.2 (.inr ⟨rfl, rfl⟩))
      split
      · next other none some =>
        have here := (Pool.owns_of_slotOf? some).stands
        rw [orderly.alone here there rfl]
        exact tracked.enroll orderly custody makes guards stands staying
      · next unmade =>
        obtain ⟨now, found⟩ := Pool.slotOf?_isSome there
        refine absurd found (unmade now ?_)
        refine Option.eq_none_iff_forall_ne_some.2 fun before some => ?_
        exact makes.none (Pool.owns_of_slotOf? some).stands rfl

/-- To drop guards by their generations is a step that any thread may take. -/
theorem dropGuardsWhere {test : Guard → Bool} (tracked : Tracked contract w) (thread : ThreadId)
    (uniform : ∀ g k : Guard, g.generation = k.generation → test g = test k) :
    Tracked contract (w.moved (w.pool.dropGuardsWhere os w.machine thread test)) := by
  cases dropped : w.pool.dropGuardsWhere os w.machine thread test with
  | mk pool later =>
    have orderly := tracked.orderly.dropGuardsWhere uniform dropped
    obtain ⟨sheds, -⟩ := Pool.dropGuardsWhere_spec tracked.orderly.sound uniform dropped
    obtain ⟨clears, guards⟩ := Pool.dropGuardsWhere_clears tracked.orderly.uniform dropped
    exact tracked.sheds orderly sheds clears fun member => Pool.mem_of_filtered guards member

theorem releaseThread (tracked : Tracked contract w) (live : w.pool.Live id) (thread : ThreadId) :
    Tracked contract (w.moved (w.pool.releaseThread os w.machine id thread)) := by
  obtain ⟨a, found, -⟩ := live
  rw [tracked.orderly.releaseThread_eq found]
  exact tracked.dropGuardsWhere thread fun g k same => congrArg (· == a.generation) same

theorem destroy (tracked : Tracked contract w) (live : w.pool.Live id) (thread : ThreadId) :
    Tracked contract (w.moved (w.pool.destroy os w.machine id thread)) := by
  obtain ⟨a, found, -⟩ := live
  cases destroyed : w.pool.destroy os w.machine id thread with
  | mk pool later =>
    have orderly := tracked.orderly.destroy found destroyed
    obtain ⟨sheds, -⟩ := Pool.destroy_spec tracked.orderly.sound destroyed
    obtain ⟨clears, guards⟩ := tracked.orderly.destroy_clears found destroyed
    exact tracked.sheds orderly sheds clears fun member => Pool.mem_of_filtered guards member

/-- An arena changes in ways that concern neither its regions nor what its slots are known by. -/
theorem modify {f : State → State} {h : Slot → Slot} {a : State} (tracked : Tracked contract w)
    (orderly : (w.pool.modify id f).Orderly) (found : w.pool.arena? id = some a)
    (regions : (f a).regions = a.regions) (slots : ∀ a, (f a).slots = a.slots.map h)
    (keeps : ∀ slot, (h slot).owner = slot.owner ∧ (h slot).guard = slot.guard) :
    Tracked contract { w with pool := w.pool.modify id f } := by
  have same := Pool.regions_modify_of_eq found regions
  exact tracked.fewer orderly (tracked.custody.perm same.symm) (Pool.stands_modify slots keeps).1
    fun member => member

theorem compact (tracked : Tracked contract w) (live : w.pool.Live id) :
    Tracked contract { w with pool := w.pool.compact id } := by
  obtain ⟨a, found, -⟩ := live
  exact tracked.modify (tracked.orderly.compact os w.machine id) found rfl
    (fun a => (List.map_id' a.slots).symm) fun _ => ⟨rfl, rfl⟩

theorem reset (tracked : Tracked contract w) (id : Nat) :
    Tracked contract { w with pool := w.pool.reset id } := by
  have same := (Pool.reset_spec tracked.orderly.sound id).2
  exact tracked.fewer (tracked.orderly.reset id) (tracked.custody.perm same.symm)
    (Pool.stands_modify (h := fun slot => { slot with chain := slot.chain.reset }) (fun _ => rfl)
      fun _ => ⟨rfl, rfl⟩).1 fun member => member

theorem close (tracked : Tracked contract w) (live : w.pool.Live id) (thread : ThreadId) :
    Tracked contract (w.moved (w.pool.close os w.machine id thread)) := by
  have emptied := tracked.destroy live thread
  obtain ⟨a, found, -⟩ := live
  cases destroyed : w.pool.destroy os w.machine id thread with
  | mk pool later =>
    have shut := tracked.orderly.close found (Pool.close_eq destroyed)
    obtain ⟨sheds, -⟩ := Pool.destroy_spec tracked.orderly.sound destroyed
    obtain ⟨b, there⟩ := Pool.arena?_isSome sheds.count found
    rw [destroyed] at emptied
    rw [Pool.close_eq destroyed]
    exact emptied.modify shut there rfl (fun a => (List.map_id' a.slots).symm) fun _ => ⟨rfl, rfl⟩

theorem exit (tracked : Tracked contract w) (gone : thread ∈ w.leaving) :
    Tracked contract
      { w.moved (w.pool.exitThread os w.machine thread) with exited := thread :: w.exited } := by
  have dropped : Tracked contract (w.moved (w.pool.exitThread os w.machine thread)) :=
    tracked.dropGuardsWhere thread fun _ _ _ => rfl
  refine { dropped with leaving := fun {t} member => ?_, exited := fun {t} member => ?_ }
  · rcases List.mem_cons.1 member with rfl | old
    · exact gone
    · exact tracked.leaving old
  · rcases List.mem_cons.1 member with rfl | old
    · exact (tracked.orderly.exitThread rfl).2
    · exact dropped.exited old

end Tracked

theorem Reached.tracked (reached : w.Reached contract) : w.Tracked contract := by
  induction reached with
  | start possible => exact .start possible
  | @add w blockSize hugePages numaAware _ ih =>
    have same := (Pool.add_spec ih.orderly.sound blockSize hugePages numaAware).2
    exact ih.fewer (ih.orderly.add ..) (same ▸ ih.custody) Pool.stands_add fun member => member
  | allocate size alignment node _ live staying ih =>
    exact ih.allocate live staying size alignment node
  | @reset w id _ _ ih => exact ih.reset id
  | compact _ live ih => exact ih.compact live
  | releaseThread thread _ live ih => exact ih.releaseThread live thread
  | destroy thread _ live ih => exact ih.destroy live thread
  | close thread _ live ih => exact ih.close live thread
  | leave thread _ ih =>
    exact { ih with leaving := fun gone => List.mem_cons_of_mem _ (ih.leaving gone) }
  | @expire w thread generation _ _ ih =>
    exact ih.dropGuardsWhere thread fun g k same => congrArg (· == generation) same
  | exit _ gone ih => exact ih.exit gone
  | others _ leaves ih =>
    have custody := ih.custody.of_system leaves.possible leaves.mapped
    exact ih.fewer ih.orderly custody (fun there => there) fun member => member

end World

end NumaHeap.Arena
