import NumaHeap.Lockstep.Crew
import NumaHeap.Proofs.Lockstep.World

/-!
What holds of a crew in every order of moves. Where a thread is follows from the generation of the
barrier, up to whether it has done its part of the generation: a thread that waits in a generation
that is over has been let go, and nobody is two generations behind.
-/

namespace NumaHeap.Lockstep

variable {σ τ : Type}

namespace Worker

/-- Whether a thread is counted among those that have arrived in a generation. -/
def waits (generation : Nat) (worker : Worker σ τ) : Bool := worker.since? == some generation

/-- Whether a thread waits and has to go on waiting. -/
def isHeld (c : Checkpoint) (worker : Worker σ τ) : Bool := worker.since?.any c.holds

theorem isHeld_iff {c : Checkpoint} {worker : Worker σ τ} :
    worker.isHeld c = true ↔ worker.waits c.generation = true ∧ c.poisoned = false := by
  unfold isHeld waits
  cases worker.since? with
  | none => simp
  | some since => simp [Checkpoint.holds, eq_comm (a := since)]

section Wake

variable (worker : Worker σ τ)

@[simp] theorem since?_wake : worker.wake.since? = worker.since? := by cases worker <;> rfl

@[simp] theorem isLost_wake : worker.wake.isLost = worker.isLost := by cases worker <;> rfl

@[simp] theorem waits_wake (generation : Nat) :
    worker.wake.waits generation = worker.waits generation := by simp [waits]

end Wake

section Waits

variable (w : Work σ τ) (generation thread index since : Nat) (state : τ)

@[simp] theorem waits_busy (stage : Stage) (rest : Routine σ τ) :
    (busy stage index rest).waits generation = false := rfl

@[simp] theorem waits_arriving :
    (arriving index state : Worker σ τ).waits generation = false := rfl

@[simp] theorem waits_asleep :
    (asleep index state since : Worker σ τ).waits generation = (since == generation) := by
  simp [waits, since?]

@[simp] theorem waits_awake :
    (awake index state since : Worker σ τ).waits generation = (since == generation) := by
  simp [waits, since?]

@[simp] theorem waits_pastBarrier :
    (w.pastBarrier thread index state).waits generation = false := by
  unfold Work.pastBarrier
  cases w.task? index <;> rfl

@[simp] theorem wake_pastBarrier :
    (w.pastBarrier thread index state).wake = w.pastBarrier thread index state := by
  unfold Work.pastBarrier
  cases w.task? index <;> rfl

@[simp] theorem waits_proceeds (stage : Stage) :
    (w.proceeds thread stage index state).waits generation = false := by cases stage <;> rfl

end Waits

end Worker

namespace Crew

variable (crew : Crew σ τ) (thread : Nat) {moved : Moved σ τ}

theorem workers_after (quiet : moved.rings = false) :
    (crew.after thread moved).workers = crew.workers.set thread moved.worker := by
  simp [after, quiet]

/-- What does not change when a sleeper wakes, does not change for the others. -/
theorem map_after (moved : Moved σ τ) {α : Type} {f : Worker σ τ → α}
    (same : ∀ worker, f worker.wake = f worker) :
    (crew.after thread moved).workers.map f = (crew.workers.set thread moved.worker).map f := by
  unfold after
  cases moved.rings <;> simp [Function.comp_def, same]

theorem countP_after (moved : Moved σ τ) {q : Worker σ τ → Bool}
    (same : ∀ worker, q worker.wake = q worker) :
    (crew.after thread moved).workers.countP q =
      (crew.workers.set thread moved.worker).countP q := by
  have through := congrArg (List.countP id) (crew.map_after thread moved same)
  simpa only [List.countP_map, Function.id_comp] using through

end Crew

namespace Work

variable {w : Work σ τ} {thread : Nat} {shared : σ} {c : Checkpoint} {worker : Worker σ τ}
  {moved : Moved σ τ} {crew next later : Crew σ τ}

/-! ## Moves -/

/-- A move of one thread: what it finds in what is shared and in the barrier, and what comes of
it. -/
inductive Move (w : Work σ τ) (thread : Nat) (shared : σ) (c : Checkpoint) :
    Worker σ τ → Moved σ τ → Prop where
  | proceeds {stage : Stage} {index : Nat} {state : τ} :
      Move w thread shared c (.busy stage index (.done state))
        ⟨w.proceeds thread stage index state, shared, c, false⟩
  | panics {stage : Stage} {index : Nat} :
      Move w thread shared c (.busy stage index .panic) ⟨.unwinding, shared, c, false⟩
  | accesses {stage : Stage} {index : Nat} {change : σ → σ} {rest : σ → Routine σ τ} :
      Move w thread shared c (.busy stage index (.access change rest))
        ⟨.busy stage index (rest shared), change shared, c, false⟩
  | arrivesLate {index : Nat} {state : τ} (poisoned : c.poisoned = true) :
      Move w thread shared c (.arriving index state) ⟨.unwinding, shared, c, false⟩
  | passes {index : Nat} {state : τ} (calm : c.poisoned = false)
      (last : c.arrived + 1 = c.participants) :
      Move w thread shared c (.arriving index state)
        ⟨w.pastBarrier thread index state, shared,
          { c with arrived := 0, generation := c.generation + 1 }, true⟩
  | arrives {index : Nat} {state : τ} (calm : c.poisoned = false)
      (missing : c.arrived + 1 ≠ c.participants) :
      Move w thread shared c (.arriving index state)
        ⟨.asleep index state c.generation, shared, { c with arrived := c.arrived + 1 }, false⟩
  | sleepsOn {index : Nat} {state : τ} (calm : c.poisoned = false) :
      Move w thread shared c (.awake index state c.generation)
        ⟨.asleep index state c.generation, shared, c, false⟩
  | wakesLate {index since : Nat} {state : τ} (poisoned : c.poisoned = true) :
      Move w thread shared c (.awake index state since) ⟨.unwinding, shared, c, false⟩
  | wakes {index since : Nat} {state : τ} (calm : c.poisoned = false)
      (passed : c.generation ≠ since) :
      Move w thread shared c (.awake index state since)
        ⟨w.pastBarrier thread index state, shared, c, false⟩
  | poisons : Move w thread shared c .unwinding ⟨.panicked, shared, c.poison, true⟩

theorem move_of_move? (found : w.move? thread shared c worker = some moved) :
    w.Move thread shared c worker moved := by
  cases worker with
  | busy stage index rest =>
    cases rest with
    | done state =>
      obtain rfl := Option.some.inj found
      exact .proceeds
    | panic =>
      obtain rfl := Option.some.inj found
      exact .panics
    | access change rest =>
      obtain rfl := Option.some.inj found
      exact .accesses
  | arriving index state =>
    by_cases poisoned : c.poisoned = true
    · simp only [move?, Checkpoint.arrive, if_pos poisoned, Option.some.injEq] at found
      subst found
      exact .arrivesLate poisoned
    · have calm := Bool.eq_false_iff.mpr poisoned
      by_cases last : c.arrived + 1 = c.participants
      · simp only [move?, Checkpoint.arrive, if_neg poisoned, if_pos last, Option.some.injEq] at found
        subst found
        exact .passes calm last
      · simp only [move?, Checkpoint.arrive, if_neg poisoned, if_neg last, Option.some.injEq] at found
        subst found
        exact .arrives calm last
  | asleep index state since => cases found
  | awake index state since =>
    by_cases poisoned : c.poisoned = true
    · simp [move?, Checkpoint.holds, poisoned] at found
      subst found
      exact .wakesLate poisoned
    · have calm := Bool.eq_false_iff.mpr poisoned
      by_cases passed : c.generation = since
      · simp [move?, Checkpoint.holds, calm, passed] at found
        subst passed found
        exact .sleepsOn calm
      · simp [move?, Checkpoint.holds, calm, passed] at found
        subst found
        exact .wakes calm passed
  | unwinding =>
    obtain rfl := Option.some.inj found
    exact .poisons
  | panicked => cases found
  | finished state => cases found

theorem move_of_advance? (advanced : w.advance? crew thread = some next) :
    ∃ worker moved, crew.workers[thread]? = some worker ∧
      w.Move thread crew.shared crew.checkpoint worker moved ∧
      next = crew.after thread moved := by
  simp only [advance?, Option.bind_eq_bind, Option.bind_eq_some_iff, Option.pure_def,
    Option.some.injEq] at advanced
  obtain ⟨worker, found, moved, move, rfl⟩ := advanced
  exact ⟨worker, moved, found, move_of_move? move, rfl⟩

theorem advance?_of_move? (found : crew.workers[thread]? = some worker)
    (move : w.move? thread crew.shared crew.checkpoint worker = some moved) :
    w.advance? crew thread = some (crew.after thread moved) := by
  simp only [advance?, found, move, Option.bind_eq_bind, Option.bind_some, Option.pure_def]

theorem move?_awake_isSome {index since : Nat} {state : τ} :
    (w.move? thread shared c (.awake index state since)).isSome := by
  simp only [move?]
  split
  · rfl
  · split <;> rfl

/-! ## Where a thread is -/

theorem task?_eq_none_iff {index : Nat} : w.task? index = none ↔ w.length ≤ index := by
  unfold task?
  split
  case isTrue inside =>
    have some_task : 0 < w.tasks.length := by
      by_contra empty
      simp [length, show w.tasks.length = 0 by omega] at inside
    simp [Nat.mod_lt index some_task, inside]
  case isFalse outside => simpa using outside

theorem inside_of_task? {index : Nat} {task : Task σ τ} (found : w.task? index = some task) :
    index < w.length := by
  by_contra outside
  rw [task?_eq_none_iff.mpr (Nat.le_of_not_lt outside)] at found
  cases found

/-- Where a thread can be while the barrier is in a generation, poisoned or not. -/
inductive Placed (w : Work σ τ) (generation : Nat) (poisoned : Bool) : Worker σ τ → Prop where
  | preparing {rest : Routine σ τ} (within : generation ≤ w.length) :
      Placed w generation poisoned (.busy .preparing generation rest)
  | running {index : Nat} {rest : Routine σ τ} (entered : generation = index + 1)
      (inside : index < w.length) : Placed w generation poisoned (.busy .running index rest)
  | arriving {state : τ} (within : generation ≤ w.length) :
      Placed w generation poisoned (.arriving generation state)
  | asleep {state : τ} (within : generation ≤ w.length) (calm : poisoned = false) :
      Placed w generation poisoned (.asleep generation state generation)
  | waiting {state : τ} (within : generation ≤ w.length) :
      Placed w generation poisoned (.awake generation state generation)
  | released {index : Nat} {state : τ} (entered : generation = index + 1)
      (within : index ≤ w.length) : Placed w generation poisoned (.awake index state index)
  | unwinding (within : generation ≤ w.length) : Placed w generation poisoned .unwinding
  | panicked (within : generation ≤ w.length) (alarmed : poisoned = true) :
      Placed w generation poisoned .panicked
  | finished {state : τ} (last : generation = w.length + 1) :
      Placed w generation poisoned (.finished state)

namespace Placed

variable {generation : Nat} {poisoned : Bool}

/-- Sleepers do not stay where they are once the barrier is poisoned, but awake they may. -/
theorem wake (placed : w.Placed generation poisoned worker) {poisoned' : Bool}
    (still : poisoned = true → poisoned' = true) : w.Placed generation poisoned' worker.wake := by
  cases placed with
  | preparing within => exact .preparing within
  | running entered inside => exact .running entered inside
  | arriving within => exact .arriving within
  | asleep within calm => exact .waiting within
  | waiting within => exact .waiting within
  | released entered within => exact .released entered within
  | unwinding within => exact .unwinding within
  | panicked within alarmed => exact .panicked within (still alarmed)
  | finished last => exact .finished last

/-- A thread that waits is let go by the next generation. -/
theorem release (placed : w.Placed generation poisoned worker)
    (waits : worker.waits generation = true) :
    w.Placed (generation + 1) poisoned worker.wake := by
  cases placed with
  | asleep within calm => exact .released rfl within
  | waiting within => exact .released rfl within
  | released entered within =>
    rw [Worker.waits_awake, beq_iff_eq] at waits
    omega
  | _ => cases waits

theorem pastBarrier {index : Nat} (within : index ≤ w.length) (thread : Nat) (state : τ) :
    w.Placed (index + 1) poisoned (w.pastBarrier thread index state) := by
  unfold Work.pastBarrier
  cases found : w.task? index with
  | none =>
    have outside := task?_eq_none_iff.mp found
    exact .finished (by omega)
  | some task => exact .running rfl (inside_of_task? found)

theorem proceeds {stage : Stage} {index : Nat} {rest : Routine σ τ}
    (placed : w.Placed generation poisoned (.busy stage index rest)) (thread : Nat) (state : τ) :
    w.Placed generation poisoned (w.proceeds thread stage index state) := by
  cases placed with
  | preparing within => exact .arriving within
  | running entered inside =>
    subst entered
    exact .preparing inside

/-- A thread in the middle of a routine has not passed the last barrier. -/
theorem within_of_busy {stage : Stage} {index : Nat} {rest : Routine σ τ}
    (placed : w.Placed generation poisoned (.busy stage index rest)) : generation ≤ w.length := by
  cases placed with
  | preparing within => exact within
  | running entered inside => omega

theorem within_of_lost (placed : w.Placed generation poisoned worker)
    (lost : worker.isLost = true) : generation ≤ w.length := by
  cases placed with
  | unwinding within => exact within
  | panicked within alarmed => exact within
  | _ => cases lost

theorem within_of_waits (placed : w.Placed generation poisoned worker)
    (waits : worker.waits generation = true) : generation ≤ w.length := by
  cases placed with
  | asleep within calm => exact within
  | waiting within => exact within
  | released entered within =>
    rw [Worker.waits_awake, beq_iff_eq] at waits
    omega
  | _ => cases waits

theorem last_of_finished (placed : w.Placed generation poisoned worker)
    (finished : worker.isFinished = true) : generation = w.length + 1 := by
  cases placed with
  | finished last => exact last
  | _ => cases finished

/-- Whoever neither has to wait nor has ended can move. -/
theorem move?_isSome (placed : w.Placed c.generation c.poisoned worker) (thread : Nat) (shared : σ)
    (free : worker.isHeld c = false) (going : worker.isEnded = false) :
    (w.move? thread shared c worker).isSome := by
  cases placed with
  | @preparing rest within => cases rest <;> rfl
  | @running index rest entered inside => cases rest <;> rfl
  | arriving within =>
    simp only [move?, Checkpoint.arrive]
    split <;> rfl
  | asleep within calm => simp [Worker.isHeld, Worker.since?, Checkpoint.holds, calm] at free
  | waiting within => exact move?_awake_isSome
  | released entered within => exact move?_awake_isSome
  | unwinding within => rfl
  | panicked within alarmed => cases going
  | finished last => cases going

end Placed

/-! ## The crew -/

/-- What holds of a crew in every order of moves. -/
structure Kept (w : Work σ τ) (crew : Crew σ τ) : Prop where
  full : crew.checkpoint.participants = crew.workers.length
  placed : ∀ worker ∈ crew.workers,
    w.Placed crew.checkpoint.generation crew.checkpoint.poisoned worker
  queue : crew.checkpoint.poisoned = false →
    crew.checkpoint.arrived = crew.workers.countP (Worker.waits crew.checkpoint.generation)
  short : crew.checkpoint.arrived < crew.checkpoint.participants
  alarmed : crew.checkpoint.poisoned = true → crew.checkpoint.generation ≤ w.length

namespace Kept

theorem start (w : Work σ τ) (shared : σ) {states : List τ} (staffed : states ≠ []) :
    w.Kept (w.start shared states) where
  full := by simp [Work.start]
  placed := by
    intro worker member
    obtain ⟨thread, inside, rfl⟩ := List.mem_mapIdx.mp member
    exact .preparing (Nat.zero_le _)
  queue := by
    intro _
    refine (List.countP_eq_zero.mpr ?_).symm
    intro worker member
    obtain ⟨thread, inside, rfl⟩ := List.mem_mapIdx.mp member
    simp [begins, Worker.waits, Worker.since?]
  short := List.length_pos_iff.mpr staffed
  alarmed := by simp [Work.start]

/-- A move of one thread that neither ends the generation nor poisons the barrier. -/
theorem stays (kept : w.Kept crew) (found : crew.workers[thread]? = some worker)
    {worker' : Worker σ τ} {arrived : Nat}
    (placed : w.Placed crew.checkpoint.generation crew.checkpoint.poisoned worker')
    (queue : crew.checkpoint.poisoned = false →
      arrived + (worker.waits crew.checkpoint.generation).toNat =
        crew.checkpoint.arrived + (worker'.waits crew.checkpoint.generation).toNat)
    (short : arrived < crew.checkpoint.participants) :
    w.Kept ⟨shared, { crew.checkpoint with arrived }, crew.workers.set thread worker'⟩ where
  full := by simpa using kept.full
  placed := by
    intro other member
    obtain member | rfl := List.mem_or_eq_of_mem_set member
    · exact kept.placed other member
    · exact placed
  queue := by
    intro calm
    have change := queue calm
    have total := countP_set (q := Worker.waits crew.checkpoint.generation) found worker'
    have before := kept.queue calm
    simp only at change total before ⊢
    omega
  short := short
  alarmed := kept.alarmed

/-- The last arrival finds everybody else at the barrier: were the thread to sleep there as well,
all would wait. -/
theorem all_wait (kept : w.Kept crew) {index : Nat} {state : τ}
    (found : crew.workers[thread]? = some (.arriving index state))
    (calm : crew.checkpoint.poisoned = false)
    (last : crew.checkpoint.arrived + 1 = crew.checkpoint.participants) :
    ∀ other ∈ crew.workers.set thread (.asleep index state crew.checkpoint.generation),
      other.waits crew.checkpoint.generation = true := by
  have total := countP_set (q := Worker.waits crew.checkpoint.generation) found
    (.asleep index state crew.checkpoint.generation)
  have waiting := kept.queue calm
  have full := kept.full
  rw [Worker.waits_asleep, beq_self_eq_true, Bool.toNat_true, Worker.waits_arriving,
    Bool.toNat_false] at total
  apply List.countP_eq_length.mp
  rw [List.length_set]
  omega

/-- The last arrival ends the generation, and all that sleep wake in the next. -/
theorem passes (kept : w.Kept crew) {state : τ}
    (found : crew.workers[thread]? = some (.arriving crew.checkpoint.generation state))
    (within : crew.checkpoint.generation ≤ w.length) (calm : crew.checkpoint.poisoned = false)
    (last : crew.checkpoint.arrived + 1 = crew.checkpoint.participants) :
    w.Kept ⟨shared,
      { crew.checkpoint with arrived := 0, generation := crew.checkpoint.generation + 1 },
      (crew.workers.set thread
        (w.pastBarrier thread crew.checkpoint.generation state)).map (·.wake)⟩ := by
  have waits := kept.all_wait found calm last
  have onward : w.Placed (crew.checkpoint.generation + 1) crew.checkpoint.poisoned
      (w.pastBarrier thread crew.checkpoint.generation state) := .pastBarrier within thread state
  -- the thread passes without sleeping, and whoever else there is waits
  have others : ∀ other ∈ crew.workers.set thread
      (w.pastBarrier thread crew.checkpoint.generation state),
      other = w.pastBarrier thread crew.checkpoint.generation state ∨
        w.Placed crew.checkpoint.generation crew.checkpoint.poisoned other ∧
          other.waits crew.checkpoint.generation = true := by
    intro other member
    rw [← List.set_set
      (.asleep crew.checkpoint.generation state crew.checkpoint.generation)] at member
    obtain early | rfl := List.mem_or_eq_of_mem_set member
    · refine .inr ⟨?_, waits other early⟩
      obtain before | rfl := List.mem_or_eq_of_mem_set early
      · exact kept.placed other before
      · exact .asleep within calm
    · exact .inl rfl
  exact {
    full := by simpa using kept.full
    placed := by
      intro worker member
      obtain ⟨other, among, rfl⟩ := List.mem_map.mp member
      obtain rfl | ⟨placed, waited⟩ := others other among
      · exact onward.wake id
      · exact placed.release waited
    queue := by
      intro _
      refine (List.countP_eq_zero.mpr ?_).symm
      intro worker member
      obtain ⟨other, among, rfl⟩ := List.mem_map.mp member
      obtain rfl | ⟨-, waited⟩ := others other among
      · simp
      · have since : other.since? = some crew.checkpoint.generation := by
          simpa [Worker.waits] using waited
        simp [Worker.waits, since]
    short := by simp only; omega
    alarmed := by simp [calm] }

/-- A poisoned barrier wakes all that sleep. -/
theorem poisons (kept : w.Kept crew)
    (found : crew.workers[thread]? = some .unwinding) :
    w.Kept ⟨shared, crew.checkpoint.poison,
      (crew.workers.set thread .panicked).map (·.wake)⟩ := by
  have here := kept.placed _ (List.mem_of_getElem? found)
  have within := here.within_of_lost rfl
  exact {
    full := by simpa [Checkpoint.poison] using kept.full
    placed := by
      intro worker member
      obtain ⟨other, among, rfl⟩ := List.mem_map.mp member
      obtain before | rfl := List.mem_or_eq_of_mem_set among
      · exact (kept.placed other before).wake fun _ => rfl
      · exact .panicked within rfl
    queue := nofun
    short := kept.short
    alarmed := fun _ => within }

theorem advance (kept : w.Kept crew) (advanced : w.advance? crew thread = some next) :
    w.Kept next := by
  obtain ⟨worker, moved, found, move, rfl⟩ := move_of_advance? advanced
  have here := kept.placed worker (List.mem_of_getElem? found)
  have short := kept.short
  cases move with
  | proceeds => exact kept.stays found (here.proceeds ..) (by simp) short
  | panics => exact kept.stays found (.unwinding here.within_of_busy) (fun _ => rfl) short
  | accesses =>
    cases here with
    | preparing within => exact kept.stays found (.preparing within) (fun _ => rfl) short
    | running entered inside =>
      exact kept.stays found (.running entered inside) (fun _ => rfl) short
  | arrivesLate poisoned =>
    exact kept.stays found (.unwinding (kept.alarmed poisoned)) (fun _ => rfl) short
  | passes calm last =>
    cases here with
    | arriving within => exact kept.passes found within calm last
  | arrives calm missing =>
    cases here with
    | arriving within =>
      exact kept.stays found (.asleep within calm) (by simp) (by omega)
  | sleepsOn calm =>
    cases here with
    | waiting within => exact kept.stays found (.asleep within calm) (fun _ => rfl) short
    | released entered within => omega
  | wakesLate poisoned =>
    exact kept.stays found (.unwinding (kept.alarmed poisoned)) (by simp [poisoned]) short
  | wakes calm passed =>
    cases here with
    | waiting within => exact absurd rfl passed
    | released entered within =>
      refine kept.stays found ?_ (by simp [passed.symm]) short
      rw [entered]
      exact .pastBarrier within thread _
  | poisons => exact kept.poisons found

/-- A sleeper that wakes for no reason changes nothing else. -/
theorem happens (kept : w.Kept crew) (happened : w.Happens crew next) : w.Kept next := by
  cases happened with
  | moves thread advanced => exact kept.advance advanced
  | stirs thread found =>
    have here := kept.placed _ (List.mem_of_getElem? found)
    exact kept.stays found (here.wake id) (by simp) kept.short

theorem reached (kept : w.Kept crew) (reached : w.Reached crew later) : w.Kept later := by
  induction reached with
  | start => exact kept
  | next before happened ih => exact ih.happens happened

end Kept

/-- What threads lead to that move one after another, is reached. -/
theorem Reached.follow {first : Crew σ τ} (before : w.Reached first crew) (schedule : List Nat)
    (followed : schedule.foldlM w.advance? crew = some later) : w.Reached first later := by
  induction schedule generalizing crew with
  | nil =>
    obtain rfl := Option.some.inj followed
    exact before
  | cons thread rest ih =>
    obtain ⟨next, moved, followed⟩ := Option.bind_eq_some_iff.mp followed
    exact ih (before.next (.moves thread moved)) followed

end Work

end NumaHeap.Lockstep
