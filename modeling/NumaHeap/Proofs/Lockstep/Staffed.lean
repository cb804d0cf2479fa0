import NumaHeap.Proofs.Lockstep.Liveness
import NumaHeap.Proofs.Lockstep.Sequential

/-!
A machine is a crew. Its threads are workers whose routines look at the shared integer once, and
whatever the machine does the crew can do. A machine does not tell a thread that sleeps from one
that has been let go: the barrier does, and the crew keeps to what it says.
-/

namespace NumaHeap.Lockstep

/-- A step as a task. A worker has prepared nothing until it has. -/
def Step.toTask (step : Step) : Task Int (Local × Int) where
  prepare := fun _ (l, _) => .done (l, step.prepare l)
  execute := fun _ (l, prepared) =>
    .access (fun shared => (step.execute prepared shared l).elim shared (·.1)) fun shared =>
      (step.execute prepared shared l).elim .panic fun taken => .done (taken.2, 0)

/-- Nobody waits in a generation that has not begun. -/
theorem Tracked.since_le {p : Program} {first now : Int × List Local} {m : Machine} {t : Thread}
    (tracked : Tracked p first now m) (member : t ∈ m.threads) {index since : Nat} {prepared : Int}
    (waiting : t.phase = .waiting index prepared since) : since ≤ m.checkpoint.generation := by
  obtain ⟨thread, found⟩ := List.mem_iff_getElem?.mp member
  obtain ⟨l, -, stands⟩ := exists_of_forall₂ tracked.stands found
  cases stands with
  | released entered =>
    cases waiting
    omega
  | waiting within done =>
    cases waiting
    exact le_rfl
  | _ => cases waiting

namespace Program

variable {p : Program} {m next : Machine} {c c' : Checkpoint} {t t' : Thread} {thread : Nat}

/-- A program as work. -/
def work (p : Program) : Work Int (Local × Int) := ⟨p.steps.map (·.toTask), p.iterations⟩

/-- A thread as a worker. -/
def worker (p : Program) (c : Checkpoint) (thread : Nat) (t : Thread) : Worker Int (Local × Int) :=
  match t.phase with
  | .preparing index => p.work.begins thread index (t.state, 0)
  | .arriving index prepared => .arriving index (t.state, prepared)
  | .waiting index prepared since =>
    if c.holds since then .asleep index (t.state, prepared) since
    else .awake index (t.state, prepared) since
  | .running index prepared => p.work.pastBarrier thread index (t.state, prepared)
  | .unwinding => .unwinding
  | .panicked => .panicked
  | .finished => .finished (t.state, 0)

/-- A machine as a crew. -/
def crew (p : Program) (m : Machine) : Crew Int (Local × Int) :=
  ⟨m.shared, m.checkpoint, m.threads.mapIdx (p.worker m.checkpoint)⟩

@[simp] theorem length_work (p : Program) : p.work.length = p.length := by
  simp [work, Work.length, length]

@[simp] theorem task?_work (p : Program) (index : Nat) :
    p.work.task? index = (p.step? index).map (·.toTask) := by
  simp only [Work.task?, length_work, step?]
  split
  case isTrue inside => simp [work]
  case isFalse outside => rfl

theorem crew_start (p : Program) (shared : Int) (locals : List Local) :
    p.crew (p.start shared locals) = p.work.start shared (locals.map fun l => (l, 0)) := by
  have workers : (p.crew (p.start shared locals)).workers =
      (p.work.start shared (locals.map fun l => (l, 0))).workers :=
    List.ext_getElem? fun thread => by
      simp [crew, start, Work.start, worker, Function.comp_def]
  simp only [crew, start, Work.start, List.length_map] at workers ⊢
  rw [workers]

theorem begins_work (p : Program) (thread index : Nat) (l : Local) :
    p.work.begins thread index (l, 0) =
      .busy .preparing index (.done (l, (p.step? index).elim 0 (·.prepare l))) := by
  rw [Work.begins, task?_work]
  cases p.step? index <;> rfl

/-- Nothing is prepared for the last barrier, so a thread takes nothing home from it. -/
theorem worker_pastBarrier (p : Program) (c : Checkpoint) (thread : Nat) {index : Nat}
    (within : index ≤ p.length) (l : Local) :
    p.worker c thread ⟨p.pastBarrier index ((p.task (index + 1)).prepare l), l⟩ =
      p.work.pastBarrier thread index (l, (p.task (index + 1)).prepare l) := by
  unfold pastBarrier
  split
  case isTrue inside => rfl
  case isFalse outside =>
    obtain rfl : index = p.length := by omega
    have none : p.work.task? p.length = none := Work.task?_eq_none_iff.mpr (by simp)
    simp [worker, Work.pastBarrier, none, Step.prepare]

/-! ## What the barrier says of the others -/

theorem worker_congr (same : ∀ since, c'.holds since = c.holds since) :
    p.worker c' = p.worker c := by
  funext thread t
  unfold worker
  simp only [same]

/-- A thread that has been let go has been woken. -/
theorem worker_woken
    (silent : ∀ index prepared since, t.phase = .waiting index prepared since →
      c'.holds since = false) :
    p.worker c' thread t = (p.worker c thread t).wake := by
  unfold worker
  cases phase : t.phase with
  | waiting index prepared since =>
    simp only [silent index prepared since phase]
    cases c.holds since <;> rfl
  | running index prepared =>
    simp only [Work.pastBarrier]
    cases p.work.task? index <;> rfl
  | _ => rfl

theorem crew_set (same : ∀ since, c'.holds since = c.holds since) (ts : List Thread) :
    (ts.set thread t').mapIdx (p.worker c') =
      (ts.mapIdx (p.worker c)).set thread (p.worker c' thread t') := by
  rw [List.mapIdx_set, worker_congr same]

theorem crew_set_woken {ts : List Thread}
    (silent : ∀ t ∈ ts, ∀ index prepared since, t.phase = .waiting index prepared since →
      c'.holds since = false)
    (upright : (p.worker c' thread t').wake = p.worker c' thread t') :
    (ts.set thread t').mapIdx (p.worker c') =
      ((ts.mapIdx (p.worker c)).set thread (p.worker c' thread t')).map (·.wake) := by
  have others : ts.mapIdx (p.worker c') = (ts.mapIdx (p.worker c)).map (·.wake) := by
    refine List.ext_getElem? fun position => ?_
    simp only [List.getElem?_mapIdx, List.getElem?_map, Option.map_map]
    exact Option.map_congr fun t found => worker_woken (silent t (List.mem_of_getElem? found))
  rw [List.mapIdx_set, List.map_set, upright, others]

/-! ## What the machine does, the crew can do -/

section Moves

variable {first' : Crew Int (Local × Int)} {shared : Int}

theorem getElem?_crew (found : m.threads[thread]? = some t) :
    (p.crew m).workers[thread]? = some (p.worker m.checkpoint thread t) := by
  simp [crew, found]

theorem reached_quiet (before : p.work.Reached first' (p.crew m)) (found : m.threads[thread]? = some t)
    (same : ∀ since, c.holds since = m.checkpoint.holds since)
    (move : p.work.move? thread m.shared m.checkpoint (p.worker m.checkpoint thread t) =
      some ⟨p.worker c thread t', shared, c, false⟩) :
    p.work.Reached first' (p.crew ⟨shared, c, m.threads.set thread t'⟩) := by
  rw [crew, crew_set same]
  exact before.next (.moves thread (Work.advance?_of_move? (getElem?_crew found) move))

theorem reached_loud (before : p.work.Reached first' (p.crew m)) (found : m.threads[thread]? = some t)
    (silent : ∀ t ∈ m.threads, ∀ index prepared since, t.phase = .waiting index prepared since →
      c.holds since = false)
    (upright : (p.worker c thread t').wake = p.worker c thread t')
    (move : p.work.move? thread m.shared m.checkpoint (p.worker m.checkpoint thread t) =
      some ⟨p.worker c thread t', shared, c, true⟩) :
    p.work.Reached first' (p.crew ⟨shared, c, m.threads.set thread t'⟩) := by
  rw [crew, crew_set_woken silent upright]
  exact before.next (.moves thread (Work.advance?_of_move? (getElem?_crew found) move))

/-- A step is one look at the shared integer, and then its routine is done or has panicked. -/
theorem reached_twice (index : Nat) (rest : Routine Int (Local × Int))
    (before : p.work.Reached first' (p.crew m)) (found : m.threads[thread]? = some t)
    (access : p.work.move? thread m.shared m.checkpoint (p.worker m.checkpoint thread t) =
      some ⟨.busy .running index rest, shared, m.checkpoint, false⟩)
    (move : p.work.move? thread shared m.checkpoint (.busy .running index rest) =
      some ⟨p.worker m.checkpoint thread t', shared, m.checkpoint, false⟩) :
    p.work.Reached first' (p.crew ⟨shared, m.checkpoint, m.threads.set thread t'⟩) := by
  obtain ⟨inside, -⟩ := List.getElem?_eq_some_iff.mp (getElem?_crew (p := p) found)
  -- midway the crew stands for no machine, so the two moves are made at once
  have midway := before.next (.moves thread (Work.advance?_of_move? (getElem?_crew found) access))
  have last : p.work.advance?
      ((p.crew m).after thread ⟨.busy .running index rest, shared, m.checkpoint, false⟩) thread =
        some _ := Work.advance?_of_move? (List.getElem?_set_self inside) move
  rw [crew, crew_set (c := m.checkpoint) fun _ => rfl,
    ← List.set_set (Worker.busy .running index rest)]
  exact midway.next (.moves thread last)

theorem reached_of_move {first now : Int × List Local} (tracked : Tracked p first now m)
    (found : m.threads[thread]? = some t) (move : Move p m.shared m.checkpoint t t' shared c)
    (before : p.work.Reached first' (p.crew m)) :
    p.work.Reached first' (p.crew ⟨shared, c, m.threads.set thread t'⟩) := by
  obtain ⟨l, entered, here⟩ := exists_of_forall₂ tracked.stands found
  cases move with
  | @prepares index l =>
    refine reached_quiet before found (fun _ => rfl) ?_
    simp only [worker, begins_work]
    rfl
  | arrivesLate poisoned =>
    refine reached_quiet before found (fun _ => rfl) ?_
    simp [worker, Work.move?, Checkpoint.arrive, poisoned]
  | passes calm last =>
    cases here with
    | arriving within done =>
      refine reached_loud before found ?_ ?_ ?_
      · intro t member index prepared since waiting
        have early := tracked.since_le member waiting
        have passed : m.checkpoint.generation + 1 ≠ since := by omega
        simp [Checkpoint.holds, passed]
      · rw [p.worker_pastBarrier _ _ within, Worker.wake_pastBarrier]
      · rw [p.worker_pastBarrier _ _ within]
        simp [worker, Work.move?, Checkpoint.arrive, calm, last]
  | arrives calm missing =>
    refine reached_quiet before found (fun _ => rfl) ?_
    simp [worker, Work.move?, Checkpoint.arrive, Checkpoint.holds, calm, missing]
  | wakesLate poisoned =>
    refine reached_quiet before found (fun _ => rfl) ?_
    simp [worker, Work.move?, Checkpoint.holds, poisoned]
  | wakes calm passed =>
    cases here with
    | waiting within done => exact absurd rfl passed
    | released entering =>
      have within := tracked.within
      refine reached_quiet before found (fun _ => rfl) ?_
      rw [entering, p.worker_pastBarrier _ _ (by omega)]
      simp [worker, Work.move?, Checkpoint.holds, passed, calm]
  | @takes index prepared shared' l l' step known taken =>
    refine reached_twice index (.done (l', 0)) before found ?_ rfl
    simp [worker, Work.pastBarrier, known, Work.move?, Step.toTask, taken]
  | @panics index prepared l fails =>
    cases here with
    | running entering inside =>
      refine reached_twice index .panic before found ?_ rfl
      rw [p.step?_eq_task inside, Option.bind_some] at fails
      simp [worker, Work.pastBarrier, p.step?_eq_task inside, Work.move?, Step.toTask, fails]
  | poisons =>
    refine reached_loud before found ?_ rfl rfl
    simp [Checkpoint.holds, Checkpoint.poison]

end Moves

theorem reached_crew {shared : Int} {locals : List Local}
    (reachable : p.Reachable (p.start shared locals) m) :
    p.work.Reached (p.work.start shared (locals.map fun l => (l, 0))) (p.crew m) := by
  induction reachable with
  | start =>
    rw [crew_start]
    exact .start
  | step thread before moved ih =>
    obtain ⟨now, tracked⟩ := tracked_of_reachable before
    obtain ⟨t, t', shared, c, found, move, rfl⟩ := move_of_advance? moved
    exact reached_of_move tracked found move ih

end Program

/-! ## Nobody hangs -/

/-- A crew does not hang, whatever its threads do and in whatever order they move, and a panic of
one comes back from all. A machine is such a crew. -/
theorem nobody_hangs :
    (∀ (σ τ : Type) (w : Work σ τ) (shared : σ) (states : List τ), states ≠ [] →
      ∀ crew, w.Reached (w.start shared states) crew → w.Promises crew) ∧
    ∀ (p : Program) (shared : Int) (locals : List Local) (m : Machine),
      p.Reachable (p.start shared locals) m →
      p.work.Reached (p.work.start shared (locals.map fun l => (l, 0))) (p.crew m) := by
  refine ⟨fun σ τ w shared states staffed crew reached => ?_, fun p shared locals m reachable => ?_⟩
  · exact ((Work.Kept.start w shared staffed).reached reached).promises
  · exact Program.reached_crew reachable

/-- The second thread panics in the step, and the first does not come back from the barrier. -/
theorem nobody_hangs_second_panics :
    let w : Work Nat Unit :=
      ⟨[⟨fun _ _ => .done (), fun thread _ =>
        if thread = 1 then .panic else .access (· + 1) fun _ => .done ()⟩], 1⟩
    let crew : Crew Nat Unit :=
      ⟨1, { participants := 2, arrived := 1, generation := 1 }, [.asleep 1 () 1, .unwinding]⟩
    let p : Program := ⟨[.failIf 2], 1⟩
    let locals : List Local := [⟨1, []⟩, ⟨2, []⟩]
    let m := p.turns 20 (p.start 0 locals)
    w.Reached (w.start 0 [(), ()]) crew ∧ w.advance? crew 0 = none ∧
      (∃ next, w.advance? crew 1 = some next) ∧
      (∀ later, w.Reached crew later → ∀ worker ∈ later.workers, worker.isFinished = false) ∧
      m.outcome = .panicked ∧
      p.work.Reached (p.work.start 0 [(⟨1, []⟩, 0), (⟨2, []⟩, 0)]) (p.crew m) := by
  intro w crew p locals m
  have reached : w.Reached (w.start 0 [(), ()]) crew :=
    Work.Reached.start.follow [0, 0, 1, 1, 1, 0, 0, 0, 0, 0] rfl
  have promises := nobody_hangs.1 Nat Unit w 0 [(), ()] (by simp) crew reached
  have reachable : p.Reachable (p.start 0 locals) m := Program.reachable_turns .start 20
  refine ⟨reached, rfl, ⟨_, rfl⟩, fun later onward => ?_, by decide, ?_⟩
  · exact (promises.lost ⟨.unwinding, by simp [crew], rfl⟩ later onward).2
  · exact nobody_hangs.2 p 0 locals m reachable

end NumaHeap.Lockstep
