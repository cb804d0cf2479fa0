import NumaHeap.Proofs.Lockstep.Order

/-!
Every order of moves gives the sequential run. No machine is stuck before all its threads have
ended, and a machine whose threads have ended shows what the run round by round gives: its values,
or its panic.
-/

namespace NumaHeap.Lockstep

namespace Tracked

variable {p : Program} {first now : Int × List Local} {m : Machine}

/-! ## Nobody is left behind -/

/-- A thread that cannot move has ended, or waits with good reason. -/
theorem ended_or_waits {shared : Int} {c : Checkpoint} {t : Thread}
    (idle : p.move? shared c t = none) :
    t.phase = .finished ∨ t.phase = .panicked ∨
      t.phase.waits c.generation = true ∧ c.poisoned = false := by
  obtain ⟨phase, l⟩ := t
  cases phase with
  | finished => exact .inl rfl
  | panicked => exact .inr (.inl rfl)
  | waiting index prepared since =>
    refine .inr (.inr ?_)
    cases poisoned : c.poisoned <;>
      simp_all [Program.move?, Checkpoint.holds]
  | arriving index prepared =>
    simp only [Program.move?] at idle
    split at idle <;> cases idle
  | running index prepared =>
    simp only [Program.move?] at idle
    split at idle <;> cases idle
  | _ => cases idle

/-- A machine whose threads cannot move any more is done: they do not wait for each other. -/
theorem isDone_of_stuck (tracked : Tracked p first now m)
    (stuck : ∀ thread, p.advance? m thread = none) : m.isDone = true := by
  have idle : ∀ t ∈ m.threads, p.move? m.shared m.checkpoint t = none := by
    intro t member
    obtain ⟨thread, found⟩ := List.mem_iff_getElem?.mp member
    exact Program.advance?_eq_none_iff.mp (stuck thread) t found
  simp only [Machine.isDone, List.all_eq_true, Bool.or_eq_true, decide_eq_true_eq]
  intro t member
  obtain finished | panicked | ⟨waits, calm⟩ := ended_or_waits (idle t member)
  · exact .inl finished
  · exact .inr panicked
  · exfalso
    have within : m.checkpoint.generation ≤ p.length := by
      obtain ⟨thread, found⟩ := List.mem_iff_getElem?.mp member
      obtain ⟨l, -, here⟩ := exists_of_forall₂ tracked.stands found
      exact here.within_of_through (Phase.through_of_waits waits)
    -- then all of them wait, but the last to arrive never does
    have all : ∀ other ∈ m.threads, other.phase.waits m.checkpoint.generation = true := by
      intro other member
      obtain finished | panicked | ⟨waits, -⟩ := ended_or_waits (idle other member)
      · obtain ⟨thread, found⟩ := List.mem_iff_getElem?.mp member
        obtain ⟨l, -, here⟩ := exists_of_forall₂ tracked.stands found
        have last := here.generation_of_finished finished
        omega
      · have poisoned := tracked.alarmed other member panicked
        rw [calm] at poisoned
        cases poisoned
      · exact waits
    have count := List.countP_eq_length.mpr all
    have queue := tracked.queue calm
    have short := tracked.short (List.ne_nil_of_mem member)
    have crew := tracked.crew
    omega

/-! ## What the sequential run does -/

theorem sequential_of_doomed (tracked : Tracked p first now m)
    (doomed : ∃ l ∈ now.2, (p.task m.checkpoint.generation).after now.1 l = none) :
    p.sequential first.1 first.2 = .panicked := by
  have within : m.checkpoint.generation ≤ p.length := by
    obtain ⟨l, -, panics⟩ := doomed
    exact p.within_of_panics tracked.within panics
  have upto : rounds (p.agenda.take (m.checkpoint.generation + 1)) first.1 first.2 = none := by
    rw [p.take_agenda_succ within, rounds_append, tracked.reached]
    simp [rounds, round_of_panics doomed]
  have whole : rounds p.agenda first.1 first.2 = none := by
    rw [← List.take_append_drop (m.checkpoint.generation + 1) p.agenda, rounds_append, upto]
    rfl
  rw [p.rounds_agenda] at whole
  simp only [Program.sequential, whole]

theorem sequential_of_last (tracked : Tracked p first now m)
    (last : m.checkpoint.generation = p.length + 1) :
    p.sequential first.1 first.2 = .finished now.1 now.2 := by
  have whole := tracked.reached
  rw [last, ← p.length_agenda, List.take_length, p.rounds_agenda] at whole
  simp only [Program.sequential, whole]

/-- A thread that has panicked shows the panic of the sequential run. -/
theorem sequential_of_panicked (tracked : Tracked p first now m) {t : Thread}
    (member : t ∈ m.threads) (panicked : t.phase = .panicked) :
    p.sequential first.1 first.2 = .panicked :=
  tracked.sequential_of_doomed
    (tracked.doomed (.inl ⟨t, member, Phase.isLost_of_panicked panicked⟩))

/-- A thread that has finished shows that the sequential run does. -/
theorem sequential_of_finished (tracked : Tracked p first now m) {t : Thread}
    (member : t ∈ m.threads) (finished : t.phase = .finished) :
    p.sequential first.1 first.2 = .finished now.1 now.2 := by
  obtain ⟨thread, found⟩ := List.mem_iff_getElem?.mp member
  obtain ⟨l, -, here⟩ := exists_of_forall₂ tracked.stands found
  exact tracked.sequential_of_last (here.generation_of_finished finished)

/-- Threads that have all finished are where their round began, and nothing was added since. -/
theorem states_of_all_finished (tracked : Tracked p first now m)
    (finished : ∀ t ∈ m.threads, t.phase = .finished) :
    m.shared = now.1 ∧ m.threads.map (·.state) = now.2 := by
  constructor
  · rw [tracked.tally, sum_zipWith_eq_zero, add_zero]
    intro l t member
    simp [gained, finished t member, Phase.through]
  · have stands := tracked.stands
    generalize m.threads = ts at stands finished
    generalize now.2 = ls at stands
    induction stands with
    | nil => rfl
    | cons one rest ih =>
      obtain ⟨head, tail⟩ := List.forall_mem_cons.mp finished
      rw [List.map_cons, ih tail]
      cases one <;> first | rfl | cases head

theorem outcome_eq_sequential (tracked : Tracked p first now m) (done : m.isDone = true) :
    m.outcome = p.sequential first.1 first.2 := by
  by_cases all : ∀ t ∈ m.threads, t.phase = .finished
  · obtain ⟨shared, states⟩ := tracked.states_of_all_finished all
    have outcome : m.outcome = .finished now.1 now.2 := by
      simp only [Machine.outcome, List.all_eq_true, decide_eq_true_eq, if_pos all, shared, states]
    rw [outcome]
    cases threads : m.threads with
    | nil =>
      have nobody : now.2 = [] := by rw [← states, threads]; rfl
      have crew := length_of_rounds tracked.reached
      rw [nobody, eq_comm, List.length_nil, List.length_eq_zero_iff] at crew
      have reached := tracked.reached
      rw [crew, rounds_nobody] at reached
      rw [Program.sequential, crew, rounds_nobody, ← Option.some.inj reached]
    | cons t ts =>
      have member : t ∈ m.threads := by rw [threads]; exact List.mem_cons_self
      exact (tracked.sequential_of_finished member (all t member)).symm
  · have outcome : m.outcome = .panicked := by
      simp only [Machine.outcome, List.all_eq_true, decide_eq_true_eq, if_neg all]
    push Not at all
    obtain ⟨t, member, unfinished⟩ := all
    have ended := List.all_eq_true.mp done t member
    rw [Bool.or_eq_true, decide_eq_true_eq, decide_eq_true_eq] at ended
    rw [outcome, tracked.sequential_of_panicked member (ended.resolve_left unfinished)]

end Tracked

/-! ## Every order of moves -/

theorem exists_runs_of_reachable {p : Program} {first m : Machine}
    (reachable : p.Reachable first m) : ∃ history, Runs p first history m := by
  induction reachable with
  | start => exact ⟨[], .start⟩
  | step thread before moved ih =>
    obtain ⟨history, runs⟩ := ih
    exact ⟨_, runs.step thread moved⟩

theorem tracked_of_reachable {p : Program} {shared : Int} {locals : List Local} {m : Machine}
    (reachable : p.Reachable (p.start shared locals) m) :
    ∃ now, Tracked p (shared, locals) now m := by
  obtain ⟨history, runs⟩ := exists_runs_of_reachable reachable
  exact runs.tracked

/-! ## The threads in turn -/

namespace Program

variable {p : Program} {first m : Machine}

/-- Some threads after each other, each if it can. -/
def sweep (p : Program) (order : List Nat) (m : Machine) : Machine :=
  order.foldl (fun m thread => (p.advance? m thread).getD m) m

theorem turn_eq_sweep (p : Program) (m : Machine) :
    p.turn m = p.sweep (List.range m.threads.length) m := rfl

theorem reachable_sweep (reachable : p.Reachable first m) (order : List Nat) :
    p.Reachable first (p.sweep order m) := by
  induction order generalizing m with
  | nil => exact reachable
  | cons thread order ih =>
    apply ih
    change p.Reachable first ((p.advance? m thread).getD m)
    cases moved : p.advance? m thread with
    | none => exact reachable
    | some next => exact .step thread reachable moved

/-- Unless nobody can move, somebody does. -/
theorem sweep_moves (p : Program) (order : List Nat) (m : Machine) :
    p.remainingMoves (p.sweep order m) < p.remainingMoves m ∨
      p.sweep order m = m ∧ ∀ thread ∈ order, p.advance? m thread = none := by
  induction order generalizing m with
  | nil => exact .inr ⟨rfl, by simp⟩
  | cons thread order ih =>
    cases moved : p.advance? m thread with
    | none =>
      have same : p.sweep (thread :: order) m = p.sweep order m := by simp [sweep, moved]
      rw [same]
      obtain less | ⟨still, others⟩ := ih m
      · exact .inl less
      · exact .inr ⟨still, List.forall_mem_cons.mpr ⟨moved, others⟩⟩
    | some next =>
      have less := remainingMoves_lt moved
      have same : p.sweep (thread :: order) m = p.sweep order next := by simp [sweep, moved]
      rw [same]
      obtain less' | ⟨still, -⟩ := ih next
      · exact .inl (Nat.lt_trans less' less)
      · exact .inl (by rw [still]; exact less)

theorem stuck_of_range (idle : ∀ thread ∈ List.range m.threads.length, p.advance? m thread = none)
    (thread : Nat) : p.advance? m thread = none := by
  by_cases inside : thread < m.threads.length
  · exact idle thread (List.mem_range.mpr inside)
  · rw [advance?_eq_none_iff]
    intro t found
    rw [List.getElem?_eq_none (by omega)] at found
    cases found

theorem reachable_turns (reachable : p.Reachable first m) (n : Nat) :
    p.Reachable first (p.turns n m) := by
  induction n generalizing m with
  | zero => exact reachable
  | succ n ih =>
    rw [turns]
    split
    · exact reachable
    · exact ih (reachable_sweep reachable _)

theorem turns_isDone {shared : Int} {locals : List Local}
    (reachable : p.Reachable (p.start shared locals) m) {n : Nat}
    (enough : p.remainingMoves m ≤ n) : (p.turns n m).isDone = true := by
  induction n generalizing m with
  | zero =>
    obtain ⟨now, tracked⟩ := tracked_of_reachable reachable
    refine tracked.isDone_of_stuck fun thread => ?_
    cases moved : p.advance? m thread with
    | none => rfl
    | some next =>
      have less := remainingMoves_lt moved
      omega
  | succ n ih =>
    rw [turns]
    split
    case isTrue done => exact done
    case isFalse unfinished =>
      obtain ⟨now, tracked⟩ := tracked_of_reachable reachable
      obtain less | ⟨-, idle⟩ := p.sweep_moves (List.range m.threads.length) m
      · exact ih (reachable_sweep reachable _) (by rw [turn_eq_sweep]; omega)
      · exact absurd (tracked.isDone_of_stuck (stuck_of_range idle)) unfinished

theorem remainingMoves_start (p : Program) (shared : Int) (locals : List Local) :
    p.remainingMoves (p.start shared locals) ≤ p.turnBound locals.length := by
  simp only [remainingMoves, start, List.map_map, Function.comp_def, remaining, List.map_const',
    List.sum_replicate_nat, turnBound]
  apply Nat.mul_le_mul_left
  omega

/-- A run ends as the sequential run does. -/
theorem run_eq_sequential (p : Program) (shared : Int) {locals : List Local}
    (somebody : locals ≠ []) (something : p.steps ≠ []) :
    p.run shared locals = .ok (p.sequential shared locals) := by
  have done := turns_isDone .start (p.remainingMoves_start shared locals)
  obtain ⟨now, tracked⟩ :=
    tracked_of_reachable (reachable_turns .start (p.turnBound locals.length))
  rw [run, if_neg (by simpa using somebody), if_neg (by simpa using something),
    tracked.outcome_eq_sequential done]

end Program

/-! ## Lock step, and one outcome -/

/-- In every order of moves the threads go in lock step, no way to go on is endless, and threads
that cannot go on have ended as the sequential run does: with its values, or all of them in its
panic. -/
theorem every_order_agrees {p : Program} {shared : Int} {locals : List Local} {history : List Event}
    {m : Machine} (runs : Runs p (p.start shared locals) history m) :
    InStep locals.length history ∧ p.Halts m ∧
      ((∀ thread, p.advance? m thread = none) →
        m.isDone = true ∧ m.outcome = p.sequential shared locals) ∧
      ((∃ t ∈ m.threads, t.phase = .panicked) → p.sequential shared locals = .panicked) ∧
      (p.sequential shared locals = .panicked → ∀ t ∈ m.threads, t.phase ≠ .finished) := by
  obtain ⟨now, tracked⟩ := runs.tracked
  refine ⟨runs.inStep, p.halts m, fun stuck => ?_, ?_, ?_⟩
  · have done := tracked.isDone_of_stuck stuck
    exact ⟨done, tracked.outcome_eq_sequential done⟩
  · rintro ⟨t, member, panicked⟩
    exact tracked.sequential_of_panicked member panicked
  · intro panics t member finished
    have ends := tracked.sequential_of_finished member finished
    rw [panics] at ends
    cases ends

theorem every_order_agrees_two_threads :
    let p : Program := ⟨[.add, .observe], 1⟩
    let locals : List Local := [⟨1, []⟩, ⟨2, []⟩]
    let m := p.turns 20 (p.start 0 locals)
    ∃ history, Runs p (p.start 0 locals) history m ∧ InStep 2 history ∧
      m.outcome = .finished 3 [⟨1, [3]⟩, ⟨2, [3]⟩] := by
  intro p locals m
  have reachable : p.Reachable (p.start 0 locals) m := Program.reachable_turns .start 20
  obtain ⟨history, runs⟩ := exists_runs_of_reachable reachable
  obtain ⟨inStep, -, ends, -, -⟩ := every_order_agrees runs
  have stuck := Program.stuck_of_range (p := p) (m := m) (by decide)
  have outcome : p.sequential 0 locals = .finished 3 [⟨1, [3]⟩, ⟨2, [3]⟩] := by decide
  exact ⟨history, runs, inStep, (ends stuck).2.trans outcome⟩

end NumaHeap.Lockstep
