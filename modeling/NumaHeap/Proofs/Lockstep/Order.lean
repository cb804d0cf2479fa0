import NumaHeap.Proofs.Lockstep.World

/-!
Lock step. A run is watched for the moments at which a thread begins the body of a step and at which
it is through with it. The barrier lets nobody begin a step before all are through with the one
before.
-/

namespace NumaHeap.Lockstep

/-- What a run shows of its threads. -/
inductive Event where
  /-- A thread begins the body of a step. -/
  | starts (thread index : Nat)
  /-- A thread is through with the body of a step. -/
  | finishes (thread index : Nat)
deriving DecidableEq

namespace Event

/-- What shows when a thread goes from one place to another. -/
def ofMove? (thread : Nat) : Phase → Phase → Option Event
  | .running index _, .preparing _ => some (.finishes thread index)
  | _, .running index _ => some (.starts thread index)
  | _, _ => none

/-- What shows when a machine becomes another by a move of a thread. -/
def shown? (thread : Nat) (m next : Machine) : Option Event := do
  ofMove? thread (← m.threads[thread]?).phase (← next.threads[thread]?).phase

theorem shown?_set {m : Machine} {thread : Nat} {t t' : Thread} {shared : Int} {c : Checkpoint}
    (found : m.threads[thread]? = some t) :
    shown? thread m ⟨shared, c, m.threads.set thread t'⟩ = ofMove? thread t.phase t'.phase := by
  obtain ⟨inside, -⟩ := List.getElem?_eq_some_iff.mp found
  simp [shown?, found, List.getElem?_set_self inside]

theorem running_of_starts {thread other index : Nat} {phase phase' : Phase}
    (shows : ofMove? thread phase phase' = some (.starts other index)) :
    ∃ prepared, phase' = .running index prepared := by
  unfold ofMove? at shows
  split at shows
  · simp at shows
  · simp only [Option.some.injEq, starts.injEq] at shows
    exact ⟨_, by rw [shows.2]⟩
  · cases shows

end Event

/-- The machines that some order of moves leads to, with what has shown on the way, the latest
first. -/
inductive Runs (p : Program) (first : Machine) : List Event → Machine → Prop where
  | start : Runs p first [] first
  | step {history : List Event} {m next : Machine} (thread : Nat) (before : Runs p first history m)
      (moved : p.advance? m thread = some next) :
      Runs p first ((Event.shown? thread m next).toList ++ history) next

/-- No thread begins a step before all are through with the step before. -/
def InStep (threads : Nat) (history : List Event) : Prop :=
  ∀ thread index older, .starts thread (index + 1) :: older <:+ history →
    ∀ other < threads, .finishes other index ∈ older

/-- What has shown of every thread when the machine is in a generation. -/
structure Logged (m : Machine) (history : List Event) : Prop where
  passed : ∀ index, index + 2 ≤ m.checkpoint.generation →
    ∀ other < m.threads.length, .finishes other index ∈ history
  through : ∀ other t, m.threads[other]? = some t →
    t.phase.through m.checkpoint.generation = true →
    ∀ index, m.checkpoint.generation = index + 1 → .finishes other index ∈ history

namespace Logged

variable {p : Program} {first now : Int × List Local} {m next : Machine} {history : List Event}
  {thread : Nat}

theorem start (p : Program) (shared : Int) (locals : List Local) :
    Logged (p.start shared locals) [] where
  passed := by simp [Program.start]
  through := by simp [Program.start]

theorem stays (logged : Logged m history) {events : List Event} {t t' : Thread} {shared : Int}
    {c : Checkpoint} (found : m.threads[thread]? = some t)
    (generation : c.generation = m.checkpoint.generation)
    (through : t'.phase.through m.checkpoint.generation = true →
      t.phase.through m.checkpoint.generation = true ∨
      ∃ index, m.checkpoint.generation = index + 1 ∧ .finishes thread index ∈ events) :
    Logged ⟨shared, c, m.threads.set thread t'⟩ (events ++ history) where
  passed := by
    intro index early other inside
    simp only [generation, List.length_set] at early inside
    exact List.mem_append_right _ (logged.passed index early other inside)
  through := by
    intro other t₁ found₁ done index now
    simp only [generation] at done now
    by_cases same : thread = other
    · subst same
      obtain ⟨inside, -⟩ := List.getElem?_eq_some_iff.mp found
      rw [List.getElem?_set_self inside, Option.some.injEq] at found₁
      subst found₁
      obtain done | ⟨index', now', shown⟩ := through done
      · exact List.mem_append_right _ (logged.through thread t found done index now)
      · obtain rfl : index = index' := by omega
        exact List.mem_append_left _ shown
    · rw [List.getElem?_set_ne same] at found₁
      exact List.mem_append_right _ (logged.through other t₁ found₁ done index now)

theorem passes (tracked : Tracked p first now m) (logged : Logged m history) {prepared : Int}
    {l' : Local} {shared : Int} {events : List Event}
    (found : m.threads[thread]? = some ⟨.arriving m.checkpoint.generation prepared, l'⟩)
    (calm : m.checkpoint.poisoned = false)
    (last : m.checkpoint.arrived + 1 = m.checkpoint.participants) :
    Logged ⟨shared,
        { m.checkpoint with arrived := 0, generation := m.checkpoint.generation + 1 },
        m.threads.set thread ⟨p.pastBarrier m.checkpoint.generation prepared, l'⟩⟩
      (events ++ history) where
  passed := by
    intro index early other inside
    simp only [List.length_set] at early inside
    apply List.mem_append_right
    by_cases before : index + 2 ≤ m.checkpoint.generation
    · exact logged.passed index before other inside
    · -- everybody has arrived, so everybody is through with the step before
      have all := tracked.all_wait found calm last
      refine logged.through other _ (List.getElem?_eq_getElem inside) ?_ index (by omega)
      by_cases same : thread = other
      · subst same
        rw [List.getElem?_eq_getElem inside, Option.some.injEq] at found
        simp [found, Phase.through]
      · apply Phase.through_of_waits
        apply all
        apply List.mem_of_getElem? (i := other)
        rw [List.getElem?_set_ne same, List.getElem?_eq_getElem inside]
  through := by
    intro other t found₁ done
    have all := tracked.all_wait found calm last
    have member := List.mem_of_getElem? found₁
    rw [← List.set_set ⟨.waiting m.checkpoint.generation prepared m.checkpoint.generation, l'⟩]
      at member
    rw [(fresh_of_all_wait all member).2] at done
    cases done

theorem advance (tracked : Tracked p first now m) (logged : Logged m history)
    (moved : p.advance? m thread = some next) :
    Logged next ((Event.shown? thread m next).toList ++ history) := by
  obtain ⟨t, t', shared, c, found, move, rfl⟩ := Program.move_of_advance? moved
  obtain ⟨l, entered, here⟩ := exists_of_forall₂ tracked.stands found
  rw [Event.shown?_set found]
  cases move with
  | prepares => exact logged.stays found rfl .inl
  | arrivesLate poisoned => exact logged.stays found rfl (by simp [Phase.through])
  | passes calm last =>
    cases here with
    | arriving within done => exact passes tracked logged found calm last
  | arrives calm missing =>
    cases here with
    | arriving within done => exact logged.stays found rfl (by simp [Phase.through])
  | wakesLate poisoned => exact logged.stays found rfl (by simp [Phase.through])
  | wakes calm passed => exact logged.stays found rfl (by simp)
  | takes taken step =>
    cases here with
    | running entering inside =>
      exact logged.stays found rfl fun _ => .inr ⟨_, entering, by simp [Event.ofMove?]⟩
  | panics none => exact logged.stays found rfl (by simp [Phase.through])
  | poisons => exact logged.stays found rfl (by simp [Phase.through])

end Logged

namespace Runs

variable {p : Program} {shared : Int} {locals : List Local} {history : List Event} {m : Machine}

theorem tracked (runs : Runs p (p.start shared locals) history m) :
    ∃ now, Tracked p (shared, locals) now m := by
  induction runs with
  | start => exact ⟨_, .start p shared locals⟩
  | step thread before moved ih =>
    obtain ⟨now, tracked⟩ := ih
    exact tracked.advance moved

theorem logged (runs : Runs p (p.start shared locals) history m) : Logged m history := by
  induction runs with
  | start => exact .start p shared locals
  | step thread before moved ih =>
    obtain ⟨now, tracked⟩ := before.tracked
    exact ih.advance tracked moved

theorem length_threads (runs : Runs p (p.start shared locals) history m) :
    m.threads.length = locals.length := by
  obtain ⟨now, tracked⟩ := runs.tracked
  rw [← tracked.stands.length_eq, length_of_rounds tracked.reached]

theorem inStep (runs : Runs p (p.start shared locals) history m) :
    InStep locals.length history := by
  induction runs with
  | start => simp [InStep]
  | @step history m next thread before moved ih =>
    have after := before.step thread moved
    obtain ⟨now, tracked⟩ := after.tracked
    have logged := after.logged
    have crew := after.length_threads
    obtain ⟨t, t', shared', c, found, -, rfl⟩ := Program.move_of_advance? moved
    rw [Event.shown?_set found] at logged ⊢
    cases shows : Event.ofMove? thread t.phase t'.phase with
    | none => simpa [shows] using ih
    | some event =>
      intro starter index older suffix other inside
      simp only [shows, Option.toList_some, List.singleton_append] at suffix logged
      obtain latest | earlier := List.suffix_cons_iff.mp suffix
      · obtain ⟨rfl, rfl⟩ := List.cons.inj latest
        obtain ⟨prepared, running⟩ := Event.running_of_starts shows
        obtain ⟨bound, -⟩ := List.getElem?_eq_some_iff.mp found
        have there : (m.threads.set thread t')[thread]? = some t' := List.getElem?_set_self bound
        obtain ⟨l, -, here⟩ := exists_of_forall₂ tracked.stands there
        have entered := here.generation_of_running running
        have finished := logged.passed index (by omega) other (by omega)
        simpa using finished
      · exact ih starter index older earlier other inside

end Runs

end NumaHeap.Lockstep
