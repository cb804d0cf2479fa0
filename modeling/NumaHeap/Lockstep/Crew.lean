import NumaHeap.Lockstep.Checkpoint

/-!
Lock step for threads that do anything at all between two barriers. What a thread does on its own is
a routine, access by access to what is shared; at the barrier a thread that comes too early goes to
sleep, and whoever lets the others go wakes all that sleep. A sleeper may also wake for no reason, and
then looks for itself whether it has to go on waiting.
-/

namespace NumaHeap.Lockstep

/-- What a thread does on its own. An access looks at what is shared and changes it as one, and what
comes next depends on what it saw. After finitely many accesses a routine ends, in a state or in a
panic. -/
inductive Routine (σ τ : Type) where
  | done (state : τ)
  | panic
  | access (change : σ → σ) (next : σ → Routine σ τ)

/-- One step, for each thread: what is prepared before the barrier, and the step itself. The state of
a thread holds what it prepared and what its steps remember. -/
structure Task (σ τ : Type) where
  prepare : (thread : Nat) → τ → Routine σ τ
  execute : (thread : Nat) → τ → Routine σ τ

/-- Steps to go through, some number of times. -/
structure Work (σ τ : Type) where
  tasks : List (Task σ τ)
  iterations : Nat

/-- What a thread is busy with. -/
inductive Stage where
  | preparing
  | running
deriving DecidableEq

/-- A thread of a crew. Positions count the steps of the whole run. -/
inductive Worker (σ τ : Type) where
  /-- In the middle of a routine. -/
  | busy (stage : Stage) (index : Nat) (rest : Routine σ τ)
  /-- About to arrive at the barrier before a step, or at the last barrier. -/
  | arriving (index : Nat) (state : τ)
  /-- Asleep at the barrier, until it is woken. -/
  | asleep (index : Nat) (state : τ) (generation : Nat)
  /-- Awake at the barrier, and about to look whether it has to go on waiting. -/
  | awake (index : Nat) (state : τ) (generation : Nat)
  /-- Has panicked, but has not yet poisoned the barrier. -/
  | unwinding
  | panicked
  | finished (state : τ)

/-- All threads, and what they share. -/
structure Crew (σ τ : Type) where
  shared : σ
  checkpoint : Checkpoint
  workers : List (Worker σ τ)

variable {σ τ : Type}

namespace Worker

/-- A sleeper wakes. -/
def wake : Worker σ τ → Worker σ τ
  | .asleep index state generation => .awake index state generation
  | worker => worker

/-- The generation in which a thread has arrived at the barrier, while it is there. -/
def since? : Worker σ τ → Option Nat
  | .asleep _ _ generation => some generation
  | .awake _ _ generation => some generation
  | _ => none

/-- Whether a thread has panicked, and maybe not yet poisoned the barrier. -/
def isLost : Worker σ τ → Bool
  | .unwinding => true
  | .panicked => true
  | _ => false

def isPanicked : Worker σ τ → Bool
  | .panicked => true
  | _ => false

def isFinished : Worker σ τ → Bool
  | .finished _ => true
  | _ => false

/-- Whether a thread will never move again. -/
def isEnded (worker : Worker σ τ) : Bool := worker.isPanicked || worker.isFinished

end Worker

/-- What comes of a move of one thread. -/
structure Moved (σ τ : Type) where
  worker : Worker σ τ
  shared : σ
  checkpoint : Checkpoint
  /-- All sleepers are woken. -/
  rings : Bool

/-- The crew after a move of the thread at a position. -/
def Crew.after (crew : Crew σ τ) (thread : Nat) (moved : Moved σ τ) : Crew σ τ where
  shared := moved.shared
  checkpoint := moved.checkpoint
  workers :=
    if moved.rings then (crew.workers.set thread moved.worker).map (·.wake)
    else crew.workers.set thread moved.worker

namespace Work

/-- How many steps each thread takes. -/
def length (w : Work σ τ) : Nat := w.iterations * w.tasks.length

/-- The step at a position of the whole run. -/
def task? (w : Work σ τ) (index : Nat) : Option (Task σ τ) :=
  if index < w.length then w.tasks[index % w.tasks.length]? else none

/-- A thread begins to prepare a step. Nothing is prepared for the last barrier. -/
def begins (w : Work σ τ) (thread index : Nat) (state : τ) : Worker σ τ :=
  .busy .preparing index ((w.task? index).elim (.done state) (·.prepare thread state))

/-- Where a thread goes once it is past the barrier: to the step, or home after the last one. -/
def pastBarrier (w : Work σ τ) (thread index : Nat) (state : τ) : Worker σ τ :=
  (w.task? index).elim (.finished state) fun task =>
    .busy .running index (task.execute thread state)

/-- Where a thread goes once a routine is done: to the barrier, or on to the next step. -/
def proceeds (w : Work σ τ) (thread : Nat) : (stage : Stage) → (index : Nat) → τ → Worker σ τ
  | .preparing, index, state => .arriving index state
  | .running, index, state => w.begins thread (index + 1) state

/-- A move of one thread. There is none for a thread that is asleep or has ended. -/
def move? (w : Work σ τ) (thread : Nat) (shared : σ) (c : Checkpoint) :
    Worker σ τ → Option (Moved σ τ)
  | .busy stage index (.done state) =>
    some ⟨w.proceeds thread stage index state, shared, c, false⟩
  | .busy _ _ .panic => some ⟨.unwinding, shared, c, false⟩
  | .busy stage index (.access change next) =>
    some ⟨.busy stage index (next shared), change shared, c, false⟩
  | .arriving index state =>
    match c.arrive with
    | (.panics, c) => some ⟨.unwinding, shared, c, false⟩
    | (.passes, c) => some ⟨w.pastBarrier thread index state, shared, c, true⟩
    | (.waits generation, c) => some ⟨.asleep index state generation, shared, c, false⟩
  | .asleep _ _ _ => none
  | .awake index state generation =>
    if c.holds generation then some ⟨.asleep index state generation, shared, c, false⟩
    else if c.poisoned then some ⟨.unwinding, shared, c, false⟩
    else some ⟨w.pastBarrier thread index state, shared, c, false⟩
  | .unwinding => some ⟨.panicked, shared, c.poison, true⟩
  | .panicked => none
  | .finished _ => none

/-- The crew before any thread has moved. -/
def start (w : Work σ τ) (shared : σ) (states : List τ) : Crew σ τ where
  shared := shared
  checkpoint := { participants := states.length }
  workers := states.mapIdx fun thread state => w.begins thread 0 state

/-- The thread at a position moves, if it can. -/
def advance? (w : Work σ τ) (crew : Crew σ τ) (thread : Nat) : Option (Crew σ τ) := do
  let worker ← crew.workers[thread]?
  let moved ← w.move? thread crew.shared crew.checkpoint worker
  return crew.after thread moved

/-- What may happen to a crew: a thread moves, or a sleeper wakes for no reason. -/
inductive Happens (w : Work σ τ) (crew : Crew σ τ) : Crew σ τ → Prop where
  | moves (thread : Nat) {next : Crew σ τ} (moved : w.advance? crew thread = some next) :
      Happens w crew next
  | stirs (thread : Nat) {worker : Worker σ τ} (found : crew.workers[thread]? = some worker) :
      Happens w crew { crew with workers := crew.workers.set thread worker.wake }

/-- The crews that some order of moves leads to. -/
inductive Reached (w : Work σ τ) (first : Crew σ τ) : Crew σ τ → Prop where
  | start : Reached w first first
  | next {crew later : Crew σ τ} (before : Reached w first crew) (happens : w.Happens crew later) :
      Reached w first later

end Work

end NumaHeap.Lockstep
