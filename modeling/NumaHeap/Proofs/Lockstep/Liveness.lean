import Mathlib.Logic.Hydra
import NumaHeap.Proofs.Lockstep.Crew

/-!
A crew does not hang. Whoever has to wait, waits for somebody who can move; every move brings a
thread nearer to its end, or puts back to sleep a thread that woke for no reason; and after a panic
the barrier opens for nobody any more but to panic.
-/

namespace NumaHeap.Lockstep

variable {σ τ : Type}

/-! ## Nearer to the end -/

/-- What comes of a routine after an access. -/
inductive Routine.Next : Routine σ τ → Routine σ τ → Prop where
  | access {change : σ → σ} {next : σ → Routine σ τ} (shared : σ) :
      Next (next shared) (.access change next)

theorem Routine.next_wf : WellFounded (Routine.Next (σ := σ) (τ := τ)) := by
  refine ⟨fun routine => ?_⟩
  induction routine with
  | done state => exact ⟨_, nofun⟩
  | panic => exact ⟨_, nofun⟩
  | access change next ih =>
    refine ⟨_, fun rest follows => ?_⟩
    cases follows with
    | access shared => exact ih shared

def Worker.isAwake : Worker σ τ → Bool
  | .awake _ _ _ => true
  | _ => false

theorem cutExpand_set {α β : Type} {r : β → β → Prop} {f : α → β} {xs : List α} {index : Nat}
    {x x' : α} (found : xs[index]? = some x) (less : r (f x') (f x)) :
    Relation.CutExpand r ((xs.set index x').map f : Multiset β) (xs.map f) := by
  obtain ⟨inside, rfl⟩ := List.getElem?_eq_some_iff.mp found
  have before := (List.getElem_cons_eraseIdx_perm inside).map f
  have after := (List.set_perm_cons_eraseIdx inside x').map f
  rw [← Multiset.coe_eq_coe.mpr before, Multiset.coe_eq_coe.mpr after]
  exact Relation.cutExpand_single_add less ↑((xs.eraseIdx index).map f)

namespace Work

variable {w : Work σ τ} {thread : Nat} {shared : σ} {c : Checkpoint} {worker : Worker σ τ}
  {moved : Moved σ τ} {crew next later : Crew σ τ}

/-- What a thread has before it: places to go through, four for each step, and the routine that it
is in the middle of. A panic needs no place of its own, as it is always nearer to the end. -/
def ahead (w : Work σ τ) : Worker σ τ → Nat × Routine σ τ
  | .busy .preparing index rest => (4 * (w.length - index) + 5, rest)
  | .arriving index _ => (4 * (w.length - index) + 4, .panic)
  | .asleep index _ _ => (4 * (w.length - index) + 3, .panic)
  | .awake index _ _ => (4 * (w.length - index) + 3, .panic)
  | .busy .running index rest => (4 * (w.length - (index + 1)) + 6, rest)
  | .unwinding => (1, .panic)
  | .panicked => (0, .panic)
  | .finished _ => (0, .panic)

/-- Fewer places, or less of a routine. -/
abbrev Nearer : Nat × Routine σ τ → Nat × Routine σ τ → Prop := Prod.Lex (· < ·) Routine.Next

theorem nearer_wf : WellFounded (Nearer (σ := σ) (τ := τ)) :=
  WellFounded.prod_lex Nat.lt_wfRel.wf Routine.next_wf

theorem ahead_pastBarrier {index : Nat} {state : τ} :
    (w.ahead (w.pastBarrier thread index state)).1 < 4 * (w.length - index) + 3 := by
  unfold pastBarrier
  cases found : w.task? index with
  | none => simp [ahead]
  | some task =>
    have inside := inside_of_task? found
    simp only [Option.elim_some, ahead]
    omega

@[simp] theorem ahead_wake : w.ahead worker.wake = w.ahead worker := by cases worker <;> rfl

/-- A thread moves nearer to its end, or it woke for no reason and goes back to sleep. -/
theorem ahead_of_move (move : w.Move thread shared c worker moved) :
    Nearer (w.ahead moved.worker) (w.ahead worker) ∨
      moved.rings = false ∧ w.ahead moved.worker = w.ahead worker ∧
        worker.isAwake = true ∧ moved.worker.isAwake = false := by
  cases move with
  | @proceeds stage index state =>
    left
    cases stage with
    | preparing => exact .left _ _ (by simp)
    | running => exact .left _ _ (by simp)
  | @panics stage index =>
    left
    cases stage with
    | preparing => exact .left _ _ (by simp)
    | running => exact .left _ _ (by simp)
  | @accesses stage index change rest =>
    left
    cases stage with
    | preparing => exact .right _ (.access shared)
    | running => exact .right _ (.access shared)
  | arrivesLate poisoned => exact .inl (.left _ _ (by simp))
  | passes calm last => exact .inl (.left _ _ (Nat.lt_succ_of_lt ahead_pastBarrier))
  | arrives calm missing => exact .inl (.left _ _ (by simp))
  | sleepsOn calm => exact .inr ⟨rfl, rfl, rfl, rfl⟩
  | wakesLate poisoned => exact .inl (.left _ _ (by simp))
  | wakes calm passed => exact .inl (.left _ _ ahead_pastBarrier)
  | poisons => exact .inl (.left _ _ (by simp))

/-- All that the threads have before them. -/
def allAhead (w : Work σ τ) (crew : Crew σ τ) : Multiset (Nat × Routine σ τ) :=
  crew.workers.map w.ahead

/-- Some thread is nearer to its end and no other is farther off, or fewer are awake for nothing. -/
theorem ahead_of_advance (advanced : w.advance? crew thread = some next) :
    Prod.Lex (Relation.CutExpand Nearer) (· < ·)
      (w.allAhead next, next.workers.countP Worker.isAwake)
      (w.allAhead crew, crew.workers.countP Worker.isAwake) := by
  obtain ⟨worker, moved, found, move, rfl⟩ := move_of_advance? advanced
  obtain nearer | ⟨quiet, same, wakeful, sleepy⟩ := ahead_of_move move
  · apply Prod.Lex.left
    -- more may be awake now, but whoever was woken is as far from its end as it was asleep
    rw [allAhead, crew.map_after thread moved fun _ => ahead_wake]
    exact cutExpand_set found nearer
  · have total := countP_set (q := Worker.isAwake) found moved.worker
    rw [wakeful, sleepy, Bool.toNat_true, Bool.toNat_false] at total
    rw [allAhead, crew.workers_after thread quiet, map_set_eq found same]
    apply Prod.Lex.right
    omega

/-- Every way to go on from a crew comes to an end, unless sleepers go on to wake for no reason. -/
def Halts (w : Work σ τ) (crew : Crew σ τ) : Prop :=
  Acc (fun next crew => ∃ thread, w.advance? crew thread = some next) crew

theorem halts (w : Work σ τ) (crew : Crew σ τ) : w.Halts crew := by
  have falls := WellFounded.prod_lex (nearer_wf (σ := σ) (τ := τ)).cutExpand Nat.lt_wfRel.wf
  refine Subrelation.accessible ?_ (InvImage.accessible
    (fun crew => (w.allAhead crew, crew.workers.countP Worker.isAwake)) (falls.apply _))
  rintro next crew ⟨thread, advanced⟩
  exact ahead_of_advance advanced

/-! ## Nobody waits in vain -/

/-- Whoever has to wait, waits for somebody who has neither arrived nor ended. -/
theorem Kept.missing (kept : w.Kept crew) (member : worker ∈ crew.workers)
    (held : worker.isHeld crew.checkpoint = true) :
    ∃ other ∈ crew.workers,
      other.waits crew.checkpoint.generation = false ∧ other.isEnded = false := by
  obtain ⟨waits, calm⟩ := Worker.isHeld_iff.mp held
  have within := (kept.placed worker member).within_of_waits waits
  -- were nobody missing, all would have been counted, and the last would not have gone to sleep
  have someone : ∃ other ∈ crew.workers, other.waits crew.checkpoint.generation = false := by
    by_contra all
    simp only [not_exists, not_and, Bool.not_eq_false] at all
    have crowd := List.countP_eq_length.mpr all
    have queue := kept.queue calm
    have short := kept.short
    have full := kept.full
    omega
  obtain ⟨other, among, absent⟩ := someone
  refine ⟨other, among, absent, ?_⟩
  cases kept.placed other among with
  | panicked within alarmed =>
    rw [calm] at alarmed
    cases alarmed
  | finished last => omega
  | _ => rfl

theorem Kept.moves (kept : w.Kept crew) (member : worker ∈ crew.workers)
    (going : worker.isEnded = false) :
    ∃ thread worker next, crew.workers[thread]? = some worker ∧
      worker.isHeld crew.checkpoint = false ∧ w.advance? crew thread = some next := by
  obtain ⟨free, among, unheld, going⟩ : ∃ free ∈ crew.workers,
      free.isHeld crew.checkpoint = false ∧ free.isEnded = false := by
    cases held : worker.isHeld crew.checkpoint with
    | false => exact ⟨worker, member, held, going⟩
    | true =>
      obtain ⟨other, among, absent, going⟩ := kept.missing member held
      refine ⟨other, among, Bool.eq_false_iff.mpr fun held => ?_, going⟩
      rw [(Worker.isHeld_iff.mp held).1] at absent
      cases absent
  obtain ⟨thread, found⟩ := List.mem_iff_getElem?.mp among
  obtain ⟨moved, move⟩ := Option.isSome_iff_exists.mp
    ((kept.placed free among).move?_isSome thread crew.shared unheld going)
  exact ⟨thread, free, _, found, unheld, advance?_of_move? found move⟩

/-! ## After a panic -/

theorem lost_of_move (move : w.Move thread shared c worker moved) (lost : worker.isLost = true) :
    moved.worker.isLost = true := by
  cases move with
  | poisons => rfl
  | _ => cases lost

/-- While a thread is lost, another does not find all at the barrier. -/
theorem Kept.not_last (kept : w.Kept crew) (lost : 0 < crew.workers.countP Worker.isLost) {index : Nat}
    {state : τ} (found : crew.workers[thread]? = some (.arriving index state))
    (calm : crew.checkpoint.poisoned = false) :
    crew.checkpoint.arrived + 1 ≠ crew.checkpoint.participants := by
  intro last
  have waits := kept.all_wait found calm last
  -- the lost thread is still among those that would all have to wait
  have total := countP_set (q := Worker.isLost) found
    (.asleep index state crew.checkpoint.generation)
  obtain ⟨worker, member, lost⟩ := List.countP_pos_iff.mp (lost.trans_eq total.symm)
  cases worker with
  | unwinding => cases waits _ member
  | panicked => cases waits _ member
  | _ => cases lost

/-- A lost thread stays lost, and while there is one no generation ends. -/
theorem Kept.lost_advance (kept : w.Kept crew) (lost : 0 < crew.workers.countP Worker.isLost)
    (advanced : w.advance? crew thread = some next) :
    next.checkpoint.generation = crew.checkpoint.generation ∧
      0 < next.workers.countP Worker.isLost := by
  obtain ⟨worker, moved, found, move, rfl⟩ := move_of_advance? advanced
  refine ⟨?_, ?_⟩
  · cases move with
    | passes calm last => exact absurd last (kept.not_last lost found calm)
    | _ => rfl
  · have total := countP_set (q := Worker.isLost) found moved.worker
    rw [crew.countP_after thread moved Worker.isLost_wake]
    cases before : worker.isLost with
    | false =>
      rw [before, Bool.toNat_false] at total
      omega
    | true =>
      rw [before, lost_of_move move before] at total
      omega

theorem Kept.lost_happens (kept : w.Kept crew) (lost : 0 < crew.workers.countP Worker.isLost)
    (happened : w.Happens crew next) :
    next.checkpoint.generation = crew.checkpoint.generation ∧
      0 < next.workers.countP Worker.isLost := by
  cases happened with
  | moves thread advanced => exact kept.lost_advance lost advanced
  | @stirs thread worker found =>
    refine ⟨rfl, ?_⟩
    have total := countP_set (q := Worker.isLost) found worker.wake
    simp only [Worker.isLost_wake, Nat.add_right_cancel_iff] at total
    exact lost.trans_eq total.symm

theorem Kept.lost_reached (kept : w.Kept crew) (lost : 0 < crew.workers.countP Worker.isLost)
    (reached : w.Reached crew later) :
    later.checkpoint.generation = crew.checkpoint.generation ∧
      0 < later.workers.countP Worker.isLost := by
  induction reached with
  | start => exact ⟨rfl, lost⟩
  | next before happened ih =>
    have step := (kept.reached before).lost_happens ih.2 happened
    exact ⟨step.1.trans ih.1, step.2⟩

/-- Nobody comes back from a crew in which a thread is lost. -/
theorem Kept.unfinished (kept : w.Kept crew) (lost : 0 < crew.workers.countP Worker.isLost)
    (member : worker ∈ crew.workers) : worker.isFinished = false := by
  obtain ⟨loser, among, lost⟩ := List.countP_pos_iff.mp lost
  have within := (kept.placed loser among).within_of_lost lost
  by_contra finished
  have last := (kept.placed worker member).last_of_finished (by simpa using finished)
  omega

/-! ## The promises -/

/-- What a crew can rely on. -/
structure Promises (w : Work σ τ) (crew : Crew σ τ) : Prop where
  /-- Unless all have ended, somebody can move who does not have to wait. -/
  moves : (∃ worker ∈ crew.workers, worker.isEnded = false) →
    ∃ thread worker next, crew.workers[thread]? = some worker ∧
      worker.isHeld crew.checkpoint = false ∧ w.advance? crew thread = some next
  /-- Whoever has to wait, waits for somebody who has neither arrived nor ended. -/
  missing : ∀ worker ∈ crew.workers, worker.isHeld crew.checkpoint = true →
    ∃ other ∈ crew.workers,
      other.waits crew.checkpoint.generation = false ∧ other.isEnded = false
  halts : w.Halts crew
  short : crew.checkpoint.arrived < crew.checkpoint.participants
  queue : crew.checkpoint.poisoned = false →
    crew.checkpoint.arrived = crew.workers.countP (Worker.waits crew.checkpoint.generation)
  /-- After a panic no generation ends, and nobody comes back. -/
  lost : (∃ worker ∈ crew.workers, worker.isLost = true) → ∀ later, w.Reached crew later →
    later.checkpoint.generation = crew.checkpoint.generation ∧
      ∀ worker ∈ later.workers, worker.isFinished = false
  /-- When nobody can move any more, all have come back or all have panicked. -/
  united : (∀ thread, w.advance? crew thread = none) →
    (∀ worker ∈ crew.workers, worker.isFinished = true) ∨
      ∀ worker ∈ crew.workers, worker.isPanicked = true
  /-- A generation in a machine word is as good as one that never wraps. -/
  told : ∀ worker ∈ crew.workers, ∀ since, worker.since? = some since →
    (Word.wrap crew.checkpoint.generation = Word.wrap since ↔
      crew.checkpoint.generation = since)

theorem Kept.united (kept : w.Kept crew) (stuck : ∀ thread, w.advance? crew thread = none) :
    (∀ worker ∈ crew.workers, worker.isFinished = true) ∨
      ∀ worker ∈ crew.workers, worker.isPanicked = true := by
  have ended : ∀ worker ∈ crew.workers, worker.isPanicked = true ∨ worker.isFinished = true := by
    intro worker member
    by_contra going
    obtain ⟨thread, free, next, -, -, advanced⟩ :=
      kept.moves member (by simpa [Worker.isEnded] using going)
    rw [stuck thread] at advanced
    cases advanced
  by_cases lost : 0 < crew.workers.countP Worker.isLost
  · right
    intro worker member
    have unfinished := kept.unfinished lost member
    simpa [unfinished] using ended worker member
  · left
    intro worker member
    obtain panicked | finished := ended worker member
    · refine absurd (List.countP_pos_iff.mpr ⟨worker, member, ?_⟩) lost
      cases worker with
      | panicked => rfl
      | _ => cases panicked
    · exact finished

theorem Kept.told (kept : w.Kept crew) (member : worker ∈ crew.workers) {since : Nat}
    (there : worker.since? = some since) :
    Word.wrap crew.checkpoint.generation = Word.wrap since ↔ crew.checkpoint.generation = since := by
  have near : crew.checkpoint.generation = since ∨ crew.checkpoint.generation = since + 1 := by
    cases kept.placed worker member with
    | asleep within calm => exact .inl (Option.some.inj there)
    | waiting within => exact .inl (Option.some.inj there)
    | released entered within =>
      obtain rfl := Option.some.inj there
      exact .inr entered
    | _ => cases there
  unfold Word.wrap Word.bound
  omega

theorem Kept.promises (kept : w.Kept crew) : w.Promises crew where
  moves := fun ⟨_, member, going⟩ => kept.moves member going
  missing := fun _ member held => kept.missing member held
  halts := w.halts crew
  short := kept.short
  queue := kept.queue
  lost := by
    rintro someone later reached
    have after := kept.lost_reached (List.countP_pos_iff.mpr someone) reached
    exact ⟨after.1, fun _ member => (kept.reached reached).unfinished after.2 member⟩
  united := kept.united
  told := fun _ member _ there => kept.told member there

end Work

end NumaHeap.Lockstep
