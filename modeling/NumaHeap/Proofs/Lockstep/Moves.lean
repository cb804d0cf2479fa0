import Mathlib.Algebra.BigOperators.Group.List.Basic
import NumaHeap.Lockstep.Machine
import NumaHeap.Size.Word

/-!
The moves of a thread, one by one. Each brings the thread nearer to its end, whatever the others
do, so a run cannot go on for ever.
-/

namespace NumaHeap.Lockstep

/-- A move of one thread: what it finds in the shared integer and in the barrier, and what it
leaves there. -/
inductive Move (p : Program) (shared : Int) (c : Checkpoint) :
    Thread → Thread → Int → Checkpoint → Prop where
  | prepares {index : Nat} {l : Local} :
      Move p shared c ⟨.preparing index, l⟩
        ⟨.arriving index ((p.step? index).elim 0 (·.prepare l)), l⟩ shared c
  | arrivesLate {index : Nat} {prepared : Int} {l : Local} (poisoned : c.poisoned = true) :
      Move p shared c ⟨.arriving index prepared, l⟩ ⟨.unwinding, l⟩ shared c
  | passes {index : Nat} {prepared : Int} {l : Local} (calm : c.poisoned = false)
      (last : c.arrived + 1 = c.participants) :
      Move p shared c ⟨.arriving index prepared, l⟩ ⟨p.pastBarrier index prepared, l⟩ shared
        { c with arrived := 0, generation := c.generation + 1 }
  | arrives {index : Nat} {prepared : Int} {l : Local} (calm : c.poisoned = false)
      (missing : c.arrived + 1 ≠ c.participants) :
      Move p shared c ⟨.arriving index prepared, l⟩ ⟨.waiting index prepared c.generation, l⟩
        shared { c with arrived := c.arrived + 1 }
  | wakesLate {index : Nat} {prepared : Int} {since : Nat} {l : Local}
      (poisoned : c.poisoned = true) :
      Move p shared c ⟨.waiting index prepared since, l⟩ ⟨.unwinding, l⟩ shared c
  | wakes {index : Nat} {prepared : Int} {since : Nat} {l : Local} (calm : c.poisoned = false)
      (passed : c.generation ≠ since) :
      Move p shared c ⟨.waiting index prepared since, l⟩ ⟨p.pastBarrier index prepared, l⟩
        shared c
  | takes {index : Nat} {prepared shared' : Int} {l l' : Local} {step : Step}
      (found : p.step? index = some step)
      (taken : step.execute prepared shared l = some (shared', l')) :
      Move p shared c ⟨.running index prepared, l⟩ ⟨.preparing (index + 1), l'⟩ shared' c
  | panics {index : Nat} {prepared : Int} {l : Local}
      (none : (p.step? index).bind (·.execute prepared shared l) = none) :
      Move p shared c ⟨.running index prepared, l⟩ ⟨.unwinding, l⟩ shared c
  | poisons {l : Local} :
      Move p shared c ⟨.unwinding, l⟩ ⟨.panicked, l⟩ shared c.poison

namespace Program

variable {p : Program} {shared shared' : Int} {c c' : Checkpoint} {t t' : Thread}

theorem move_of_move? (moved : p.move? shared c t = some (t', shared', c')) :
    Move p shared c t t' shared' c' := by
  obtain ⟨phase, l⟩ := t
  cases phase with
  | preparing index =>
    simp only [move?, Option.some.injEq, Prod.mk.injEq] at moved
    obtain ⟨rfl, rfl, rfl⟩ := moved
    exact .prepares
  | arriving index prepared =>
    by_cases poisoned : c.poisoned = true
    · simp [move?, Checkpoint.arrive, poisoned] at moved
      obtain ⟨rfl, rfl, rfl⟩ := moved
      exact .arrivesLate poisoned
    · by_cases last : c.arrived + 1 = c.participants
      · simp only [move?, Checkpoint.arrive, if_neg poisoned, if_pos last, Option.some.injEq,
          Prod.mk.injEq] at moved
        obtain ⟨rfl, rfl, rfl⟩ := moved
        exact .passes (Bool.eq_false_iff.mpr poisoned) last
      · simp only [move?, Checkpoint.arrive, if_neg poisoned, if_neg last, Option.some.injEq,
          Prod.mk.injEq] at moved
        obtain ⟨rfl, rfl, rfl⟩ := moved
        exact .arrives (Bool.eq_false_iff.mpr poisoned) last
  | waiting index prepared since =>
    by_cases poisoned : c.poisoned = true
    · simp [move?, Checkpoint.holds, poisoned] at moved
      obtain ⟨rfl, rfl, rfl⟩ := moved
      exact .wakesLate poisoned
    · rw [Bool.not_eq_true] at poisoned
      simp [move?, Checkpoint.holds, poisoned] at moved
      obtain ⟨passed, rfl, rfl, rfl⟩ := moved
      exact .wakes poisoned passed
  | running index prepared =>
    cases taken : (p.step? index).bind (·.execute prepared shared l) with
    | none =>
      simp only [move?, taken, Option.some.injEq, Prod.mk.injEq] at moved
      obtain ⟨rfl, rfl, rfl⟩ := moved
      exact .panics taken
    | some result =>
      obtain ⟨step, found, taken'⟩ := Option.bind_eq_some_iff.mp taken
      simp only [move?, taken, Option.some.injEq, Prod.mk.injEq] at moved
      obtain ⟨rfl, rfl, rfl⟩ := moved
      exact .takes found taken'
  | unwinding =>
    simp only [move?, Option.some.injEq, Prod.mk.injEq] at moved
    obtain ⟨rfl, rfl, rfl⟩ := moved
    exact .poisons
  | panicked => simp [move?] at moved
  | finished => simp [move?] at moved

variable {m next : Machine} {thread : Nat}

theorem move_of_advance? (moved : p.advance? m thread = some next) :
    ∃ t t' shared c, m.threads[thread]? = some t ∧ Move p m.shared m.checkpoint t t' shared c ∧
      next = ⟨shared, c, m.threads.set thread t'⟩ := by
  simp only [advance?, Option.bind_eq_bind, Option.bind_eq_some_iff, Option.pure_def,
    Option.some.injEq] at moved
  obtain ⟨t, found, ⟨t', shared, c⟩, move, rfl⟩ := moved
  exact ⟨t, t', shared, c, found, move_of_move? move, rfl⟩

theorem advance?_eq_none_iff :
    p.advance? m thread = none ↔
      ∀ t, m.threads[thread]? = some t → p.move? m.shared m.checkpoint t = none := by
  cases found : m.threads[thread]? with
  | none => simp [advance?, found]
  | some t => cases move : p.move? m.shared m.checkpoint t <;> simp [advance?, found, move]

/-! ## Nearer to the end -/

/-- How many moves a thread has at most before it. -/
def remaining (p : Program) : Phase → Nat
  | .preparing index => 4 * (p.length - index) + 5
  | .arriving index _ => 4 * (p.length - index) + 4
  | .waiting index _ _ => 4 * (p.length - index) + 3
  | .running index _ => 4 * (p.length - index) + 2
  | .unwinding => 1
  | .panicked => 0
  | .finished => 0

/-- How many moves a machine has at most before it. -/
def remainingMoves (p : Program) (m : Machine) : Nat :=
  (m.threads.map fun t => p.remaining t.phase).sum

theorem remaining_pastBarrier_lt (p : Program) (index : Nat) (prepared : Int) :
    p.remaining (p.pastBarrier index prepared) < 4 * (p.length - index) + 3 := by
  unfold pastBarrier
  split <;> simp [remaining]

theorem inside_of_step? {index : Nat} {step : Step} (found : p.step? index = some step) :
    index < p.length := by
  by_contra outside
  simp [step?, outside] at found

theorem remaining_lt (move : Move p shared c t t' shared' c') :
    p.remaining t'.phase < p.remaining t.phase := by
  cases move with
  | passes calm last => exact Nat.lt_succ_of_lt (p.remaining_pastBarrier_lt ..)
  | wakes calm passed => exact p.remaining_pastBarrier_lt ..
  | takes found taken =>
    have inside := inside_of_step? found
    simp only [remaining]
    omega
  | _ => simp [remaining]

theorem sum_map_set_lt {ts : List Thread} {f : Thread → Nat} {index : Nat}
    (found : ts[index]? = some t) (less : f t' < f t) :
    ((ts.set index t').map f).sum < (ts.map f).sum := by
  induction ts generalizing index with
  | nil => simp at found
  | cons first ts ih =>
    cases index with
    | zero =>
      obtain rfl := Option.some.inj found
      simpa using less
    | succ index => simpa using ih found

theorem remainingMoves_lt (moved : p.advance? m thread = some next) :
    p.remainingMoves next < p.remainingMoves m := by
  obtain ⟨t, t', shared, c, found, move, rfl⟩ := move_of_advance? moved
  exact sum_map_set_lt found (remaining_lt move)

/-- Every way to go on from a machine comes to an end. -/
def Halts (p : Program) (m : Machine) : Prop :=
  Acc (fun next m => ∃ thread, p.advance? m thread = some next) m

theorem halts (p : Program) (m : Machine) : p.Halts m := by
  have nearer : ∀ {next m : Machine}, (∃ thread, p.advance? m thread = some next) →
      p.remainingMoves next < p.remainingMoves m := by
    rintro next m ⟨thread, moved⟩
    exact remainingMoves_lt moved
  exact Subrelation.accessible nearer (InvImage.accessible _ (Nat.lt_wfRel.wf.apply _))

end Program

end NumaHeap.Lockstep
