import Mathlib
import NumaHeap.Lockstep.Rounds

/-!
What a step does, taken apart: a gain of the shared integer, and what becomes of the local state. A
step that gains something does not look at the shared integer, so the threads of a round may take
it in any order.
-/

namespace NumaHeap.Lockstep

namespace Step

/-- What a step adds to the shared integer. -/
def gain (l : Local) : Step → Int
  | .add => l.value
  | .prepareMultiple factor => l.value * factor
  | _ => 0

/-- The local state after a step, or a panic. -/
def after (shared : Int) (l : Local) : Step → Option Local
  | .observe => some { l with log := l.log ++ [shared] }
  | .increment amount => some { l with value := l.value + amount }
  | .failIf value => if l.value = value then none else some l
  | _ => some l

theorem execute_prepare (step : Step) (shared : Int) (l : Local) :
    step.execute (step.prepare l) shared l =
      (step.after shared l).map fun l' => (shared + step.gain l, l') := by
  cases step with
  | failIf value => by_cases hit : l.value = value <;> simp [execute, after, gain, hit]
  | _ => simp [execute, after, gain, prepare]

/-- Only `observe` looks at the shared integer. -/
theorem after_congr {step : Step} {shared shared' : Int}
    (same : step = .observe → shared = shared') (l : Local) :
    step.after shared l = step.after shared' l := by
  cases step with
  | observe => rw [same rfl]
  | _ => rfl

@[simp] theorem gain_observe (l : Local) : Step.observe.gain l = 0 := rfl

/-- A step that may panic gains nothing. -/
theorem gain_of_panics {step : Step} {shared : Int} {l : Local}
    (panics : step.after shared l = none) (other : Local) : step.gain other = 0 := by
  cases step <;> simp_all [after, gain]

@[simp] theorem after_nop (shared : Int) (l : Local) : Step.nop.after shared l = some l := rfl

@[simp] theorem gain_nop (l : Local) : Step.nop.gain l = 0 := rfl

end Step

/-! ## Rounds -/

/-- What the threads gain does not show in what a step leaves of a local state. -/
theorem Step.after_gain (step : Step) (shared : Int) (l other : Local) :
    step.after (shared + step.gain l) other = step.after shared other :=
  Step.after_congr (by rintro rfl; simp) other

theorem round_of_forall₂ {step : Step} {shared : Int} {ls ls' : List Local}
    (all : List.Forall₂ (fun l l' => step.after shared l = some l') ls ls') :
    round step shared ls = some (shared + (ls.map step.gain).sum, ls') := by
  induction ls generalizing shared ls' with
  | nil =>
    cases all
    simp [round]
  | cons l rest ih =>
    obtain - | ⟨one, all⟩ := all
    have tail : round step (shared + step.gain l) rest = _ :=
      ih (by simpa only [Step.after_gain] using all)
    simp [round, Step.execute_prepare, one, tail, add_assoc]

theorem round_of_panics {step : Step} {shared : Int} {ls : List Local}
    (panics : ∃ l ∈ ls, step.after shared l = none) : round step shared ls = none := by
  induction ls generalizing shared with
  | nil => simp at panics
  | cons l rest ih =>
    cases one : step.after shared l with
    | none => simp [round, Step.execute_prepare, one]
    | some l' =>
      have later : ∃ l ∈ rest, step.after shared l = none := by simpa [one] using panics
      have tail : round step (shared + step.gain l) rest = none :=
        ih (by simpa only [Step.after_gain] using later)
      simp [round, Step.execute_prepare, one, tail]

theorem length_of_round {step : Step} {shared shared' : Int} {ls ls' : List Local}
    (ends : round step shared ls = some (shared', ls')) : ls'.length = ls.length := by
  induction ls generalizing shared ls' shared' with
  | nil => simp [round] at ends; simp [← ends.2]
  | cons l rest ih =>
    simp only [round, Option.pure_def, Option.bind_eq_bind, Option.bind_eq_some_iff,
      Option.some.injEq, Prod.mk.injEq] at ends
    obtain ⟨⟨s₁, l₁⟩, -, ⟨s₂, ls₂⟩, tail, -, rfl⟩ := ends
    simp [ih tail]

theorem length_of_rounds {steps : List Step} {shared shared' : Int} {ls ls' : List Local}
    (ends : rounds steps shared ls = some (shared', ls')) : ls'.length = ls.length := by
  induction steps generalizing shared ls with
  | nil => simp [rounds] at ends; simp [← ends.2]
  | cons step rest ih =>
    simp only [rounds, Option.bind_eq_bind, Option.bind_eq_some_iff] at ends
    obtain ⟨⟨s₁, ls₁⟩, one, rest⟩ := ends
    rw [ih rest, length_of_round one]

theorem rounds_append (steps more : List Step) (shared : Int) (ls : List Local) :
    rounds (steps ++ more) shared ls =
      (rounds steps shared ls).bind fun r => rounds more r.1 r.2 := by
  induction steps generalizing shared ls with
  | nil => rfl
  | cons step rest ih =>
    simp only [List.cons_append, rounds, Option.bind_eq_bind, Option.bind_assoc, ih]

theorem rounds_nobody (steps : List Step) (shared : Int) :
    rounds steps shared [] = some (shared, []) := by
  induction steps with
  | nil => rfl
  | cons step rest ih => simp [rounds, round, ih]

/-- A step of nothing changes nothing. -/
theorem rounds_nop (steps : List Step) (shared : Int) (ls : List Local) :
    rounds (.nop :: steps) shared ls = rounds steps shared ls := by
  have idle : List.Forall₂ (fun l l' => Step.nop.after shared l = some l') ls ls := by
    simp [List.forall₂_same]
  simp [rounds, round_of_forall₂ idle]

/-! ## The steps of a whole run -/

namespace Program

@[simp] theorem length_unrolled (p : Program) : p.unrolled.length = p.length := by
  simp [unrolled, length]

theorem getElem?_flatten_replicate (steps : List Step) (iterations index : Nat) :
    (List.replicate iterations steps).flatten[index]? =
      if index < iterations * steps.length then steps[index % steps.length]? else none := by
  induction iterations generalizing index with
  | zero => simp
  | succ n ih =>
    have total : (n + 1) * steps.length = n * steps.length + steps.length := Nat.succ_mul ..
    rw [List.replicate_succ, List.flatten_cons, List.getElem?_append]
    by_cases first : index < steps.length
    · rw [if_pos first, if_pos (by omega), Nat.mod_eq_of_lt first]
    · have shift : index - steps.length < n * steps.length ↔ index < (n + 1) * steps.length := by
        omega
      rw [if_neg first, ih, Nat.mod_eq_sub_mod (Nat.le_of_not_lt first)]
      simp only [shift]

theorem getElem?_unrolled (p : Program) (index : Nat) : p.unrolled[index]? = p.step? index :=
  getElem?_flatten_replicate ..

/-- What is done before each generation of the barrier: nothing before the first, and then the
steps. -/
def agenda (p : Program) : List Step := .nop :: p.unrolled

/-- What a thread does between the start of a generation and its next arrival. -/
def task (p : Program) (generation : Nat) : Step := (p.agenda[generation]?).getD .nop

@[simp] theorem length_agenda (p : Program) : p.agenda.length = p.length + 1 := by
  simp [agenda]

theorem rounds_agenda (p : Program) (shared : Int) (ls : List Local) :
    rounds p.agenda shared ls = rounds p.unrolled shared ls := rounds_nop ..

theorem take_agenda_succ (p : Program) {generation : Nat} (within : generation ≤ p.length) :
    p.agenda.take (generation + 1) = p.agenda.take generation ++ [p.task generation] := by
  have inside : generation < p.agenda.length := by simp; omega
  rw [List.take_succ_eq_append_getElem inside, task, List.getElem?_eq_getElem inside,
    Option.getD_some]

theorem step?_eq_task (p : Program) {index : Nat} (inside : index < p.length) :
    p.step? index = some (p.task (index + 1)) := by
  have within : index < p.unrolled.length := by simpa using inside
  have found := List.getElem?_eq_getElem within
  rw [← getElem?_unrolled, task, agenda, List.getElem?_cons_succ, found, Option.getD_some]

/-- What a thread prepares is for its next task, which is none after the last step. -/
theorem prepare_task (p : Program) (index : Nat) (l : Local) :
    (p.step? index).elim 0 (·.prepare l) = (p.task (index + 1)).prepare l := by
  rw [task, agenda, List.getElem?_cons_succ, getElem?_unrolled]
  cases p.step? index <;> rfl

@[simp] theorem task_last (p : Program) : p.task (p.length + 1) = .nop := by
  rw [task, List.getElem?_eq_none (by simp), Option.getD_none]

@[simp] theorem task_zero (p : Program) : p.task 0 = .nop := rfl

/-- A task that panics belongs to the steps. -/
theorem within_of_panics (p : Program) {generation : Nat} {shared : Int} {l : Local}
    (bound : generation ≤ p.length + 1)
    (panics : (p.task generation).after shared l = none) : generation ≤ p.length := by
  by_contra beyond
  have last : generation = p.length + 1 := by omega
  simp [last] at panics

end Program

end NumaHeap.Lockstep
