import Mathlib.Algebra.Order.Ring.Rat
import Mathlib.Tactic.Linarith
import Mathlib.Tactic.Ring
import NumaHeap.Proofs.Telemetry.History

/-!
What raises the gauge of a pressure. Bytes count from the last raise or collection, and the allocation
with which they exceed a step raises the gauge by one notch and starts the count anew. The count is kept
in a word, so a sum that passes the word bound counts for what is left of it. Each raise is paid for by
more bytes than a step; and a gauge that counts in fractions shows a tenth for each raise since the last
collection, at most one, unless it was saturated since.
-/

namespace NumaHeap.Telemetry

namespace Event

def allocation? : Event → Option Nat
  | .allocated size _ => some size
  | _ => none

def raises : Event → Bool
  | .allocated _ raised => raised
  | _ => false

def saturates : Event → Bool
  | .saturated => true
  | _ => false

def collects : Event → Bool
  | .collected => true
  | _ => false

end Event

namespace History

/-- The bytes that were allocated. -/
def bytes (h : History) : Nat := (h.filterMap Event.allocation?).sum

/-- How often the gauge was raised. -/
def raises (h : History) : Nat := (h.filter Event.raises).length

/-- What was done since the last collection. -/
def sinceCollection (h : History) : History := h.takeWhile fun event => !event.collects

/-- What was done since the count of bytes was started anew. -/
def sinceRestart (h : History) : History :=
  h.takeWhile fun event => !(event.raises || event.collects)

variable (h : History) (size : Nat) (raised : Bool)

theorem bytes_allocated : bytes (.allocated size raised :: h) = size + h.bytes := List.sum_cons

theorem raises_raised : raises (.allocated size true :: h) = h.raises + 1 := rfl

theorem raises_unraised : raises (.allocated size false :: h) = h.raises := rfl

theorem sinceCollection_allocated :
    sinceCollection (.allocated size raised :: h) = .allocated size raised :: h.sinceCollection := rfl

theorem sinceRestart_unraised :
    sinceRestart (.allocated size false :: h) = .allocated size false :: h.sinceRestart := rfl

/-- What a gauge shows that counts in fractions: full since it was saturated, and else a tenth for each
raise since the last collection. -/
def level (h : History) : Rat :=
  if h.sinceCollection.any Event.saturates then 1 else min 1 (h.sinceCollection.raises / 10)

end History

/-- To be raised exactly is to be a tenth higher, at most full. -/
theorem Gauge.exact_raise {x : Rat} (positive : 0 ≤ x) : Gauge.exact.raise x = min 1 (x + 1 / 10) := by
  have above : ¬x + 1 / 10 < 0 := by linarith
  change (if decide (x + 1 / 10 < 0) = true then 0
    else if decide (1 < x + 1 / 10) = true then 1 else x + 1 / 10) = _
  rw [if_neg (by simpa using above)]
  rcases lt_or_ge 1 (x + 1 / 10) with beyond | within
  · rw [if_pos (by simpa using beyond), min_eq_left beyond.le]
  · rw [if_neg (by simpa using within), min_eq_right within]

namespace Pressure

/-- What a pressure has counted of its history. -/
structure Counted (step : Nat) {ρ : Type} (h : History) (p : Pressure ρ) : Prop where
  step_eq : p.step = step
  pending : p.bytesSinceRaise = Word.wrap h.sinceRestart.bytes
  within : p.bytesSinceRaise ≤ step
  /-- Every raise is paid for, and what is pending was not spent on any. -/
  paid : h.sinceCollection.raises * (step + 1) + p.bytesSinceRaise ≤ h.sinceCollection.bytes

variable {ρ : Type} {g : Gauge ρ} {threshold step : Nat} {interval : Duration} {h : History}
  {p : Pressure ρ}

/-- What is counted with one more allocation is what the history adds up to, in a word. -/
theorem Counted.since (counted : Counted step h p) (size : Nat) :
    Word.wrap (p.bytesSinceRaise + size) = Word.wrap (h.sinceRestart.bytes + size) := by
  rw [counted.pending, Word.wrap_wrap_add]

/-- An allocation raises the gauge exactly if, with it, more bytes than a step were allocated. -/
theorem Counted.allocation (counted : Counted step h p) (g : Gauge ρ) (size : Nat) :
    p.perform g (.recordAllocation size) =
      if step < Word.wrap (h.sinceRestart.bytes + size) then
        (.allocated size true, { p with bytesSinceRaise := 0, level := g.raise p.level })
      else (.allocated size false,
        { p with bytesSinceRaise := Word.wrap (h.sinceRestart.bytes + size) }) := by
  simp only [perform, recordAllocation, counted.step_eq, counted.since]
  by_cases exceeds : step < Word.wrap (h.sinceRestart.bytes + size)
  · rw [if_neg (Nat.not_le.2 exceeds), if_pos exceeds, decide_eq_true exceeds]
  · rw [if_pos (Nat.le_of_not_lt exceeds), if_neg exceeds, decide_eq_false exceeds]

theorem Reached.counted (reached : Reached g threshold interval step h p) : Counted step h p := by
  induction reached with
  | create => exact ⟨rfl, rfl, Nat.zero_le _, Nat.le_of_eq (Nat.zero_mul _)⟩
  | @perform h p operation _ _ counted =>
    cases operation with
    | check current now =>
      change Counted step (_ :: h) (Pressure.check p current now).state
      unfold Pressure.check
      split <;> exact { counted with }
    | setCallback => exact { counted with }
    | recordAllocation size =>
      have paid := counted.paid
      have few := counted.since size ▸ Word.wrap_le (p.bytesSinceRaise + size)
      rw [counted.allocation]
      by_cases exceeds : step < Word.wrap (h.sinceRestart.bytes + size)
      · rw [if_pos exceeds]
        refine ⟨counted.step_eq, rfl, Nat.zero_le _, ?_⟩
        rw [History.sinceCollection_allocated, History.raises_raised, History.bytes_allocated,
          Nat.add_one_mul]
        dsimp only
        omega
      · rw [if_neg exceeds]
        refine ⟨counted.step_eq, ?_, Nat.le_of_not_lt exceeds, ?_⟩
        · rw [History.sinceRestart_unraised, History.bytes_allocated, Nat.add_comm size]
        · rw [History.sinceCollection_allocated, History.raises_unraised, History.bytes_allocated]
          dsimp only
          omega
    | saturate => exact { counted with }
    | collectionDone =>
      exact ⟨counted.step_eq, rfl, Nat.zero_le _, Nat.le_of_eq (Nat.zero_mul _)⟩

/-- A tenth more, as long as there is room. -/
theorem min_add_tenth (raises : Nat) :
    min 1 (min 1 ((raises : Rat) / 10) + 1 / 10) = min 1 (((raises + 1 : Nat) : Rat) / 10) := by
  have next : (((raises + 1 : Nat) : Rat) / 10) = (raises : Rat) / 10 + 1 / 10 := by
    push_cast
    ring
  rw [next]
  rcases le_total 1 ((raises : Rat) / 10) with full | room
  · rw [min_eq_left full, min_eq_left (by linarith), min_eq_left (by linarith)]
  · rw [min_eq_right room]

/-- Since a collection alone, nothing shows. -/
theorem level_of_collected (nothing : h.sinceCollection = []) : h.level = 0 := by
  rw [History.level, nothing]
  change min 1 (((0 : Nat) : Rat) / 10) = 0
  norm_num

/-- An allocation shows in a gauge that counts in fractions if it raises it, and it was not full. -/
theorem level_allocated (h : History) (size : Nat) :
    History.level (.allocated size true :: h) = Gauge.exact.raise h.level ∧
      History.level (.allocated size false :: h) = h.level := by
  refine ⟨?_, rfl⟩
  have saturated : (History.sinceCollection (.allocated size true :: h)).any Event.saturates =
      h.sinceCollection.any Event.saturates := rfl
  rw [History.level, History.level, saturated, History.sinceCollection_allocated,
    History.raises_raised]
  split
  · rw [Gauge.exact_raise (by norm_num), min_eq_left (by norm_num)]
  · have positive : 0 ≤ min 1 ((h.sinceCollection.raises : Rat) / 10) :=
      le_min zero_le_one (div_nonneg (Nat.cast_nonneg _) (by norm_num))
    rw [Gauge.exact_raise positive, min_add_tenth]

theorem Reached.level_eq {q : Pressure Rat} (reached : Reached .exact threshold interval step h q) :
    q.level = h.level := by
  induction reached with
  | create => exact (level_of_collected rfl).symm
  | @perform h q operation before _ shows =>
    cases operation with
    | check current now =>
      change (Pressure.check q current now).state.level = _
      unfold Pressure.check
      split <;> exact shows
    | setCallback => exact shows
    | recordAllocation size =>
      rw [before.counted.allocation]
      split
      · rw [(level_allocated h size).1, ← shows]
      · rw [(level_allocated h size).2, ← shows]
    | saturate => rfl
    | collectionDone => exact (level_of_collected rfl).symm

/-- The same pressure, with a gauge of another kind. -/
def showing {κ : Type} (p : Pressure ρ) (level : κ) : Pressure κ where
  threshold := p.threshold
  interval := p.interval
  step := p.step
  level := level
  bytesSinceRaise := p.bytesSinceRaise
  underPressure := p.underPressure
  lastCheck := p.lastCheck
  callback := p.callback

/-- What is seen of a pressure does not depend on what its gauge shows. -/
theorem perform_showing {κ : Type} (g : Gauge ρ) (g' : Gauge κ) (p : Pressure ρ) (level : κ)
    (operation : Operation) :
    ∃ later, (p.showing level).perform g' operation =
      ((p.perform g operation).1, (p.perform g operation).2.showing later) := by
  cases operation with
  | check current now =>
    refine ⟨level, ?_⟩
    have soon : (p.showing level).tooSoon now = p.tooSoon now := rfl
    simp only [perform, Pressure.check, soon]
    cases p.tooSoon now <;> rfl
  | setCallback => exact ⟨level, rfl⟩
  | recordAllocation size =>
    have few : Word.wrap ((p.showing level).bytesSinceRaise + size) ≤ (p.showing level).step ↔
        Word.wrap (p.bytesSinceRaise + size) ≤ p.step := Iff.rfl
    simp only [perform, Pressure.recordAllocation, few]
    split
    · exact ⟨level, rfl⟩
    · exact ⟨g'.raise level, rfl⟩
  | saturate => exact ⟨g'.full, rfl⟩
  | collectionDone => exact ⟨g'.empty, rfl⟩

/-- Whatever one gauge has seen, a gauge of another kind would have seen. -/
theorem Reached.showing {κ : Type} (reached : Reached g threshold interval step h p) (g' : Gauge κ) :
    ∃ level, Reached g' threshold interval step h (p.showing level) := by
  induction reached with
  | create => exact ⟨g'.empty, .create⟩
  | perform operation _ timely ih =>
    obtain ⟨level, also⟩ := ih
    obtain ⟨later, same⟩ := perform_showing g g' _ level operation
    have next := also.perform operation timely
    rw [same] at next
    exact ⟨later, next⟩

/-- The bytes that were allocated since the last raise or collection never exceed a step after an
allocation: the one that would make them exceed it raises the gauge, by one notch, and starts the count
anew, and no other does. (The bytes are compared as a word holds them; below the word bound that is their
sum.) Each raise since the last collection took more bytes than a step; and a gauge that counts in
fractions shows a tenth for each, at most one, and one once it was saturated. -/
theorem raises_counted (reached : Reached g threshold interval step h p) :
    p.bytesSinceRaise ≤ step ∧
    (∀ size, p.perform g (.recordAllocation size) =
      if step < Word.wrap (h.sinceRestart.bytes + size) then
        (.allocated size true, { p with bytesSinceRaise := 0, level := g.raise p.level })
      else (.allocated size false,
        { p with bytesSinceRaise := Word.wrap (h.sinceRestart.bytes + size) })) ∧
    h.sinceCollection.raises * (step + 1) ≤ h.sinceCollection.bytes ∧
    (∃ q, Reached .exact threshold interval step h q) ∧
    ∀ q, Reached .exact threshold interval step h q →
      q.level = if h.sinceCollection.any Event.saturates then (1 : Rat)
        else min 1 ((h.sinceCollection.raises : Rat) / 10) := by
  have counted := reached.counted
  refine ⟨counted.within, counted.allocation g, ?_, ?_, ?_⟩
  · exact Nat.le_of_add_right_le counted.paid
  · obtain ⟨level, exact⟩ := reached.showing .exact
    exact ⟨_, exact⟩
  · intro q exact
    exact exact.level_eq

/-- A gauge that was saturated and then emptied by a collection shows the one raise since then. -/
theorem raises_counted_after_collection :
    let h : History :=
      [.allocated 1 false, .allocated 6 true, .collected, .saturated, .allocated 5 true]
    ∃ p, Reached Gauge.exact 1000 (.ofNanoseconds 100) 4 h p ∧ p.bytesSinceRaise ≤ 4 ∧
      (p.perform .exact (.recordAllocation 4)).1 = .allocated 4 true ∧
      h.sinceCollection.raises * (4 + 1) ≤ h.sinceCollection.bytes ∧ p.level = 1 / 10 := by
  intro h
  have reached : Reached Gauge.exact 1000 (.ofNanoseconds 100) 4 h _ :=
    .perform (.recordAllocation 1) (.perform (.recordAllocation 6) (.perform .collectionDone
      (.perform .saturate (.perform (.recordAllocation 5) .create trivial) trivial) trivial)
      trivial) trivial
  obtain ⟨within, allocation, paid, -, level⟩ := raises_counted reached
  refine ⟨_, reached, within, congrArg Prod.fst (allocation 4), paid, (level _ reached).trans ?_⟩
  change min 1 (((1 : Nat) : Rat) / 10) = 1 / 10
  norm_num

end Pressure

end NumaHeap.Telemetry
