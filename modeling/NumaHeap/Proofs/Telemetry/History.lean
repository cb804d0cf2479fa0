import Mathlib.Data.List.Basic
import NumaHeap.Telemetry.Pressure

/-!
A pressure in use. What was done with it is kept beside it, with what was seen of each: whether a check
compared the bytes in use with the threshold, what it answered and which callback it invoked; and whether
an allocation raised the gauge. Checks are made at any instant before the last one of the clock, in any
order.
-/

namespace NumaHeap.Telemetry

/-- Something to do with a pressure. -/
inductive Operation where
  | check (current now : Nat)
  | setCallback (callback : Option Callback)
  | recordAllocation (size : Nat)
  | saturate
  | collectionDone

/-- Something that was done with a pressure, and what was seen of it. -/
inductive Event where
  | checked (current now : Nat) (evaluated answer : Bool) (notified : Option Callback)
  | registered (callback : Option Callback)
  | allocated (size : Nat) (raised : Bool)
  | saturated
  | collected

/-- Latest first. -/
abbrev History := List Event

/-- The last instant of the clock does not come. -/
def Operation.Timely : Operation → Prop
  | .check _ now => now < Word.last
  | _ => True

instance : DecidablePred Operation.Timely
  | .check _ now => inferInstanceAs (Decidable (now < Word.last))
  | .setCallback _ | .recordAllocation _ | .saturate | .collectionDone => .isTrue trivial

namespace Pressure

variable {ρ : Type}

/-- Does something with a pressure. -/
def perform (g : Gauge ρ) (p : Pressure ρ) : Operation → Event × Pressure ρ
  | .check current now =>
    let checked := p.check current now
    (.checked current now (!p.tooSoon now) checked.pressured checked.notified, checked.state)
  | .setCallback callback => (.registered callback, p.setCallback callback)
  | .recordAllocation size =>
    (.allocated size (p.step < Word.wrap (p.bytesSinceRaise + size)), p.recordAllocation g size)
  | .saturate => (.saturated, p.saturate g)
  | .collectionDone => (.collected, p.collectionDone g)

/-- What becomes of a new pressure, whatever is done with it. -/
inductive Reached (g : Gauge ρ) (threshold : Nat) (interval : Duration) (step : Nat) :
    History → Pressure ρ → Prop
  | create : Reached g threshold interval step [] (.create g threshold interval step)
  | perform {h : History} {p : Pressure ρ} (operation : Operation) :
      Reached g threshold interval step h p → operation.Timely →
      Reached g threshold interval step ((p.perform g operation).1 :: h) (p.perform g operation).2

variable {g : Gauge ρ} {threshold step : Nat} {interval : Duration} {h older : History}
  {p : Pressure ρ} {event : Event}

/-- Whatever was seen was seen of a pressure that had been reached before. -/
theorem Reached.before (reached : Reached g threshold interval step h p)
    (seen : event :: older <:+ h) :
    ∃ q operation, Reached g threshold interval step older q ∧ operation.Timely ∧
      (q.perform g operation).1 = event := by
  induction reached with
  | create => cases List.suffix_nil.1 seen
  | @perform h q operation earlier timely ih =>
    rcases List.suffix_cons_iff.1 seen with last | sooner
    · obtain ⟨rfl, rfl⟩ := List.cons.inj last
      exact ⟨q, operation, earlier, timely, rfl⟩
    · exact ih sooner

end Pressure

end NumaHeap.Telemetry
