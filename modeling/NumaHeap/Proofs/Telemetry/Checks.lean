import Mathlib.Data.List.Chain
import NumaHeap.Proofs.Telemetry.History

/-!
The checks of a pressure. What a check does follows from the evaluations before it alone, those checks
that did compare the bytes in use with the threshold: it evaluates unless the last evaluation was less
than an interval ago, repeats that answer otherwise, and invokes the callback in force when usage has
come to exceed the threshold.
-/

namespace NumaHeap.Telemetry

/-- A check that compared the bytes in use with the threshold, and what it answered. -/
structure Evaluation where
  current : Nat
  now : Nat
  answer : Bool

def Event.evaluation? : Event → Option Evaluation
  | .checked current now true answer _ => some ⟨current, now, answer⟩
  | _ => none

def Event.registration? : Event → Option (Option Callback)
  | .registered callback => some callback
  | _ => none

namespace History

/-- Latest first. -/
def evaluations (h : History) : List Evaluation := h.filterMap Event.evaluation?

/-- The callback that was registered last, unless it was removed since. -/
def callback? (h : History) : Option Callback := (h.findSome? Event.registration?).join

/-- The last evaluation, if there was one, found more bytes in use than the threshold. -/
def pressured (threshold : Nat) (h : History) : Bool :=
  h.evaluations.head?.any fun last => threshold < last.current

end History

namespace Pressure

/-- A check did as the checks before it demand. -/
structure Answered (threshold : Nat) (interval : Duration) (older : History) (current now : Nat)
    (evaluated answer : Bool) (notified : Option Callback) : Prop where
  /-- The first check evaluates. -/
  first : older.evaluations = [] → evaluated = true
  /-- Evaluations are an interval apart, whatever the clock does. -/
  apart : 0 < interval.toNanoseconds → evaluated = true →
    ∀ last ∈ older.evaluations.head?, last.now + interval.toNanoseconds ≤ now
  /-- After an interval a check evaluates. -/
  due : ∀ last ∈ older.evaluations.head?, last.now + interval.toNanoseconds ≤ now →
    evaluated = true
  repeats : evaluated = false → ∃ last, older.evaluations.head? = some last ∧ answer = last.answer
  compares : evaluated = true → answer = decide (threshold < current)
  /-- The callback in force is invoked when usage has come to exceed the threshold, and only then. -/
  notifies : notified =
    if evaluated = true ∧ threshold < current ∧ older.pressured threshold = false then older.callback?
    else none

/-- What a pressure keeps of its history. -/
structure Recalls (threshold : Nat) (interval : Duration) {ρ : Type} (h : History) (p : Pressure ρ) :
    Prop where
  threshold_eq : p.threshold = threshold
  interval_eq : p.interval = min interval.toNanoseconds Word.last
  lastCheck : p.lastCheck = h.evaluations.head?.map (·.now)
  underPressure : p.underPressure = h.pressured threshold
  callback : p.callback = h.callback?
  answer : ∀ last ∈ h.evaluations.head?, last.answer = decide (threshold < last.current)
  timely : ∀ last ∈ h.evaluations.head?, last.now < Word.last

variable {ρ : Type} {g : Gauge ρ} {threshold step current now : Nat} {interval : Duration}
  {h older : History} {p : Pressure ρ} {event : Event} {last : Evaluation}
  {evaluated answer : Bool} {notified : Option Callback}

/-- An interval that is cut short is longer than the clock runs, before the cut and after it. -/
theorem Recalls.tooSoon_eq (recalls : Recalls threshold interval h p) (timely : now < Word.last) :
    p.tooSoon now = h.evaluations.head?.any fun last => now - last.now < interval.toNanoseconds := by
  rw [tooSoon, recalls.lastCheck, Option.any_map]
  congr 1
  funext last
  have elapsed : now - last.now < Word.last := Nat.lt_of_le_of_lt (Nat.sub_le ..) timely
  simp only [recalls.interval_eq, Nat.lt_min, elapsed, and_true]

/-- A check that comes too soon changes nothing, and any other compares. -/
theorem check_eq (p : Pressure ρ) (current now : Nat) :
    p.check current now =
      if p.tooSoon now = true then ⟨p.underPressure, none, p⟩
      else ⟨p.threshold < current,
        if p.threshold < current ∧ p.underPressure = false then p.callback else none,
        { p with underPressure := p.threshold < current, lastCheck := remember now }⟩ := by
  unfold check
  split
  · rfl
  · simp

theorem not_any_recent_iff (wait now : Nat) (last? : Option Evaluation) :
    (!last?.any fun last => now - last.now < wait) = true ↔
      ∀ last ∈ last?, wait ≤ now - last.now := by
  cases last? <;> simp

/-- A check evaluates if the last evaluation, should there be one, was at least an interval ago. -/
theorem Recalls.evaluates_iff (recalls : Recalls threshold interval h p) (timely : now < Word.last) :
    (!p.tooSoon now) = true ↔
      ∀ last ∈ h.evaluations.head?, interval.toNanoseconds ≤ now - last.now := by
  rw [recalls.tooSoon_eq timely, not_any_recent_iff]

/-- A check is answered by what the pressure keeps. -/
theorem Recalls.answered (recalls : Recalls threshold interval h p) (timely : now < Word.last) :
    Answered threshold interval h current now (!p.tooSoon now) (p.check current now).pressured
      (p.check current now).notified where
  first none := by
    rw [recalls.evaluates_iff timely, none]
    exact nofun
  apart positive evaluated last found := by
    have elapsed := (recalls.evaluates_iff timely).1 evaluated last found
    omega
  due last found elapsed := by
    rw [recalls.evaluates_iff timely]
    intro other also
    obtain rfl : other = last := Option.some.inj (also.symm.trans found)
    omega
  repeats soon := by
    have early : p.tooSoon now = true := by simpa using soon
    rw [check_eq, if_pos early, recalls.underPressure, History.pressured]
    rw [recalls.tooSoon_eq timely] at early
    cases found : h.evaluations.head? with
    | none =>
      rw [found] at early
      cases early
    | some last => exact ⟨last, rfl, (recalls.answer last found).symm⟩
  compares evaluated := by
    have late : ¬p.tooSoon now = true := by simpa using evaluated
    rw [check_eq, if_neg late, recalls.threshold_eq]
  notifies := by
    rw [check_eq]
    cases p.tooSoon now with
    | true => simp
    | false => simp [recalls.threshold_eq, recalls.underPressure, recalls.callback]

/-- No check disturbs what the pressure keeps. -/
theorem Recalls.check (recalls : Recalls threshold interval h p) (timely : now < Word.last) :
    Recalls threshold interval (.checked current now (!p.tooSoon now) (p.check current now).pressured
      (p.check current now).notified :: h) (p.check current now).state := by
  rw [check_eq]
  cases soon : p.tooSoon now with
  | true => exact { recalls with }
  | false =>
    exact {
      threshold_eq := recalls.threshold_eq
      interval_eq := recalls.interval_eq
      lastCheck := if_neg (Nat.ne_of_lt timely)
      underPressure := by rw [← recalls.threshold_eq]; rfl
      callback := recalls.callback
      answer := by
        rintro last ⟨⟩
        rw [recalls.threshold_eq]
        rfl
      timely := by
        rintro last ⟨⟩
        exact timely }

theorem Reached.recalls (reached : Reached g threshold interval step h p) :
    Recalls threshold interval h p := by
  induction reached with
  | create => exact ⟨rfl, rfl, rfl, rfl, rfl, nofun, nofun⟩
  | perform operation _ timely recalls =>
    cases operation with
    | check current now => exact recalls.check timely
    | setCallback callback => exact { recalls with callback := rfl }
    | recordAllocation size =>
      change Recalls threshold interval _ (Pressure.recordAllocation g _ size)
      simp only [recordAllocation]
      split <;> exact { recalls with }
    | saturate => exact { recalls with }
    | collectionDone => exact { recalls with }

/-- Every check of a history was answered as the checks before it demand. -/
theorem Reached.answered (reached : Reached g threshold interval step h p)
    (seen : .checked current now evaluated answer notified :: older <:+ h) :
    Answered threshold interval older current now evaluated answer notified := by
  obtain ⟨q, operation, before, timely, same⟩ := reached.before seen
  cases operation with
  | check =>
    obtain ⟨rfl, rfl, rfl, rfl, rfl⟩ := Event.checked.inj same
    exact before.recalls.answered timely
  | setCallback => cases same
  | recordAllocation => cases same
  | saturate => cases same
  | collectionDone => cases same

/-- Evaluations that are latest first stay apart when one more is made. -/
theorem isChain_evaluations (positive : 0 < interval.toNanoseconds)
    (answered : ∀ {older current now evaluated answer notified},
      .checked current now evaluated answer notified :: older <:+ h →
        Answered threshold interval older current now evaluated answer notified) :
    h.evaluations.IsChain fun later earlier => earlier.now + interval.toNanoseconds ≤ later.now := by
  induction h with
  | nil => exact .nil
  | cons event older ih =>
    have earlier := ih fun seen => answered (seen.trans (List.suffix_cons ..))
    cases event with
    | checked current now evaluated answer notified =>
      cases evaluated with
      | false => exact earlier
      | true =>
        have apart := (answered List.suffix_rfl).apart positive rfl
        exact List.isChain_cons.2 ⟨apart, earlier⟩
    | registered => exact earlier
    | allocated => exact earlier
    | saturated => exact earlier
    | collected => exact earlier

/-- Whatever is done with a pressure, and whatever the clock shows: each check is answered as the checks
before it demand, and no two evaluations in a row are closer than an interval. -/
theorem checks_answered (reached : Reached g threshold interval step h p) :
    (∀ {older current now evaluated answer notified},
      .checked current now evaluated answer notified :: older <:+ h →
        Answered threshold interval older current now evaluated answer notified) ∧
    (0 < interval.toNanoseconds → h.evaluations.IsChain fun later earlier =>
      earlier.now + interval.toNanoseconds ≤ later.now) := by
  refine ⟨fun seen => reached.answered seen, fun positive => ?_⟩
  apply isChain_evaluations positive
  exact fun seen => reached.answered seen

/-- A callback is registered, usage exceeds the threshold at the third check, the clock goes back before
the fourth, and usage is still high at the last. -/
theorem checks_answered_clock_back :
    let before : History :=
      [.checked 1001 50 false false none, .checked 999 0 true false none, .registered (some 7)]
    let h : History := .checked 1001 200 true true none :: .checked 2000 90 false true none ::
      .checked 1001 100 true true (some 7) :: before
    (∃ p, Reached Gauge.double 1000 (.ofNanoseconds 100) 4096 h p) ∧
      .checked 1001 100 true true (some 7) :: before <:+ h ∧
      Answered 1000 (.ofNanoseconds 100) before 1001 100 true true (some 7) ∧
      0 < (Duration.ofNanoseconds 100).toNanoseconds ∧
      h.evaluations.IsChain fun later earlier =>
        earlier.now + (Duration.ofNanoseconds 100).toNanoseconds ≤ later.now := by
  intro before h
  have first : Reached Gauge.double 1000 (.ofNanoseconds 100) 4096 before _ :=
    .perform (.check 1001 50) (.perform (.check 999 0) (.perform (.setCallback (some 7)) .create
      trivial) (by decide)) (by decide)
  have reached : Reached Gauge.double 1000 (.ofNanoseconds 100) 4096 h _ :=
    .perform (.check 1001 200) (.perform (.check 2000 90) (.perform (.check 1001 100) first
      (by decide)) (by decide)) (by decide)
  have seen : .checked 1001 100 true true (some 7) :: before <:+ h := ⟨[_, _], rfl⟩
  exact ⟨⟨_, reached⟩, seen, (checks_answered reached).1 seen, by decide,
    (checks_answered reached).2 (by decide)⟩

end Pressure

end NumaHeap.Telemetry
