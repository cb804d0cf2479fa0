import NumaHeap.Region
import Mathlib.Data.List.Pairwise

/-!
Ranges of addresses, and when two of them share no byte. Regions and allocations are compared by the
ranges that they cover; nothing here depends on what a range is used for.
-/

namespace NumaHeap

/-- A range of addresses. -/
structure Extent where
  start : Nat
  length : Nat
deriving DecidableEq

namespace Extent

/-- One past the last address. -/
def stop (e : Extent) : Nat := e.start + e.length

/-- The address lies in the range. -/
def Holds (e : Extent) (address : Nat) : Prop := e.start ≤ address ∧ address < e.stop

/-- Every address of the range lies in the other one. -/
def Within (e f : Extent) : Prop := f.start ≤ e.start ∧ e.stop ≤ f.stop

/-- One of the two ranges ends before the other begins. -/
def Apart (e f : Extent) : Prop := e.stop ≤ f.start ∨ f.stop ≤ e.start

variable {e f : Extent} {address : Nat}

instance : Decidable (e.Holds address) := inferInstanceAs (Decidable (_ ∧ _))

instance : Decidable (e.Apart f) := inferInstanceAs (Decidable (_ ∨ _))

theorem Apart.symm (apart : e.Apart f) : f.Apart e := Or.symm apart

theorem holds_mk {start length : Nat} :
    Holds ⟨start, length⟩ address ↔ start ≤ address ∧ address < start + length := Iff.rfl

/-- Parts of ranges that are apart are apart. -/
theorem Apart.mono {inner other : Extent} (apart : e.Apart f) (first : inner.Within e)
    (second : other.Within f) : inner.Apart other := by
  unfold Apart Within at *
  omega

theorem Apart.not_holds (apart : e.Apart f) (first : e.Holds address) : ¬f.Holds address := by
  unfold Apart Holds at *
  omega

theorem Within.holds (inner : e.Within f) (member : e.Holds address) : f.Holds address := by
  unfold Within Holds at *
  omega

theorem Within.refl (e : Extent) : e.Within e := ⟨Nat.le_refl _, Nat.le_refl _⟩

/-- A range that is apart from itself has no address. -/
theorem not_apart_self (nonempty : 0 < e.length) : ¬e.Apart e := by
  unfold Apart stop
  omega

/-- Nonempty ranges that start at the same address share it. -/
theorem not_apart_of_start (same : e.start = f.start) (first : 0 < e.length)
    (second : 0 < f.length) : ¬e.Apart f := by
  unfold Apart stop
  omega

end Extent

/-- The addresses of a region. -/
def Region.extent (r : Region) : Extent := ⟨r.start, r.length⟩

/-- Two regions share no byte. -/
def Region.Apart (r s : Region) : Prop := r.extent.Apart s.extent

theorem Region.Apart.symm {r s : Region} (apart : r.Apart s) : s.Apart r := Extent.Apart.symm apart

theorem Region.holds_of_contains {r : Region} {address : Nat} (contains : r.contains address = true) :
    r.extent.Holds address := by
  rw [Region.contains, Bool.and_eq_true] at contains
  exact ⟨of_decide_eq_true contains.1, of_decide_eq_true contains.2⟩

theorem Region.contains_of_holds {r : Region} {address : Nat} (holds : r.extent.Holds address) :
    r.contains address = true := by
  rw [Region.contains, Bool.and_eq_true]
  exact ⟨decide_eq_true holds.1, decide_eq_true holds.2⟩

instance : Std.Symm Region.Apart := ⟨fun _ _ => Region.Apart.symm⟩

/-- Of regions that are apart in pairs, two different ones are apart wherever they stand. -/
theorem Region.apart_of_ne {regions : List Region} (apart : regions.Pairwise Region.Apart)
    {r s : Region} (first : r ∈ regions) (second : s ∈ regions) (different : r ≠ s) : r.Apart s :=
  apart.forall first second different

end NumaHeap
