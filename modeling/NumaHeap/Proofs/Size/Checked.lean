import Mathlib.Data.Option.Basic
import NumaHeap.Proofs.Size.Fit

/-!
Arithmetic that stops where a machine would stop: at a sum or a product that is no word, at a
difference below zero, at a place beyond the end of a table, at an assertion that fails. A function is
repeated with each of these as a check, and has no result where one of them fails. That it has the
result of the plain function then says that none of them does.
-/

namespace NumaHeap

theorem guard_eq_some {p : Prop} [Decidable p] (passes : p) : (guard p : Option Unit) = some () :=
  if_pos passes

namespace Word

variable {m n : Nat}

/-- The difference, if it is not negative. -/
def sub? (m n : Nat) : Option Nat := if n ≤ m then some (m - n) else none

theorem add?_of_lt (below : m + n < bound) : add? m n = some (m + n) := if_pos below

theorem mul?_of_lt (below : m * n < bound) : mul? m n = some (m * n) := if_pos below

theorem sub?_of_le (le : n ≤ m) : sub? m n = some (m - n) := if_pos le

end Word

namespace Size

/-- The bytes that an arena sets aside, read from the table at the place of the class. -/
def arenaRoundedChecked (size : Nat) : Option (Option Nat) :=
  if size = 0 then some none
  else match arenaClass? size with
    | some sizeClass => do return some (← arenaClasses[sizeClass]?)
    | none => some (cacheLine.roundUp? size)

theorem arenaRoundedChecked_eq (size : Nat) :
    arenaRoundedChecked size = some (arenaRounded? size) := by
  unfold arenaRoundedChecked
  by_cases nothing : size = 0
  · rw [if_pos nothing, arenaRounded?, if_pos nothing]
  · rw [if_neg nothing]
    cases found : arenaClass? size with
    | none => rw [arenaRounded?_of_no_class nothing found]
    | some sizeClass =>
      obtain ⟨slot, entry, rounded⟩ := arenaRounded?_of_class found
      simp only [entry, rounded]
      rfl

/-- The class of the slabs, as the exponent of a power that is a word. -/
def slabClassChecked (size : Nat) : Option (Option Nat) :=
  if size = 0 ∨ slabMax < size then some none
  else do
    guard (2 ^ ceilLog2 size < Word.bound)
    let sizeClass ← Word.sub? (max (ceilLog2 size) 3) 3
    return some sizeClass

theorem slabClassChecked_eq (size : Nat) : slabClassChecked size = some (slabClass? size) := by
  unfold slabClassChecked slabClass?
  by_cases served : size = 0 ∨ slabMax < size
  · rw [if_pos served, if_pos served]
  · rw [if_neg served, if_neg served]
    have small : ceilLog2 size ≤ 16 := ceilLog2_le (by omega) (by unfold slabMax at served; omega)
    have word : 2 ^ ceilLog2 size < Word.bound :=
      Nat.lt_of_le_of_lt (Nat.pow_le_pow_right (by decide) small) (by decide)
    have whole : max (ceilLog2 size) 3 - 3 = ceilLog2 size - 3 := by omega
    rw [guard_eq_some word, Word.sub?_of_le (Nat.le_max_right ..), whole]
    rfl

end Size

end NumaHeap
