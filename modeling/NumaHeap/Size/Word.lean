/-!
Sizes and addresses are natural numbers below `Word.bound`, the number of addresses of a 64-bit
machine. A sum or a product that leaves this range is an explicit `none`, so an overflow is a case
of every definition that can meet one.
-/

namespace NumaHeap.Word

-- Powers and sums of numbers mean the same with and without a larger library in scope.
instance (priority := 2000) instPow : Pow Nat Nat := instPowNat

instance (priority := 2000) instZero : Zero Nat := ⟨0⟩

/-- One past the largest size or address. -/
def bound : Nat := 18446744073709551616

/-- The largest size or address. -/
def last : Nat := 18446744073709551615

/-- The number itself, if it is below the bound. -/
def fit? (n : Nat) : Option Nat :=
  if n < bound then some n else none

/-- The sum, if it is below the bound. -/
def add? (m n : Nat) : Option Nat := fit? (m + n)

/-- The product, if it is below the bound. -/
def mul? (m n : Nat) : Option Nat := fit? (m * n)

/-- The remainder that a counter keeps once it passes the bound. -/
def wrap (n : Nat) : Nat := n % bound

/-- The number that a sum with `n` takes back to zero. -/
def negate (n : Nat) : Nat := wrap (bound - n)

theorem bound_eq : bound = 2 ^ (64 : Nat) := rfl

theorem fit?_eq_some_iff {n m : Nat} : fit? n = some m ↔ n < bound ∧ n = m := by
  unfold fit?
  by_cases below : n < bound <;> simp [below]

theorem fit?_eq_none_iff {n : Nat} : fit? n = none ↔ bound ≤ n := by
  unfold fit?
  by_cases below : n < bound
  · simp [below]
  · simp [below]
    omega

theorem wrap_of_lt {n : Nat} (below : n < bound) : wrap n = n := Nat.mod_eq_of_lt below

theorem wrap_le (n : Nat) : wrap n ≤ n := Nat.mod_le ..

/-- A counter may start again at any time: what it shows in the end is the same. -/
theorem wrap_wrap_add (m n : Nat) : wrap (wrap m + n) = wrap (m + n) := Nat.mod_add_mod ..

end NumaHeap.Word
