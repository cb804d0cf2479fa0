import NumaHeap.Size.Word

/-!
Powers of two below `2 ^ 64`: page sizes, block sizes and alignments. All arithmetic with a power is
done on bits: the bits below it are its mask, and multiples are the numbers whose masked bits are
zero. The lemmas say what this comes to in whole numbers. Rounding up fails exactly when the multiple
sought is no longer an address; padding treats `2 ^ 64` as a multiple like any other.
-/

namespace NumaHeap

/-- A power of two that fits in a word, given by its exponent. -/
structure PowerOfTwo where
  exponent : Nat
  exponent_lt : exponent < 64
deriving DecidableEq

namespace PowerOfTwo

/-- The power itself. -/
def value (p : PowerOfTwo) : Nat := 2 ^ p.exponent

/-- Reads a number as a power of two. -/
def ofNat? (n : Nat) : Option PowerOfTwo :=
  if fits : n.log2 < 64 ∧ 2 ^ n.log2 = n then some ⟨n.log2, fits.1⟩ else none

/-- The larger of two powers. -/
def max (p q : PowerOfTwo) : PowerOfTwo :=
  if p.exponent < q.exponent then q else p

/-- All bits below the power. -/
def mask (p : PowerOfTwo) : Nat := p.value - 1

/-- The least multiple that is at least `n`, if it is a word: the low bits of `n + mask` are cleared,
and the sum must not leave the words. -/
def roundUp? (p : PowerOfTwo) (n : Nat) : Option Nat :=
  (Word.add? n p.mask).map fun sum => sum >>> p.exponent <<< p.exponent

/-- The number is a multiple. -/
def isAligned (p : PowerOfTwo) (n : Nat) : Bool := n &&& p.mask == 0

/-- The distance from an address to the next multiple, the bound itself being one: the low bits of
the negated address. -/
def padding (p : PowerOfTwo) (address : Nat) : Nat := Word.negate address &&& p.mask

/-- How many whole times the power goes into `n`. -/
def quotient (p : PowerOfTwo) (n : Nat) : Nat := n >>> p.exponent

/-- What is left of `n` after the last whole multiple. -/
def remainder (p : PowerOfTwo) (n : Nat) : Nat := n &&& p.mask

theorem value_pos (p : PowerOfTwo) : 0 < p.value := Nat.two_pow_pos p.exponent

theorem value_dvd_bound (p : PowerOfTwo) : p.value ∣ Word.bound :=
  Nat.pow_dvd_pow 2 (Nat.le_of_lt p.exponent_lt)

theorem and_mask (p : PowerOfTwo) (n : Nat) : n &&& p.mask = n % p.value :=
  Nat.and_two_pow_sub_one_eq_mod n p.exponent

theorem quotient_eq (p : PowerOfTwo) (n : Nat) : p.quotient n = n / p.value :=
  Nat.shiftRight_eq_div_pow n p.exponent

theorem remainder_eq (p : PowerOfTwo) (n : Nat) : p.remainder n = n % p.value := p.and_mask n

theorem isAligned_eq_true_iff (p : PowerOfTwo) (n : Nat) :
    p.isAligned n = true ↔ n % p.value = 0 := by
  rw [isAligned, and_mask, beq_iff_eq]

/-- Negation adds a multiple of every power, which the remainder does not see. -/
theorem padding_eq (p : PowerOfTwo) (address : Nat) :
    p.padding address = (Word.bound - address) % p.value := by
  rw [padding, and_mask, Word.negate, Word.wrap, Nat.mod_mod_of_dvd _ p.value_dvd_bound]

theorem padding_lt (p : PowerOfTwo) (address : Nat) : p.padding address < p.value := by
  rw [padding_eq]
  exact Nat.mod_lt _ p.value_pos

/-- The sum leaves the words exactly when the multiple does, the bound being a multiple itself. -/
theorem roundUp?_eq (p : PowerOfTwo) (n : Nat) :
    p.roundUp? n = Word.fit? ((n + p.mask) / p.value * p.value) := by
  obtain ⟨count, multiple⟩ := p.value_dvd_bound
  have below : n + p.mask < Word.bound ↔ (n + p.mask) / p.value * p.value < Word.bound := by
    rw [multiple, Nat.mul_comm p.value count, ← Nat.div_lt_iff_lt_mul p.value_pos,
      Nat.mul_lt_mul_right p.value_pos]
  have shifts : (n + p.mask) >>> p.exponent <<< p.exponent =
      (n + p.mask) / p.value * p.value := by
    rw [Nat.shiftRight_eq_div_pow, Nat.shiftLeft_eq, value]
  unfold roundUp? Word.add? Word.fit?
  by_cases fits : n + p.mask < Word.bound
  · rw [if_pos fits, if_pos (below.1 fits), Option.map_some, shifts]
  · rw [if_neg fits, if_neg (fun rounded => fits (below.2 rounded)), Option.map_none]

end PowerOfTwo

/-- Alignment of everything that is handed out. -/
def wordAlignment : PowerOfTwo := ⟨3, by decide⟩

/-- Alignment that keeps an object within as few cache lines as possible. -/
def cacheLine : PowerOfTwo := ⟨6, by decide⟩

end NumaHeap
