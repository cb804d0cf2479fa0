import Mathlib.Order.Bounds.Basic
import NumaHeap.Proofs.Size.PowerOfTwo

/-!
Multiples of a power. Padding and rounding up lead to the same number, the least multiple that is not
below the one given; they differ only where this is the bound, which padding takes for an address and
rounding up refuses. A number is read as a power exactly if it is one.
-/

namespace NumaHeap.PowerOfTwo

variable {p : PowerOfTwo} {address other n : Nat}

/-- Padding leads to the first multiple, the bound being one. -/
theorem add_padding_le (above : address ≤ other) (multiple : p.value ∣ other)
    (inside : other ≤ Word.bound) : address + p.padding address ≤ other := by
  have rest : p.value ∣ Word.bound - other := Nat.dvd_sub p.value_dvd_bound multiple
  have split : Word.bound - address = other - address + (Word.bound - other) := by omega
  have least := Nat.mod_le (other - address) p.value
  rw [padding_eq, split, Nat.add_mod, Nat.mod_eq_zero_of_dvd rest, Nat.add_zero, Nat.mod_mod]
  omega

/-- Padding leads to the least multiple that is not below the address, the bound being one. -/
theorem isLeast_add_padding (p : PowerOfTwo) (inside : address ≤ Word.bound) :
    IsLeast {multiple | p.value ∣ multiple ∧ address ≤ multiple} (address + p.padding address) := by
  refine ⟨⟨p.value_dvd_add_padding inside, Nat.le_add_right ..⟩, ?_⟩
  rintro other ⟨multiple, above⟩
  rcases Nat.le_total other Word.bound with within | beyond
  · exact add_padding_le above multiple within
  · exact Nat.le_trans (add_padding_le inside p.value_dvd_bound (Nat.le_refl _)) beyond

/-- So does clearing the low bits of the sum with the mask, for numbers of any size. -/
theorem isLeast_rounded (p : PowerOfTwo) (n : Nat) :
    IsLeast {multiple | p.value ∣ multiple ∧ n ≤ multiple} ((n + p.mask) / p.value * p.value) := by
  have positive := p.value_pos
  have mask : p.mask = p.value - 1 := rfl
  constructor
  · have division := Nat.div_add_mod' (n + p.mask) p.value
    have remainder := Nat.mod_lt (n + p.mask) positive
    exact ⟨Nat.dvd_mul_left .., by omega⟩
  · rintro _ ⟨⟨count, rfl⟩, above⟩
    rw [Nat.mul_comm p.value count]
    refine Nat.mul_le_mul_right _ ((Nat.div_le_iff_le_mul positive).2 ?_)
    rw [Nat.mul_comm count p.value]
    omega

/-- Rounding up is padding, as long as this leads to a word. -/
theorem roundUp?_eq_fit? (p : PowerOfTwo) (inside : n ≤ Word.bound) :
    p.roundUp? n = Word.fit? (n + p.padding n) := by
  rw [roundUp?_eq, (p.isLeast_rounded n).unique (p.isLeast_add_padding inside)]

/-- Rounding up gives the least multiple, if it is a word. -/
theorem roundUp?_eq_some_iff {rounded : Nat} :
    p.roundUp? n = some rounded ↔
      IsLeast {multiple | p.value ∣ multiple ∧ n ≤ multiple} rounded ∧ rounded < Word.bound := by
  rw [roundUp?_eq, Word.fit?_eq_some_iff]
  constructor
  · rintro ⟨word, rfl⟩
    exact ⟨p.isLeast_rounded n, word⟩
  · rintro ⟨least, word⟩
    rw [(p.isLeast_rounded n).unique least]
    exact ⟨word, rfl⟩

/-- Rounding up fails past the last multiple that is a word. -/
theorem roundUp?_eq_none_iff : p.roundUp? n = none ↔ Word.bound - p.value < n := by
  have word : p.value ≤ Word.bound := Nat.le_of_dvd (by decide) p.value_dvd_bound
  have positive := p.value_pos
  rw [roundUp?, Option.map_eq_none_iff, Word.add?, Word.fit?_eq_none_iff, mask]
  omega

theorem isAligned_iff_dvd (p : PowerOfTwo) (n : Nat) : p.isAligned n = true ↔ p.value ∣ n :=
  (p.isAligned_eq_true_iff n).trans (Nat.dvd_iff_mod_eq_zero ..).symm

/-- What is read is the number itself. -/
theorem ofNat?_eq_some_iff : ofNat? n = some p ↔ p.value = n := by
  refine ⟨value_of_ofNat?, fun same => ?_⟩
  have log : n.log2 = p.exponent := by rw [← same, value, Nat.log2_two_pow]
  have fits : n.log2 < 64 ∧ 2 ^ n.log2 = n := ⟨log ▸ p.exponent_lt, log ▸ same⟩
  unfold ofNat?
  rw [dif_pos fits]
  congr

/-- Among the words all powers of two are read, and nothing else is. -/
theorem isSome_ofNat?_iff (word : n < Word.bound) :
    (ofNat? n).isSome = true ↔ ∃ exponent : Nat, n = 2 ^ exponent := by
  rw [Option.isSome_iff_exists]
  constructor
  · rintro ⟨p, read⟩
    exact ⟨p.exponent, (value_of_ofNat? read).symm⟩
  · rintro ⟨exponent, rfl⟩
    have short : exponent < 64 := (Nat.pow_lt_pow_iff_right (by decide)).1 word
    exact ⟨⟨exponent, short⟩, ofNat?_eq_some_iff.2 rfl⟩

end NumaHeap.PowerOfTwo
