import NumaHeap.Size.Class

/-!
Rounding, padding and size classes in whole numbers: what is set aside is large enough, and what is
aligned is a multiple.
-/

namespace NumaHeap

namespace PowerOfTwo

theorem value_dvd_of_exponent_le {p q : PowerOfTwo} (le : p.exponent ≤ q.exponent) :
    p.value ∣ q.value :=
  Nat.pow_dvd_pow 2 le

theorem value_dvd_of_value_le {p q : PowerOfTwo} (le : p.value ≤ q.value) : p.value ∣ q.value :=
  value_dvd_of_exponent_le ((Nat.pow_le_pow_iff_right (by decide)).1 le)

/-- The smaller of two powers divides both. -/
theorem value_min_dvd (p q : PowerOfTwo) :
    min p.value q.value ∣ p.value ∧ min p.value q.value ∣ q.value := by
  rcases Nat.le_total p.value q.value with le | ge
  · rw [Nat.min_eq_left le]
    exact ⟨Nat.dvd_refl _, value_dvd_of_value_le le⟩
  · rw [Nat.min_eq_right ge]
    exact ⟨value_dvd_of_value_le ge, Nat.dvd_refl _⟩

theorem value_dvd_max_left (p q : PowerOfTwo) : p.value ∣ (p.max q).value := by
  unfold max
  split
  · exact value_dvd_of_exponent_le (by omega)
  · exact Nat.dvd_refl _

theorem value_dvd_max_right (p q : PowerOfTwo) : q.value ∣ (p.max q).value := by
  unfold max
  split
  · exact Nat.dvd_refl _
  · exact value_dvd_of_exponent_le (by omega)

theorem value_max_le (p q : PowerOfTwo) : (p.max q).value ≤ Max.max p.value q.value := by
  unfold max
  split
  · exact Nat.le_max_right ..
  · exact Nat.le_max_left ..

theorem value_of_ofNat? {n : Nat} {p : PowerOfTwo} (read : ofNat? n = some p) : p.value = n := by
  unfold ofNat? at read
  split at read
  · next fits =>
    cases read
    exact fits.2
  · cases read

/-- What a number is rounded up to is a multiple, no smaller, and a word. -/
theorem roundUp?_spec {p : PowerOfTwo} {n rounded : Nat} (some : p.roundUp? n = some rounded) :
    n ≤ rounded ∧ p.value ∣ rounded ∧ rounded < Word.bound := by
  rw [roundUp?_eq, Word.fit?_eq_some_iff] at some
  obtain ⟨bounded, rfl⟩ := some
  refine ⟨?_, Nat.dvd_mul_left .., bounded⟩
  have positive := p.value_pos
  have division := Nat.div_add_mod' (n + p.mask) p.value
  have remainder := Nat.mod_lt (n + p.mask) positive
  unfold mask at division remainder ⊢
  omega

/-- Padding leads to a multiple, the bound being one. -/
theorem value_dvd_add_padding (p : PowerOfTwo) {address : Nat} (inside : address ≤ Word.bound) :
    p.value ∣ address + p.padding address := by
  have division := Nat.mod_add_div (Word.bound - address) p.value
  have whole : address + p.padding address + p.value * ((Word.bound - address) / p.value) =
      Word.bound := by
    rw [padding_eq]
    omega
  exact (Nat.dvd_add_left (Nat.dvd_mul_right ..)).1 (whole ▸ p.value_dvd_bound)

end PowerOfTwo

namespace Size

theorem le_two_pow_ceilLog2 (n : Nat) : n ≤ 2 ^ ceilLog2 n := by
  unfold ceilLog2
  split
  · next power => exact Nat.le_of_eq power.symm
  · exact Nat.le_of_lt Nat.lt_log2_self

/-- The objects of the class of a size are large enough for it, and hold a link. -/
theorem le_slabObject {size sizeClass : Nat} (served : slabClass? size = some sizeClass) :
    size ≤ slabObject sizeClass ∧ 0 < size := by
  unfold slabClass? at served
  split at served
  · cases served
  · next within =>
    cases served
    have enough := le_two_pow_ceilLog2 size
    refine ⟨Nat.le_trans enough (Nat.pow_le_pow_right (by decide) (by omega)), by omega⟩

theorem eight_dvd_slabObject (sizeClass : Nat) : 8 ∣ slabObject sizeClass :=
  Nat.pow_dvd_pow 2 (Nat.le_add_left 3 sizeClass)

theorem ceilLog2_le {n limit : Nat} (positive : n ≠ 0) (fits : n ≤ 2 ^ limit) :
    ceilLog2 n ≤ limit := by
  have lower := Nat.log2_self_le positive
  unfold ceilLog2
  split
  · exact (Nat.pow_le_pow_iff_right (by decide)).1 (Nat.le_trans lower fits)
  · next power =>
    exact (Nat.pow_lt_pow_iff_right (by decide)).1
      (Nat.lt_of_lt_of_le (Nat.lt_of_le_of_ne lower power) fits)

/-- The least power lies one above the last power that is too small. -/
theorem ceilLog2_eq {n exponent : Nat} (above : 2 ^ exponent < n) (within : n ≤ 2 ^ (exponent + 1)) :
    ceilLog2 n = exponent + 1 := by
  have least : exponent < ceilLog2 n :=
    (Nat.pow_lt_pow_iff_right (by decide)).1 (Nat.lt_of_lt_of_le above (le_two_pow_ceilLog2 n))
  exact Nat.le_antisymm (ceilLog2_le (Nat.ne_of_gt (Nat.zero_lt_of_lt above)) within) least

theorem slabClass_lt {size sizeClass : Nat} (served : slabClass? size = some sizeClass) :
    sizeClass < slabClassCount := by
  unfold slabClass? at served
  split at served
  · cases served
  · next within =>
    cases served
    have bounded : ceilLog2 size ≤ 16 := ceilLog2_le (by omega) (by unfold slabMax at within; omega)
    unfold slabClassCount
    omega

/-- An arena sets aside at least what is asked for. -/
theorem le_arenaRounded {size rounded : Nat} (some : arenaRounded? size = some rounded) :
    size ≤ rounded ∧ 0 < size := by
  unfold arenaRounded? at some
  split at some
  · cases some
  · next positive =>
    refine ⟨?_, by omega⟩
    split at some
    · next slot found =>
      cases some
      simpa using List.find?_some found
    · exact (PowerOfTwo.roundUp?_spec some).1

end Size

end NumaHeap
