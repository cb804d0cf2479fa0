import NumaHeap.Proofs.Size.Multiple

/-!
Registers of 64 bits. What a machine does with a power of two is carries, masks, shifts and counts of
bits; none of it divides. Each instruction sequence gives what the arithmetic on numbers gives, for
every power and every word, also where a sum leaves the register.
-/

namespace NumaHeap

/-- The power in a register. -/
def PowerOfTwo.register (p : PowerOfTwo) : BitVec 64 := BitVec.ofNat 64 p.value

namespace Register

/-- Exactly one bit is set. -/
def isPower (w : BitVec 64) : Bool := w.cpop == 1

/-- All bits below the one that is set. -/
def mask (power : BitVec 64) : BitVec 64 := power - 1

/-- A sum that carries is refused; the low bits of any other are cleared. -/
def roundUp? (power w : BitVec 64) : Option (BitVec 64) :=
  if w.uaddOverflow (mask power) then none else some ((w + mask power) &&& ~~~mask power)

def isAligned (power w : BitVec 64) : Bool := w &&& mask power == 0

/-- The low bits of the negated address. -/
def padding (power w : BitVec 64) : BitVec 64 := -w &&& mask power

/-- A shift past the zeros below the bit that is set. -/
def quotient (power w : BitVec 64) : BitVec 64 := w >>> power.ctz

def remainder (power w : BitVec 64) : BitVec 64 := w &&& mask power

/-- The least power that is not below a number: ones from the top bit of its predecessor on, and one
more. -/
def nextPower (w : BitVec 64) : BitVec 64 :=
  if w ≤ 1 then 1 else (BitVec.allOnes 64 >>> (w - 1).clz) + 1

/-- The class of the slabs, as the number of zeros that the least power has more than the first class. -/
def slabClass? (size : BitVec 64) : Option (BitVec 64) :=
  if size = 0 ∨ 65536 < size then none
  else
    let rounded := if nextPower size < 8 then 8 else nextPower size
    some (rounded.ctz - BitVec.ctz 8)

variable {n : Nat} {w : BitVec 64}

theorem toNat_word (word : n < Word.bound) : (BitVec.ofNat 64 n).toNat = n :=
  Nat.mod_eq_of_lt word

theorem ne_zero_of_toNat_pos (positive : 0 < w.toNat) : w ≠ 0#64 :=
  ne_of_apply_ne BitVec.toNat (Nat.ne_of_gt positive)

theorem toNat_register (p : PowerOfTwo) : p.register.toNat = p.value :=
  toNat_word (Nat.pow_lt_pow_right (by decide) p.exponent_lt)

theorem toNat_mask (p : PowerOfTwo) : (mask p.register).toNat = p.mask := by
  have one : 1 ≤ p.register := by
    rw [BitVec.le_def, toNat_register]
    exact p.value_pos
  rw [mask, BitVec.toNat_sub_of_le one, toNat_register]
  rfl

/-- The zeros below the one bit of a power are counted by its exponent. -/
theorem toNat_ctz_register (p : PowerOfTwo) : p.register.ctz.toNat = p.exponent := by
  have nonzero : p.register ≠ 0#64 := by
    apply ne_zero_of_toNat_pos
    rw [toNat_register]
    exact p.value_pos
  have set : p.register.toNat.testBit p.register.ctz.toNat = true :=
    BitVec.getLsbD_true_ctz_of_ne_zero nonzero
  rw [toNat_register, PowerOfTwo.value, Nat.testBit_two_pow, decide_eq_true_eq] at set
  exact set.symm

theorem toNat_mod_two_pow_succ (w : BitVec 64) (count : Nat) :
    w.toNat % 2 ^ (count + 1) =
      w.toNat % 2 ^ count + 2 ^ count * (w.getLsbD count).toNat := by
  rw [Nat.mod_pow_succ, BitVec.getLsbD, Nat.toNat_testBit]

theorem cpopNatRec_succ_eq (w : BitVec 64) (count : Nat) :
    w.cpopNatRec (count + 1) 0 = w.cpopNatRec count 0 + (w.getLsbD count).toNat := by
  rw [BitVec.cpopNatRec_succ, BitVec.cpopNatRec_eq, Nat.zero_add]

theorem cpopNatRec_eq_zero_iff (w : BitVec 64) (count : Nat) :
    w.cpopNatRec count 0 = 0 ↔ w.toNat % 2 ^ count = 0 := by
  induction count with
  | zero => simp [Nat.mod_one]
  | succ count ih =>
    rw [cpopNatRec_succ_eq, toNat_mod_two_pow_succ, Nat.add_eq_zero_iff, Nat.add_eq_zero_iff, ih]
    cases w.getLsbD count <;> simp

/-- If the bit on top is set, it is the only one, and else the one below is. -/
theorem cpopNatRec_eq_one_iff (w : BitVec 64) (count : Nat) :
    w.cpopNatRec count 0 = 1 ↔ ∃ exponent : Nat, w.toNat % 2 ^ count = 2 ^ exponent := by
  induction count with
  | zero =>
    refine iff_of_false Nat.zero_ne_one ?_
    rintro ⟨exponent, power⟩
    rw [Nat.pow_zero, Nat.mod_one] at power
    exact Nat.ne_of_lt (Nat.two_pow_pos exponent) power
  | succ count ih =>
    rw [cpopNatRec_succ_eq, toNat_mod_two_pow_succ]
    cases w.getLsbD count with
    | false => simpa using ih
    | true =>
      -- What is below the top bit is less than it, so the sum is a power only if nothing is there.
      have rest : w.toNat % 2 ^ count < 2 ^ count := Nat.mod_lt _ (Nat.two_pow_pos count)
      simp only [Bool.toNat_true, Nat.mul_one, Nat.add_eq_right, cpopNatRec_eq_zero_iff]
      constructor
      · intro none
        exact ⟨count, by omega⟩
      · rintro ⟨exponent, power⟩
        have above : 2 ^ count ≤ 2 ^ exponent := by omega
        have below : 2 ^ exponent < 2 ^ (count + 1) := by
          rw [Nat.pow_succ]
          omega
        have least := (Nat.pow_le_pow_iff_right (Nat.lt_add_one 1)).1 above
        have most := (Nat.pow_lt_pow_iff_right (Nat.lt_add_one 1)).1 below
        rw [Nat.le_antisymm (Nat.le_of_lt_succ most) least] at power
        omega

theorem isPower_iff (w : BitVec 64) : isPower w = true ↔ ∃ exponent : Nat, w.toNat = 2 ^ exponent := by
  have whole : w.toNat % 2 ^ 64 = w.toNat := Nat.mod_eq_of_lt w.isLt
  rw [isPower, beq_iff_eq, ← BitVec.toNat_inj, BitVec.toNat_cpop]
  refine (cpopNatRec_eq_one_iff w 64).trans ?_
  rw [whole]

/-- Clearing the low bits is a shift to the right and back. -/
theorem toNat_and_not_mask (p : PowerOfTwo) (w : BitVec 64) :
    (w &&& ~~~mask p.register).toNat = w.toNat >>> p.exponent <<< p.exponent := by
  have low : ∀ place, (mask p.register).getLsbD place = decide (place < p.exponent) := by
    intro place
    rw [BitVec.getLsbD, toNat_mask]
    exact Nat.testBit_two_pow_sub_one ..
  refine Nat.eq_of_testBit_eq fun place => ?_
  change (w &&& ~~~mask p.register).getLsbD place = _
  rw [BitVec.getLsbD_and, BitVec.getLsbD_not, low, Nat.testBit_shiftLeft, Nat.testBit_shiftRight]
  by_cases above : p.exponent ≤ place
  · rw [Nat.add_sub_of_le above, ← BitVec.getLsbD]
    cases set : w.getLsbD place with
    | false => simp
    | true => simp [above, BitVec.lt_of_getLsbD set]
  · simp [above, Nat.lt_of_not_le above]

theorem uaddOverflow_mask_iff (p : PowerOfTwo) (w : BitVec 64) :
    w.uaddOverflow (mask p.register) = true ↔ Word.bound ≤ w.toNat + p.mask := by
  rw [BitVec.uaddOverflow, decide_eq_true_eq, toNat_mask]
  rfl

theorem map_roundUp? (p : PowerOfTwo) (w : BitVec 64) :
    (roundUp? p.register w).map BitVec.toNat = p.roundUp? w.toNat := by
  unfold roundUp? PowerOfTwo.roundUp? Word.add?
  by_cases carries : w.uaddOverflow (mask p.register) = true
  · rw [if_pos carries, Word.fit?_eq_none_iff.2 ((uaddOverflow_mask_iff p w).1 carries)]
    rfl
  · have fits : w.toNat + p.mask < Word.bound :=
      Nat.lt_of_not_le fun beyond => carries ((uaddOverflow_mask_iff p w).2 beyond)
    have sum : (w + mask p.register).toNat = w.toNat + p.mask := by
      rw [BitVec.toNat_add, toNat_mask]
      exact Nat.mod_eq_of_lt fits
    rw [if_neg carries, Word.fit?_eq_some_iff.2 ⟨fits, rfl⟩, Option.map_some, Option.map_some,
      toNat_and_not_mask, sum]

theorem isAligned_register (p : PowerOfTwo) (w : BitVec 64) :
    isAligned p.register w = p.isAligned w.toNat := by
  rw [isAligned, PowerOfTwo.isAligned, Bool.eq_iff_iff, beq_iff_eq, beq_iff_eq, ← BitVec.toNat_inj,
    BitVec.toNat_and, toNat_mask]
  rfl

theorem toNat_padding (p : PowerOfTwo) (w : BitVec 64) :
    (padding p.register w).toNat = p.padding w.toNat := by
  rw [padding, BitVec.toNat_and, toNat_mask, BitVec.toNat_neg]
  rfl

theorem toNat_quotient (p : PowerOfTwo) (w : BitVec 64) :
    (quotient p.register w).toNat = p.quotient w.toNat := by
  rw [quotient, BitVec.ushiftRight_eq', BitVec.toNat_ushiftRight, toNat_ctz_register]
  rfl

theorem toNat_remainder (p : PowerOfTwo) (w : BitVec 64) :
    (remainder p.register w).toNat = p.remainder w.toNat := by
  rw [remainder, BitVec.toNat_and, toNat_mask]
  rfl

/-- The ones below the top bit make a power less one. -/
theorem toNat_allOnes_ushiftRight_add_one {zeros : Nat} (some : 0 < zeros) (inside : zeros ≤ 64) :
    (BitVec.allOnes 64 >>> zeros + 1).toNat = 2 ^ (64 - zeros) := by
  have split : 2 ^ 64 = 2 ^ zeros * 2 ^ (64 - zeros) := by
    rw [← Nat.pow_add, Nat.add_sub_of_le inside]
  have positive := Nat.two_pow_pos (64 - zeros)
  have ones : (2 ^ 64 - 1) / 2 ^ zeros = 2 ^ (64 - zeros) - 1 := by
    rw [split, Nat.mul_sub_div 0 _ _ (Nat.mul_pos (Nat.two_pow_pos zeros) positive), Nat.zero_div]
  have short : 2 ^ (64 - zeros) < 2 ^ 64 := Nat.pow_lt_pow_right (by decide) (by omega)
  calc (BitVec.allOnes 64 >>> zeros + 1).toNat
      _ = ((2 ^ 64 - 1) / 2 ^ zeros + 1) % 2 ^ 64 := by
        rw [BitVec.toNat_add, BitVec.toNat_ushiftRight, BitVec.toNat_allOnes,
          Nat.shiftRight_eq_div_pow]
        rfl
      _ = 2 ^ (64 - zeros) % 2 ^ 64 := by rw [ones, Nat.sub_add_cancel positive]
      _ = 2 ^ (64 - zeros) := Nat.mod_eq_of_lt short

/-- A number above one lies beyond the top bit of its predecessor, and not beyond twice that bit. -/
theorem toNat_nextPower (positive : 0 < w.toNat) (short : w.toNat ≤ 2 ^ (63 : Nat)) :
    (nextPower w).toNat = 2 ^ Size.ceilLog2 w.toNat := by
  unfold nextPower
  by_cases one : w ≤ 1
  · have same : w.toNat = 1 := Nat.le_antisymm one positive
    rw [if_pos one, same]
    rfl
  · have above : 1 < w.toNat := Nat.lt_of_not_le one
    have before : (w - 1).toNat = w.toNat - 1 :=
      BitVec.toNat_sub_of_le (Nat.le_of_lt above)
    have nonzero : w - 1 ≠ 0#64 := by
      apply ne_zero_of_toNat_pos
      rw [before]
      exact Nat.sub_pos_of_lt above
    have lower := BitVec.two_pow_sub_clz_le_toNat_of_ne_zero (by decide) nonzero
    have upper := BitVec.toNat_lt_two_pow_sub_clz (x := w - 1)
    have top : (w - 1).clz.toNat ≠ 0 := by
      rw [ne_eq, BitVec.clz_eq_zero_iff (by decide)]
      omega
    have inside : (w - 1).clz.toNat < 64 := by
      refine Nat.lt_of_not_le fun all => ?_
      rw [Nat.sub_eq_zero_of_le all, before] at upper
      omega
    have log : Size.ceilLog2 w.toNat = 64 - (w - 1).clz.toNat := by
      have next : 64 - 1 - (w - 1).clz.toNat + 1 = 64 - (w - 1).clz.toNat := by omega
      rw [← next]
      refine Size.ceilLog2_eq (by omega) ?_
      rw [next]
      omega
    rw [if_neg one, BitVec.ushiftRight_eq', log]
    exact toNat_allOnes_ushiftRight_add_one (Nat.pos_of_ne_zero top) (Nat.le_of_lt inside)

/-- The larger of two powers has the larger exponent; eight is the third power. -/
theorem max_eight_eq_register {power : BitVec 64} {exponent : Nat} (value : power.toNat = 2 ^ exponent)
    (short : max exponent 3 < 64) :
    (if power < 8 then 8 else power) = PowerOfTwo.register ⟨max exponent 3, short⟩ := by
  have eight : (8 : BitVec 64).toNat = 2 ^ 3 := rfl
  have below : power < 8 ↔ exponent < 3 := by
    rw [BitVec.lt_def, value, eight]
    exact Nat.pow_lt_pow_iff_right (by decide)
  rw [← BitVec.toNat_inj, toNat_register]
  change _ = 2 ^ max exponent 3
  by_cases low : exponent < 3
  · rw [if_pos (below.2 low), eight, Nat.max_eq_right (Nat.le_of_lt low)]
  · rw [if_neg (mt below.1 low), value, Nat.max_eq_left (Nat.le_of_not_lt low)]

theorem map_slabClass? (w : BitVec 64) :
    (slabClass? w).map BitVec.toNat = Size.slabClass? w.toNat := by
  have outside : w = 0 ∨ 65536 < w ↔ w.toNat = 0 ∨ Size.slabMax < w.toNat :=
    or_congr BitVec.toNat_inj.symm Iff.rfl
  unfold slabClass? Size.slabClass?
  by_cases refused : w = 0 ∨ 65536 < w
  · rw [if_pos refused, if_pos (outside.1 refused)]
    rfl
  · have served := mt outside.2 refused
    have within : w.toNat ≤ 2 ^ 16 := Nat.le_of_not_lt fun beyond => served (.inr beyond)
    have small := Size.ceilLog2_le (fun none => served (.inl none)) within
    have power : (nextPower w).toNat = 2 ^ Size.ceilLog2 w.toNat :=
      toNat_nextPower (by omega) (by omega)
    let rounded : PowerOfTwo := ⟨max (Size.ceilLog2 w.toNat) 3, by omega⟩
    have same : (if nextPower w < 8 then 8 else nextPower w) = rounded.register :=
      max_eight_eq_register power _
    have eight : (BitVec.ctz 8).toNat = 3 := toNat_ctz_register wordAlignment
    have least : BitVec.ctz 8 ≤ rounded.register.ctz := by
      rw [BitVec.le_def, eight, toNat_ctz_register]
      exact Nat.le_max_right ..
    have zeros : (rounded.register.ctz - BitVec.ctz 8).toNat = Size.ceilLog2 w.toNat - 3 := by
      calc (rounded.register.ctz - BitVec.ctz 8).toNat
          _ = rounded.exponent - 3 := by
            rw [BitVec.toNat_sub_of_le least, eight, toNat_ctz_register]
          _ = max (Size.ceilLog2 w.toNat) 3 - 3 := rfl
          _ = Size.ceilLog2 w.toNat - 3 := by omega
    rw [if_neg refused, if_neg served, same, Option.map_some, zeros]

/-- The instructions give what the arithmetic on numbers gives, for a power and a number. -/
structure Agrees (p : PowerOfTwo) (n : Nat) : Prop where
  isPower : isPower (BitVec.ofNat 64 n) = (PowerOfTwo.ofNat? n).isSome
  roundUp? : (roundUp? p.register (BitVec.ofNat 64 n)).map BitVec.toNat = p.roundUp? n
  isAligned : isAligned p.register (BitVec.ofNat 64 n) = p.isAligned n
  padding : (padding p.register (BitVec.ofNat 64 n)).toNat = p.padding n
  quotient : (quotient p.register (BitVec.ofNat 64 n)).toNat = p.quotient n
  remainder : (remainder p.register (BitVec.ofNat 64 n)).toNat = p.remainder n

theorem agrees (p : PowerOfTwo) (word : n < Word.bound) : Agrees p n := by
  have same := toNat_word word
  refine ⟨?_, ?_, ?_, ?_, ?_, ?_⟩
  · rw [Bool.eq_iff_iff, isPower_iff, same, PowerOfTwo.isSome_ofNat?_iff word]
  · rw [map_roundUp?, same]
  · rw [isAligned_register, same]
  · rw [toNat_padding, same]
  · rw [toNat_quotient, same]
  · rw [toNat_remainder, same]

end Register

namespace PowerOfTwo

/-- Arithmetic with a power, on every word. Rounding up gives the least multiple that is not below the
word, unless this is no word itself, and padding is the distance to it, the bound being a multiple.
Quotient and remainder are those of whole numbers, what is aligned is what the power divides, and a word is
read as a power exactly if it is one. All of this is done in a register without a division. -/
theorem arithmetic_exact (p : PowerOfTwo) {n : Nat} (word : n < Word.bound) :
    (∃ next, IsLeast {multiple | p.value ∣ multiple ∧ n ≤ multiple} next ∧
      p.roundUp? n = (if next < Word.bound then some next else none) ∧
      n + p.padding n = next) ∧
    (p.quotient n = n / p.value ∧ p.remainder n = n % p.value) ∧
    (p.isAligned n = true ↔ p.value ∣ n) ∧
    ((ofNat? n).isSome = true ↔ ∃ exponent : Nat, n = 2 ^ exponent) ∧
    (∀ q, ofNat? n = some q ↔ q.value = n) ∧
    Register.Agrees p n := by
  have inside := Nat.le_of_lt word
  exact ⟨⟨_, p.isLeast_add_padding inside, p.roundUp?_eq_fit? inside, rfl⟩,
    ⟨p.quotient_eq n, p.remainder_eq n⟩, p.isAligned_iff_dvd n, isSome_ofNat?_iff word,
    fun _ => ofNat?_eq_some_iff, Register.agrees p word⟩

/-- Ten below the bound no multiple of 64 is left that is a word. -/
theorem arithmetic_exact_near_bound :
    let n := 18446744073709551606
    n < Word.bound ∧ cacheLine.padding n = 10 ∧
      IsLeast {multiple | cacheLine.value ∣ multiple ∧ n ≤ multiple} Word.bound ∧
      cacheLine.roundUp? n = none ∧ cacheLine.remainder n = n % 64 ∧
      Register.Agrees cacheLine n := by
  intro n
  have word : n < Word.bound := by decide
  obtain ⟨⟨next, least, rounded, padded⟩, ⟨-, remainder⟩, -, -, -, agrees⟩ :=
    arithmetic_exact cacheLine word
  have ten : cacheLine.padding n = 10 := by decide
  have last : next = Word.bound := padded.symm.trans (by rw [ten]; rfl)
  rw [last] at least rounded
  exact ⟨word, ten, least, rounded, remainder, agrees⟩

end PowerOfTwo

end NumaHeap
