import Mathlib
import NumaHeap.Ratio

/-!
Shares of a whole, as doubles. To convert a word to a double is to round it, which keeps the order of
words: a part is converted to no more than its whole. The quotient of the two is then rounded to no more
than one.
-/

namespace NumaHeap.Double

open Float.Model (Format UnpackedFloat totalExponent)
open Float.Model.UnpackedFloat

/-- A mantissa as one number with the two bits that decide how it is rounded. -/
def weight (m : ExtendedMantissa) : Nat := 4 * m.mantissa + 2 * m.roundBit.toNat + m.stickyBit.toNat

variable {x y : ExtendedMantissa}

theorem weight_shiftRightOne (m : ExtendedMantissa) :
    weight m.shiftRightOne = 2 * (weight m / 4) + min 1 (weight m % 4) := by
  obtain ⟨mantissa, round, sticky⟩ := m
  have parity : (mantissa % 2 != 0).toNat = mantissa % 2 := by
    rcases Nat.mod_two_eq_zero_or_one mantissa with even | odd
    · rw [even]; rfl
    · rw [odd]; rfl
  cases round <;> cases sticky <;>
    simp only [weight, ExtendedMantissa.shiftRightOne, parity, Bool.or_false, Bool.or_true,
      Bool.toNat_false, Bool.toNat_true] <;> omega

theorem shiftRight_mono (shift : Nat) (below : weight x ≤ weight y) :
    weight (x >>> shift) ≤ weight (y >>> shift) := by
  induction shift with
  | zero => exact below
  | succ shift ih =>
    change weight (x >>> shift).shiftRightOne ≤ weight (y >>> shift).shiftRightOne
    rw [weight_shiftRightOne, weight_shiftRightOne]
    omega

theorem mantissa_shiftRight (m : ExtendedMantissa) (shift : Nat) :
    (m >>> shift).mantissa = m.mantissa / 2 ^ shift := by
  induction shift with
  | zero => exact (Nat.div_one _).symm
  | succ shift ih =>
    change (m >>> shift).mantissa / 2 = _
    rw [ih, Nat.div_div_eq_div_mul, Nat.pow_succ]

theorem roundedMantissa_mono (below : weight x ≤ weight y) :
    x.roundedMantissa ≤ y.roundedMantissa := by
  obtain ⟨m, r, s⟩ := x
  obtain ⟨n, t, u⟩ := y
  cases r <;> cases s <;> cases t <;> cases u <;>
    simp only [weight, Bool.toNat_false, Bool.toNat_true, ExtendedMantissa.roundedMantissa,
      ExtendedMantissa.accuracy, Accuracy.roundToNearestEven] at below ⊢ <;> omega

theorem roundedMantissa_bounds (m : ExtendedMantissa) :
    m.mantissa ≤ m.roundedMantissa ∧ m.roundedMantissa ≤ m.mantissa + 1 := by
  obtain ⟨mantissa, round, sticky⟩ := m
  cases round <;> cases sticky <;>
    simp only [ExtendedMantissa.roundedMantissa, ExtendedMantissa.accuracy,
      Accuracy.roundToNearestEven] <;> omega

/-- A mantissa without its last bits, rounded. -/
def rounded (mantissa : Nat) (accuracy : Accuracy) (shift : Nat) : Nat :=
  (ExtendedMantissa.ofMantissaAndAccuracy mantissa accuracy >>> shift).roundedMantissa

section

variable {m n shift : Nat} {e : Int}

theorem rounded_mono (below : m ≤ n) (shift : Nat) :
    rounded m .exact shift ≤ rounded n .exact shift := by
  refine roundedMantissa_mono (shiftRight_mono shift ?_)
  simp only [weight, ExtendedMantissa.ofMantissaAndAccuracy]
  omega

/-- What is left of a mantissa has 53 bits, but rounding may bring it to the next power of two. -/
theorem rounded_bounds (least : 2 ^ (52 + shift) ≤ m) (most : m < 2 ^ (53 + shift))
    (accuracy : Accuracy) :
    2 ^ 52 ≤ rounded m accuracy shift ∧ rounded m accuracy shift ≤ 2 ^ 53 := by
  obtain ⟨low, high⟩ :=
    roundedMantissa_bounds (ExtendedMantissa.ofMantissaAndAccuracy m accuracy >>> shift)
  have kept : (ExtendedMantissa.ofMantissaAndAccuracy m accuracy).mantissa = m := by
    cases accuracy with
    | exact => rfl
    | inexact order => cases order <;> rfl
  rw [mantissa_shiftRight, kept] at low high
  have positive : 0 < 2 ^ shift := Nat.two_pow_pos shift
  rw [Nat.pow_add] at least most
  have above := (Nat.le_div_iff_mul_le positive).2 least
  have below := (Nat.div_lt_iff_lt_mul positive).2 most
  exact ⟨Nat.le_trans above low, Nat.le_trans high below⟩

theorem log2_eq (least : 2 ^ (52 + shift) ≤ m) (most : m < 2 ^ (53 + shift)) :
    m.log2 = 52 + shift := by
  have nonzero : m ≠ 0 := Nat.ne_of_gt (Nat.lt_of_lt_of_le (Nat.two_pow_pos _) least)
  refine (Nat.log2_eq_iff nonzero).2 ⟨least, ?_⟩
  rwa [show 52 + shift + 1 = 53 + shift by omega]

theorem targetExponent_of_le {total : Int} (low : -1021 ≤ total) :
    Format.binary64.targetExponent total = total - 53 := by
  have floor : Format.binary64.minExponent = -1074 := rfl
  have bits : Format.binary64.mantissaBits = 53 := rfl
  rw [Format.targetExponent, floor, bits]
  omega

theorem targetExponent_eq (low : -1074 ≤ (m.log2 : Int) - 52 + e) :
    Format.binary64.targetExponent (totalExponent m e) = (m.log2 : Int) - 52 + e := by
  rw [totalExponent, targetExponent_of_le (by omega)]
  omega

end

/-- A positive double by its mantissa and exponent. -/
structure Magnitude where
  mantissa : Nat
  exponent : Int

namespace Magnitude

/-- The double, or zero if there is nothing in the mantissa. -/
def toUnpacked (a : Magnitude) : UnpackedFloat :=
  if positive : a.mantissa = 0 then .zero .positive
  else .finite .positive a.mantissa a.exponent (Nat.pos_of_ne_zero positive)

/-- A mantissa of one bit too many is halved. -/
def carry (a : Magnitude) : Magnitude :=
  if a.mantissa = 2 ^ 53 then ⟨2 ^ 52, a.exponent + 1⟩ else a

/-- The order of doubles whose mantissas have the same number of bits. -/
def Le (a b : Magnitude) : Prop :=
  a.exponent < b.exponent ∨ a.exponent = b.exponent ∧ a.mantissa ≤ b.mantissa

/-- The mantissa has 53 bits, or is the next power of two. -/
structure Rounded (a : Magnitude) : Prop where
  least : 2 ^ 52 ≤ a.mantissa
  most : a.mantissa ≤ 2 ^ 53

/-- The double is neither subnormal nor infinite. -/
structure Normal (a : Magnitude) : Prop where
  least : 2 ^ 52 ≤ a.mantissa
  most : a.mantissa < 2 ^ 53
  low : -1074 ≤ a.exponent
  high : a.exponent ≤ 971

variable {a b : Magnitude}

theorem Rounded.carry_mono (one : a.Rounded) (two : b.Rounded) (below : a.Le b) :
    a.carry.Le b.carry := by
  obtain ⟨aLeast, aMost⟩ := one
  obtain ⟨bLeast, bMost⟩ := two
  obtain ⟨m, e⟩ := a
  obtain ⟨n, f⟩ := b
  simp only [carry, Le] at *
  split <;> split <;> simp only <;> omega

theorem Rounded.carry_normal (here : a.Rounded) (low : -1074 ≤ a.exponent)
    (high : a.exponent ≤ 970) : a.carry.Normal := by
  obtain ⟨least, most⟩ := here
  unfold carry
  split
  · exact ⟨Nat.le_refl _, Nat.lt_add_one_of_le (by decide : 2 ^ 52 ≤ 2 ^ 53 - 1),
      by dsimp only; omega, by dsimp only; omega⟩
  · exact ⟨least, by omega, low, by omega⟩

theorem unpackSign_packComponents {spec : Format} {sign : Sign} {exponent mantissa} :
    unpackSign (packComponents spec sign exponent mantissa) = sign.toBitVec := by
  apply BitVec.eq_of_getLsbD_eq
  intro place inside
  obtain rfl : place = 0 := by omega
  simp [unpackSign, packComponents, BitVec.getLsbD_append, BitVec.getElem_append]

/-- What is stored of a normal double is its mantissa without the leading bit. -/
theorem unpack_packComponents {spec : Format} {sign : Sign} {exponent mantissa}
    (finite : exponent ≠ -1#_) (normal : exponent ≠ 0#_) :
    unpack spec (packComponents spec sign exponent mantissa) =
      .finite sign (1#1 ++ mantissa).toNat
        (exponent.toNat - (spec.exponentBias + spec.mantissaBitsWithoutImplicit)) (by simp) := by
  have same : Sign.ofBitVec sign.toBitVec = sign := by cases sign <;> rfl
  simp only [unpack, unpackMantissa_packComponents, unpackExponent_packComponents,
    unpackSign_packComponents, if_neg finite, if_neg normal, same]

/-- A normal double is stored as it is. -/
theorem Normal.unpack_pack (normal : a.Normal) :
    (Float.Model.pack a.toUnpacked).unpack = a.toUnpacked := by
  obtain ⟨m, e⟩ := a
  obtain ⟨least, most, low, high⟩ := normal
  dsimp only at least most low high
  have nonzero : m ≠ 0 := by omega
  have log : m.log2 + 1 = 53 := by
    rw [(Nat.log2_eq_iff nonzero).2 ⟨least, most⟩]
  obtain ⟨biased, same⟩ : ∃ biased : Nat, e + 1023 + 52 = biased := ⟨(e + 1075).toNat, by omega⟩
  have bias : Format.binary64.exponentBias = 1023 := rfl
  have bits : Format.binary64.mantissaBits = 53 := rfl
  have packed : UnpackedFloat.pack Format.binary64 (toUnpacked ⟨m, e⟩) =
      packComponents Format.binary64 .positive (BitVec.ofNat _ biased) (BitVec.ofNat _ m) := by
    rw [toUnpacked, dif_neg nonzero, UnpackedFloat.pack]
    dsimp only
    have stored : (e + (1023 : Nat) + (52 : Nat)).toNat = biased := by omega
    rw [bias, bits, stored, if_neg (by omega), if_pos log]
  change UnpackedFloat.unpack Format.binary64 (UnpackedFloat.pack Format.binary64 _) = _
  have exponent : (BitVec.ofNat 11 biased).toNat = biased :=
    Nat.mod_eq_of_lt (by omega : biased < 2 ^ 11)
  have mantissa : (1#1 ++ BitVec.ofNat 52 m).toNat = m := by
    rw [BitVec.toNat_append, ← Nat.shiftLeft_add_eq_or_of_lt (BitVec.isLt _), BitVec.toNat_ofNat]
    simp only [BitVec.toNat_ofNat, Nat.shiftLeft_eq]
    omega
  rw [packed, unpack_packComponents]
  · rw [toUnpacked, dif_neg nonzero]
    congr 1
    rw [exponent, bias]
    change (biased : Int) - ((1023 : Nat) + (52 : Nat)) = e
    omega
  · refine ne_of_apply_ne BitVec.toNat ?_
    rw [exponent]
    change biased ≠ 2047
    omega
  · refine ne_of_apply_ne BitVec.toNat ?_
    rw [exponent]
    change biased ≠ 0
    omega

/-- Doubles are compared by their exponents, and then by their mantissas. -/
theorem Normal.le (one : a.Normal) (two : b.Normal) (below : a.Le b) :
    a.toUnpacked.le b.toUnpacked = true := by
  have left : a.mantissa ≠ 0 := by have := one.least; omega
  have right : b.mantissa ≠ 0 := by have := two.least; omega
  rw [toUnpacked, toUnpacked, dif_neg left, dif_neg right]
  change ((compare a.exponent b.exponent).then (compare a.mantissa b.mantissa)).isLE = true
  rcases below with before | ⟨same, less⟩
  · rw [Int.compare_eq_lt.2 before]
    rfl
  · rw [same, Int.compare_eq_eq.2 rfl]
    exact Nat.isLE_compare.2 less

end Magnitude

section

variable {m n shift : Nat} {e : Int}

theorem shiftToTargetExponent_eq (least : 2 ^ (52 + shift) ≤ m) (most : m < 2 ^ (53 + shift))
    (low : -1074 ≤ e + shift) (accuracy : Accuracy) :
    shiftToTargetExponent Format.binary64 m e accuracy =
      (ExtendedMantissa.ofMantissaAndAccuracy m accuracy >>> shift, e + shift) := by
  have log := log2_eq least most
  have amount : ((m.log2 : Int) - 52 + e - e).toNat = shift := by omega
  rw [shiftToTargetExponent, targetExponent_eq (by omega), shiftToExponent, amount]

/-- A mantissa is rounded to 53 bits. -/
theorem roundWithAccuracy_eq (least : 2 ^ (52 + shift) ≤ m) (most : m < 2 ^ (53 + shift))
    (low : -1074 ≤ e + shift) (accuracy : Accuracy) :
    roundWithAccuracy Format.binary64 .positive m e accuracy =
      (Magnitude.carry ⟨rounded m accuracy shift, e + shift⟩).toUnpacked := by
  obtain ⟨above, below⟩ := rounded_bounds least most accuracy
  rw [roundWithAccuracy, shiftToTargetExponent_eq least most low]
  change Magnitude.toUnpacked
    ⟨(shiftToTargetExponent Format.binary64 (rounded m accuracy shift) (e + shift) .exact).1.mantissa,
      (shiftToTargetExponent Format.binary64 (rounded m accuracy shift) (e + shift) .exact).2⟩ = _
  by_cases full : rounded m accuracy shift = 2 ^ 53
  · have carried : shiftToTargetExponent Format.binary64 (2 ^ 53) (e + shift) .exact =
        (ExtendedMantissa.mk (2 ^ 53) false false >>> 1, e + shift + (1 : Nat)) :=
      shiftToTargetExponent_eq (by omega) (by omega) (by omega) .exact
    rw [full, Magnitude.carry, if_pos rfl, carried]
    rfl
  · have settled : shiftToTargetExponent Format.binary64 (rounded m accuracy shift) (e + shift)
        .exact = (ExtendedMantissa.mk (rounded m accuracy shift) false false >>> 0,
          e + shift + (0 : Nat)) :=
      shiftToTargetExponent_eq above (by omega) (by omega) .exact
    rw [Magnitude.carry, if_neg full, settled]
    exact congrArg (fun exponent => Magnitude.toUnpacked ⟨_, exponent⟩) (Int.add_zero _)

/-- What a word is converted to. A word of less than 53 bits is shifted up, a word of more bits is
rounded. -/
def converted (n : Nat) : Magnitude :=
  Magnitude.carry ⟨rounded (n <<< (52 - n.log2)) .exact (n.log2 - 52), (n.log2 : Int) - 52⟩

theorem converted_bounds (positive : 0 < n) :
    2 ^ (52 + (n.log2 - 52)) ≤ n <<< (52 - n.log2) ∧
      n <<< (52 - n.log2) < 2 ^ (53 + (n.log2 - 52)) := by
  obtain ⟨least, most⟩ := (Nat.log2_eq_iff (Nat.ne_of_gt positive)).1 rfl
  rw [Nat.shiftLeft_eq]
  rcases Nat.le_total n.log2 52 with small | large
  · have low : 2 ^ (52 + (n.log2 - 52)) = 2 ^ n.log2 * 2 ^ (52 - n.log2) := by
      rw [← Nat.pow_add]
      congr 1
      omega
    have high : 2 ^ (53 + (n.log2 - 52)) = 2 ^ (n.log2 + 1) * 2 ^ (52 - n.log2) := by
      rw [← Nat.pow_add]
      congr 1
      omega
    rw [low, high]
    exact ⟨Nat.mul_le_mul_right _ least, Nat.mul_lt_mul_of_pos_right most (Nat.two_pow_pos _)⟩
  · have low : 52 + (n.log2 - 52) = n.log2 := by omega
    have high : 53 + (n.log2 - 52) = n.log2 + 1 := by omega
    have none : 52 - n.log2 = 0 := by omega
    rw [low, high, none, Nat.pow_zero, Nat.mul_one]
    exact ⟨least, most⟩

theorem ofNat_eq (positive : 0 < n) :
    UnpackedFloat.ofNat Format.binary64 n = (converted n).toUnpacked := by
  obtain ⟨least, most⟩ := converted_bounds positive
  have target : Format.binary64.targetExponent (totalExponent n 0) = (n.log2 : Int) - 52 + 0 :=
    targetExponent_eq (by omega)
  have shift : (0 - ((n.log2 : Int) - 52 + 0)).toNat = 52 - n.log2 := by omega
  have exponent : (0 : Int) - (52 - n.log2 : Nat) + (n.log2 - 52 : Nat) = (n.log2 : Int) - 52 := by
    omega
  rw [UnpackedFloat.ofNat, UnpackedFloat.ofInt, UnpackedFloat.normalize,
    Int.compare_eq_gt.2 (by omega)]
  dsimp only
  rw [UnpackedFloat.round, Int.toNat_natCast, target, decreaseExponent, shift]
  dsimp only
  rw [roundWithAccuracy_eq least most (by omega), exponent]
  rfl

theorem converted_rounded (positive : 0 < n) :
    Magnitude.Rounded
      ⟨rounded (n <<< (52 - n.log2)) .exact (n.log2 - 52), (n.log2 : Int) - 52⟩ := by
  obtain ⟨least, most⟩ := converted_bounds positive
  obtain ⟨above, below⟩ := rounded_bounds least most .exact
  exact ⟨above, below⟩

theorem converted_exponent (word : n < 2 ^ 64) :
    -52 ≤ (converted n).exponent ∧ (converted n).exponent ≤ 12 := by
  have log : n.log2 < 64 := by
    by_cases zero : n = 0
    · subst zero
      decide
    · exact (Nat.log2_lt zero).2 word
  unfold converted Magnitude.carry
  split <;> dsimp only <;> omega

theorem converted_normal (positive : 0 < n) (word : n < 2 ^ 64) : (converted n).Normal := by
  have log : n.log2 < 64 := (Nat.log2_lt (Nat.ne_of_gt positive)).2 word
  exact (converted_rounded positive).carry_normal (by dsimp only; omega) (by dsimp only; omega)

/-- Conversion keeps the order of words. -/
theorem converted_mono (positive : 0 < m) (below : m ≤ n) : (converted m).Le (converted n) := by
  have more : 0 < n := Nat.lt_of_lt_of_le positive below
  refine (converted_rounded positive).carry_mono (converted_rounded more) ?_
  have logs : m.log2 ≤ n.log2 := by
    refine (Nat.le_log2 (Nat.ne_of_gt more)).2 (Nat.le_trans ?_ below)
    exact (Nat.le_log2 (Nat.ne_of_gt positive)).1 (Nat.le_refl _)
  rcases Nat.lt_or_eq_of_le logs with less | same
  · exact .inl (by dsimp only; omega)
  · refine .inr ⟨by rw [same], ?_⟩
    rw [same]
    refine rounded_mono ?_ _
    rw [Nat.shiftLeft_eq, Nat.shiftLeft_eq]
    exact Nat.mul_le_mul_right _ below

end

namespace Magnitude

variable {a b : Magnitude}

/-- One, as a double. -/
def one : Magnitude := ⟨2 ^ 52, -52⟩

theorem one_normal : one.Normal :=
  ⟨Nat.le_refl _, by decide, by decide, by decide⟩

theorem Rounded.carry_le_one (here : a.Rounded) (low : a.exponent ≤ -53) : a.carry.Le one := by
  have full : Rounded ⟨2 ^ 53, -53⟩ := ⟨by decide, Nat.le_refl _⟩
  refine here.carry_mono full ?_
  rcases Int.lt_or_eq_of_le low with less | same
  · exact .inl less
  · exact .inr ⟨same, here.most⟩

theorem roundWithAccuracy_le_one {m shift : Nat} {e : Int} (least : 2 ^ (52 + shift) ≤ m)
    (most : m < 2 ^ (53 + shift)) (accuracy : Accuracy) (low : -1074 ≤ e + shift)
    (small : e + shift ≤ -53 ∨ e + shift = -52 ∧ rounded m accuracy shift = 2 ^ 52) :
    ∃ c : Magnitude, roundWithAccuracy Format.binary64 .positive m e accuracy = c.toUnpacked ∧
      c.Normal ∧ c.Le one := by
  obtain ⟨above, below⟩ := rounded_bounds least most accuracy
  have here : Rounded ⟨rounded m accuracy shift, e + shift⟩ := ⟨above, below⟩
  refine ⟨_, roundWithAccuracy_eq least most low accuracy,
    here.carry_normal low (by dsimp only; omega), ?_⟩
  rcases small with small | ⟨unit, exact⟩
  · exact here.carry_le_one small
  · rw [unit, exact]
    exact .inr ⟨rfl, Nat.le_refl _⟩

/-- The quotient of a double and one that is no less is no more than one. -/
theorem Normal.div_le_one (first : a.Normal) (second : b.Normal) (below : a.Le b)
    (near : -1021 ≤ a.exponent - b.exponent) :
    ∃ c : Magnitude, UnpackedFloat.div Format.binary64 a.toUnpacked b.toUnpacked = c.toUnpacked ∧
      c.Normal ∧ c.Le one := by
  obtain ⟨m, e⟩ := a
  obtain ⟨n, f⟩ := b
  obtain ⟨least, most, -, -⟩ := first
  obtain ⟨lowest, highest, -, -⟩ := second
  dsimp only at least most lowest highest near
  have log : m.log2 = 52 + 0 := log2_eq least most
  have other : n.log2 = 52 + 0 := log2_eq lowest highest
  have target : min (e - f) (Format.binary64.targetExponent (totalExponent m e - totalExponent n f)) =
      e - f - 53 := by
    rw [totalExponent, totalExponent, log, other, targetExponent_of_le (by omega)]
    omega
  have amount : (e - f - (e - f - 53)).toNat = 53 := by omega
  have divided : UnpackedFloat.div Format.binary64 (toUnpacked ⟨m, e⟩) (toUnpacked ⟨n, f⟩) =
      roundWithAccuracy Format.binary64 .positive (m <<< 53 / n) (e - f - 53)
        (accuracyOfFraction (m <<< 53 % n) n) := by
    rw [toUnpacked, toUnpacked, dif_neg (by dsimp only; omega), dif_neg (by dsimp only; omega),
      UnpackedFloat.div, divCore, target, amount]
    rfl
  have positive : 0 < n := by omega
  have enough : 2 ^ 52 ≤ m <<< 53 / n := (Nat.le_div_iff_mul_le positive).2 (by
    rw [Nat.shiftLeft_eq]
    omega)
  have few : m <<< 53 / n < 2 ^ (53 + 1) := (Nat.div_lt_iff_lt_mul positive).2 (by
    rw [Nat.shiftLeft_eq]
    omega)
  have exponent : e ≤ f := by
    rcases below with less | ⟨same, -⟩
    · exact Int.le_of_lt less
    · exact Int.le_of_eq same
  rw [divided]
  rcases Nat.lt_or_ge (m <<< 53 / n) (2 ^ 53) with short | long
  · have short : m <<< 53 / n < 2 ^ (53 + 0) := short
    exact roundWithAccuracy_le_one enough short _ (by omega) (.inl (by omega))
  · have long : 2 ^ (52 + 1) ≤ m <<< 53 / n := long
    refine roundWithAccuracy_le_one long few _ (by omega) ?_
    rcases below with less | ⟨same, less⟩
    · exact .inl (by dsimp only at less; omega)
    -- The two are the same, so that the quotient is exact.
    · have least := (Nat.le_div_iff_mul_le positive).1 long
      rw [Nat.shiftLeft_eq] at least
      dsimp only at same less
      obtain rfl : m = n := by omega
      rw [Nat.shiftLeft_eq, Nat.mul_div_cancel_left _ positive, Nat.mul_mod_right]
      have unit : rounded (2 ^ 53) .exact 1 = 2 ^ 52 := by decide
      exact .inr ⟨by omega, unit⟩

end Magnitude

theorem le_iff {x y : Float} : x ≤ y ↔ x.toModel.unpack.le y.toModel.unpack = true :=
  decide_eq_true_iff

theorem Magnitude.zero_le (a : Magnitude) :
    (UnpackedFloat.zero .positive).le a.toUnpacked = true := by
  unfold toUnpacked
  split <;> rfl

theorem toModel_nearestDouble {n : Nat} (word : n < 2 ^ 64) :
    (nearestDouble n).toModel = .pack (UnpackedFloat.ofNat Format.binary64 n) := by
  have same : n.toUInt64.toNat = n := Nat.mod_eq_of_lt word
  change Float.Model.pack (UnpackedFloat.ofNat Format.binary64 n.toUInt64.toNat) = _
  rw [same]

theorem unpack_nearestDouble {n : Nat} (positive : 0 < n) (word : n < 2 ^ 64) :
    (nearestDouble n).toModel.unpack = (converted n).toUnpacked := by
  rw [toModel_nearestDouble word, ofNat_eq positive, (converted_normal positive word).unpack_pack]

end NumaHeap.Double

namespace NumaHeap

open Double Float.Model Float.Model.UnpackedFloat

/-- A part is no less than nothing and no more than its whole. -/
theorem Ratio.value_bounds {r : Ratio} (part : r.part ≤ r.whole) (word : r.whole < 2 ^ 64) :
    0.0 ≤ r.value ∧ r.value ≤ 1.0 := by
  unfold Ratio.value
  split
  · exact ⟨by decide +kernel, by decide +kernel⟩
  · next nonzero =>
    have whole : 0 < r.whole := Nat.pos_of_ne_zero nonzero
    have range : r.part < 2 ^ 64 := Nat.lt_of_le_of_lt part word
    have second := converted_normal whole word
    have quotient : (nearestDouble r.part / nearestDouble r.whole).toModel =
        .pack (UnpackedFloat.div Format.binary64 (nearestDouble r.part).toModel.unpack
          (converted r.whole).toUnpacked) := by
      rw [← unpack_nearestDouble whole word]
      rfl
    rw [le_iff, le_iff, quotient]
    rcases Nat.eq_zero_or_pos r.part with none | some
    · have least : (converted r.whole).mantissa ≠ 0 := by
        have least := second.least
        omega
      have zero : (nearestDouble 0).toModel.unpack = .zero .positive := rfl
      have divided : UnpackedFloat.div Format.binary64 (nearestDouble r.part).toModel.unpack
          (converted r.whole).toUnpacked = .zero .positive := by
        rw [none, zero, Magnitude.toUnpacked, dif_neg least]
        rfl
      rw [divided]
      exact ⟨rfl, rfl⟩
    · obtain ⟨c, divided, normal, small⟩ := (converted_normal some range).div_le_one second
        (converted_mono some part) (by
          have low := (converted_exponent range).1
          have high := (converted_exponent word).2
          omega)
      rw [unpack_nearestDouble some range, divided, normal.unpack_pack]
      exact ⟨c.zero_le, normal.le Magnitude.one_normal small⟩

end NumaHeap
