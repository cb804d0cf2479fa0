import NumaHeap.Proofs.Security.Checked
import Mathlib.Data.Nat.Digits.Defs
import Mathlib.Order.Nat

/-!
What a scan finds. To look at four words at once finds the same as to look at one after the other: the
first lane that is hit sets the lowest bits of the mask, and no lane is hit if no bit is set. What both
find is the least offset of an aligned word of the slice that is a signature.
-/

namespace NumaHeap.Security

/-- The number whose digits are the bytes, the lowest first. -/
def littleEndian (bytes : List UInt8) : Nat := Nat.ofDigits 256 (bytes.map UInt8.toNat)

/-- A whole aligned word of the slice stands at the offset, and it is a signature. -/
def SignatureAt (bytes : List UInt8) (offset : Nat) : Prop :=
  4 ∣ offset ∧ offset + 4 ≤ bytes.length ∧
    ∃ s ∈ signatures, littleEndian ((bytes.drop offset).take 4) = s.toNat

/-- How many bytes into a block the first lane stands that was hit. -/
def Lanes.firstHit? (hits : Lanes Bool) : Option Nat :=
  if hits.first then some 0
  else if hits.second then some 4
  else if hits.third then some 8
  else if hits.fourth then some 12
  else none

variable {a b c d : UInt8} {bytes rest : List UInt8} {offset found : Nat}

/-- The bits of a byte stay within the word, and do not meet those of the bytes below. -/
theorem toNat_or_shift {low shift : UInt32} {byte : UInt8} (within : shift.toNat ≤ 24)
    (below : low.toNat < 2 ^ shift.toNat) :
    (low ||| byte.toUInt32 <<< shift).toNat = low.toNat + byte.toNat * 2 ^ shift.toNat := by
  have small : byte.toNat < 2 ^ 8 := byte.toNat_lt
  have fits : byte.toNat <<< shift.toNat < 2 ^ 32 := by
    rw [Nat.shiftLeft_eq]
    calc byte.toNat * 2 ^ shift.toNat
        < 2 ^ 8 * 2 ^ shift.toNat := Nat.mul_lt_mul_of_pos_right small (Nat.two_pow_pos _)
      _ ≤ 2 ^ 8 * 2 ^ 24 := Nat.mul_le_mul_left _ (Nat.pow_le_pow_right (by decide) within)
  rw [UInt32.toNat_or, UInt32.toNat_shiftLeft, UInt8.toNat_toUInt32,
    Nat.mod_eq_of_lt (by omega : shift.toNat < 32), Nat.mod_eq_of_lt fits, Nat.or_comm,
    ← Nat.shiftLeft_add_eq_or_of_lt below, Nat.shiftLeft_eq, Nat.add_comm]

theorem toNat_word (a b c d : UInt8) : (word a b c d).toNat = littleEndian [a, b, c, d] := by
  have first : a.toNat < 256 := a.toNat_lt
  have second : b.toNat < 256 := b.toNat_lt
  have third : c.toNat < 256 := c.toNat_lt
  have two : (a.toUInt32 ||| b.toUInt32 <<< 8).toNat = a.toNat + b.toNat * 256 :=
    toNat_or_shift (by decide) first
  have three : (a.toUInt32 ||| b.toUInt32 <<< 8 ||| c.toUInt32 <<< 16).toNat =
      a.toNat + b.toNat * 256 + c.toNat * 65536 := by
    rw [toNat_or_shift (by decide) (by rw [two]; simp; omega), two]
    rfl
  have four : (word a b c d).toNat =
      a.toNat + b.toNat * 256 + c.toNat * 65536 + d.toNat * 16777216 := by
    rw [word, toNat_or_shift (by decide) (by rw [three]; simp; omega), three]
    rfl
  rw [four]
  simp only [littleEndian, List.map_cons, List.map_nil, Nat.ofDigits_cons, Nat.ofDigits_nil]
  omega

theorem isSignature_word :
    isSignature (word a b c d) = true ↔ ∃ s ∈ signatures, littleEndian [a, b, c, d] = s.toNat := by
  rw [isSignature, List.contains_iff_mem, ← toNat_word]
  constructor
  · exact fun member => ⟨_, member, rfl⟩
  · rintro ⟨s, member, same⟩
    exact UInt32.toNat_inj.1 same ▸ member

/-- Each signature adds its hits to those of the ones before. -/
theorem foldl_zipWith_or (known : List UInt32) (block : Lanes UInt32) (hits : Lanes Bool) :
    known.foldl (fun hits s => hits.zipWith Bool.or (block.map (· == s))) hits =
      hits.zipWith Bool.or (block.map fun w => known.contains w) := by
  induction known generalizing hits with
  | nil => simp [Lanes.zipWith, Lanes.map]
  | cons s known ih =>
    rw [List.foldl_cons, ih]
    simp only [Lanes.zipWith, Lanes.map, List.contains_cons, Bool.or_assoc]

theorem signatureLanes_eq (block : Lanes UInt32) :
    signatureLanes block = block.map isSignature := by
  rw [signatureLanes, foldl_zipWith_or]
  simp only [Lanes.zipWith, Lanes.map, Bool.false_or]
  rfl

/-- The mask tells the first lane that is hit, and whether there is one. -/
theorem firstHit?_eq (hits : Lanes Bool) :
    hits.firstHit? =
      if hits.byteMask = 0 then none else some (lowestBit hits.byteMask / 4 * 4) := by
  obtain ⟨first, second, third, fourth⟩ := hits
  revert first second third fourth
  decide

/-- Four words one after the other. -/
theorem firstWordFrom?_block (a0 a1 a2 a3 b0 b1 b2 b3 c0 c1 c2 c3 d0 d1 d2 d3 : UInt8)
    (offset : Nat) (rest : List UInt8) :
    firstWordFrom? offset (a0 :: a1 :: a2 :: a3 :: b0 :: b1 :: b2 :: b3 :: c0 :: c1 :: c2 :: c3 ::
        d0 :: d1 :: d2 :: d3 :: rest) =
      ((Lanes.firstHit? ⟨isSignature (word a0 a1 a2 a3), isSignature (word b0 b1 b2 b3),
          isSignature (word c0 c1 c2 c3), isSignature (word d0 d1 d2 d3)⟩).map (offset + ·)).or
        (firstWordFrom? (offset + 16) rest) := by
  simp only [firstWordFrom?, Lanes.firstHit?, Nat.add_assoc]
  cases isSignature (word a0 a1 a2 a3)
  · cases isSignature (word b0 b1 b2 b3)
    · cases isSignature (word c0 c1 c2 c3)
      · cases isSignature (word d0 d1 d2 d3) <;> rfl
      · rfl
    · rfl
  · rfl

theorem firstInBlocksFrom?_eq (offset : Nat) (bytes : List UInt8) :
    firstInBlocksFrom? offset bytes = firstWordFrom? offset bytes := by
  fun_induction firstInBlocksFrom? offset bytes with
  | case1 offset a0 a1 a2 a3 b0 b1 b2 b3 c0 c1 c2 c3 d0 d1 d2 d3 rest block mask clean ih =>
    have none : (signatureLanes block).firstHit? = .none := (firstHit?_eq _).trans (if_pos clean)
    rw [signatureLanes_eq] at none
    rw [ih, firstWordFrom?_block]
    change _ = (((block.map isSignature).firstHit?).map _).or _
    rw [none]
    rfl
  | case2 offset a0 a1 a2 a3 b0 b1 b2 b3 c0 c1 c2 c3 d0 d1 d2 d3 rest block mask dirty =>
    have some : (signatureLanes block).firstHit? = .some (lowestBit mask / 4 * 4) :=
      (firstHit?_eq _).trans (if_neg dirty)
    rw [signatureLanes_eq] at some
    rw [firstWordFrom?_block]
    change _ = (((block.map isSignature).firstHit?).map _).or _
    rw [some]
    rfl
  | case3 => rfl

/-- A signature is the first word, or it stands in the rest of the slice. -/
theorem signatureAt_cons :
    SignatureAt (a :: b :: c :: d :: rest) offset ↔
      offset = 0 ∧ isSignature (word a b c d) = true ∨
        ∃ later, offset = later + 4 ∧ SignatureAt rest later := by
  rw [isSignature_word]
  constructor
  · rintro ⟨aligned, within, s, member, same⟩
    rcases Nat.lt_or_ge offset 4 with early | late
    · obtain rfl : offset = 0 := by omega
      exact .inl ⟨rfl, s, member, same⟩
    · obtain ⟨later, rfl⟩ := Nat.exists_eq_add_of_le' late
      simp only [List.length_cons] at within
      exact .inr ⟨later, rfl, by omega, by omega, s, member, same⟩
  · rintro (⟨rfl, s, member, same⟩ | ⟨later, rfl, aligned, within, s, member, same⟩)
    · exact ⟨Nat.dvd_zero 4, by simp, s, member, same⟩
    · exact ⟨Nat.dvd_add_self_right.2 aligned, by simpa using within, s, member, same⟩

/-- To look at one word after the other finds the least offset. -/
theorem firstWordFrom?_eq_some_iff :
    firstWordFrom? offset bytes = some found ↔
      ∃ least, found = offset + least ∧ IsLeast {o | SignatureAt bytes o} least := by
  fun_induction firstWordFrom? offset bytes with
  | case1 offset a b c d rest here =>
    have least : IsLeast {o | SignatureAt (a :: b :: c :: d :: rest) o} 0 :=
      ⟨signatureAt_cons.2 (.inl ⟨rfl, here⟩), fun _ _ => Nat.zero_le _⟩
    constructor
    · rintro ⟨⟩
      exact ⟨0, rfl, least⟩
    · rintro ⟨other, rfl, also⟩
      rw [also.unique least]
      rfl
  | case2 offset a b c d rest plain ih =>
    rw [ih]
    constructor
    · rintro ⟨least, rfl, member, lower⟩
      refine ⟨least + 4, by omega, signatureAt_cons.2 (.inr ⟨least, rfl, member⟩), ?_⟩
      intro other there
      rcases signatureAt_cons.1 there with ⟨-, here⟩ | ⟨later, rfl, behind⟩
      · exact absurd here plain
      · exact Nat.add_le_add_right (lower behind) 4
    · rintro ⟨least, rfl, member, lower⟩
      rcases signatureAt_cons.1 member with ⟨-, here⟩ | ⟨later, rfl, behind⟩
      · exact absurd here plain
      · refine ⟨later, by omega, behind, fun other there => ?_⟩
        exact Nat.le_of_add_le_add_right (lower (signatureAt_cons.2 (.inr ⟨other, rfl, there⟩)))
  | case3 bytes offset short =>
    constructor
    · intro same
      cases same
    · rintro ⟨least, -, ⟨-, within, -⟩, -⟩
      rcases bytes with _ | ⟨a, _ | ⟨b, _ | ⟨c, _ | ⟨d, rest⟩⟩⟩⟩
      case cons.cons.cons.cons => exact absurd rfl (short a b c d rest)
      all_goals simp only [List.length_cons, List.length_nil] at within; omega

/-- Both ways to scan a slice find the least offset of an aligned word that is a signature, and nothing
where there is none. -/
theorem scans_find_least (bytes : List UInt8) :
    firstInBlocks? bytes = firstWord? bytes ∧
      (∀ offset, firstWord? bytes = some offset ↔ IsLeast {o | SignatureAt bytes o} offset) ∧
      (firstWord? bytes = none ↔ ∀ offset, ¬SignatureAt bytes offset) := by
  have some (offset : Nat) :
      firstWord? bytes = .some offset ↔ IsLeast {o | SignatureAt bytes o} offset := by
    rw [firstWord?, firstWordFrom?_eq_some_iff]
    simp
  refine ⟨firstInBlocksFrom?_eq 0 bytes, some, ?_⟩
  rw [Option.eq_none_iff_forall_ne_some]
  constructor
  · intro none offset there
    classical exact none _ ((some _).2 (Nat.isLeast_find ⟨offset, there⟩))
  · exact fun none offset here => none offset ((some offset).1 here).1

end NumaHeap.Security
