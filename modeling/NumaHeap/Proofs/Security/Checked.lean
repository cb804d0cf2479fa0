import NumaHeap.Proofs.Size.Checked
import NumaHeap.Security.Mode

/-!
Scans with every offset checked. An offset never passes the end of the slice, so all are words as long
as the length of the slice is one; and no mode scans more than its limit.
-/

namespace NumaHeap.Security

def firstWordFromChecked (offset : Nat) : List UInt8 → Option (Option Nat)
  | a :: b :: c :: d :: rest =>
    if isSignature (word a b c d) then some (some offset)
    else do firstWordFromChecked (← Word.add? offset 4) rest
  | _ => some none

/-- The offset of a block is moved on by that of the lane in which the signature was found. -/
def firstInBlocksFromChecked (offset : Nat) : List UInt8 → Option (Option Nat)
  | a0 :: a1 :: a2 :: a3 :: b0 :: b1 :: b2 :: b3 :: c0 :: c1 :: c2 :: c3 ::
      d0 :: d1 :: d2 :: d3 :: rest =>
    let block : Lanes UInt32 :=
      ⟨word a0 a1 a2 a3, word b0 b1 b2 b3, word c0 c1 c2 c3, word d0 d1 d2 d3⟩
    let mask := (signatureLanes block).byteMask
    if mask = 0 then do firstInBlocksFromChecked (← Word.add? offset 16) rest
    else do return some (← Word.add? offset (lowestBit mask / 4 * 4))
  | tail => firstWordFromChecked offset tail

theorem lowestBit_le (mask : Nat) : lowestBit mask ≤ 16 := by
  unfold lowestBit
  cases found : (List.range 16).find? mask.testBit with
  | none => exact Nat.le_refl 16
  | some bit => exact Nat.le_of_lt (List.mem_range.1 (List.mem_of_find?_eq_some found))

theorem firstWordFromChecked_eq {offset : Nat} {bytes : List UInt8}
    (below : offset + bytes.length < Word.bound) :
    firstWordFromChecked offset bytes = some (firstWordFrom? offset bytes) := by
  fun_induction firstWordFrom? offset bytes with
  | case1 offset a b c d rest signature => simp only [firstWordFromChecked, signature, if_true]
  | case2 offset a b c d rest plain ih =>
    simp only [List.length_cons] at below
    simp only [firstWordFromChecked, if_neg plain, Word.add?_of_lt (by omega : offset + 4 < _), bind,
      Option.bind_some]
    exact ih (by omega)
  | case3 offset bytes short => rw [firstWordFromChecked]; exact short

theorem firstInBlocksFromChecked_eq {offset : Nat} {bytes : List UInt8}
    (below : offset + bytes.length < Word.bound) :
    firstInBlocksFromChecked offset bytes = some (firstInBlocksFrom? offset bytes) := by
  fun_induction firstInBlocksFrom? offset bytes with
  | case1 offset a0 a1 a2 a3 b0 b1 b2 b3 c0 c1 c2 c3 d0 d1 d2 d3 rest block mask clean ih =>
    simp only [List.length_cons] at below
    have next : Word.add? offset 16 = some (offset + 16) := Word.add?_of_lt (by omega)
    have none : (signatureLanes block).byteMask = 0 := clean
    simp only [firstInBlocksFromChecked, next, bind, Option.bind_some]
    rw [if_pos none]
    exact ih (by omega)
  | case2 offset a0 a1 a2 a3 b0 b1 b2 b3 c0 c1 c2 c3 d0 d1 d2 d3 rest block mask dirty =>
    simp only [List.length_cons] at below
    have lane := lowestBit_le mask
    have found : Word.add? offset (lowestBit mask / 4 * 4) = some (offset + lowestBit mask / 4 * 4) :=
      Word.add?_of_lt (by omega)
    have some : ¬(signatureLanes block).byteMask = 0 := dirty
    simp only [firstInBlocksFromChecked]
    rw [if_neg some]
    change (Word.add? offset (lowestBit mask / 4 * 4)).bind _ = _
    rw [found]
    rfl
  | case3 offset tail short =>
    rw [firstInBlocksFromChecked]
    · exact firstWordFromChecked_eq below
    · exact short

namespace Mode

/-- Scans a slice, with every offset checked. -/
def checkContentChecked (bytes : List UInt8) : Option (Except Rejection Unit) := do
  match ← firstInBlocksFromChecked 0 bytes with
  | some offset => return .error (.suspiciousContent offset)
  | none => return .ok ()

def validateChecked (mode : Mode) (size : Nat) (leading : Nat → List UInt8) :
    Option (Except Rejection Unit) :=
  match mode.checkSize size with
  | .error cause => some (.error cause)
  | .ok _ =>
    let length := mode.scanLength size
    if length = 0 then some (.ok ()) else checkContentChecked (leading length)

theorem checkContentChecked_eq {bytes : List UInt8} (below : bytes.length < Word.bound) :
    checkContentChecked bytes = some (checkContent bytes) := by
  have scanned : firstInBlocksFromChecked 0 bytes = some (scan bytes) :=
    firstInBlocksFromChecked_eq (by omega)
  simp only [checkContentChecked, checkContent, scanned, bind, Option.bind_some]
  cases scan bytes <;> rfl

/-- A mode that scans has a limit, which no slice that is scanned exceeds. -/
theorem scanLength_lt {mode : Mode} {size : Nat} (accepted : mode.checkSize size = .ok ()) :
    mode.scanLength size < Word.bound := by
  cases mode with
  | disabled => exact (by decide : 0 < Word.bound)
  | basic => exact (by decide : 0 < Word.bound)
  | enhanced => exact Nat.lt_of_le_of_lt (Nat.min_le_right ..) (by decide)
  | paranoid =>
    simp only [checkSize, sizeLimit?] at accepted
    split at accepted
    · cases accepted
    · split at accepted
      · cases accepted
      · next within => exact Nat.lt_of_le_of_lt (Nat.le_of_not_lt within) (by decide)

/-- No check fails when memory is scanned. -/
theorem validateChecked_eq {leading : Nat → List UInt8} (mode : Mode) (size : Nat)
    (short : ∀ length, (leading length).length ≤ length) :
    mode.validateChecked size leading = some (mode.validate size leading) := by
  unfold validateChecked validate
  cases accepted : mode.checkSize size with
  | error cause => rfl
  | ok =>
    have below := Nat.lt_of_le_of_lt (short (mode.scanLength size)) (scanLength_lt accepted)
    simp only [checkContentChecked_eq below, bind, Except.bind]
    split <;> rfl

end Mode

end NumaHeap.Security
