/-!
Bytes and words in hexadecimal. Digits are written in lower case and read in either.
-/

namespace NumaHeap.Text

/-- The value of a hexadecimal digit. -/
def hexDigit? (c : Char) : Option Nat :=
  if c.isDigit then some (c.toNat - '0'.toNat)
  else if 'a' ≤ c ∧ c ≤ 'f' then some (c.toNat - 'a'.toNat + 10)
  else if 'A' ≤ c ∧ c ≤ 'F' then some (c.toNat - 'A'.toNat + 10)
  else none

/-- A number in hexadecimal, with zeros in front up to a width. -/
def hex (width n : Nat) : String :=
  let digits := Nat.toDigits 16 n
  String.ofList (List.replicate (width - digits.length) '0' ++ digits)

/-- Reads a number in hexadecimal. -/
def ofHex? (text : List Char) : Option Nat :=
  text.foldlM (fun n c => (hexDigit? c).map (16 * n + ·)) 0

/-- Bytes, two digits each. -/
def hexBytes (bytes : List UInt8) : String := String.join (bytes.map fun b => hex 2 b.toNat)

/-- Reads bytes of two digits each. -/
def ofHexBytes? : List Char → Option (List UInt8)
  | [] => some []
  | [_] => none
  | high :: low :: rest => do
    let byte ← ofHex? [high, low]
    return UInt8.ofNat byte :: (← ofHexBytes? rest)

end NumaHeap.Text
