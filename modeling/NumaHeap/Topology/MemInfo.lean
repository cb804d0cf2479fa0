import NumaHeap.Text.Field

/-!
The memory of a node, read from a description whose lines look like `Node 0 MemTotal: 16318412 kB`.
-/

namespace NumaHeap.Topology.MemInfo

/-- The mark before the amount. -/
def mark : List Char := "MemTotal:".toList

/-- Bytes of one unit; without a unit the amount is in bytes. -/
def unit? : Option (List Char) → Option Nat
  | none => some 1
  | some ['k', 'B'] | some ['K', 'B'] => some 1024
  | some ['M', 'B'] => some 1048576
  | some _ => none

/-- The lines of a text. -/
def lines (text : List Char) : List (List Char) :=
  Text.fields (· == '\n') text

/-- The amount that follows the mark on the first line that holds it, in bytes. Words after the unit
do not count, and an amount beyond the word bound is none. -/
def totalBytes? (text : List Char) : Option Nat := do
  let (_, rest) ← (lines text).findSome? (Text.cut? mark)
  let words := Text.words rest
  let amount ← Text.number? (← words.head?)
  let unit ← unit? words[1]?
  Word.mul? amount unit

end NumaHeap.Topology.MemInfo
