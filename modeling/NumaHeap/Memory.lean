import NumaHeap.Size.Word

/-!
The contents of the address space: one byte at each address below the word bound.

Contents are kept as a binary tree over the address space, in which a range filled with one byte is
a single leaf, so that clearing a range costs no more than finding its ends. `get_fill` says all
that writing does: the range holds the byte, and every other address what it held before. All other
accesses are made of these two.
-/

namespace NumaHeap

/-- Contents of a range whose length is a power of two. -/
inductive MemoryTree where
  | uniform (byte : UInt8)
  | halves (low high : MemoryTree)

namespace MemoryTree

/-- The byte at an offset of a range of `span` bytes. -/
def get : MemoryTree → (span offset : Nat) → UInt8
  | .uniform byte, _, _ => byte
  | .halves low high, span, offset =>
    if offset < span / 2 then low.get (span / 2) offset
    else high.get (span / 2) (offset - span / 2)

/-- Two halves, as one leaf if they hold the same byte throughout. -/
def join : MemoryTree → MemoryTree → MemoryTree
  | .uniform b, .uniform c => if b = c then .uniform b else .halves (.uniform b) (.uniform c)
  | low, high => .halves low high

/-- Sets the offsets from `first` up to `stop` of a range of `span` bytes, which is `2 ^ depth`. -/
def fill : (depth : Nat) → MemoryTree → (span first stop : Nat) → UInt8 → MemoryTree
  | depth, tree, span, first, stop, byte =>
    if stop ≤ first then tree
    else if first = 0 ∧ span ≤ stop then .uniform byte
    else match depth, tree with
      | 0, tree => tree
      | depth + 1, .uniform old =>
        if old = byte then tree
        else
          join
            (fill depth (.uniform old) (span / 2) (min first (span / 2)) (min stop (span / 2)) byte)
            (fill depth (.uniform old) (span / 2) (first - span / 2) (stop - span / 2) byte)
      | depth + 1, .halves low high =>
        join (fill depth low (span / 2) (min first (span / 2)) (min stop (span / 2)) byte)
          (fill depth high (span / 2) (first - span / 2) (stop - span / 2) byte)

/-- The bytes from `first` up to `stop` of a range of `span` bytes, before those of `rest`. -/
def slice : MemoryTree → (span first stop : Nat) → List UInt8 → List UInt8
  | .uniform byte, _, first, stop, rest => List.replicate (stop - first) byte ++ rest
  | .halves low high, span, first, stop, rest =>
    let tail :=
      if stop ≤ span / 2 then rest
      else high.slice (span / 2) (first - span / 2) (stop - span / 2) rest
    if span / 2 ≤ first then tail
    else low.slice (span / 2) first (min stop (span / 2)) tail

theorem get_join (low high : MemoryTree) (span offset : Nat) :
    (join low high).get span offset = (MemoryTree.halves low high).get span offset := by
  unfold join
  split
  · rename_i b c
    by_cases same : b = c <;> simp [same, get]
  · rfl

theorem get_fill_depth (depth : Nat) (tree : MemoryTree) (first stop : Nat) (byte : UInt8)
    (offset : Nat) (inside : offset < 2 ^ depth) :
    (tree.fill depth (2 ^ depth) first stop byte).get (2 ^ depth) offset =
      if first ≤ offset ∧ offset < stop then byte else tree.get (2 ^ depth) offset := by
  induction depth generalizing tree first stop offset with
  | zero =>
    unfold fill
    split
    · rw [if_neg (by omega)]
    · split
      · rw [if_pos (by omega), get]
      · rw [if_neg (by simp at inside; omega)]
  | succ depth ih =>
    have half : 2 ^ (depth + 1) / 2 = 2 ^ depth := by rw [Nat.pow_succ]; omega
    have double : 2 ^ (depth + 1) = 2 ^ depth + 2 ^ depth := by rw [Nat.pow_succ]; omega
    unfold fill
    split
    · rw [if_neg (by omega)]
    · split
      · rw [if_pos (by omega), get]
      · cases tree with
        | uniform old =>
          simp only [half]
          by_cases same : old = byte
          · simp [same, get]
          · simp only [same, if_false, get_join, get, half]
            by_cases left : offset < 2 ^ depth
            · simp only [left, if_true, ih _ _ _ _ left, get]
              by_cases hit : first ≤ offset ∧ offset < stop
              · rw [if_pos hit, if_pos (by omega)]
              · rw [if_neg hit, if_neg (by omega)]
            · simp only [left, if_false, ih _ _ _ (offset - 2 ^ depth) (by omega), get]
              by_cases hit : first ≤ offset ∧ offset < stop
              · rw [if_pos hit, if_pos (by omega)]
              · rw [if_neg hit, if_neg (by omega)]
        | halves low high =>
          simp only [half, get_join, get]
          by_cases left : offset < 2 ^ depth
          · simp only [left, if_true, ih _ _ _ _ left]
            by_cases hit : first ≤ offset ∧ offset < stop
            · rw [if_pos hit, if_pos (by omega)]
            · rw [if_neg hit, if_neg (by omega)]
          · simp only [left, if_false, ih _ _ _ (offset - 2 ^ depth) (by omega)]
            by_cases hit : first ≤ offset ∧ offset < stop
            · rw [if_pos hit, if_pos (by omega)]
            · rw [if_neg hit, if_neg (by omega)]

end MemoryTree

/-- The byte at each address. -/
structure Memory where
  tree : MemoryTree

namespace Memory

/-- Memory that holds zero everywhere. -/
def zeros : Memory := ⟨.uniform 0⟩

/-- The byte at an address; there is none beyond the address space, and it reads as zero. -/
def get (m : Memory) (address : Nat) : UInt8 :=
  if address < Word.bound then m.tree.get Word.bound address else 0

/-- Sets `length` bytes from `start` on. -/
def fill (m : Memory) (start length : Nat) (byte : UInt8) : Memory :=
  ⟨m.tree.fill 64 Word.bound start (start + length) byte⟩

/-- Clears a range. -/
def clear (m : Memory) (start length : Nat) : Memory := m.fill start length 0

/-- Sets one byte. -/
def set (m : Memory) (address : Nat) (byte : UInt8) : Memory := m.fill address 1 byte

/-- Writes bytes at consecutive addresses. -/
def write (m : Memory) (start : Nat) : List UInt8 → Memory
  | [] => m
  | byte :: rest => (m.set start byte).write (start + 1) rest

/-- The `length` bytes from `start` on, within the address space. -/
def read (m : Memory) (start length : Nat) : List UInt8 :=
  m.tree.slice Word.bound start (min (start + length) Word.bound) []

/-- The bytes of a word, the least significant one first. -/
def wordBytes (n : Nat) : List UInt8 :=
  (List.range 8).map fun place => UInt8.ofNat (n / 256 ^ place)

/-- The word that starts at an address. -/
def getWord (m : Memory) (address : Nat) : Nat :=
  (List.range 8).foldr (fun place rest => (m.get (address + place)).toNat + 256 * rest) 0

/-- Writes a word. -/
def setWord (m : Memory) (address n : Nat) : Memory := m.write address (wordBytes n)

/-- A filled range holds the byte, and every other address is as before. -/
theorem get_fill (m : Memory) (start length : Nat) (byte : UInt8) (address : Nat)
    (inside : address < Word.bound) :
    (m.fill start length byte).get address =
      if start ≤ address ∧ address < start + length then byte else m.get address := by
  simp only [get, fill, inside, if_true]
  exact MemoryTree.get_fill_depth 64 m.tree start (start + length) byte address inside

end Memory

end NumaHeap
