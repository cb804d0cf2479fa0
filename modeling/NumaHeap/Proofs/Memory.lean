import NumaHeap.Proofs.Extent
import NumaHeap.Slab.FreeList

/-!
What the accesses of memory come to, byte by byte. A write changes the bytes of its range and no
other; a word that was written is read back; and a slice that is read holds the bytes at its
addresses in order.
-/

namespace NumaHeap

namespace MemoryTree

section

variable {low high : MemoryTree} {span first count : Nat}

theorem map_get_low (bound : first + count ≤ span / 2) :
    (List.range' first count).map ((MemoryTree.halves low high).get span) =
      (List.range' first count).map (low.get (span / 2)) := by
  apply List.map_congr_left
  intro offset member
  rw [List.mem_range'_1] at member
  rw [get, if_pos (by omega)]

theorem map_get_high (bound : span / 2 ≤ first) :
    (List.range' first count).map ((MemoryTree.halves low high).get span) =
      (List.range' (first - span / 2) count).map (high.get (span / 2)) := by
  have shifted : List.range' first count =
      (List.range' (first - span / 2) count).map (span / 2 + ·) := by
    rw [List.map_add_range', Nat.add_sub_cancel' bound]
  rw [shifted, List.map_map]
  apply List.map_congr_left
  intro offset _
  simp only [Function.comp_apply, get]
  rw [if_neg (by omega), Nat.add_sub_cancel_left]

end

/-- A slice lists the bytes that `get` finds, whatever the shape of the tree. -/
theorem slice_eq_map (tree : MemoryTree) (span first stop : Nat) (rest : List UInt8) :
    tree.slice span first stop rest =
      (List.range' first (stop - first)).map (tree.get span) ++ rest := by
  induction tree generalizing span first stop rest with
  | uniform byte =>
    have constant : (MemoryTree.uniform byte).get span = fun _ => byte := by
      funext offset
      rw [get]
    rw [slice, constant, List.map_const', List.length_range']
  | halves low high lowIh highIh =>
    simp only [slice]
    by_cases before : stop ≤ span / 2
    · rw [if_pos before]
      by_cases none : span / 2 ≤ first
      · rw [if_pos none, show stop - first = 0 by omega]
        rfl
      · rw [if_neg none, lowIh, Nat.min_eq_left before, map_get_low (by omega)]
    · rw [if_neg before, highIh]
      have size : stop - span / 2 - (first - span / 2) = stop - max first (span / 2) := by omega
      by_cases none : span / 2 ≤ first
      · rw [if_pos none, map_get_high none, size, Nat.max_eq_left none]
      · have split : stop - first = (span / 2 - first) + (stop - span / 2) := by omega
        rw [if_neg none, lowIh, size, Nat.max_eq_right (by omega), split,
          ← List.range'_append_1, List.map_append, map_get_low (by omega),
          map_get_high (by omega), Nat.min_eq_right (by omega), List.append_assoc]
        congr 4
        omega

end MemoryTree

namespace Memory

variable {m n : Memory} {start length address word : Nat}

theorem get_of_bound_le (m : Memory) (beyond : Word.bound ≤ address) : m.get address = 0 := by
  rw [get, if_neg (by omega)]

/-- Outside the range that is filled nothing changes. -/
theorem get_fill_outside (byte : UInt8) (outside : ¬Extent.Holds ⟨start, length⟩ address) :
    (m.fill start length byte).get address = m.get address := by
  by_cases inside : address < Word.bound
  · rw [get_fill _ _ _ _ _ inside]
    exact if_neg outside
  · rw [get_of_bound_le _ (by omega), get_of_bound_le _ (by omega)]

theorem get_clear_outside (outside : ¬Extent.Holds ⟨start, length⟩ address) :
    (m.clear start length).get address = m.get address := get_fill_outside 0 outside

/-- A byte that is cleared is zero, and so is a byte beyond the address space. -/
theorem get_clear_inside (inside : Extent.Holds ⟨start, length⟩ address) :
    (m.clear start length).get address = 0 := by
  by_cases below : address < Word.bound
  · rw [clear, get_fill _ _ _ _ _ below]
    exact if_pos inside
  · rw [get_of_bound_le _ (by omega)]

theorem get_set_other (byte : UInt8) (different : address ≠ start) :
    (m.set start byte).get address = m.get address := by
  apply get_fill_outside
  simp only [Extent.Holds, Extent.stop]
  omega

theorem get_set_self (byte : UInt8) (below : address < Word.bound) :
    (m.set address byte).get address = byte := by
  rw [set, get_fill _ _ _ _ _ below, if_pos (by omega)]

theorem get_write_outside (bytes : List UInt8)
    (outside : ¬Extent.Holds ⟨start, bytes.length⟩ address) :
    (m.write start bytes).get address = m.get address := by
  induction bytes generalizing m start with
  | nil => rfl
  | cons byte rest ih =>
    simp only [Extent.Holds, Extent.stop, List.length_cons] at outside
    rw [write, ih (by simp only [Extent.Holds, Extent.stop]; omega), get_set_other _ (by omega)]

/-- The same write leaves the same byte where the same byte was before. -/
theorem get_write_congr (start : Nat) (bytes : List UInt8) (same : m.get address = n.get address) :
    (m.write start bytes).get address = (n.write start bytes).get address := by
  induction bytes generalizing m n start with
  | nil => exact same
  | cons byte bytes ih =>
    apply ih (start + 1)
    by_cases inside : address < Word.bound
    · rw [set, set, get_fill _ _ _ _ _ inside, get_fill _ _ _ _ _ inside, same]
    · rw [get_of_bound_le _ (by omega), get_of_bound_le _ (by omega)]

theorem get_write_inside (bytes : List UInt8) (place : Nat) (inside : place < bytes.length)
    (below : start + place < Word.bound) :
    (m.write start bytes).get (start + place) = bytes[place] := by
  induction bytes generalizing m start place with
  | nil => simp at inside
  | cons byte rest ih =>
    rw [write]
    cases place with
    | zero =>
      rw [get_write_outside _ (by simp only [Extent.Holds, Extent.stop]; omega)]
      exact get_set_self byte below
    | succ place =>
      have shifted : start + (place + 1) = start + 1 + place := by omega
      rw [shifted, ih place (by simpa using inside) (by omega), List.getElem_cons_succ]

theorem length_wordBytes (word : Nat) : (wordBytes word).length = 8 := by
  simp [wordBytes]

/-- The addresses that a link takes when it is kept at an address. -/
def linkAt (address : Nat) : Extent := ⟨address, Slab.linkSize⟩

theorem get_setWord_outside (outside : ¬(linkAt start).Holds address) :
    (m.setWord start word).get address = m.get address := by
  apply get_write_outside
  rw [length_wordBytes]
  exact outside

theorem wordBytes_zero : wordBytes 0 = List.replicate 8 0 := rfl

/-- The bytes of the word zero are zero. -/
theorem get_setWord_zero (inside : (linkAt start).Holds address) :
    (m.setWord start 0).get address = 0 := by
  by_cases below : address < Word.bound
  · simp only [linkAt, Extent.Holds, Extent.stop, Slab.linkSize] at inside
    obtain ⟨place, rfl⟩ := Nat.exists_eq_add_of_le inside.1
    rw [setWord, get_write_inside _ place (by rw [length_wordBytes]; omega) below]
    apply List.eq_of_mem_replicate
    rw [← wordBytes_zero]
    exact List.getElem_mem _
  · exact get_of_bound_le _ (by omega)

/-- Reading the bytes of a word from the highest place down gives the word back. -/
theorem foldr_places (word count shift : Nat) :
    (List.range' shift count).foldr (fun place rest => word / 256 ^ place % 256 + 256 * rest) 0 =
      word / 256 ^ shift % 256 ^ count := by
  induction count generalizing shift with
  | zero => simp [Nat.mod_one]
  | succ count ih =>
    rw [List.range'_succ, List.foldr_cons, ih, Nat.pow_succ' (m := 256) (n := count),
      Nat.mod_mul, Nat.div_div_eq_div_mul, ← Nat.pow_succ]

theorem getWord_setWord (fits : word < Word.bound) (inside : start + 8 ≤ Word.bound) :
    (m.setWord start word).getWord start = word := by
  have bytes : ∀ place, place < 8 →
      ((m.setWord start word).get (start + place)).toNat = word / 256 ^ place % 256 := by
    intro place small
    have bound : place < (wordBytes word).length := by rwa [length_wordBytes]
    rw [setWord, get_write_inside _ _ bound (by omega)]
    simp [wordBytes]
  have folded := foldr_places word 8 0
  rw [Nat.pow_zero, Nat.div_one, Nat.mod_eq_of_lt (by simpa [Word.bound] using fits)] at folded
  have first := bytes 0 (by decide)
  rw [Nat.add_zero] at first
  rw [getWord, List.range_eq_range']
  refine Eq.trans ?_ folded
  simp [List.range'_succ, bytes, first]

/-- A word depends on its own bytes alone. -/
theorem getWord_congr (same : ∀ address, (linkAt start).Holds address → n.get address = m.get address) :
    n.getWord start = m.getWord start := by
  have bytes : ∀ place, place < 8 → n.get (start + place) = m.get (start + place) := by
    intro place small
    apply same
    simp only [linkAt, Extent.Holds, Extent.stop, Slab.linkSize]
    omega
  have first := bytes 0 (by decide)
  rw [Nat.add_zero] at first
  rw [getWord, getWord, List.range_eq_range']
  simp [List.range'_succ, bytes, first]

/-- Nothing is read past the last address. -/
theorem length_read_le (m : Memory) (start length : Nat) : (m.read start length).length ≤ length := by
  rw [read, MemoryTree.slice_eq_map, List.append_nil, List.length_map, List.length_range']
  omega

/-- What is read first does not depend on how much is read. -/
theorem take_read (m : Memory) {start length count : Nat} (few : count ≤ length) :
    (m.read start length).take count = m.read start count := by
  simp only [read, MemoryTree.slice_eq_map, List.append_nil]
  refine List.ext_getElem? fun place => ?_
  rw [List.getElem?_take, List.getElem?_map, List.getElem?_map]
  by_cases inside : place < min (start + count) Word.bound - start
  · rw [if_pos (by omega), List.getElem?_range' (by omega), List.getElem?_range' (by omega)]
  · have beyond : (List.range' start (min (start + count) Word.bound - start))[place]? = none :=
      List.getElem?_eq_none (by rw [List.length_range']; omega)
    rw [beyond]
    split
    · rw [List.getElem?_eq_none (by rw [List.length_range']; omega)]
    · rfl

end Memory

end NumaHeap
