import Mathlib.Order.Bounds.Basic
import NumaHeap.Proofs.Arena.Checked
import NumaHeap.Proofs.Arena.Room

/-!
A block that is used again and again. A request gets the first aligned address from the cursor on, if
the block has room from there, and the cursor moves past it; so what was handed out since the block
was rewound last lies in the block in order.
-/

namespace NumaHeap

namespace Arena.Block

/-- What is done with a block. -/
inductive Use where
  | take (size : Nat) (alignment : PowerOfTwo)
  | rewind

/-- A block after a use, and the ranges handed out since it was rewound last, the latest first. A
request that is refused leaves both as they are. -/
def Use.apply : Block × List Extent → Use → Block × List Extent
  | (b, given), .take size alignment =>
    match b.take? size alignment with
    | some taken => (taken.block, ⟨taken.address, size⟩ :: given)
    | none => (b, given)
  | (b, _), .rewind => (b.rewind, [])

/-- The block of a region after some uses, one after the other. -/
def Use.run (region : Region) (uses : List Use) : Block × List Extent :=
  uses.foldl Use.apply (.ofRegion region, [])

variable {b : Block} {given : List Extent} {region : Region}

/-- A request takes the first aligned address if there is room from there. -/
theorem take?_eq (sound : b.Sound) (short : b.region.length < Word.bound) (size : Nat)
    (alignment : PowerOfTwo) :
    let address := b.cursor + alignment.padding b.cursor
    b.take? size alignment =
      if address + size ≤ b.region.stop then
        some ⟨address, address - b.cursor, { b with cursor := address + size }⟩
      else none := by
  intro address
  have padding : address - b.cursor = alignment.padding b.cursor := Nat.add_sub_cancel_left ..
  rw [padding]
  exact if_congr (fits_iff_le sound short) rfl rfl

/-- What is known of a block over a region and of what it handed out: the ranges lie in order below
the cursor. -/
structure Laid (region : Region) (b : Block) (given : List Extent) : Prop where
  same : b.region = region
  sound : b.Sound
  ordered : given.Pairwise fun later earlier => earlier.stop ≤ later.start
  below : ∀ range ∈ given, range.stop ≤ b.cursor
  above : ∀ range ∈ given, region.start ≤ range.start

namespace Laid

theorem start (region : Region) : Laid region (.ofRegion region) [] where
  same := rfl
  sound := ofRegion_sound region
  ordered := .nil
  below := by simp
  above := by simp

theorem rewind (laid : Laid region b given) : Laid region b.rewind [] where
  same := laid.same
  sound := b.rewind_sound
  ordered := .nil
  below := by simp
  above := by simp

/-- What is taken lies past the cursor, so past all that was handed out before. -/
theorem take {size : Nat} {alignment : PowerOfTwo} {taken : Taken} (laid : Laid region b given)
    (took : b.take? size alignment = some taken) :
    Laid region taken.block (⟨taken.address, size⟩ :: given) := by
  obtain ⟨same, moved, past, -⟩ := take?_spec laid.sound took
  have start : region.start ≤ b.cursor := laid.same ▸ laid.sound.1
  exact {
    same := same.trans laid.same
    sound := take?_sound laid.sound took
    ordered := List.pairwise_cons.2
      ⟨fun range member => Nat.le_trans (laid.below range member) past, laid.ordered⟩
    below := List.forall_mem_cons.2 ⟨Nat.le_of_eq moved.symm, fun range member => by
      have earlier := laid.below range member
      rw [moved]
      omega⟩
    above := List.forall_mem_cons.2 ⟨Nat.le_trans start past, laid.above⟩ }

theorem apply (laid : Laid region b given) (use : Use) :
    Laid region (use.apply (b, given)).1 (use.apply (b, given)).2 := by
  cases use with
  | rewind => exact laid.rewind
  | take size alignment =>
    cases took : b.take? size alignment with
    | none => simpa only [Use.apply, took] using laid
    | some taken => simpa only [Use.apply, took] using laid.take took

theorem foldl (laid : Laid region b given) (uses : List Use) :
    Laid region (uses.foldl Use.apply (b, given)).1 (uses.foldl Use.apply (b, given)).2 := by
  induction uses generalizing b given with
  | nil => exact laid
  | cons use uses ih => exact ih (laid.apply use)

end Laid

/-- A block over a region that ends below the bound, after any uses of it. The cursor lies in the block,
and what is used and what is available make up the block. A request finds no overflow, and is granted
exactly when the test of the block says so; that is when the least multiple of the alignment from the
cursor on leaves room for the size, in whole numbers. It is then given this multiple and the padding up to it,
the cursor moves past the size, and nothing else about the block changes. So the ranges handed out since the
block was rewound last lie in it, each beyond those before it. -/
theorem Use.run_takes_least (within : region.stop < Word.bound) (uses : List Use) :
    let b := (run region uses).1
    let given := (run region uses).2
    (b.region = region ∧ region.start ≤ b.cursor ∧ b.cursor ≤ region.stop ∧
      b.used + b.available = region.stop - region.start) ∧
    (∀ size alignment, b.takeChecked size alignment = some (b.take? size alignment) ∧
      (b.take? size alignment).isSome = b.fits size alignment ∧
      ∃ address, IsLeast {multiple | alignment.value ∣ multiple ∧ b.cursor ≤ multiple} address ∧
        (b.fits size alignment = true ↔ address + size ≤ region.stop) ∧
        b.take? size alignment =
          if address + size ≤ region.stop then
            some ⟨address, address - b.cursor, { b with cursor := address + size }⟩
          else none) ∧
    given.Pairwise (fun later earlier => earlier.stop ≤ later.start) ∧
    ∀ range ∈ given, range.Within region.extent := by
  intro b given
  have laid : Laid region b given := (Laid.start region).foldl uses
  have inside : region.start ≤ b.cursor ∧ b.cursor ≤ region.stop := laid.same ▸ laid.sound
  have short : b.region.length < Word.bound := by
    rw [laid.same]
    unfold Region.stop at within
    omega
  have ends : b.region.stop < Word.bound := laid.same ▸ within
  refine ⟨⟨laid.same, inside.1, inside.2, ?_⟩, fun size alignment => ⟨?_, ?_, ?_⟩,
    laid.ordered, fun range member => ⟨laid.above range member, ?_⟩⟩
  · unfold used available
    rw [laid.same]
    omega
  · exact takeChecked_eq laid.sound ends
  · unfold take?
    cases b.fits size alignment <;> rfl
  · refine ⟨b.cursor + alignment.padding b.cursor, alignment.isLeast_add_padding (by omega), ?_, ?_⟩
    · rw [fits_iff_le laid.sound short, laid.same]
    · rw [take?_eq laid.sound short, laid.same]
  · exact Nat.le_trans (laid.below range member) inside.2

theorem Use.run_takes_least_past_page :
    let region : Region := ⟨65536, 16384, .normal, 0⟩
    let uses : List Use := [.take 4096 wordAlignment, .rewind, .take 100 wordAlignment,
      .take 18446744073709551615 wordAlignment, .take 24 ⟨13, by decide⟩]
    let b := (run region uses).1
    let half : PowerOfTwo := ⟨63, by decide⟩
    region.stop < Word.bound ∧ (run region uses).2 = [⟨73728, 24⟩, ⟨65536, 100⟩] ∧
      b.used + b.available = 16384 ∧
      ∃ address, IsLeast {multiple | half.value ∣ multiple ∧ b.cursor ≤ multiple} address ∧
        (b.fits 1 half = true ↔ address + 1 ≤ region.stop) := by
  intro region uses b half
  have within : region.stop < Word.bound := by decide
  obtain ⟨⟨-, -, -, whole⟩, requests, -, -⟩ := run_takes_least within uses
  obtain ⟨-, -, address, least, fits, -⟩ := requests 1 half
  exact ⟨within, by decide +kernel, whole.trans (by decide), address, least, fits⟩

end Arena.Block

end NumaHeap
