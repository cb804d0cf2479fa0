import NumaHeap.Proofs.Size.Register
import NumaHeap.Proofs.Slab.World

/-!
Where the cells of the slabs stand. The table of object sizes is repeated for each node, so that the
class of a size is a place in the table and, counted from the first cell of a node, the place of the cell
that serves it. Classes are least fits, so a request is served from objects that are just large enough,
whatever has become of the slabs.
-/

namespace NumaHeap.Slab

/-- The cells of a node stand side by side, in the order of the table, and hold objects of the size
that the table has there. -/
def Ordered (nodeCount : Nat) (s : Slab) : Prop :=
  s.cells.length = nodeCount * Size.slabClasses.length ∧
  ∀ node sizeClass object, node < nodeCount → Size.slabClasses[sizeClass]? = some object →
    ∃ c, s.cells[node * Size.slabClasses.length + sizeClass]? = some c ∧
      s.cell? node sizeClass = some c ∧ c.objectSize = object ∧ c.node = node

variable {s : Slab} {nodeCount size : Nat}

theorem ordered_of (count : s.cells.length = nodeCount * Size.slabClassCount)
    (cells : ∀ (index : Nat) (c : Cell), s.cells[index]? = some c →
      c.objectSize = Size.slabObject (index % Size.slabClassCount) ∧
        c.node = index / Size.slabClassCount) : s.Ordered nodeCount := by
  refine ⟨count, fun node sizeClass object known there => ?_⟩
  obtain ⟨bounded, -⟩ := List.getElem?_eq_some_iff.1 there
  have same := Option.some.inj (there.symm.trans (Size.getElem?_slabClasses bounded))
  have inside : cellIndex node sizeClass < s.cells.length := by
    rw [count]
    exact Nat.lt_of_lt_of_le (Nat.add_lt_add_left bounded _)
      (Nat.add_one_mul node _ ▸ Nat.mul_le_mul_right _ known)
  have found := List.getElem?_eq_getElem inside
  obtain ⟨objectSize, home⟩ := cells _ _ found
  rw [cellIndex_mod bounded, ← same] at objectSize
  rw [cellIndex_div bounded] at home
  exact ⟨_, found, found, objectSize, home⟩

theorem create_ordered (topology : Topology) (hugePages numaAware : Bool) :
    (create topology hugePages numaAware).Ordered topology.nodeCount := by
  refine ordered_of (length_create ..) fun index c found => ?_
  rw [create_cell found]
  exact ⟨rfl, rfl⟩

/-- Cells stay where they are, and keep the size of their objects. -/
theorem World.Reached.ordered {σ : Type} {os : Platform σ} {contract : os.Contract} {w : World σ}
    (reached : w.Reached contract) : w.slab.Ordered os.topology.nodeCount :=
  ordered_of reached.tracked.counted fun index c found =>
    ⟨reached.tracked.sound.sizes index c found, reached.tracked.nodes index c found⟩

/-- The sizes that are set aside for a request. An arena turns down nothing but zero and what lies in the
last cache line, and else sets aside the least slot that is large enough: slots are words, grow with the
size and are set aside for themselves, and bisecting the table finds them. A slab takes any size from one
byte to 64 KiB; the class that counting bits finds is the place of the least object of the table that is
large enough, as a search of the table finds it, and the cell in that place of the row of a node holds such
objects, in new slabs and in slabs that were used. -/
theorem sizes_fit_least (word : size < Word.bound) :
    ((Size.arenaRounded? size = none ↔ size = 0 ∨ Word.bound - 64 < size) ∧
      Size.arenaRounded? size = Size.arenaRoundedBisected? size ∧
      ∀ slot, Size.arenaRounded? size = some slot →
        IsLeast {other | Size.IsSlot other ∧ size ≤ other} slot ∧ 8 ∣ slot ∧
        Size.arenaRounded? slot = some slot ∧
        ∀ larger next, size ≤ larger → Size.arenaRounded? larger = some next → slot ≤ next) ∧
    ((Size.slabClass? size).isSome = true ↔ 1 ≤ size ∧ size ≤ 65536) ∧
    (∀ sizeClass, Size.slabClass? size = some sizeClass →
      ∃ object, Size.slabClasses[sizeClass]? = some object ∧
        IsLeast {entry | entry ∈ Size.slabClasses ∧ size ≤ entry} object) ∧
    Size.slabClass? size =
      (if size = 0 then none else Size.slabClasses.findIdx? (size ≤ ·)) ∧
    (Register.slabClass? (BitVec.ofNat 64 size)).map BitVec.toNat = Size.slabClass? size ∧
    (∀ topology hugePages numaAware,
      (create topology hugePages numaAware).Ordered topology.nodeCount) ∧
    ∀ {σ : Type} {os : Platform σ} {contract : os.Contract} {w : World σ},
      w.Reached contract → w.slab.Ordered os.topology.nodeCount := by
  refine ⟨⟨Size.arenaRounded?_eq_none_iff, (Size.arenaRoundedBisected?_eq size).symm,
      fun slot rounded => ⟨(Size.isLeast_arenaRounded rounded).1,
        Size.eight_dvd_of_isSlot (Size.isLeast_arenaRounded rounded).1.1.1,
        Size.arenaRounded?_idem rounded, fun _ _ => Size.arenaRounded?_mono rounded⟩⟩,
    Size.slabClass?_isSome_iff, fun sizeClass served => ?_, Size.slabClass?_eq_findIdx? size, ?_,
    create_ordered, World.Reached.ordered⟩
  · exact ⟨_, Size.getElem?_slabClasses (Size.slabClass_lt served), Size.isLeast_slabObject served⟩
  · rw [Register.map_slabClass?, Register.toNat_word word]

/-- A size between two classes of the slabs and above the table of the arenas, on the second of two
nodes. -/
theorem sizes_fit_least_two_nodes :
    let topology : Topology := { Topology.singleNode with nodeCount := 2, available := true }
    33000 < Word.bound ∧ Size.arenaRounded? 33000 = some 33024 ∧
      IsLeast {other | Size.IsSlot other ∧ 33000 ≤ other} 33024 ∧
      Size.slabClass? 33000 = some 13 ∧
      IsLeast {entry | entry ∈ Size.slabClasses ∧ 33000 ≤ entry} 65536 ∧
      ∃ c, (create topology false true).cells[27]? = some c ∧ c.objectSize = 65536 ∧ c.node = 1 := by
  intro topology
  have word : 33000 < Word.bound := by decide
  have rounded : Size.arenaRounded? 33000 = some 33024 := by decide
  have served : Size.slabClass? 33000 = some 13 := by decide +kernel
  obtain ⟨⟨-, -, slots⟩, -, objects, -, -, created, -⟩ := sizes_fit_least word
  obtain ⟨object, there, least⟩ := objects 13 served
  obtain ⟨c, found, -, objectSize, home⟩ := (created topology false true).2 1 13 object (by decide) there
  cases there
  exact ⟨word, rounded, (slots _ rounded).1, served, least, c, found, objectSize, home⟩

end NumaHeap.Slab
