import NumaHeap.Proofs.Parts
import NumaHeap.Proofs.Size.Checked
import NumaHeap.Proofs.Supply

/-!
Platforms that map nothing at the very end of memory. The end of a region is then an address like any
other, which may be computed and compared. All regions that are held together are fewer bytes than
there are addresses, hence also fewer regions.
-/

namespace NumaHeap

variable {σ : Type} {os : Platform σ} {contract : os.Contract} {system : σ} {held : List Region}

/-- Every mapping ends before the last address. -/
def Platform.Contract.Bounded (contract : os.Contract) : Prop :=
  ∀ {system : σ} {e : Extent}, contract.Possible system → contract.Mapped system e →
    e.stop < Word.bound

/-- A platform that maps nothing at the very end of memory makes the same promises of the states in which
nothing is mapped there. -/
def Platform.Contract.narrow (contract : os.Contract)
    (ends : ∀ {system after : σ} {length : Nat} {pages : PageKind} {start : Nat},
      os.map system length pages = (.ok start, after) → start + length < Word.bound) : os.Contract where
  Possible system := contract.Possible system ∧ ∀ e, contract.Mapped system e → e.stop < Word.bound
  Mapped := contract.Mapped
  Drifts system after :=
    contract.Drifts system after ∧ ∀ e, contract.Mapped after e → e.stop < Word.bound
  map_ok {_ _ _ _ _} possible asked answer := by
    obtain ⟨good, start, page, within, apart, mapped⟩ := contract.map_ok possible.1 asked answer
    refine ⟨⟨good, fun e member => ?_⟩, start, page, within, apart, mapped⟩
    rcases (mapped e).1 member with rfl | before
    · exact ends answer
    · exact possible.2 e before
  map_error {_ _ _ _ _} possible asked answer := by
    obtain ⟨good, mapped⟩ := contract.map_error possible.1 asked answer
    exact ⟨⟨good, fun e member => possible.2 e ((mapped e).1 member)⟩, mapped⟩
  unmap {_ _ _} possible held := by
    obtain ⟨good, mapped⟩ := contract.unmap possible.1 held
    exact ⟨⟨good, fun e member => possible.2 e ((mapped e).1 member).1⟩, mapped⟩
  bind {_ _ _ _} possible held := by
    obtain ⟨good, mapped⟩ := contract.bind possible.1 held
    exact ⟨⟨good, fun e member => possible.2 e ((mapped e).1 member)⟩, mapped⟩
  bindThread {_ _ _} possible := by
    obtain ⟨good, mapped⟩ := contract.bindThread possible.1
    exact ⟨⟨good, fun e member => possible.2 e ((mapped e).1 member)⟩, mapped⟩
  drift {_ _} possible drifts := by
    obtain ⟨good, mapped⟩ := contract.drift possible.1 drifts.1
    exact ⟨⟨good, drifts.2⟩, mapped⟩

theorem Platform.Contract.narrow_bounded (contract : os.Contract)
    (ends : ∀ {system after : σ} {length : Nat} {pages : PageKind} {start : Nat},
      os.map system length pages = (.ok start, after) → start + length < Word.bound) :
    (contract.narrow ends).Bounded := fun possible mapped => possible.2 _ mapped

namespace Platform.Custody

theorem stop_lt (custody : os.Custody contract system held) (bounded : contract.Bounded)
    {region : Region} (member : region ∈ held) : region.stop < Word.bound :=
  bounded custody.possible (custody.mapped region member)

/-- No byte belongs to two regions, and none stands at address zero. -/
theorem total_lt (custody : os.Custody contract system held) : Region.total held < Word.bound := by
  let bytes (region : Region) := List.range' region.start region.length
  have once : (held.flatMap bytes).Nodup := by
    refine List.nodup_flatMap.2 ⟨fun _ _ => List.nodup_range', custody.apart.imp ?_⟩
    intro region other apart address first second
    obtain ⟨low, high⟩ := List.mem_range'_1.1 first
    obtain ⟨below, above⟩ := List.mem_range'_1.1 second
    exact apart.not_holds ⟨low, high⟩ ⟨below, above⟩
  have within : ∀ address ∈ held.flatMap bytes, 1 ≤ address ∧ address < Word.bound := by
    intro address member
    obtain ⟨region, inside, here⟩ := List.mem_flatMap.1 member
    obtain ⟨low, high⟩ := List.mem_range'_1.1 here
    have positive := custody.start_pos region inside
    have last : region.start + region.length ≤ Word.bound := custody.within region inside
    omega
  have few := Parts.length_le_of_nodup once within
  have total : (held.flatMap bytes).length = Region.total held := by
    simp only [List.length_flatMap, bytes, List.length_range', Region.total]
  rw [total] at few
  exact Nat.lt_of_le_sub_one (by decide) few

theorem length_lt (custody : os.Custody contract system held) : held.length < Word.bound := by
  have long : ∀ regions : List Region, (∀ region ∈ regions, 0 < region.length) →
      regions.length ≤ Region.total regions := by
    intro regions positive
    induction regions with
    | nil => exact Nat.le_refl 0
    | cons region rest ih =>
      obtain ⟨here, later⟩ := List.forall_mem_cons.1 positive
      have more := ih later
      simp only [Region.total, List.length_cons, List.map_cons, List.sum_cons] at more ⊢
      omega
  exact Nat.lt_of_le_of_lt (long held custody.length_pos) custody.total_lt

end Platform.Custody

namespace Region

variable {r : Region}

/-- One past the last byte, if that is an address. -/
def stopChecked (r : Region) : Option Nat := Word.add? r.start r.length

/-- The address lies in the region, whose end is an address. -/
def containsChecked (r : Region) (address : Nat) : Option Bool := do
  let stop ← r.stopChecked
  return r.start ≤ address && address < stop

theorem stopChecked_eq (below : r.stop < Word.bound) : r.stopChecked = some r.stop :=
  Word.add?_of_lt below

theorem containsChecked_eq (below : r.stop < Word.bound) (address : Nat) :
    r.containsChecked address = some (r.contains address) := by
  rw [containsChecked, stopChecked_eq below]
  rfl

end Region

namespace Supply

variable {s after : Supply σ} {length node : Nat} {region : Region}

/-- Maps a region; nobody asks for one without any bytes. -/
def mapChecked (os : Platform σ) (s : Supply σ) (length node : Nat) :
    Option (Except MapError Region × Supply σ) := do
  guard (0 < length)
  return s.map os length node

theorem mapChecked_eq (asked : 0 < length) :
    s.mapChecked os length node = some (s.map os length node) := by
  rw [mapChecked, guard_eq_some asked]
  rfl

/-- A new region ends before the last address. -/
theorem map_stop_lt (bounded : contract.Bounded) (possible : contract.Possible s.machine.system)
    (asked : 0 < length) (mapped : s.map os length node = (.ok region, after)) :
    region.stop < Word.bound := by
  obtain ⟨-, -, grows⟩ := (map_grows asked mapped).1 region rfl
  have custody : os.Custody contract _ [region] := grows.gains.custody (.nil possible)
  exact custody.stop_lt bounded (List.mem_cons_self ..)

end Supply

end NumaHeap
