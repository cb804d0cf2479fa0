import NumaHeap.Proofs.Slab.Balance
import NumaHeap.Proofs.Slab.Refinement

/-!
How much a class takes up on a node. All regions of a class are of one length, whatever pages back
them, and hold a whole number of objects. A new object is carved only when all others are live, and a
new region is mapped only when the ones before are carved to the end; so the regions are as many as
the most objects that were ever live at a time call for, and using objects again takes up nothing.
-/

namespace NumaHeap

namespace PowerOfTwo

/-- A multiple is not rounded. -/
theorem roundUp?_of_dvd {p : PowerOfTwo} {n rounded : Nat} (whole : p.value ∣ n)
    (some : p.roundUp? n = some rounded) : rounded = n := by
  obtain ⟨count, rfl⟩ := whole
  rw [roundUp?_eq, Word.fit?_eq_some_iff, mask, Nat.add_comm,
    Nat.add_mul_div_left _ _ p.value_pos, Nat.div_eq_of_lt (by have := p.value_pos; omega),
    Nat.zero_add, Nat.mul_comm] at some
  exact some.2.symm

end PowerOfTwo

namespace Supply

variable {σ : Type} {os : Platform σ} {s after : Supply σ} {length node : Nat} {region : Region}

/-- Whole pages of both kinds are mapped as they are. -/
theorem map_length (mapped : s.map os length node = (.ok region, after))
    (pages : os.pageSize.value ∣ length)
    (hugePages : os.hugePageSize.value ≤ length → os.hugePageSize.value ∣ length) :
    region.length = length := by
  have exact : ∀ {before middle : Supply σ} {asked : Nat} {kind : PageKind} {region : Region},
      before.mapPages os asked node kind = (.ok region, middle) → region.length = asked := by
    intro before middle asked kind region answered
    unfold mapPages at answered
    split at answered <;> cases answered
    rfl
  unfold map at mapped
  split at mapped
  · cases mapped
  · next rounded some =>
    cases PowerOfTwo.roundUp?_of_dvd pages some
    split at mapped
    · cases mapped
    · next region middle served =>
      cases mapped
      unfold mapRounded at served
      split at served
      · exact exact served
      · next hugeLength large =>
        unfold hugeLength? at large
        split at large
        · next worthwhile =>
          simp only [Bool.and_eq_true, decide_eq_true_eq] at worthwhile
          cases PowerOfTwo.roundUp?_of_dvd (hugePages worthwhile.1.2) large
          split at served
          · next huge =>
            cases served
            exact exact huge
          · exact exact served
        · cases large

end Supply

namespace Slab

variable {σ : Type} {os : Platform σ} {contract : os.Contract}

namespace Cell

variable {c last : Cell} {s later : Supply σ} {m : Memory} {page : PowerOfTwo}

/-- The bytes of a region are a power of two, and at least a page. -/
theorem regionLength_eq_two_pow (page : PowerOfTwo) (sizeClass : Nat) :
    ∃ exponent, regionLength page (Size.slabObject sizeClass) = 2 ^ exponent ∧
      page.exponent ≤ exponent := by
  have least : Size.slabMinObjects = 2 ^ 3 := rfl
  unfold regionLength Size.slabObject PowerOfTwo.value
  by_cases small : sizeClass + 3 ≤ page.exponent
  · refine ⟨sizeClass + 3 + max (page.exponent - (sizeClass + 3)) 3, ?_, by omega⟩
    rw [Nat.pow_div small (by decide), least]
    rcases Nat.le_total (page.exponent - (sizeClass + 3)) 3 with le | ge
    · rw [Nat.max_eq_right (Nat.pow_le_pow_right (by decide) le), Nat.max_eq_right le,
        ← Nat.pow_add]
    · rw [Nat.max_eq_left (Nat.pow_le_pow_right (by decide) ge), Nat.max_eq_left ge,
        ← Nat.pow_add]
  · refine ⟨sizeClass + 3 + 3, ?_, by omega⟩
    have below : 2 ^ page.exponent < 2 ^ (sizeClass + 3) :=
      Nat.pow_lt_pow_right (by decide) (by omega)
    rw [Nat.div_eq_of_lt below, least, Nat.zero_max, ← Nat.pow_add]

theorem dvd_regionLength (page : PowerOfTwo) (sizeClass : Nat) :
    page.value ∣ regionLength page (Size.slabObject sizeClass) ∧
      ∀ p : PowerOfTwo, p.value ≤ regionLength page (Size.slabObject sizeClass) →
        p.value ∣ regionLength page (Size.slabObject sizeClass) := by
  obtain ⟨exponent, power, enough⟩ := regionLength_eq_two_pow page sizeClass
  rw [power]
  refine ⟨Nat.pow_dvd_pow 2 enough, fun p fits => Nat.pow_dvd_pow 2 ?_⟩
  exact (Nat.pow_le_pow_iff_right (by decide)).1 fits

/-- How many objects a region holds. -/
def perRegion (page : PowerOfTwo) (objectSize : Nat) : Nat :=
  regionLength page objectSize / objectSize

/-- Nothing of a region is left over. -/
theorem regionLength_eq_mul (page : PowerOfTwo) {size : Nat} (positive : 0 < size) :
    regionLength page size = size * perRegion page size ∧ 0 < perRegion page size := by
  have count : perRegion page size = max (page.value / size) Size.slabMinObjects :=
    Nat.mul_div_cancel_left _ positive
  rw [count]
  exact ⟨rfl, Nat.lt_of_lt_of_le (by decide) (Nat.le_max_right ..)⟩

/-- What a request does to the regions of a cell and to its count of new objects. -/
inductive Fills (os : Platform σ) (c : Cell) (m : Memory) : Cell → Prop
  | same {free : FreeList} {hits : Nat} : Fills os c m { c with free, hits }
  | kept {region : Region} : c.free.pop? m = none → c.regions.head? = some region →
      c.carved + c.objectSize ≤ region.length → Fills os c m (c.carve region).2
  | mapped {region : Region} : c.free.pop? m = none → c.roomy? = none →
      region.length = regionLength os.pageSize c.objectSize →
      Fills os c m ({ c with regions := region :: c.regions, carved := 0 }.carve region).2

/-- A request fills the cell that it asks, or leaves it as it is. -/
theorem fills_of_allocate {answer : Except MapError Nat} {sizeClass : Nat}
    (size : c.objectSize = Size.slabObject sizeClass)
    (served : c.allocate os s = (answer, last, later)) : Fills os c s.machine.memory last := by
  unfold allocate pop? at served
  cases popped : c.free.pop? s.machine.memory with
  | some taken =>
    rw [popped] at served
    cases served
    exact .same
  | none =>
    rw [popped] at served
    simp only [Option.map_none, ensureRoom] at served
    cases roomy : c.roomy? with
    | some region =>
      rw [roomy] at served
      cases served
      obtain ⟨latest, room⟩ := Option.filter_eq_some_iff.1 roomy
      exact .kept popped latest (of_decide_eq_true room)
    | none =>
      rw [roomy] at served
      cases mapped : s.map os (regionLength os.pageSize c.objectSize) c.node with
      | mk answer supply =>
        rw [mapped] at served
        cases answer with
        | error cause =>
          cases served
          exact .same
        | ok region =>
          cases served
          refine .mapped popped roomy ?_
          rw [size] at mapped ⊢
          obtain ⟨pages, huge⟩ := dvd_regionLength os.pageSize sizeClass
          exact Supply.map_length mapped pages (huge os.hugePageSize)

/-- All regions are of one length, and all but the latest are carved to the end. -/
structure Packed (page : PowerOfTwo) (c : Cell) : Prop where
  length : ∀ region ∈ c.regions, region.length = regionLength page c.objectSize
  unused : c.regions = [] → c.misses = 0
  filled : c.regions ≠ [] →
    c.misses * c.objectSize + regionLength page c.objectSize =
        c.regions.length * regionLength page c.objectSize + c.carved ∧
      0 < c.carved ∧ c.carved ≤ regionLength page c.objectSize

namespace Packed

theorem of_unused (regions : c.regions = []) (misses : c.misses = 0) : c.Packed page where
  length region member := by
    rw [regions] at member
    cases member
  unused _ := misses
  filled used := absurd regions used

/-- What is left of the latest region, if it has no room any more, is nothing. -/
theorem carved_eq_of_full (packed : c.Packed page) (positive : 0 < c.objectSize)
    (whole : c.objectSize ∣ c.carved) (full : c.roomy? = none) (used : c.regions ≠ []) :
    c.carved = regionLength page c.objectSize := by
  obtain ⟨-, -, below⟩ := packed.filled used
  obtain ⟨latest, rest, regions⟩ := List.exists_cons_of_ne_nil used
  have head : c.regions.head? = some latest := by rw [regions]; rfl
  have short := length_lt_of_roomy?_eq_none full head
  rw [packed.length latest (List.mem_of_mem_head? head)] at short
  obtain ⟨count, carved⟩ := whole
  rw [carved, (regionLength_eq_mul page positive).1] at below short ⊢
  rw [← Nat.mul_add_one] at short
  have most := Nat.le_of_mul_le_mul_left below positive
  have least := Nat.lt_of_mul_lt_mul_left short
  rw [Nat.le_antisymm most (Nat.le_of_lt_succ least)]

theorem fills (packed : c.Packed os.pageSize) (positive : 0 < c.objectSize)
    (whole : c.objectSize ∣ c.carved) (fills : Fills os c m last) : last.Packed os.pageSize := by
  cases fills with
  | same => exact ⟨packed.length, packed.unused, packed.filled⟩
  | @kept region none latest room =>
    have used : c.regions ≠ [] := by
      rintro unused
      simp [unused] at latest
    obtain ⟨total, -, -⟩ := packed.filled used
    rw [packed.length region (List.mem_of_mem_head? latest)] at room
    refine ⟨packed.length, fun unused => absurd unused used, fun _ => ?_⟩
    simp only [carve, Nat.add_one_mul]
    omega
  | @mapped region none full exact =>
    have room := (regionLength_spec os.pageSize positive).1
    refine ⟨List.forall_mem_cons.2 ⟨exact, packed.length⟩,
      fun unused => absurd unused (List.cons_ne_nil _ _), fun _ => ?_⟩
    simp only [carve, List.length_cons, Nat.add_one_mul]
    by_cases used : c.regions = []
    · simp only [used, packed.unused used, List.length_nil]
      omega
    · obtain ⟨total, -, -⟩ := packed.filled used
      have carved := packed.carved_eq_of_full positive whole full used
      omega

/-- There are as many regions as the objects call for that were carved. -/
theorem length_regions (packed : c.Packed page) (positive : 0 < c.objectSize)
    (whole : c.objectSize ∣ c.carved) :
    c.regions.length =
      (c.misses + (perRegion page c.objectSize - 1)) / perRegion page c.objectSize := by
  obtain ⟨length, some⟩ := regionLength_eq_mul page positive
  symm
  by_cases used : c.regions = []
  · rw [used, packed.unused used, Nat.zero_add]
    exact Nat.div_eq_of_lt (Nat.sub_one_lt_of_lt some)
  · obtain ⟨total, begun, below⟩ := packed.filled used
    obtain ⟨count, carved⟩ := whole
    rw [carved, length] at total below
    rw [carved] at begun
    have objects : c.misses + perRegion page c.objectSize =
        c.regions.length * perRegion page c.objectSize + count := by
      apply Nat.eq_of_mul_eq_mul_left positive
      calc c.objectSize * (c.misses + perRegion page c.objectSize)
          = c.misses * c.objectSize + c.objectSize * perRegion page c.objectSize := by
            rw [Nat.mul_add, Nat.mul_comm c.misses]
        _ = c.regions.length * (c.objectSize * perRegion page c.objectSize) +
              c.objectSize * count := total
        _ = c.objectSize * (c.regions.length * perRegion page c.objectSize + count) := by
            rw [Nat.mul_add, Nat.mul_left_comm]
    have most := Nat.le_of_mul_le_mul_left below positive
    have least := Nat.pos_of_mul_pos_left begun
    rw [← Nat.add_sub_assoc some, objects, Nat.div_eq_iff some]
    omega

end Packed

end Cell

/-! ## The most that was ever live -/

namespace History

/-- The most objects of a class on a node that were ever live at the same time. -/
def peakAt : History → (node sizeClass : Nat) → Nat
  | [], _, _ => 0
  | event :: older, node, sizeClass =>
    max (liveAt (event :: older) node sizeClass).length (peakAt older node sizeClass)

variable {h older : History} {node sizeClass : Nat}

theorem length_liveAt_le_peakAt (before : older <:+ h) :
    (older.liveAt node sizeClass).length ≤ h.peakAt node sizeClass := by
  induction h with
  | nil =>
    rw [List.suffix_nil.1 before]
    exact Nat.le_refl 0
  | cons event rest ih =>
    rcases List.suffix_cons_iff.1 before with rfl | earlier
    · exact Nat.le_max_left ..
    · exact Nat.le_trans (ih earlier) (Nat.le_max_right ..)

theorem exists_length_liveAt_eq_peakAt (h : History) (node sizeClass : Nat) :
    ∃ older : History, older <:+ h ∧ (older.liveAt node sizeClass).length = h.peakAt node sizeClass := by
  induction h with
  | nil => exact ⟨[], List.suffix_refl _, rfl⟩
  | cons event rest ih =>
    obtain ⟨older, before, most⟩ := ih
    rcases Nat.le_total (liveAt (event :: rest) node sizeClass).length
      (peakAt rest node sizeClass) with le | ge
    · exact ⟨older, before.trans (List.suffix_cons ..), by rw [peakAt, Nat.max_eq_right le, most]⟩
    · exact ⟨event :: rest, List.suffix_refl _, by rw [peakAt, Nat.max_eq_left ge]⟩

end History

/-- At most one cell is filled by a request, and it is filled as far as the request asks for it. -/
theorem Outcome.fills {s after : Slab} {machine later : Machine σ} {size node : Nat}
    {answer : Except AllocError Arena.Placement}
    (sound : s.Sound) (outcome : Outcome os s machine size node answer after later) :
    after.cells = s.cells ∨ ∃ home sizeClass c last, sizeClass < Size.slabClassCount ∧
      s.cell? home sizeClass = some c ∧ Cell.Fills os c machine.memory last ∧
      after.cells = s.cells.set (cellIndex home sizeClass) last := by
  cases outcome with
  | invalid => exact .inl rfl
  | @here sizeClass object c last supply fits found answered =>
    have bounded := Size.slabClass_lt fits
    exact .inr ⟨node, sizeClass, c, last, bounded, found,
      Cell.fills_of_allocate (sound.objectSize found bounded) answered, rfl⟩
  | @elsewhere sizeClass c last supply cause placement left memory fits found denied popped =>
    obtain ⟨d, free, there, -, rfl⟩ := popFirst?_spec popped
    exact .inr ⟨placement.node, sizeClass, d, _, Size.slabClass_lt fits, there, .same, rfl⟩
  | exhausted => exact .inl rfl

namespace World

variable {w : World σ} {node sizeClass : Nat} {c : Cell}

/-- Every cell is packed, and has carved as many objects as were ever live. -/
structure Packed (os : Platform σ) (w : World σ) : Prop where
  cells : ∀ (index : Nat) (c : Cell), w.slab.cells[index]? = some c → c.Packed os.pageSize
  peaks : ∀ {node sizeClass : Nat} {c : Cell}, sizeClass < Size.slabClassCount →
    w.slab.cell? node sizeClass = some c → c.misses = w.history.peakAt node sizeClass

/-- Nothing is carved while an object waits. -/
theorem Tracked.stack_eq_nil (tracked : w.Tracked contract)
    (bounded : sizeClass < Size.slabClassCount) (found : w.slab.cell? node sizeClass = some c)
    (none : c.free.pop? w.machine.memory = none) : w.history.stack node sizeClass = [] := by
  have top := tracked.top?_eq bounded node
  rw [top?, found, Option.bind_some, Option.map_eq_none_iff.1 none] at top
  exact List.head?_eq_none_iff.1 top.symm

namespace Packed

theorem create (os : Platform σ) (machine : Machine σ) (hugePages numaAware : Bool) :
    Packed os { slab := .create os.topology hugePages numaAware, machine } where
  cells index c found := by
    rw [create_cell found]
    exact .of_unused rfl rfl
  peaks _ found := by
    rw [create_cell found]
    rfl

/-- A request leaves the cells packed. If it carves an object, then all others are live and none was
ever live besides. -/
theorem allocate (packed : w.Packed os) (tracked : w.Tracked contract) (thread : ThreadId)
    (size : Nat) (wish : Option Nat) (after : (w.allocate os thread size wish).2.Balanced) :
    Packed os (w.allocate os thread size wish).2 := by
  have whole {index : Nat} {c : Cell} (found : w.slab.cells[index]? = some c) :
      0 < c.objectSize ∧ c.objectSize ∣ c.carved :=
    ⟨Nat.lt_of_lt_of_le (by decide) (tracked.sound.least found), (tracked.stocked _ c found).whole⟩
  cases served : w.slab.allocate os w.machine thread size wish with
  | mk answer rest =>
    obtain ⟨slab, machine⟩ := rest
    have outcome := allocate_outcome served
    have cells : ∀ (index : Nat) (d : Cell), slab.cells[index]? = some d → d.Packed os.pageSize := by
      intro index d there
      rcases outcome.fills tracked.sound with same | ⟨home, place, c, last, -, found, fills, cells⟩
      · exact packed.cells index d (same ▸ there)
      · rw [cells] at there
        rcases Parts.set_cases there with ⟨rfl, rfl⟩ | old
        · obtain ⟨positive, carved⟩ := whole found
          exact (packed.cells _ c found).fills positive carved fills
        · exact packed.cells index d old
    cases answer with
    | error error =>
      have answered : (w.allocate os thread size wish).2 = { w with slab, machine } := by
        simp only [World.allocate, served]
      rw [answered]
      refine ⟨cells, fun small there => packed.peaks small ?_⟩
      have same : slab.cells = w.slab.cells := by cases outcome <;> rfl
      rwa [cell?, same] at there
    | ok placement =>
      have answered : (w.allocate os thread size wish).2 =
          { slab, machine, history := .served placement size :: w.history } := by
        simp only [World.allocate, served]
      rw [answered] at after ⊢
      refine ⟨cells, fun {home place d} small there => ?_⟩
      have balanced := after.misses small there
      have grown : d.misses = w.history.peakAt home place ∨
          d.misses = w.history.peakAt home place + 1 ∧ w.history.stack home place = [] := by
        rcases outcome.fills tracked.sound with
          same | ⟨node, sizeClass, c, last, bounded, found, fills, cells⟩
        · rw [cell?, same] at there
          exact .inl (packed.peaks small there)
        · have replaced := (cell?_set found bounded cells small).symm.trans there
          split at replaced
          · next same =>
            obtain ⟨rfl, rfl⟩ := same
            cases replaced
            have before := packed.peaks bounded found
            cases fills with
            | same => exact .inl before
            | kept none =>
              exact .inr ⟨congrArg (· + 1) before, tracked.stack_eq_nil bounded found none⟩
            | mapped none =>
              exact .inr ⟨congrArg (· + 1) before, tracked.stack_eq_nil bounded found none⟩
          · exact .inl (packed.peaks small replaced)
      dsimp only at balanced ⊢
      rw [History.peakAt]
      rcases grown with same | ⟨more, nothing⟩
      · omega
      · rw [History.stack, nothing, List.filter_nil, List.length_nil] at balanced
        omega

/-- An object that is taken back is live no more, which makes no peak. -/
theorem free {x : Extent} (packed : w.Packed os) (tracked : w.Tracked contract)
    (held : x ∈ w.history.live) (thread : ThreadId)
    (after : (w.free os thread x.start x.length).2.Balanced) :
    Packed os (w.free os thread x.start x.length).2 := by
  obtain ⟨node, sizeClass, c, origin, bounded, found, -, freed⟩ := tracked.free_eq held thread
  rw [freed] at after ⊢
  refine ⟨fun index d there => ?_, fun {home place d} small there => ?_⟩
  · rcases Parts.set_cases there with ⟨rfl, rfl⟩ | old
    · have before := packed.cells _ c found
      exact ⟨before.length, before.unused, before.filled⟩
    · exact packed.cells index d old
  · have balanced := after.misses small there
    have before : d.misses = w.history.peakAt home place := by
      have replaced := (cell?_set found bounded rfl small).symm.trans there
      split at replaced
      · next same =>
        obtain ⟨rfl, rfl⟩ := same
        cases replaced
        have before := packed.peaks bounded found
        exact before
      · exact packed.peaks small replaced
    dsimp only at balanced ⊢
    rw [History.peakAt]
    omega

end Packed

theorem Reached.packed (reached : w.Reached contract) : w.Packed os := by
  induction reached with
  | create hugePages numaAware _ => exact .create os _ hugePages numaAware
  | allocate thread size wish before ih =>
    exact ih.allocate before.tracked thread size wish (before.allocate thread size wish).balanced
  | free thread before held ih =>
    exact ih.free before.tracked held thread (before.free thread held).balanced
  | others _ _ ih => exact ⟨ih.cells, ih.peaks⟩

/-- What a class takes up on a node, told by the most objects that were ever live at a time. -/
structure Footprint (os : Platform σ) (w : World σ) (node sizeClass : Nat) (c : Cell) : Prop where
  misses : c.view.misses = w.history.peakAt node sizeClass
  regions : c.view.regions =
    (w.history.peakAt node sizeClass +
        (Cell.perRegion os.pageSize (Size.slabObject sizeClass) - 1)) /
      Cell.perRegion os.pageSize (Size.slabObject sizeClass)
  lengths : ∀ region ∈ c.regions,
    region.length = Cell.regionLength os.pageSize (Size.slabObject sizeClass)
  bytes : Region.total c.regions =
    c.view.regions * Cell.regionLength os.pageSize (Size.slabObject sizeClass)
  /-- Every place of every region but the latest was handed out. -/
  carved : ∀ region ∈ c.regions.tail,
    ∀ count < Cell.perRegion os.pageSize (Size.slabObject sizeClass),
      w.history.origin? (region.start + count * Size.slabObject sizeClass) = some (node, sizeClass)

/-- A place of a region that is not the latest was handed out. -/
theorem Tracked.origin?_of_mem_tail (tracked : w.Tracked contract) {region : Region} {count : Nat}
    (bounded : sizeClass < Size.slabClassCount) (found : w.slab.cell? node sizeClass = some c)
    (earlier : region ∈ c.regions.tail)
    (inside : (count + 1) * Size.slabObject sizeClass ≤ region.length) :
    w.history.origin? (region.start + count * Size.slabObject sizeClass) =
      some (node, sizeClass) := by
  have size := tracked.sound.objectSize found bounded
  have once := (tracked.custody.sublist (regions_sublist found)).nodup
  rw [Nat.add_one_mul] at inside
  refine tracked.homes.2 ⟨bounded, c, found, region, List.mem_of_mem_tail earlier, ?_, ?_, ?_⟩
  · exact ⟨count, by rw [size]⟩
  · unfold Region.stop
    omega
  · intro latest
    obtain ⟨head, rest, regions⟩ :=
      List.exists_cons_of_ne_nil (List.ne_nil_of_mem (List.mem_of_mem_tail earlier))
    rw [regions, List.head?_cons, Option.some.injEq] at latest
    rw [regions, List.tail_cons, ← latest] at earlier
    rw [regions] at once
    exact absurd earlier (List.nodup_cons.1 once).1

/-- A class takes up on a node what its peak calls for, however often objects were used again. -/
theorem footprint_of_peak (reached : w.Reached contract)
    (there : os.topology.contains node = true) (bounded : sizeClass < Size.slabClassCount) :
    ∃ c, w.slab.cell? node sizeClass = some c ∧ w.Footprint os node sizeClass c := by
  have tracked := reached.tracked
  obtain ⟨c, found⟩ := tracked.counted.cell there bounded
  have size := tracked.sound.objectSize found bounded
  have positive : 0 < c.objectSize := Nat.lt_of_lt_of_le (by decide) (tracked.sound.least found)
  have packed := reached.packed.cells _ c found
  have peak := reached.packed.peaks bounded found
  have lengths := packed.length
  obtain ⟨length, -⟩ := Cell.regionLength_eq_mul os.pageSize positive
  rw [size] at lengths length
  refine ⟨c, found, peak, ?_, lengths, ?_, fun region earlier count inside => ?_⟩
  · have count := packed.length_regions positive (tracked.stocked _ c found).whole
    rwa [size, peak] at count
  · rw [Region.total, List.map_congr_left lengths, List.map_const', List.sum_replicate_nat]
    rfl
  · apply tracked.origin?_of_mem_tail bounded found earlier
    rw [lengths region (List.mem_of_mem_tail earlier), length, Nat.mul_comm]
    exact Nat.mul_le_mul_left _ inside

/-- Nine objects of the largest class take two regions, and using one again takes no more. -/
theorem footprint_of_peak_nine_objects :
    ∃ (w : World Simulated.State) (c : Cell),
      w.Reached (Simulated.contract {} (by decide) (by decide)) ∧
        w.history.peakAt 0 13 = 9 ∧ c.view.regions = 2 ∧
        w.Footprint (Simulated.platform {}) 0 13 c := by
  let os := Simulated.platform {}
  let new : World Simulated.State :=
    { slab := .create os.topology false true, machine := Simulated.machine {} }
  let next : World Simulated.State → World Simulated.State :=
    fun w => (w.allocate os 0 65536 none).2
  have created : new.Reached (Simulated.contract {} (by decide) (by decide)) :=
    .create false true (Simulated.machine_sound {})
  have filled : (next^[9] new).Reached (Simulated.contract {} (by decide) (by decide)) := by
    simp only [Function.iterate_succ, Function.iterate_zero, Function.comp_apply, id]
    repeat' apply Reached.allocate
    exact created
  let freed := ((next^[9] new).free os 0 65536 65536).2
  have used : (next freed).Reached (Simulated.contract {} (by decide) (by decide)) :=
    .allocate 0 65536 none (.free 0 (x := ⟨65536, 65536⟩) filled (by decide +kernel))
  obtain ⟨c, found, footprint⟩ : ∃ c, (next freed).slab.cell? 0 13 = some c ∧
      (next freed).Footprint os 0 13 c := footprint_of_peak used (by decide) (by decide)
  have peak : (next freed).history.peakAt 0 13 = 9 := by decide +kernel
  refine ⟨next freed, c, used, peak, ?_, footprint⟩
  rw [footprint.regions, peak]
  decide

end World

end Slab

end NumaHeap
