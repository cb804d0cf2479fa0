import NumaHeap.Proofs.Platform.Simulated
import NumaHeap.Proofs.Slab.World
import Mathlib.Algebra.BigOperators.Group.List.Basic

/-!
The counts of the slabs. They are kept in four places, by requests and by frees, and for a cell also
on behalf of other nodes; together they say how many objects there are. Every object that was missed
is live or waits, every request that was served is a hit or a miss, and what was served and not taken
back is live.
-/

namespace NumaHeap.Slab

namespace History

variable {h : History} {node sizeClass size : Nat} {placement : Arena.Placement} {x : Extent}

/-- What is served is live where it was carved. -/
theorem liveAt_served (known : ∀ x ∈ h.live, ∃ place, origin? h x.start = some place)
    (origin : origin? (.served placement size :: h) placement.address =
      some (placement.node, sizeClass)) (home place : Nat) :
    liveAt (.served placement size :: h) home place =
      if home = placement.node ∧ place = sizeClass then
        ⟨placement.address, size⟩ :: h.liveAt home place
      else h.liveAt home place := by
  have old : (h.live.filter fun x =>
      origin? (.served placement size :: h) x.start = some (home, place)) = h.liveAt home place := by
    apply List.filter_congr
    intro x held
    obtain ⟨carved, before⟩ := known x held
    rw [origin?_served_of_some before, before]
  rw [liveAt, live, List.filter_cons, old]
  simp only [origin, Option.some.injEq, Prod.mk.injEq, decide_eq_true_eq,
    @eq_comm _ placement.node home, @eq_comm _ sizeClass place]

/-- What is taken back is no longer live. -/
theorem live_freed (once : (h.live.map (·.start)).Nodup) (held : x ∈ h.live) :
    h.live.length = (live (.freed x.start :: h)).length + 1 ∧
      ∀ home place, (h.liveAt home place).length =
        (liveAt (.freed x.start :: h) home place).length +
          if origin? h x.start = some (home, place) then 1 else 0 := by
  obtain ⟨before, after, whole, kept, -⟩ := Parts.exists_split once held
  constructor
  · rw [live, kept, whole]
    simp only [List.length_append, List.length_cons]
    omega
  · intro home place
    have same : ∀ object, origin? (.freed x.start :: h) object = origin? h object := fun _ => rfl
    rw [liveAt, liveAt, live, kept, whole]
    simp only [same, List.filter_append, List.filter_cons, List.length_append, decide_eq_true_eq]
    split
    · rw [List.length_cons]
      omega
    · rfl

end History

namespace World

variable {σ : Type} {os : Platform σ} {contract : os.Contract} {w : World σ}

/-- The counts agree with what is live and with what waits. -/
structure Balanced (w : World σ) : Prop where
  misses : ∀ {node sizeClass : Nat} {c : Cell}, sizeClass < Size.slabClassCount →
    w.slab.cell? node sizeClass = some c →
      c.misses =
        (w.history.liveAt node sizeClass).length + (w.history.stack node sizeClass).length
  counted : (w.slab.cells.map fun c => c.hits + c.misses).sum = w.slab.allocations
  live : w.slab.allocations = w.slab.deallocations + w.history.live.length

namespace Balanced

theorem create (os : Platform σ) (machine : Machine σ) (hugePages numaAware : Bool) :
    Balanced { slab := .create os.topology hugePages numaAware, machine } where
  misses _ found := by rw [create_cell found]; rfl
  counted := by
    refine List.sum_eq_zero_iff_forall_eq_nat.2 ?_
    intro count member
    obtain ⟨c, inside, rfl⟩ := List.mem_map.1 member
    obtain ⟨index, found⟩ := List.getElem?_of_mem inside
    rw [create_cell found]
    rfl
  live := rfl

/-- A request that is served makes one more live object, and is counted where it is served from. -/
theorem served {slab : Slab} {machine : Machine σ} {placement : Arena.Placement}
    {new : List Region} {size sizeClass : Nat} (balanced : Balanced w) (tracked : w.Tracked contract)
    (fits : Size.slabClass? size = some sizeClass)
    (serves : Serves os sizeClass w.slab w.machine (.ok placement) slab machine new)
    (allocations : slab.allocations = w.slab.allocations + 1)
    (deallocations : slab.deallocations = w.slab.deallocations) :
    Balanced { slab, machine, history := .served placement size :: w.history } := by
  obtain ⟨-, gains, -⟩ := serves.spec tracked.sound
  have bounded := Size.slabClass_lt fits
  have origin := tracked.origin?_served fits serves
  obtain ⟨c, last, found, cells, -, total, missed⟩ :=
    serves.counts tracked.sound (gains.custody tracked.custody) tracked.stocked
  have known : ∀ x ∈ w.history.live, ∃ place, w.history.origin? x.start = some place := by
    intro x held
    obtain ⟨node, place, origin, -⟩ := tracked.known x held
    exact ⟨(node, place), origin⟩
  refine ⟨fun {home place d} small there => ?_, ?_, ?_⟩
  · rw [cell?_set found bounded cells small] at there
    rw [History.liveAt_served known origin]
    split at there
    · next same =>
      obtain ⟨rfl, rfl⟩ := same
      cases there
      have before := balanced.misses bounded found
      rw [← History.stock_served w.history placement size, History.stock_cellIndex bounded,
        History.stock_cellIndex bounded] at missed
      rw [if_pos ⟨rfl, rfl⟩, List.length_cons]
      dsimp only
      omega
    · next different =>
      rw [if_neg different, balanced.misses small there, History.stack_served_of_not_mem]
      intro waits
      have before := History.origin?_of_mem_stack waits
      rw [History.origin?_served_of_some before, Option.some.injEq, Prod.mk.injEq] at origin
      exact different origin
  · have sum := Parts.sum_set (fun c : Cell => c.hits + c.misses) found last
    have before := balanced.counted
    simp only [cells, allocations]
    omega
  · have before := balanced.live
    simp only [History.live, List.length_cons]
    omega

theorem allocate (balanced : Balanced w) (tracked : w.Tracked contract) (thread : ThreadId)
    (size : Nat) (wish : Option Nat) : Balanced (w.allocate os thread size wish).2 := by
  unfold World.allocate
  split
  · next placement slab machine answered =>
    obtain ⟨sizeClass, new, serves, fits⟩ := allocate_spec tracked.sound answered
    have tallied := allocate_tallied answered
    exact balanced.served tracked (fits placement rfl) serves (tallied.allocations placement rfl)
      tallied.deallocations
  · next error slab machine answered =>
    obtain ⟨sizeClass, new, serves, -⟩ := allocate_spec tracked.sound answered
    have tallied := allocate_tallied answered
    cases serves with
    | denied _ cells =>
      refine ⟨fun small found => balanced.misses small ?_, ?_, ?_⟩
      · rwa [cell?, cells] at found
      · rw [cells, tallied.denied error rfl]
        exact balanced.counted
      · rw [tallied.denied error rfl, tallied.deallocations]
        exact balanced.live

theorem free {x : Extent} (balanced : Balanced w) (tracked : w.Tracked contract)
    (held : x ∈ w.history.live) (thread : ThreadId) :
    Balanced (w.free os thread x.start x.length).2 := by
  obtain ⟨node, sizeClass, c, origin, bounded, found, -, freed⟩ := tracked.free_eq held thread
  obtain ⟨fewer, fewerAt⟩ := History.live_freed tracked.once held
  let last : Cell := { c with free := (c.free.push w.machine.memory x.start).1 }
  have replaced {home place : Nat} (small : place < Size.slabClassCount) :
      (w.slab.setCell node sizeClass last).cell? home place =
        if home = node ∧ place = sizeClass then some last else w.slab.cell? home place :=
    cell?_set found bounded rfl small
  rw [freed]
  refine ⟨fun {home place d} small there => ?_, ?_, ?_⟩
  · have count := fewerAt home place
    have before := (replaced small).symm.trans there
    by_cases same : home = node ∧ place = sizeClass
    · obtain ⟨rfl, rfl⟩ := same
      rw [if_pos ⟨rfl, rfl⟩] at before
      cases before
      rw [if_pos origin] at count
      rw [History.stack, if_pos origin, List.length_cons]
      have missed := balanced.misses bounded found
      dsimp only [last]
      omega
    · have other : w.history.origin? x.start ≠ some (home, place) := by
        rw [origin, Ne, Option.some.injEq, Prod.mk.injEq]
        exact fun also => same ⟨also.1.symm, also.2.symm⟩
      rw [if_neg same] at before
      rw [if_neg other] at count
      rw [History.stack, if_neg other, balanced.misses small before]
      dsimp only
      omega
  · have sum := Parts.sum_set (fun c : Cell => c.hits + c.misses) found last
    have before := balanced.counted
    dsimp only [setCell, last] at sum ⊢
    omega
  · have before := balanced.live
    dsimp only [setCell]
    omega

end Balanced

theorem Reached.balanced (reached : w.Reached contract) : w.Balanced := by
  induction reached with
  | create hugePages numaAware _ => exact .create os _ hugePages numaAware
  | allocate thread size wish before ih => exact ih.allocate before.tracked thread size wish
  | free thread before held ih => exact ih.free before.tracked held thread
  | others _ _ ih => exact ⟨ih.misses, ih.counted, ih.live⟩

/-- The books of the slabs: each object has one place in them. -/
structure Accounted (os : Platform σ) (w : World σ) : Prop where
  origins : ∀ {node sizeClass object : Nat},
    w.history.origin? object = some (node, sizeClass) ↔ w.slab.Carved node sizeClass object
  /-- What was missed is live or waits on the list, and nothing is on the list that should not be. -/
  cells : ∀ {node sizeClass : Nat} {c : Cell}, sizeClass < Size.slabClassCount →
    w.slab.cell? node sizeClass = some c →
      c.view.misses = (w.history.liveAt node sizeClass).length + c.view.freeObjects ∧
        ∃ objects, c.free.Holds w.machine.memory objects ∧ objects.Nodup ∧
          ∀ object ∈ objects, (∀ x ∈ w.history.live, x.start ≠ object) ∧ c.Slot object
  served : w.slab.stats.hits + w.slab.stats.misses = w.slab.stats.allocations
  live : w.slab.stats.allocations = w.slab.stats.deallocations + w.history.live.length
  aligned : ∀ x ∈ w.history.live, ∃ sizeClass, Size.slabClass? x.length = some sizeClass ∧
    min (Size.slabObject sizeClass) os.pageSize.value ∣ x.start

theorem Tracked.aligned {x : Extent} (tracked : w.Tracked contract) (held : x ∈ w.history.live) :
    ∃ sizeClass, Size.slabClass? x.length = some sizeClass ∧
      min (Size.slabObject sizeClass) os.pageSize.value ∣ x.start := by
  obtain ⟨node, sizeClass, origin, fits⟩ := tracked.known x held
  obtain ⟨bounded, c, found, region, member, ⟨count, start⟩, -⟩ := tracked.homes.1 origin
  rw [tracked.sound.objectSize found bounded] at start
  have page := tracked.custody.aligned region (region_mem found member)
  have exponent : sizeClass + 3 < 64 := by
    unfold Size.slabClassCount at bounded
    omega
  obtain ⟨object, whole⟩ := PowerOfTwo.value_min_dvd ⟨sizeClass + 3, exponent⟩ os.pageSize
  refine ⟨sizeClass, fits, start ▸ Nat.dvd_add ?_ (Nat.dvd_mul_left_of_dvd object count)⟩
  exact Nat.dvd_trans whole page

/-- Whatever clients, the platform and its other users have done, the counts of the slabs add up. -/
theorem objects_accounted (reached : w.Reached contract) : w.Accounted os where
  origins := reached.tracked.homes
  cells bounded found := by
    have stocked := reached.tracked.stocked _ _ found
    rw [History.stock_cellIndex bounded] at stocked
    refine ⟨?_, _, stocked.free, stocked.nodup, fun object waits => ⟨fun x held => ?_, ?_⟩⟩
    · rw [Cell.view, stocked.free.length]
      exact reached.balanced.misses bounded found
    · exact History.start_ne_of_mem_stack waits held
    · exact stocked.slots object waits
  served := by
    have sums : (w.slab.cells.map fun c => c.hits + c.misses).sum =
        w.slab.stats.hits + w.slab.stats.misses := List.sum_map_add
    exact sums.symm.trans reached.balanced.counted
  live := reached.balanced.live
  aligned _ held := reached.tracked.aligned held

/-- Of three objects one is freed, one is used again for another thread, and one is of its own class. -/
theorem objects_accounted_used_again :
    ∃ w : World Simulated.State,
      w.Reached (Simulated.contract {} (by decide) (by decide)) ∧
        w.history.live = [⟨65536, 20⟩, ⟨69632, 100⟩] ∧ w.history.stack 0 2 = [65568] ∧
        w.Accounted (Simulated.platform {}) := by
  let os := Simulated.platform {}
  let new : World Simulated.State :=
    { slab := .create os.topology false true, machine := Simulated.machine {} }
  let held := (((new.allocate os 0 24 none).2.allocate os 1 24 none).2.allocate os 1 100 none).2
  let one := (held.free os 1 65568 24).2
  let two := (one.free os 0 65536 24).2
  let again := (two.allocate os 1 20 none).2
  have created : new.Reached (Simulated.contract {} (by decide) (by decide)) :=
    .create false true (Simulated.machine_sound {})
  have first : one.Reached (Simulated.contract {} (by decide) (by decide)) :=
    .free 1 (x := ⟨65568, 24⟩)
      (.allocate 1 100 none (.allocate 1 24 none (.allocate 0 24 none created))) (by decide +kernel)
  have second : two.Reached (Simulated.contract {} (by decide) (by decide)) :=
    .free 0 (x := ⟨65536, 24⟩) first (by decide +kernel)
  have third : again.Reached (Simulated.contract {} (by decide) (by decide)) :=
    .allocate 1 20 none second
  exact ⟨again, third, by decide +kernel, by decide +kernel, objects_accounted third⟩

end World

end NumaHeap.Slab
