import NumaHeap.Proofs.Heap.Homed
import NumaHeap.Proofs.Heap.Inspection
import NumaHeap.Proofs.Platform.Simulated
import NumaHeap.Proofs.Slab.Recycle

/-!
Requests to the slabs that are refused for what memory holds. The object that was refused is wiped and
goes back to the free list from which it was taken, whichever node that is, so a refusal costs nothing
but counts; and the same demand is then met with the same object.
-/

namespace NumaHeap

open Session

namespace Heap

variable {σ : Type} {os : Platform σ} {contract : os.Contract} {h after : Heap σ}
  {explanation : Platform.Explanation contract} {free : Nat → List Nat} {live : List Allocation}
  {thread : ThreadId} {size address : Nat} {kind : ObjectKind} {node : Option Nat}
  {alignment : PowerOfTwo} {error : AllocError} {demand : Demand} {cells last : Slab}

/-- What an inspection refuses holds some byte that is not zero. -/
theorem inspect_dirty {cause : Rejection} (fits : h.mode.checkSize size = .ok ())
    (refused : h.inspect address size = .error cause) :
    ∃ place, Extent.Holds ⟨address, size⟩ place ∧ h.machine.memory.get place ≠ 0 := by
  have invalid := inspect_error refused
  obtain ⟨byte, member, nonzero⟩ :=
    Security.Mode.validate_error invalid (Security.Mode.isSuspicious_of_validate fits invalid)
  obtain ⟨place, scanned, rfl⟩ := Memory.mem_read member
  have shorter := h.mode.scanLength_le size
  exact ⟨place, ⟨scanned.1, Nat.lt_of_lt_of_le scanned.2 (Nat.add_le_add_left shorter _)⟩, nonzero⟩

/-- Blank memory passes the inspection. -/
theorem inspect_blank (fits : h.mode.checkSize size = .ok ())
    (blank : ∀ place, Extent.Holds ⟨address, size⟩ place → h.machine.memory.get place = 0) :
    ∃ inspected, h.inspect address size = .ok inspected := by
  cases answered : h.inspect address size with
  | ok inspected => exact ⟨inspected, rfl⟩
  | error cause =>
    obtain ⟨place, inside, dirty⟩ := inspect_dirty fits answered
    exact absurd (blank place inside) dirty

/-- A request that is refused for what memory holds was served with a free object, which is back in its
place. -/
theorem allocate_recycled (secured : Secured explanation h free live) (present : h.slab = some cells)
    (counted : cells.Counted os)
    (served : h.allocate os thread size kind .slab node alignment = (.error error, after))
    (suspicious : error.isSuspicious = true) :
    h.mode.checkSize size = .ok () ∧ os.Gains h.machine.system after.machine.system [] ∧
      ∃ placement last home sizeClass c,
        (cells.allocate os h.machine thread size node).1 = .ok placement ∧
        after.slab = some last ∧
        cells.Recycled last h.machine.memory after.machine.memory size home sizeClass
          placement.address c := by
  cases allocate_outcome served with
  | barred oversized =>
    rw [Security.Mode.checkSize_error oversized] at suspicious
    cases suspicious
  | denied denied =>
    rw [dispatch_error denied] at suspicious
    cases suspicious
  | @refused placement middle cause fits dispatched refused =>
    have accepted : middle.mode.checkSize size = .ok () := by
      rw [(dispatch_still dispatched).mode]
      exact fits
    obtain ⟨place, inside, dirty⟩ := inspect_dirty accepted refused
    cases allocated : cells.allocate os h.machine thread size node with
    | mk answer rest =>
      obtain ⟨grown, machine⟩ := rest
      simp only [dispatch, present, allocated] at dispatched
      cases dispatched
      obtain ⟨gains, last, memory, home, sizeClass, c, taken, recycled⟩ :=
        Slab.recycle (secured.sound.slab cells present) counted
          (slab_custody secured.custody present) (secured.stocked cells present) allocated inside
          dirty thread
      simp only [discard, taken]
      exact ⟨fits, gains, placement, last, home, sizeClass, c, rfl, rfl, recycled⟩

/-- Where no cell of a class has a free object, no second request is refused for what memory holds. -/
theorem allocate_not_refused {middle : Heap σ} {cause : MapError} {wish : Option Nat}
    (secured : Secured explanation h free live) (present : h.slab = some cells)
    (counted : cells.Counted os)
    (first : h.allocate os thread size kind .slab wish alignment = (.error (.map cause), middle))
    (second : middle.allocate os thread size kind .slab node alignment = (.error error, after)) :
    error.isSuspicious = false := by
  refine Bool.eq_false_iff.2 fun suspicious => ?_
  have slabs : h.slab.isSome = true := by rw [present, Option.isSome_some]
  obtain ⟨left, between, -⟩ := allocate_secured secured (fun _ => slabs) first
  cases allocate_outcome first with
  | denied denied =>
    cases allocated : cells.allocate os h.machine thread size wish with
    | mk answer rest =>
      obtain ⟨grown, machine⟩ := rest
      simp only [dispatch, present, allocated] at denied
      cases denied
      obtain ⟨sizeClass, class_eq, empty⟩ := Slab.allocate_exhausted counted allocated
      obtain ⟨_, _, serves, -⟩ := Slab.allocate_spec (secured.sound.slab cells present) allocated
      obtain ⟨-, -, placement, last, home, other, c, -, -, recycled⟩ :=
        allocate_recycled between rfl (serves.extends.counted counted) second suspicious
      cases serves with
      | denied _ same =>
        cases class_eq.symm.trans recycled.fits
        have found := recycled.found
        rw [Slab.cell?, same] at found
        have top : cells.top? home sizeClass = some placement.address := by
          rw [Slab.top?, Slab.cell?, found, Option.bind_some]
          exact recycled.top
        cases (empty home).symm.trans top

/-- The request is made again, with what the slabs answer as before: it is granted the same object. -/
theorem allocate_again {again : Heap σ} {placement : Arena.Placement} (sound : last.Sound)
    (custody : os.Custody contract again.machine.system last.regions)
    (stocked : last.Stocked again.machine.memory free) (there : again.slab = some last)
    (fits : again.mode.checkSize size = .ok ())
    (served : (last.allocate os again.machine thread size node).1 = .ok placement)
    (wiped : ∀ place, Extent.Holds ⟨placement.address, size⟩ place →
      ¬(Memory.linkAt placement.address).Holds place → again.machine.memory.get place = 0) :
    (again.allocate os thread size kind .slab node alignment).1 = .ok placement.address := by
  cases allocated : last.allocate os again.machine thread size node with
  | mk answer rest =>
    obtain ⟨grown, machine⟩ := rest
    rw [allocated] at served
    cases served
    let middle : Heap σ := { again with slab := some grown, machine }
    have blank : ∀ place, Extent.Holds ⟨placement.address, size⟩ place →
        middle.machine.memory.get place = 0 :=
      fun place inside => Slab.allocate_blank sound custody stocked allocated (wiped place inside)
    have accepted : middle.mode.checkSize size = .ok () := fits
    obtain ⟨inspected, clean⟩ := inspect_blank accepted blank
    simp only [middle] at clean
    simp only [allocate, fits, dispatch, there, allocated, clean]

/-- A demand stands or falls with one request to the slabs, for a size, a kind and perhaps a node. -/
structure Asks (os : Platform σ) (h : Heap σ) (thread : ThreadId) (demand : Demand)
    (kind : ObjectKind) (node : Option Nat) : Prop where
  scans : h.scans? os thread demand = h.inspects? os thread demand.size .slab node wordAlignment
  granted : ∀ {again : Heap σ} {address : Nat}, again.tierOf demand = .slab →
    (again.allocate os thread demand.size kind .slab node wordAlignment).1 = .ok address →
      (again.meet os thread demand).1 = .ok address

theorem asks_object (tier : h.classify size kind = .slab) :
    h.Asks os thread (.object size kind) kind none where
  scans := by simp only [scans?, tier, Demand.size]
  granted := fun same granted => by
    simp only [tierOf] at same
    simpa only [meet, alloc, same, Demand.size] using granted

/-- A node that can serve a request is asked for it alone. -/
theorem asks_onNode {wish : Nat} (known : os.topology.contains wish = true)
    (tier : h.classify size .generic = .slab)
    (answered : ∀ cause middle,
      h.allocate os thread size .generic .slab (some wish) wordAlignment ≠
        (.error (.map cause), middle)) :
    h.Asks os thread (.onNode size wish) .generic (some wish) where
  scans := by simp only [scans?, tier, Demand.size]
  granted := fun {again address} same granted => by
    change again.classify size .generic = .slab at same
    cases first : again.allocate os thread size .generic .slab (some wish) wordAlignment with
    | mk answer later =>
      simp only [Demand.size, first] at granted
      cases granted
      simp only [meet, allocNuma, known, if_true, same, first]

theorem asks_zeroed {count : Nat} (product : Word.mul? count size = some (count * size))
    (tier : h.classify (count * size) kind = .slab) :
    h.Asks os thread (.zeroed count size kind) kind none where
  scans := by simp only [scans?, tier, Demand.size]
  granted := fun {again address} same granted => by
    change again.classify (count * size) kind = .slab at same
    cases first : again.allocate os thread (count * size) kind .slab none wordAlignment with
    | mk answer later =>
      simp only [Demand.size, first] at granted
      cases granted
      simp only [meet, allocZeroed, product, alloc, same, first]

/-- A demand that is refused for what memory holds made one request, which was refused. -/
theorem meet_asks (secured : Secured explanation h free live) (present : h.slab = some cells)
    (counted : cells.Counted os) (tier : h.tierOf demand = .slab)
    (met : h.meet os thread demand = (.error error, after)) (suspicious : error.isSuspicious = true) :
    ∃ kind node, h.Asks os thread demand kind node ∧
      h.allocate os thread demand.size kind .slab node wordAlignment = (.error error, after) := by
  cases demand with
  | object size kind =>
    change h.classify size kind = .slab at tier
    simp only [meet, alloc, tier] at met
    exact ⟨kind, none, asks_object tier, met⟩
  | onNode size wish =>
    change h.classify size .generic = .slab at tier
    simp only [meet, allocNuma, tier] at met
    split at met
    · next known =>
      split at met
      · -- No mapping was left, so there was no free object that could be refused.
        next first =>
        rw [allocate_not_refused secured present counted first met] at suspicious
        cases suspicious
      · next unlike =>
        exact ⟨.generic, some wish, asks_onNode known tier unlike, met⟩
    · cases met
      cases suspicious
  | aligned size alignment => exact absurd tier alignedTier_ne_slab
  | cacheAligned size => exact absurd tier alignedTier_ne_slab
  | zeroed count size kind =>
    change h.classify (count * size) kind = .slab at tier
    simp only [meet, allocZeroed, alloc] at met
    split at met
    · cases met
      cases suspicious
    · next total product =>
      obtain ⟨-, rfl⟩ := Word.fit?_eq_some_iff.1 product
      rw [tier] at met
      split at met
      · cases met
      · exact ⟨kind, none, asks_zeroed product tier, met⟩

theorem Extends.tierOf (grown : Extends h after) (demand : Demand) :
    after.tierOf demand = h.tierOf demand := by
  cases demand with
  | object => exact grown.classify ..
  | onNode => exact grown.classify ..
  | zeroed => exact grown.classify ..
  | aligned => simp only [Heap.tierOf, alignedTier, grown.configuration]
  | cacheAligned => simp only [Heap.tierOf, alignedTier, grown.configuration]

/-- What is left of a demand that was refused an object for what memory holds: the refusal is counted,
and the object is back in its place. On the same platform the same demand is then met with it. -/
structure Recovered (os : Platform σ) (h after : Heap σ) (thread : ThreadId) (demand : Demand)
    (object : Nat) : Prop where
  scanned : h.scans? os thread demand = some ⟨object, h.mode.scanLength demand.size⟩
  counters : after.counters =
    { h.counters with
      failures := h.counters.failures + 1
      rejections := h.counters.rejections + 1 }
  recycled : ∃ cells last home sizeClass c, h.slab = some cells ∧ after.slab = some last ∧
    cells.Recycled last h.machine.memory after.machine.memory demand.size home sizeClass object c
  steady : os.Harmless → after.machine.system = h.machine.system
  again : ((after.onSystem h.machine.system).meet os thread demand).1 = .ok object

theorem meet_recovered {offset : Nat} (secured : Secured explanation h free live)
    (counted : ∀ cells, h.slab = some cells → cells.Counted os) (tier : h.tierOf demand = .slab)
    (met : h.meet os thread demand = (.error (.rejected (.suspiciousContent offset)), after)) :
    ∃ object, Recovered os h after thread demand object := by
  obtain ⟨cells, present⟩ := Option.isSome_iff_exists.1 (tierOf_slab tier)
  obtain ⟨kind, node, asks, refused⟩ := meet_asks secured present (counted cells present) tier met rfl
  obtain ⟨fits, gains, placement, last, home, sizeClass, c, answer, there, recycled⟩ :=
    allocate_recycled secured present (counted cells present) refused rfl
  obtain ⟨left, good, -⟩ := meet_secured secured met
  have still := (allocate_outcome refused).failed
  have custody := (slab_custody secured.custody present).perm recycled.regions.symm
  obtain ⟨stock, -, stocked⟩ := recycled.stocked
  let again := after.onSystem h.machine.system
  have same : again.tierOf demand = .slab := ((meet_extends secured.sound met).tierOf demand).trans tier
  have accepted : again.mode.checkSize demand.size = .ok () := by
    change after.mode.checkSize demand.size = .ok ()
    rw [still.mode]
    exact fits
  have system : again.machine.system = h.machine.system := rfl
  have repeated : (last.allocate os again.machine thread demand.size node).1 = .ok placement :=
    (recycled.agrees.allocate recycled.wishes system thread demand.size node).trans answer
  refine ⟨placement.address, ?_, still.counters,
    ⟨cells, last, home, sizeClass, c, present, there, recycled⟩,
    fun harmless => gains.system_eq harmless rfl, ?_⟩
  · rw [asks.scans]
    cases allocated : cells.allocate os h.machine thread demand.size node with
    | mk result rest =>
      rw [allocated] at answer
      cases answer
      simp only [inspects?, dispatch, present, allocated]
  · exact asks.granted same (allocate_again (good.sound.slab last there) custody stocked there
      accepted repeated recycled.wiped)

end Heap

namespace World

open Heap

variable {σ : Type} {os : Platform σ} {contract : os.Contract} {w : World σ} {thread : ThreadId}
  {demand : Demand} {offset : Nat}

/-- Whatever clients have done, a demand to the slabs that is refused for what memory holds leaves
nothing live and nothing lost: the object goes back to the list that it came from, on whichever node,
and the next attempt is granted it. -/
theorem refusal_recovered (handled : w.Handled contract) (tier : w.heap.tierOf demand = .slab)
    (refused : (w.heap.meet os thread demand).1 =
      .error (.rejected (.suspiciousContent offset))) :
    (w.perform os (.allocate thread demand)).live = w.live ∧
      ∃ object, Recovered os w.heap (w.perform os (.allocate thread demand)).heap thread demand
        object := by
  obtain ⟨free, good⟩ := handled.kept.secured.heap
  cases met : w.heap.meet os thread demand with
  | mk answer after =>
    rw [met] at refused
    cases refused
    refine ⟨?_, ?_⟩
    · simp only [perform, remaining, met]
    · simp only [perform, act, met]
      exact meet_recovered good handled.homed.counted tier met

/-- A thread leaves a run of no-operations behind on node 0 and moves to node 1, where no mapping is
left: it is refused the object that it freed, and granted it in the next attempt. -/
theorem refusal_recovered_other_node :
    ∃ (settings : Simulated.Settings) (w : World Simulated.State),
      (∃ whole limit, w.Handled (Simulated.contract settings whole limit)) ∧
        w.heap.machine.currentNode (Simulated.platform settings) 0 = 1 ∧
        (w.perform (Simulated.platform settings) (.allocate 0 (.object 24 .generic))).live = [] ∧
        Recovered (Simulated.platform settings) w.heap
          (w.perform (Simulated.platform settings) (.allocate 0 (.object 24 .generic))).heap 0
          (.object 24 .generic) 65536 := by
  let settings : Simulated.Settings := { topology := Topology.singleNode.describe ⟨1, "1", none⟩ }
  let os := Simulated.platform settings
  let demand : Demand := .object 24 .generic
  let x : Allocation := ⟨65536, 24, 8, 0, .slab⟩
  let first : Action := .allocate 0 demand
  let second : Action := .write 65544 [0x90, 0x90, 0x90, 0x90]
  let third : Action := .free 0 65536 24
  let one (heap : Heap Simulated.State) := perform os ⟨heap, []⟩ first
  let two (heap : Heap Simulated.State) := (one heap).perform os second
  let three (heap : Heap Simulated.State) := (two heap).perform os third
  let moved (system : Simulated.State) : Simulated.State :=
    { system with switches := { system.switches with cpu := some 1, mapsLeft := some 0 } }
  let used (heap : Heap Simulated.State) :=
    (three heap).onSystem (moved (three heap).heap.machine.system)
  obtain ⟨heap, created, lives⟩ := exists_created os (Simulated.machine {}) {}
    (fun heap => [(one heap).live, (two heap).live, (used heap).live]) [[x], [x], []]
    (by decide +kernel)
  obtain ⟨same, again, values⟩ := exists_created os (Simulated.machine {}) {}
    (fun heap => ((used heap).heap.machine.currentNode os 0, (used heap).heap.tierOf demand,
      (used heap).heap.scans? os 0 demand, ((used heap).heap.meet os 0 demand).1))
    (1, .slab, some ⟨65536, 24⟩, .error (.rejected (.suspiciousContent 8))) (by decide +kernel)
  cases created.symm.trans again
  simp only [List.cons.injEq, and_true] at lives
  simp only [Prod.mk.injEq] at values
  obtain ⟨before, between, gone⟩ := lives
  obtain ⟨here, tier, scanned, denied⟩ := values
  have own : (one heap).Tolerates os second :=
    ⟨x, before ▸ List.mem_singleton_self x, by decide, by decide⟩
  have mine : (two heap).Tolerates os third := fun _ _ =>
    ⟨x, between ▸ List.mem_singleton_self x, rfl⟩
  have handled : (used heap).Handled (Simulated.contract settings (by decide) (by decide)) :=
    ⟨_, _, heap, Simulated.machine_sound {}, created,
      .drift (.perform third (.perform second (.perform first .start trivial) own) mine) rfl⟩
  obtain ⟨unchanged, object, recovered⟩ := refusal_recovered handled tier denied
  have place : object = 65536 := by
    have both := recovered.scanned.symm.trans scanned
    simp only [Option.some.injEq, Extent.mk.injEq] at both
    exact both.1
  exact ⟨settings, used heap, ⟨_, _, handled⟩, here, unchanged.trans gone,
    place ▸ recovered⟩

end World

end NumaHeap
