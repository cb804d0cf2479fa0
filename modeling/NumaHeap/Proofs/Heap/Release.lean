import NumaHeap.Proofs.Heap.Homed
import NumaHeap.Proofs.Platform.Simulated

/-!
Release by size alone. Whoever releases an object names its address and its size, and the size leads to
the tier that serves it. An object that is live is taken back, by whichever thread; what does not belong
to the tier and the class of the size that is named is refused, with the heap as it was.
-/

namespace NumaHeap.World

open Heap

variable {σ : Type} {os : Platform σ} {contract : os.Contract} {w later : World σ}
  {thread : ThreadId} {size address : Nat} {x : Allocation}

/-- Nothing of that size can be released here: no large object starts at the address, or it lies in no
region of the class, or the size leads to an arena. -/
def Foreign (w : World σ) (address size : Nat) : Prop :=
  size = 0 ∨
    match w.heap.classify size .generic with
    | .large => ∀ x ∈ w.live, x.tier = .large → x.address ≠ address
    | .slab => ∀ cells, w.heap.slab = some cells → ¬cells.Houses size address
    | .arena _ => True

/-- A live object is taken back in its own size, whichever thread releases it. -/
theorem Kept.free_live (kept : w.Kept contract) (homed : w.Homed os) (member : x ∈ w.live)
    (object : x.tier.isArena = false) (caller : ThreadId) :
    (w.heap.free os caller x.address x.size).1 = .ok () := by
  obtain ⟨free, good⟩ := kept.secured.heap
  have places := good.placed x member
  have routed := homed.routed x member object
  unfold Heap.Places at places
  split at places
  · next kind served =>
    rw [served] at object
    cases object
  · next served =>
    obtain ⟨cells, present, -⟩ := places
    obtain ⟨node, sizeClass, c, fits, found, owns⟩ := homed.housed x member served cells present
    have taken := Slab.free_of_owns (homed.counted cells present)
      (slab_custody good.custody present) fits found owns w.heap.machine caller
    simp only [Heap.free, routed, served, present, taken]
  · next served =>
    obtain ⟨object, registered, start, same⟩ := places
    cases released : w.heap.large.free os w.heap.machine object.region.start with
    | mk answer rest =>
      obtain ⟨answer, -⟩ := Large.free_of_mem registered (large_starts_nodup good.custody) released
      cases answer
      simp only [Heap.free, routed, served, ← start, released]

/-- A release that does not belong here is refused, and changes nothing. -/
theorem Kept.free_foreign (kept : w.Kept contract) (homed : w.Homed os)
    (foreign : w.Foreign address size) (caller : ThreadId) :
    ∃ error, w.heap.free os caller address size = (.error error, w.heap) := by
  have threshold := homed.threshold
  unfold Heap.free
  split
  · next served =>
    have unregistered : ∀ object ∈ w.heap.large.objects, object.region.start ≠ address := by
      intro object registered start
      have entry : (object.region.start, object.size) ∈ w.heap.large.entries :=
        List.mem_map_of_mem registered
      obtain ⟨x, member, large, here, -⟩ := Allocation.mem_entries.1 (kept.registered entry)
      rcases foreign with rfl | foreign
      · simp [classify, Nat.not_le.2 threshold] at served
        split at served <;> cases served
      · rw [served] at foreign
        exact foreign x member large (here.trans start)
    rw [Large.free_of_none unregistered]
    exact ⟨_, rfl⟩
  · next cells served present =>
    have unhoused : ¬cells.Houses size address := by
      rcases foreign with rfl | foreign
      · rintro ⟨node, sizeClass, c, fits, -⟩
        cases fits
      · rw [served] at foreign
        exact foreign cells present
    obtain ⟨error, refused⟩ := Slab.free_of_foreign os unhoused w.heap.machine caller
    simp only [refused, ← present]
    exact ⟨error, rfl⟩
  · exact ⟨_, rfl⟩

/-- What points into a live allocation belongs to no other tier, to no other class, and to the start of
what is large. -/
theorem Kept.foreign_of_live (kept : w.Kept contract) (homed : w.Homed os) (member : x ∈ w.live)
    (inside : x.extent.Holds address)
    (slab : x.tier = .slab → w.heap.classify size .generic = .slab →
      Size.slabClass? size ≠ Size.slabClass? x.size)
    (large : x.tier = .large → w.heap.classify size .generic = .large → address ≠ x.address) :
    w.Foreign address size := by
  obtain ⟨free, good⟩ := kept.secured.heap
  refine .inr ?_
  split
  · next served =>
    intro y other tier start
    have here : y.extent.Holds address :=
      Extent.holds_mk.2 ⟨Nat.le_of_eq start, start ▸ Nat.lt_add_of_pos_right (good.nonempty y other)⟩
    have same : x = y := by
      by_contra different
      exact (good.apart.forall member other different).not_holds inside here
    subst same
    exact large tier served start.symm
  · next served =>
    intro cells present houses
    have custody := slab_custody good.custody present
    have tier : x.tier = .slab := by
      obtain ⟨node, sizeClass, c, -, found, owns⟩ := houses
      exact good.eq_slab_of_holds member present found inside owns
    have places := (good.placed x member).of_slab tier present
    have home := places.houses custody (homed.housed x member tier cells present) inside
    exact slab tier served (houses.class_eq custody home)
  · trivial

/-- Whatever clients have done, an object that was asked for without an alignment is taken back in its
size as long as it is live, by whichever thread, unless the size leads to an arena; what is foreign to
its size is refused with the heap as it was; and so is every address within what is live, unless the
size leads to the tier of the allocation, to its class if it is an object of the slabs, and the address
is the start if it is large. -/
theorem release_decided (handled : w.Handled contract) :
    (∀ thread demand address later, demand.isPlain = true →
      (w.heap.meet os thread demand).1 = .ok address →
      Becomes contract (w.perform os (.allocate thread demand)) later →
      ⟨address, demand.size, demand.alignment, thread, w.heap.tierOf demand⟩ ∈ later.live →
      ∀ caller, match later.heap.classify demand.size .generic with
        | .arena _ => later.heap.free os caller address demand.size =
            (.error .arenaMemory, later.heap)
        | _ => (later.heap.free os caller address demand.size).1 = .ok ()) ∧
    (∀ caller address size, w.Foreign address size →
      ∃ error, w.heap.free os caller address size = (.error error, w.heap)) ∧
    ∀ x ∈ w.live, ∀ address size, x.extent.Holds address →
      (x.tier = .slab → w.heap.classify size .generic = .slab →
        Size.slabClass? size ≠ Size.slabClass? x.size) →
      (x.tier = .large → w.heap.classify size .generic = .large → address ≠ x.address) →
      w.Foreign address size := by
  have kept := handled.kept
  refine ⟨fun thread demand address later plain met run member caller => ?_,
    fun caller address size foreign => kept.free_foreign handled.homed foreign caller,
    fun x member address size inside slab large =>
      kept.foreign_of_live handled.homed member inside slab large⟩
  have first : Becomes contract w (w.perform os (.allocate thread demand)) :=
    .perform _ .start trivial
  have begun := handled.becomes first
  have last := begun.becomes run
  have grown := (handled.extends first).trans (begun.extends run)
  have object : (w.heap.tierOf demand).isArena = false →
      (later.heap.free os caller address demand.size).1 = .ok () :=
    fun object => last.kept.free_live last.homed member object caller
  rw [tierOf_isArena plain, ← grown.classify] at object
  split
  · next served => simp only [Heap.free, served]
  · next served =>
    apply object
    cases tier : later.heap.classify demand.size .generic with
    | arena kind => exact absurd tier (served kind)
    | slab => rfl
    | large => rfl

/-- An object of the slabs is released by another thread after that for which it was served has exited;
in the size of another class it is refused. -/
theorem release_decided_other_thread :
    ∃ w : World Simulated.State, w.Handled (Simulated.contract {} (by decide) (by decide)) ∧
      (w.heap.free (Simulated.platform {}) 7 65536 24).1 = .ok () ∧
      ∃ error, w.heap.free (Simulated.platform {}) 7 65536 100 = (.error error, w.heap) := by
  let os := Simulated.platform {}
  let demand : Session.Demand := .object 24 .generic
  let x : Allocation := ⟨65536, 24, 8, 0, .slab⟩
  let used (heap : Heap Simulated.State) : World Simulated.State :=
    perform os ⟨heap, []⟩ (.allocate 0 demand)
  let late (heap : Heap Simulated.State) : World Simulated.State :=
    ((used heap).perform os (.free 1 65536 100)).perform os (.exitThread 0)
  obtain ⟨heap, created, values⟩ := exists_created os (Simulated.machine {}) {}
    (fun heap => ((heap.meet os 0 demand).1.toOption, heap.tierOf demand, (used heap).live,
      (late heap).live, (late heap).heap.classify 24 .generic))
    (some 65536, .slab, [x], [x], .slab) (by decide +kernel)
  simp only [Prod.mk.injEq] at values
  obtain ⟨met, tier, first, last, served⟩ := values
  have fresh : World.Handled (Simulated.contract {} (by decide) (by decide)) ⟨heap, []⟩ :=
    ⟨_, _, heap, Simulated.machine_sound {}, created, .start⟩
  have run : Becomes (Simulated.contract {} (by decide) (by decide)) (used heap) (late heap) :=
    .perform (.exitThread 0) (.perform (.free 1 65536 100) .start
      fun _ _ => ⟨x, by rw [first]; exact List.mem_singleton_self x, rfl⟩) trivial
  have member : x ∈ (late heap).live := by
    rw [last]
    exact List.mem_singleton_self x
  have met : (heap.meet os 0 demand).1 = .ok 65536 := by
    cases answer : (heap.meet os 0 demand).1 with
    | ok address => simpa [answer, Except.toOption] using met
    | error error => simp [answer, Except.toOption] at met
  have handled := (fresh.becomes (.perform (.allocate 0 demand) .start trivial)).becomes run
  have recorded : (⟨65536, demand.size, demand.alignment, 0, heap.tierOf demand⟩ : Allocation) ∈
      (late heap).live := by
    rw [tier]
    exact member
  have taken := (release_decided fresh).1 0 demand 65536 (late heap) rfl met run recorded 7
  simp only [demand, Session.Demand.size, served] at taken
  have refused := (release_decided handled).2.1 7 65536 100
    ((release_decided handled).2.2 x member 65536 100 (by decide) (fun _ _ => by decide) (by simp [x]))
  exact ⟨late heap, handled, taken, refused⟩

end NumaHeap.World
