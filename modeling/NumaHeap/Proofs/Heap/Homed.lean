import NumaHeap.Proofs.Heap.Handled

/-!
Release by size alone. Whoever releases an object names its address and its size, and the size leads to
the tier that serves it: requests were routed by the same rule, the slabs never give up the region in
which an object lies, and every large object is registered where it starts. So an object that is live
is taken back, by whichever thread, and whatever does not belong to the tier and class of the size that
is named is refused, with the heap as it was.
-/

namespace NumaHeap

/-- No alignment is asked for beyond that of a word. -/
def Session.Demand.isPlain : Demand → Bool
  | .aligned .. | .cacheAligned _ => false
  | _ => true

/-- A valid threshold leaves small requests to the other tiers. -/
theorem Configuration.largeThreshold_pos {c : Configuration} (valid : c.validate = .ok ()) :
    0 < c.largeThreshold := by
  by_contra zero
  have low : c.largeThreshold ≤ c.minimumLargeThreshold := by omega
  simp only [validate, bind, Except.bind, if_pos low] at valid
  split at valid <;> cases valid

namespace Heap

variable {σ : Type} {os : Platform σ} {contract : os.Contract} {h after : Heap σ}
  {explanation : Platform.Explanation contract} {free : Nat → List Nat} {live : List Allocation}
  {thread : ThreadId} {size address : Nat} {node : Option Nat} {alignment : PowerOfTwo}

/-- The kind of an object decides between arenas only. -/
theorem classify_isArena (h : Heap σ) (size : Nat) (kind : ObjectKind) :
    (h.classify size kind).isArena = (h.classify size .generic).isArena := by
  unfold classify
  split
  · rfl
  · split <;> rfl

theorem tierOf_isArena {demand : Session.Demand} (plain : demand.isPlain = true) :
    (h.tierOf demand).isArena = (h.classify demand.size .generic).isArena := by
  cases demand with
  | object => exact h.classify_isArena ..
  | onNode => rfl
  | zeroed => exact h.classify_isArena ..
  | aligned => cases plain
  | cacheAligned => cases plain

/-- What the slabs serve belongs to the class of its size. -/
theorem dispatch_houses {placement : Arena.Placement} {cells : Slab}
    (secured : Secured explanation h free live)
    (served : h.dispatch os thread size .slab node alignment = (.ok placement, after))
    (present : after.slab = some cells) : cells.Houses size placement.address := by
  have moves := dispatch_moves secured.sound served
  cases there : h.slab with
  | none =>
    have absent := moves.slab
    rw [present, there] at absent
    cases absent
  | some slab =>
    cases allocated : slab.allocate os h.machine thread size node with
    | mk result rest =>
      obtain ⟨last, machine⟩ := rest
      simp only [dispatch, there, allocated] at served
      cases served
      cases present
      have inner := secured.sound.slab slab there
      obtain ⟨sizeClass, new, serves, fits⟩ := Slab.allocate_spec inner allocated
      obtain ⟨-, -, regions⟩ := serves.spec inner
      have custody := slab_custody (moves.trades.custody secured.custody) rfl
      exact serves.houses inner (custody.perm regions) (secured.stocked slab there)
        (fits placement rfl)

theorem allocate_houses {kind : ObjectKind} {cells : Slab}
    (secured : Secured explanation h free live)
    (served : h.allocate os thread size kind .slab node alignment = (.ok address, after))
    (present : after.slab = some cells) : cells.Houses size address := by
  cases allocate_outcome served with
  | granted dispatched clean =>
    exact dispatch_houses secured dispatched ((inspect_alike clean).slab.symm.trans present)

/-- What a demand is met with by the slabs belongs to the class of its size. -/
theorem meet_houses {demand : Session.Demand} {cells : Slab}
    (secured : Secured explanation h free live) (tier : h.tierOf demand = .slab)
    (slabs : h.slab.isSome = true) (met : h.meet os thread demand = (.ok address, after))
    (present : after.slab = some cells) : cells.Houses demand.size address := by
  obtain ⟨retried, meets⟩ := exists_meets met
  cases meets with
  | once _ served => exact allocate_houses secured (tier ▸ served) present
  | again first second =>
    obtain ⟨left, between, -⟩ := allocate_secured secured (fun _ => slabs) first
    exact allocate_houses between (tier ▸ second) present
  | cleared given =>
    rw [tier] at given
    exact allocate_houses secured given present

end Heap

namespace World

open Heap

variable {σ : Type} {os : Platform σ} {contract : os.Contract} {w later : World σ}
  {action : Action} {thread : ThreadId} {size address : Nat} {x : Allocation}

/-- Every live object is found from its size: its tier is the one that the size leads to, and an object
of the slabs lies in a region of its class. -/
structure Homed (os : Platform σ) (w : World σ) : Prop where
  counted : ∀ cells, w.heap.slab = some cells → cells.Counted os
  threshold : 0 < w.heap.configuration.largeThreshold
  housed : ∀ x ∈ w.live, x.tier = .slab → ∀ cells, w.heap.slab = some cells →
    cells.Houses x.size x.address
  routed : ∀ x ∈ w.live, x.tier.isArena = false → w.heap.classify x.size .generic = x.tier

namespace Homed

theorem extend {after : Heap σ} {live : List Allocation} (homed : w.Homed os)
    (grown : Heap.Extends w.heap after) (fewer : live ⊆ w.live) : Homed os ⟨after, live⟩ where
  counted cells present := by
    obtain ⟨s, there, more⟩ := grown.origin present
    exact more.counted (homed.counted s there)
  threshold := by
    rw [grown.configuration]
    exact homed.threshold
  housed x member served cells present := by
    obtain ⟨s, there, more⟩ := grown.origin present
    exact more.houses (homed.housed x (fewer member) served s there)
  routed x member object := by
    rw [grown.classify]
    exact homed.routed x (fewer member) object

theorem create {machine : Machine σ} {configuration : Configuration} {heap : Heap σ}
    (created : Heap.create os machine configuration = .ok heap) : Homed os ⟨heap, []⟩ := by
  refine ⟨fun cells present => ?_, ?_, nofun, nofun⟩
  · simp only [Heap.create, bind, Except.bind] at created
    split at created
    · cases created
    · split at created
      · cases created
      · cases created
        dsimp only at present
        split at present
        · cases present
          exact Slab.create_counted ..
        · cases present
  · simp only [Heap.create, bind, Except.bind] at created
    split at created
    · cases created
    · next valid =>
      split at created
      · cases created
      · cases created
        exact Configuration.largeThreshold_pos valid

theorem allocate (homed : w.Homed os) (kept : w.Kept contract) (thread : ThreadId)
    (demand : Session.Demand) : (w.perform os (.allocate thread demand)).Homed os := by
  obtain ⟨free, good⟩ := kept.secured.heap
  cases met : w.heap.meet os thread demand with
  | mk answer after =>
    have grown := meet_extends good.sound met
    simp only [World.perform, remaining, act, met]
    cases answer with
    | error error => exact homed.extend grown (List.Subset.refl _)
    | ok address =>
      have old : Homed os ⟨after, w.live⟩ := homed.extend grown (List.Subset.refl _)
      refine { old with
        housed := List.forall_mem_cons.2 ⟨fun tier cells present => ?_, old.housed⟩
        routed := List.forall_mem_cons.2 ⟨fun object => ?_, old.routed⟩ }
      · have slabs : w.heap.slab.isSome = true := by
          rw [← grown.isSome, present, Option.isSome_some]
        exact meet_houses good tier slabs met present
      · rw [grown.classify]
        exact classify_tierOf object

theorem perform (homed : w.Homed os) (kept : w.Kept contract) (action : Action) :
    (w.perform os action).Homed os := by
  obtain ⟨free, good⟩ := kept.secured.heap
  have grown := act_extends os good.sound action
  cases action with
  | allocate thread demand => exact homed.allocate kept thread demand
  | free thread address size =>
    refine homed.extend grown ?_
    simp only [remaining]
    split
    · exact List.filter_subset_self _
    · exact List.Subset.refl _
  | _ => exact homed.extend grown (List.filter_subset_self _)

end Homed

theorem Handled.homed (handled : w.Handled contract) : w.Homed os := by
  obtain ⟨machine, configuration, heap, possible, created, run⟩ := handled
  induction run with
  | start => exact .create created
  | perform action before _ ih =>
    exact ih.perform (Handled.kept ⟨machine, configuration, heap, possible, created, before⟩) action
  | drift _ _ ih => exact ih.extend (.of_eq rfl rfl) (List.Subset.refl _)

end World

end NumaHeap
