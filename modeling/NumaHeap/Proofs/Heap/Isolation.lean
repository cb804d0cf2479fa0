import NumaHeap.Proofs.Heap.World
import NumaHeap.Proofs.Platform.Simulated

/-!
Isolation. However clients use a heap, as long as they free and write only what is theirs, no two
live allocations share a byte, each lies in mapped memory at an address that suits it, and nothing
that the heap does changes a byte of an allocation that lives on.
-/

namespace NumaHeap

/-- Anything may be found in memory. -/
def Platform.Explanation.any {σ : Type} {os : Platform σ} (contract : os.Contract) :
    Platform.Explanation contract where
  Allows _ _ _ := True
  zero _ _ := trivial
  steady _ _ := ⟨fun _ _ _ => trivial, fun _ _ => trivial, fun _ => trivial, fun _ => trivial,
    fun _ => trivial⟩
  drift _ _ := trivial

namespace World

open Heap

variable {σ : Type} {os : Platform σ} {contract : os.Contract} {w : World σ}
  {explanation : Platform.Explanation contract}

theorem Reached.secured (reached : w.Reached contract) :
    w.Secured (.any contract) := by
  induction reached with
  | create possible created => exact .create possible created
  | @perform w action _ permits ih =>
    by_cases own : ∃ address bytes, action = .write address bytes
    · obtain ⟨address, bytes, rfl⟩ := own
      exact ih.write w.heap.machine.system permits id (fun _ _ _ known => known)
        fun _ _ => trivial
    · have mute : ∀ address bytes, action ≠ .write address bytes :=
        fun address bytes same => own ⟨address, bytes, same⟩
      exact (ih.perform permits mute).secured
  | drift _ drifts ih => exact ih.drift drifts

/-- Whatever clients have done, no two live allocations share a byte, and each lies in one mapping,
at an address that suits words, its own alignment, and pages if it is large. -/
theorem live_isolated (wide : 8 ≤ os.pageSize.value) (reached : w.Reached contract) :
    w.live.Pairwise Allocation.Apart ∧
      ∀ x ∈ w.live, (∃ e, contract.Mapped w.heap.machine.system e ∧ x.extent.Within e) ∧
        x.Aligned os.pageSize.value := by
  have secured := reached.secured
  obtain ⟨free, good⟩ := secured.heap
  have page : 8 ∣ os.pageSize.value :=
    PowerOfTwo.value_dvd_of_value_le (p := wordAlignment) wide
  refine ⟨good.apart, fun x member => ⟨?_, secured.aligned page x member⟩⟩
  obtain ⟨region, held, within⟩ := good.within member
  exact ⟨region.extent, good.custody.mapped region held, within⟩

/-- Two threads are served by all three tiers. -/
theorem live_isolated_three_tiers :
    ∃ w : World Simulated.State,
      w.Reached (Simulated.contract {} (by decide) (by decide)) ∧
        w.live.map (·.tier) = [.large, .arena .general, .slab] ∧
        w.live.Pairwise Allocation.Apart := by
  let os := Simulated.platform {}
  let first : Action := .allocate 0 (.object 24 .generic)
  let second : Action := .allocate 1 (.aligned 100 64)
  let third : Action := .allocate 0 (.object 1000000 .array)
  let used (heap : Heap Simulated.State) : World Simulated.State :=
    ((perform os ⟨heap, []⟩ first).perform os second).perform os third
  obtain ⟨heap, created, tiers⟩ := exists_created os (Simulated.machine {}) {}
    (fun heap => (used heap).live.map (·.tier)) [.large, .arena .general, .slab]
    (by decide +kernel)
  have reached : (used heap).Reached (Simulated.contract {} (by decide) (by decide)) :=
    .perform third (.perform second (.perform first
      (.create (Simulated.machine_sound {}) created) trivial) trivial) trivial
  exact ⟨used heap, reached, tiers, (live_isolated (by decide) reached).1⟩

/-- Nothing that is done to the heap changes a byte of an allocation that is live before and after,
whoever does it. -/
theorem live_untouched {action : Action} {x : Allocation} {address : Nat}
    (reached : w.Reached contract) (permits : w.Permits action)
    (own : ∀ start bytes, action ≠ .write start bytes) (before : x ∈ w.live)
    (after : x ∈ (w.perform os action).live) (inside : x.extent.Holds address) :
    (w.perform os action).heap.machine.memory.get address = w.heap.machine.memory.get address :=
  ((reached.secured.perform permits own).spares x before after address inside).get

/-- An object of the slabs is not touched when elements next to it are cleared for another thread. -/
theorem live_untouched_zeroed :
    ∃ w : World Simulated.State,
      w.Reached (Simulated.contract {} (by decide) (by decide)) ∧ w.live ≠ [] ∧
        ∀ x ∈ w.live, ∀ address, x.extent.Holds address →
          (w.perform (Simulated.platform {})
            (.allocate 1 (.zeroed 3 8 .generic))).heap.machine.memory.get address =
              w.heap.machine.memory.get address := by
  let os := Simulated.platform {}
  let first : Action := .allocate 0 (.object 24 .generic)
  let action : Action := .allocate 1 (.zeroed 3 8 .generic)
  let x : Allocation := ⟨65536, 24, 8, 0, .slab⟩
  let y : Allocation := ⟨65568, 24, 8, 1, .slab⟩
  obtain ⟨heap, created, live⟩ := exists_created os (Simulated.machine {}) {}
    (fun heap => let w := perform os ⟨heap, []⟩ first; (w.live, (w.perform os action).live))
    ([x], [y, x]) (by decide +kernel)
  obtain ⟨before, after⟩ := Prod.mk.inj live
  have reached : (perform os ⟨heap, []⟩ first).Reached
      (Simulated.contract {} (by decide) (by decide)) :=
    .perform first (.create (Simulated.machine_sound {}) created) trivial
  refine ⟨_, reached, by simp [before], fun z member address inside => ?_⟩
  have later : z ∈ ((perform os ⟨heap, []⟩ first).perform os action).live := by
    rw [before] at member
    rw [after]
    exact List.mem_cons_of_mem _ member
  exact live_untouched reached trivial nofun member later inside

end World

end NumaHeap
