import NumaHeap.Proofs.Heap.Errors

/-!
Heaps in use never fault. Whatever clients have done, short of giving the slabs what is not live, every
sum and difference that a request or a release computes is a word, every place that it looks up is there
and every assertion holds; and the only errors that a request answers with are those of its kind.
-/

namespace NumaHeap.World

open Heap

variable {σ : Type} {os : Platform σ} {contract : os.Contract} {w : World σ}

/-- The nodes were read from descriptions, pages hold a word, and every mapping ends before the last
address. Then no check fails when a demand is made, if the counters have room for what it is granted, nor
when something is released that clients may release; and a demand that is not met comes to one of the
errors that are its own. -/
theorem no_check_fails {descriptions : List Topology.Description} (handled : w.Handled contract)
    (described : os.topology = .ofDescriptions descriptions) (page : 8 ≤ os.pageSize.value)
    (bounded : contract.Bounded) :
    (∀ thread demand,
      (∀ address, (w.heap.meet os thread demand).1 = .ok address → w.heap.Counts demand.size) →
      w.heap.meetChecked os thread demand = some (w.heap.meet os thread demand)) ∧
    (∀ thread address size, w.Tolerates os (.free thread address size) →
      w.heap.freeChecked os thread address size = some (w.heap.free os thread address size)) ∧
    ∀ thread demand error, (w.heap.meet os thread demand).1 = .error error →
      demand.Fails w.heap.mode error := by
  have closed : os.topology.Closed := by
    rw [described]
    exact Topology.ofDescriptions_closed descriptions
  have furnished := handled.furnished closed
  have kept := handled.kept
  obtain ⟨free, secured⟩ := kept.secured.heap
  refine ⟨fun thread demand room => ?_, fun thread address size tolerates => ?_,
    fun thread demand error answer => ?_⟩
  · exact meetChecked_eq closed bounded page furnished secured room
  · have word : 8 ∣ os.pageSize.value := wordAlignment.value_dvd_of_value_le page
    exact freeChecked_eq closed bounded furnished secured fun cells present served houses =>
      kept.dvd_of_houses handled.homed word tolerates present served houses
  · exact meet_fails closed furnished secured (Prod.ext answer rfl)

/-- On two nodes, after a thread was served from the slabs and from an arena: it is served from the other
node, its object is released by another thread, and a node that does not exist is an error. -/
theorem no_check_fails_two_nodes :
    let settings : Simulated.Settings := { topology := .ofDescriptions [⟨1, "1", none⟩] }
    let os := Simulated.platform settings
    ∃ (contract : os.Contract) (w : World Simulated.State), w.Handled contract ∧ w.live.length = 2 ∧
      w.heap.meetChecked os 0 (.onNode 24 1) = some (w.heap.meet os 0 (.onNode 24 1)) ∧
      w.heap.freeChecked os 1 65536 24 = some (w.heap.free os 1 65536 24) ∧
      (w.heap.meet os 0 (.onNode 24 9)).1 = .error (.invalidNode 9) ∧
      Session.Demand.Fails w.heap.mode (.onNode 24 9) (.invalidNode 9) := by
  intro settings os
  let contract : os.Contract :=
    (Simulated.contract settings (by decide) (by decide)).narrow
      fun mapped => Nat.lt_of_le_of_lt (Simulated.map_stop_le mapped) (by decide)
  let used (heap : Heap Simulated.State) : World Simulated.State :=
    (perform os ⟨heap, []⟩ (.allocate 0 (.object 24 .generic))).perform os (.allocate 0 (.aligned 100 64))
  obtain ⟨heap, created, values⟩ := exists_created os (Simulated.machine {}) {}
    (fun heap => ((used heap).live.map (·.address), (used heap).heap.counters.currentBytes,
      (used heap).heap.pressure.bytesSinceRaise,
      match ((used heap).heap.meet os 0 (.onNode 24 9)).1 with
        | .error error => some error
        | .ok _ => none))
    ([131072, 65536], 124, 124, some (.invalidNode 9)) (by decide +kernel)
  simp only [Prod.mk.injEq] at values
  obtain ⟨live, current, since, unknown⟩ := values
  have possible : contract.Possible (Simulated.machine {}).system := ⟨Simulated.machine_sound {}, nofun⟩
  have handled : (used heap).Handled contract :=
    ⟨_, _, heap, possible, created, .perform _ (.perform _ .start trivial) trivial⟩
  obtain ⟨x, member, address⟩ : ∃ x ∈ (used heap).live, x.address = 65536 :=
    List.mem_map.1 (live ▸ by decide)
  have invalid : ((used heap).heap.meet os 0 (.onNode 24 9)).1 = .error (.invalidNode 9) := by
    cases met : ((used heap).heap.meet os 0 (.onNode 24 9)).1 with
    | ok address => simp [met] at unknown
    | error error => simpa [met] using unknown
  have bounded : contract.Bounded := Platform.Contract.narrow_bounded _ _
  obtain ⟨meets, frees, fails⟩ := no_check_fails handled (rfl : os.topology = .ofDescriptions _)
    (by decide) bounded
  refine ⟨contract, used heap, handled, ?_, meets 0 _ fun _ _ => ?_,
    frees 1 65536 24 fun _ _ => ⟨x, member, address⟩, invalid, fails 0 _ _ invalid⟩
  · exact (List.length_map _).symm.trans (congrArg List.length live)
  · rw [Counts, current, since]
    decide

end NumaHeap.World
