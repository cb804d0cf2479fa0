import NumaHeap.Proofs.Heap.Moves
import NumaHeap.Proofs.Platform.Journal
import NumaHeap.Platform.Simulated

/-!
A heap on a platform with a journal. At every moment the mappings that the journal leaves open are
those of the regions that the heap holds, so nothing is leaked and nothing is given back twice, in
whatever order threads exit, arenas are destroyed and the heap is closed.
-/

namespace NumaHeap

namespace Arena

theorem State.Sound.hugeBlocks {a : State} (sound : a.Sound) :
    a.stats.hugeBlocks = a.regions.countP Region.isHuge := by
  change (Stats.ofTallies (a.slots.map (·.chain.tally))).hugeBlocks = _
  rw [Stats.ofTallies_sum Stats.hugeBlocks Tally.hugeBlocks fun _ _ => rfl,
    Nat.zero_add, List.map_map, State.regions, List.countP_flatMap]
  apply congrArg List.sum
  apply List.map_congr_left
  intro slot member
  exact (sound.chains slot member).huge

end Arena

namespace Journaled

variable {σ : Type}

/-- The system below may come to any other state; nothing is added to the journal. -/
def Drifts (before after : Journaled σ) : Prop := after.entries = before.entries

end Journaled

namespace Heap

open Arena Journaled

variable {σ : Type} {os : Platform σ} {h after : Heap (Journaled σ)}

theorem Runs.balanced (sound : h.Sound) (balanced : h.machine.system.Balanced h.regions)
    (runs : h.Runs os.journaled Drifts after) :
    after.Sound ∧ after.machine.system.Balanced after.regions := by
  induction runs with
  | start => exact ⟨sound, balanced⟩
  | act action _ ih =>
    have moves := act_moves os.journaled ih.1 action
    exact ⟨moves.sound, ih.2.trades moves.trades⟩
  | @drift middle system _ drifts ih =>
    have alike := ih.1
    exact ⟨⟨alike.arenas, alike.count, alike.slab, alike.large⟩, ih.2.of_entries drifts⟩

theorem Winds.balanced (sound : h.Sound) (balanced : h.machine.system.Balanced h.regions)
    (winds : h.Winds os.journaled Drifts after) :
    after.Closed ∧ after.machine.system.Balanced [] := by
  induction winds with
  | close thread =>
    obtain ⟨closed, trades⟩ := close_spec os.journaled sound thread
    exact ⟨closed, balanced.trades trades⟩
  | exit thread _ ih =>
    obtain ⟨closed, trades⟩ := ih.1.exitThread os.journaled thread
    exact ⟨closed, ih.2.trades trades⟩
  | drift _ drifts ih =>
    exact ⟨⟨ih.1.arenas, ih.1.empty⟩, ih.2.of_entries drifts⟩

/-- The open mappings are those of the regions that are held, and each part reports what it holds. -/
structure Accounted (h : Heap (Journaled σ)) : Prop where
  mapped : ∃ live, Journal.mapped? h.machine.system.entries = some live ∧
    live.Perm (h.regions.map Region.extent)
  arenas : ∀ kind : ArenaKind, ∃ a, h.arenas.arena? kind.index = some a ∧
    (h.arenaStats kind).bytesReserved = Region.total a.regions ∧
    (h.arenaStats kind).hugeBlocks = a.regions.countP Region.isHuge
  slab : ∀ slab, h.slab = some slab → slab.stats.bytesReserved = Region.total slab.regions
  large : h.large.stats.hugeObjects = h.large.regions.countP Region.isHuge

theorem Sound.accounted (sound : h.Sound) (balanced : h.machine.system.Balanced h.regions) :
    h.Accounted where
  mapped := balanced
  arenas kind := by
    obtain ⟨a, found⟩ := sound.arena? kind
    have inner := sound.arenas.arenas _ _ found
    have stats : h.arenaStats kind = a.stats := by
      rw [arenaStats, Pool.stats, found]
      rfl
    rw [stats]
    exact ⟨a, found, inner.bytes, inner.hugeBlocks⟩
  slab cells present := (sound.slab cells present).bytes
  large := sound.large.huge

/-- In every run of a heap its mappings are accounted for, and none is left open once the heap is
closed. -/
theorem mappings_accounted {machine : Machine (Journaled σ)} {configuration : Configuration}
    (fresh : machine.system.entries = [])
    (created : Heap.create os.journaled machine configuration = .ok h)
    (runs : h.Runs os.journaled Drifts after) :
    after.Accounted ∧ ∀ last, after.Winds os.journaled Drifts last →
      Journal.mapped? last.machine.system.entries = some [] := by
  obtain ⟨good, none, same, -⟩ := create_spec created
  have start : h.machine.system.Balanced h.regions := by
    rw [none, same]
    exact ⟨[], by rw [fresh]; rfl, .refl _⟩
  obtain ⟨sound, balanced⟩ := runs.balanced good start
  refine ⟨sound.accounted balanced, fun last winds => ?_⟩
  obtain ⟨-, live, replay, empty⟩ := winds.balanced sound balanced
  rw [replay, List.perm_nil.1 empty]

/-- Three tiers hold one region each when one of two threads has exited; another thread then closes
the heap. -/
theorem mappings_accounted_three_tiers :
    ∃ h after last : Heap (Journaled Simulated.State),
      h.Runs (Simulated.platform {}).journaled Drifts after ∧
        after.Winds (Simulated.platform {}).journaled Drifts last ∧ after.regions.length = 3 ∧
        after.Accounted ∧ Journal.mapped? last.machine.system.entries = some [] := by
  let os := (Simulated.platform {}).journaled
  let machine : Machine (Journaled Simulated.State) :=
    ⟨{ system := (Simulated.machine {}).system }, .zeros⟩
  let actions : List Action := [.allocate 0 (.object 24 .generic), .allocate 1 (.aligned 100 64),
    .allocate 0 (.object 1000000 .array), .allocate 0 (.object 5000 .string), .exitThread 1]
  obtain ⟨h, created, count⟩ := exists_created os machine {}
    (fun h => (actions.foldl (act os) h).regions.length) 3 (by decide +kernel)
  have runs : h.Runs os Drifts (actions.foldl (act os) h) :=
    Runs.start.foldl actions
  obtain ⟨accounted, closed⟩ := mappings_accounted rfl created runs
  exact ⟨h, _, _, runs, .close 2, count, accounted, closed _ (.close 2)⟩

end Heap

end NumaHeap
