import NumaHeap.Proofs.Arena.Denial
import NumaHeap.Proofs.Heap.Inspection
import NumaHeap.Proofs.Heap.Isolation
import NumaHeap.Proofs.Heap.Outcome
import NumaHeap.Proofs.Platform.Simulated
import NumaHeap.Proofs.Slab.Recycle

/-!
Demands that are denied. On a platform where a map that fails has no effect, a demand that is denied
for anything but what memory holds leaves the heap as it was: every tier denies a request before it
touches its blocks, lists or registries. What tells of the attempt are the counts of failures, of
rejections and of fallbacks, and an empty slot of the thread.
-/

namespace NumaHeap

variable {σ : Type} {os : Platform σ} {contract : os.Contract} {machine later : Machine σ}
  {thread : ThreadId} {size : Nat} {error : AllocError}

theorem Simulated.harmless (settings : Settings) : (platform settings).Harmless := map_refused

namespace Slab

theorem Cell.allocate_denied {c after : Cell} {s supply : Supply σ} {cause : MapError}
    (harmless : os.Harmless) (served : c.allocate os s = (.error cause, after, supply)) :
    supply.machine = s.machine ∧ ∃ count,
      supply.mapper = s.mapper.withFallbacks (s.mapper.hugeFallbacks + count) := by
  obtain ⟨-, -, mapped⟩ := Cell.allocate_error served
  exact Supply.map_denied harmless mapped

theorem allocate_denied {s after : Slab} {node : Option Nat} (harmless : os.Harmless)
    (served : s.allocate os machine thread size node = (.error error, after, later)) :
    later = machine ∧ ∃ count, after = s.withFallbacks (s.mapper.hugeFallbacks + count) := by
  cases allocate_outcome served with
  | invalid => exact ⟨rfl, 0, rfl⟩
  | exhausted _ _ denied _ =>
    obtain ⟨kept, count, mapper⟩ := Cell.allocate_denied harmless denied
    exact ⟨kept, count, by rw [mapper]; rfl⟩

end Slab

namespace Large

/-- The same large objects with another count of fallbacks. -/
def withFallbacks (l : Large) (count : Nat) : Large := { l with mapper := l.mapper.withFallbacks count }

theorem allocate_denied {l after : Large} {node : Nat} (harmless : os.Harmless)
    (served : l.allocate os machine size node = (.error error, after, later)) :
    later = machine ∧ ∃ count, after = l.withFallbacks (l.mapper.hugeFallbacks + count) := by
  have same : machine = machine ∧ ∃ count, l = l.withFallbacks (l.mapper.hugeFallbacks + count) :=
    ⟨rfl, 0, rfl⟩
  unfold allocate at served
  split at served
  · cases served
    exact same
  · split at served
    · cases served
      exact same
    · split at served
      · next mapped =>
        cases served
        obtain ⟨kept, count, mapper⟩ := Supply.map_denied harmless mapped
        exact ⟨kept, count, by rw [mapper]; rfl⟩
      · cases served

end Large

namespace Heap

variable {h after last : Heap σ} {kind : ObjectKind} {tier : Tier} {node : Option Nat}
  {alignment : PowerOfTwo}

/-- The tiers and the machine are as they were, but for counts of fallbacks and an empty slot of the
thread. -/
structure Idle (thread : ThreadId) (h after : Heap σ) : Prop where
  machine : after.machine = h.machine
  arenas : h.arenas.Enrolls thread after.arenas
  slab : ∃ count, after.slab = h.slab.map (·.withFallbacks count)
  large : ∃ count, after.large = h.large.withFallbacks count

theorem Idle.refl (thread : ThreadId) (h : Heap σ) : Idle thread h h where
  machine := rfl
  arenas := .refl thread h.arenas
  slab := by
    cases present : h.slab with
    | none => exact ⟨0, rfl⟩
    | some cells => exact ⟨cells.mapper.hugeFallbacks, rfl⟩
  large := ⟨h.large.mapper.hugeFallbacks, rfl⟩

theorem Idle.trans (first : Idle thread h after) (second : Idle thread after last) :
    Idle thread h last where
  machine := second.machine.trans first.machine
  arenas := first.arenas.trans second.arenas
  slab := by
    obtain ⟨_, one⟩ := first.slab
    obtain ⟨count, two⟩ := second.slab
    refine ⟨count, ?_⟩
    rw [two, one, Option.map_map]
    rfl
  large := by
    obtain ⟨_, one⟩ := first.large
    obtain ⟨count, two⟩ := second.large
    refine ⟨count, ?_⟩
    rw [two, one]
    rfl

theorem Idle.fail (idle : Idle thread h after) (error : AllocError) :
    Idle thread h (after.fail error).2 := ⟨idle.machine, idle.arenas, idle.slab, idle.large⟩

/-- Nothing else has changed either, but for the counts of failures and of rejections. -/
structure Unmoved (thread : ThreadId) (h after : Heap σ) : Prop extends Idle thread h after where
  configuration : after.configuration = h.configuration
  mode : after.mode = h.mode
  counters : after.counters =
    { h.counters with
      failures := after.counters.failures
      rejections := after.counters.rejections }
  pressure : after.pressure = h.pressure
  arenaBytes : after.arenaBytes = h.arenaBytes
  origin : after.origin = h.origin
  lastCompaction : after.lastCompaction = h.lastCompaction

theorem Unmoved.trans (first : Unmoved thread h after) (second : Unmoved thread after last) :
    Unmoved thread h last where
  toIdle := first.toIdle.trans second.toIdle
  configuration := second.configuration.trans first.configuration
  mode := second.mode.trans first.mode
  counters := by rw [second.counters, first.counters]
  pressure := second.pressure.trans first.pressure
  arenaBytes := second.arenaBytes.trans first.arenaBytes
  origin := second.origin.trans first.origin
  lastCompaction := second.lastCompaction.trans first.lastCompaction

/-- A failure that is counted is all that has come of an idle request. -/
theorem Unmoved.of_failure (idle : Idle thread h after)
    (still : Still { h with counters := h.counters.recordFailure error } after) :
    Unmoved thread h after where
  toIdle := idle
  configuration := still.configuration
  mode := still.mode
  counters := by
    rw [still.counters]
    rfl
  pressure := still.pressure
  arenaBytes := still.arenaBytes
  origin := still.origin
  lastCompaction := still.lastCompaction

theorem serveArena_denied {kind : ArenaKind} (sound : h.Sound)
    (possible : contract.Possible h.machine.system) (harmless : os.Harmless)
    (modest : Modest os alignment)
    (served : h.serveArena os thread size kind node alignment = (.error error, after)) :
    Idle thread h after := by
  cases allocated : h.arenas.allocate os h.machine kind.index thread size alignment node with
  | mk result rest =>
    obtain ⟨arenas, machine⟩ := rest
    rw [serveArena, allocated] at served
    cases served
    obtain ⟨joined, rfl⟩ :=
      Arena.Pool.allocate_denied sound.arenas possible harmless modest allocated
    exact { Idle.refl thread h with arenas := joined }

theorem dispatch_denied (sound : h.Sound) (possible : contract.Possible h.machine.system)
    (harmless : os.Harmless) (modest : Modest os alignment)
    (served : h.dispatch os thread size tier node alignment = (.error error, after)) :
    Idle thread h after := by
  unfold dispatch at served
  split at served
  · dsimp only at served
    split at served
    · cases served
    · next denied =>
      cases served
      obtain ⟨rfl, count, rfl⟩ := Large.allocate_denied harmless denied
      exact { Idle.refl thread h with large := ⟨_, rfl⟩ }
  · next cells present =>
    cases allocated : cells.allocate os h.machine thread size node with
    | mk result rest =>
      obtain ⟨last, machine⟩ := rest
      rw [allocated] at served
      cases served
      obtain ⟨rfl, count, rfl⟩ := Slab.allocate_denied harmless allocated
      exact { Idle.refl thread h with slab := ⟨_, by rw [present]; rfl⟩ }
  · exact serveArena_denied sound possible harmless modest served
  · exact serveArena_denied sound possible harmless modest served

theorem allocate_denied (sound : h.Sound) (possible : contract.Possible h.machine.system)
    (harmless : os.Harmless) (modest : Modest os alignment)
    (served : h.allocate os thread size kind tier node alignment = (.error error, after))
    (clean : error.isSuspicious = false) : Unmoved thread h after := by
  have outcome := allocate_outcome served
  have still := outcome.failed
  cases outcome with
  | barred => exact .of_failure ((Idle.refl thread h).fail _) still
  | denied denied =>
    exact .of_failure ((dispatch_denied sound possible harmless modest denied).fail error) still
  | refused fits dispatched refused =>
    rw [← (dispatch_still dispatched).mode] at fits
    rw [Security.Mode.isSuspicious_of_validate fits (inspect_error refused)] at clean
    cases clean

theorem meet_denied {demand : Session.Demand} (sound : h.Sound)
    (custody : os.Custody contract h.machine.system h.regions) (harmless : os.Harmless)
    (met : h.meet os thread demand = (.error error, after)) (clean : error.isSuspicious = false) :
    Unmoved thread h after := by
  obtain ⟨retried, meets⟩ := exists_meets met
  cases meets with
  | barred => exact .of_failure ((Idle.refl thread h).fail error) (.refl _)
  | once modest served => exact allocate_denied sound custody.possible harmless modest served clean
  | @again wish _ _ _ _ first second =>
    have moves := allocate_moves os sound thread demand.size .generic (h.tierOf demand) (some wish)
      wordAlignment
    rw [first] at moves
    have possible := (moves.trades.custody custody).possible
    have one := allocate_denied sound custody.possible harmless (.word os) first rfl
    exact one.trans (allocate_denied moves.sound possible harmless (.word os) second clean)

/-- Whatever is done to a heap, it holds what it should. -/
theorem Runs.custody (sound : h.Sound) (custody : os.Custody contract h.machine.system h.regions)
    (runs : h.Runs os contract.Drifts after) :
    after.Sound ∧ os.Custody contract after.machine.system after.regions := by
  induction runs with
  | start => exact ⟨sound, custody⟩
  | act action _ ih =>
    have moves := act_moves os ih.1 action
    exact ⟨moves.sound, moves.trades.custody ih.2⟩
  | drift _ drifts ih =>
    exact ⟨⟨ih.1.arenas, ih.1.count, ih.1.slab, ih.1.large⟩, ih.2.drift drifts⟩

/-- In every run of a heap, on a platform where a map that fails has no effect, a demand that is denied
for anything but what memory holds changes nothing but some counts, and leaves at most an empty slot. -/
theorem denied_unmoved {configuration : Configuration} {demand : Session.Demand}
    (harmless : os.Harmless) (possible : contract.Possible machine.system)
    (created : Heap.create os machine configuration = .ok h)
    (runs : h.Runs os contract.Drifts after)
    (met : after.meet os thread demand = (.error error, last))
    (clean : error.isSuspicious = false) : Unmoved thread after last := by
  obtain ⟨good, bare, same, -⟩ := create_spec created
  have start : os.Custody contract h.machine.system h.regions := by
    rw [bare, same]
    exact .nil possible
  obtain ⟨sound, custody⟩ := runs.custody good start
  exact meet_denied sound custody harmless met clean

/-- A thread that comes when no mapping is left is denied, while another holds an object. -/
theorem denied_unmoved_no_mapping_left :
    ∃ h last : Heap Simulated.State,
      h.meet (Simulated.platform {}) 1 (.object 100000 .string) =
        (.error (.map .outOfMemory), last) ∧
      last.counters.failures = 1 ∧ Unmoved 1 h last := by
  let os := Simulated.platform {}
  let demand : Session.Demand := .object 100000 .string
  let first : Action := .allocate 0 (.object 24 .generic)
  let full (system : Simulated.State) : Simulated.State :=
    { system with switches := { system.switches with mapsLeft := some 0 } }
  let busy (heap : Heap Simulated.State) :=
    (heap.act os first).onSystem (full (heap.act os first).machine.system)
  obtain ⟨heap, created, values⟩ := exists_created os (Simulated.machine {}) {}
    (fun heap => ((match ((busy heap).meet os 1 demand).1 with
        | .error error => some error
        | .ok _ => none),
      ((busy heap).meet os 1 demand).2.counters.failures))
    (some (.map .outOfMemory), 1) (by decide +kernel)
  simp only [Prod.mk.injEq] at values
  obtain ⟨denied, failures⟩ := values
  have runs : heap.Runs os (Simulated.contract {} (by decide) (by decide)).Drifts (busy heap) :=
    .drift (.act first .start) rfl
  cases met : (busy heap).meet os 1 demand with
  | mk answer last =>
    rw [met] at denied failures
    cases answer with
    | ok address => cases denied
    | error error =>
      cases denied
      exact ⟨busy heap, last, met, failures, denied_unmoved (Simulated.harmless {})
        (Simulated.machine_sound {}) created runs met rfl⟩

end Heap

end NumaHeap
