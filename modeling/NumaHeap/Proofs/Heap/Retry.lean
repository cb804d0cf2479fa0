import NumaHeap.Proofs.Arena.Teardown
import NumaHeap.Proofs.Heap.Denial
import NumaHeap.Proofs.Heap.Guise
import NumaHeap.Proofs.Platform.Abreast

/-!
Requests for a node that are made again without one. A tier that can map nothing on the node has
changed nothing that the second attempt could see: it holds the same blocks, lists and registries, the
slot that it made for the thread is the one that would be made now, and only a mapper has counted its
fallbacks. So the request ends as it would have ended had no node been asked for.
-/

namespace NumaHeap

variable {σ : Type} {os : Platform σ} {contract : os.Contract} {machine later : Machine σ}
  {thread : ThreadId} {size node : Nat} {alignment : PowerOfTwo} {cause : MapError}

namespace Slab

/-- Slabs that were denied an object on a node answer any other request as before. -/
theorem allocate_elsewhere {s after : Slab} (harmless : os.Harmless)
    (denied : s.allocate os machine thread size (some node) = (.error (.map cause), after, later)) :
    (after.allocate os later thread size none).map id (Prod.map (·.under (.forgetful σ)) id) =
      (s.allocate os machine thread size none).map id (Prod.map (·.under (.forgetful σ)) id) := by
  obtain ⟨rfl, count, rfl⟩ := allocate_denied harmless denied
  have again := allocate_under (Guise.missed_serves os count) s later thread size none
  exact congrArg (Prod.map id (Prod.map (·.under (.forgetful σ)) id)) again

end Slab

namespace Large

/-- So do the registries that were denied an object. -/
theorem allocate_elsewhere {l after : Large} (harmless : os.Harmless)
    (denied : l.allocate os machine size node = (.error (.map cause), after, later)) (other : Nat) :
    (after.allocate os later size other).map id (Prod.map (·.under (.forgetful σ)) id) =
      (l.allocate os machine size other).map id (Prod.map (·.under (.forgetful σ)) id) := by
  obtain ⟨rfl, count, rfl⟩ := allocate_denied harmless denied
  have again := allocate_under (Guise.missed_serves os count) l later size other
  exact congrArg (Prod.map id (Prod.map (·.under (.forgetful σ)) id)) again

end Large

namespace Arena.Pool

variable {p after middle : Pool} {between : Machine σ} {index : Nat} {slot : Slot} {a : State}

/-- Once a thread has been led to its slot, a guard of it leads there. -/
theorem threadSlot_guarded (sound : p.Sound)
    (some : p.threadSlot os machine index thread = some (slot, after, later)) :
    after.guardedSlot? index thread = .some slot := by
  unfold threadSlot at some
  split at some
  · next guarded =>
    cases some
    exact guarded
  · next unguarded =>
    simp only [bind, Option.bind_eq_some_iff] at some
    obtain ⟨⟨made, middle⟩, registered, some⟩ := some
    obtain ⟨good, -, guards, b, found, member, -⟩ := register_spec sound registered
    rw [dropGuardsWhere_stale good.arenas] at some
    cases some
    have generation := (good.arenas index b found).generations made member
    have others : ∀ g ∈ middle.guards thread, g.generation ≠ b.generation := by
      intro g kept
      rw [guards] at kept
      cases there : p.arena? index with
      | none => simp [register, there, bind] at registered
      | some a =>
        obtain ⟨c, here, enrolls⟩ := (register_enrolls registered).arenas there
        cases found.symm.trans here
        have same : b.generation = a.generation := by rw [enrolls.rest]
        rw [same]
        exact generation_ne_of_unguarded sound there unguarded kept
    let kept := (middle.guards thread).filter fun g => !middle.isStale g
    have none : kept.find? (·.generation == b.generation) = none :=
      List.find?_eq_none.2 fun g inside => by simpa using others g (List.mem_filter.1 inside).1
    let guard : Guard := ⟨made.generation, made.address, index⟩
    have first : (kept ++ [guard]).find? (·.generation == b.generation) = .some guard := by
      rw [List.find?_append, none, Option.none_or]
      exact List.find?_cons_of_pos (by simpa using generation)
    simp only [guardedSlot?, bind, Option.bind_eq_some_iff]
    refine ⟨b, found, guard, ?_, (good.arenas index b found).slotAt? member⟩
    simpa only [setGuards, if_true] using first

/-- A request is up to the chain of the slot to which the thread is led. -/
theorem allocate_of_slot {rounded : Nat} (enough : Size.arenaRounded? size = some rounded)
    (found : p.threadSlot os machine index thread = some (slot, middle, between))
    (there : middle.arena? index = some a) :
    p.allocate os machine index thread size alignment none =
      let (answer, chain, s) :=
        slot.chain.allocate os a.blockSize ⟨a.mapper, between⟩ ⟨size, rounded, alignment, none⟩
      (answer, middle.modify index fun a => { a.setChain slot.address chain with mapper := s.mapper },
        s.machine) := by
  have positive : size ≠ 0 := Nat.ne_of_gt (Size.le_arenaRounded enough).2
  simp only [allocate, if_neg positive, Option.filter_none, enough, serve, found, there]

/-- A pool that was denied bytes on a node answers the same request without it as before. -/
theorem allocate_elsewhere (sound : p.Sound) (possible : contract.Possible machine.system)
    (harmless : os.Harmless)
    (modest : alignment.value ≤ Max.max os.pageSize.value wordAlignment.value)
    (denied : p.allocate os machine index thread size alignment (some node) =
      (.error (.map cause), after, later)) :
    (after.allocate os later index thread size alignment none).map id
        (Prod.map (·.under (.forgetful σ)) id) =
      (p.allocate os machine index thread size alignment none).map id
        (Prod.map (·.under (.forgetful σ)) id) := by
  cases allocate_outcome denied with
  | invalid => rfl
  | @chained rounded _ slot middle between a _ _ supply enough found there answered =>
    obtain ⟨rfl, good, -, b, here, member, -⟩ := threadSlot_spec sound found
    cases there.symm.trans here
    obtain ⟨rfl, kept, count, mapper⟩ := Chain.allocate_denied possible harmless modest
      (Size.eight_le_arenaRounded enough) answered
    let g := Guise.missed σ count
    have counted : { a.setChain slot.address slot.chain with mapper := supply.mapper } = a.under g := by
      rw [State.setChain_self (good.arenas index a here) member, mapper]
      rfl
    rw [modify_congr here (g := (·.under g)) counted, kept]
    let after := middle.modify index (·.under g)
    have guarded : after.guardedSlot? index thread = some slot := by
      rw [← threadSlot_guarded sound found, guardedSlot?, guardedSlot?, arena?_modify_self here, here]
      rfl
    have led : after.threadSlot os between index thread = some (slot, after, between) := by
      rw [threadSlot, guarded]
    have chained : slot.chain.allocate os (a.under g).blockSize ⟨(a.under g).mapper, between⟩
        ⟨size, rounded, alignment, none⟩ =
          (slot.chain.allocate os a.blockSize ⟨a.mapper, between⟩
            ⟨size, rounded, alignment, none⟩).map id (Prod.map id (·.under g)) :=
      Chain.allocate_under (Guise.missed_serves os count) a.blockSize slot.chain ⟨a.mapper, between⟩ _
    rw [allocate_of_slot enough led (arena?_modify_self here), allocate_of_slot enough found here,
      chained]
    obtain ⟨answer, chain, s⟩ := slot.chain.allocate os a.blockSize ⟨a.mapper, between⟩
      ⟨size, rounded, alignment, none⟩
    refine Prod.ext rfl (Prod.ext ?_ rfl)
    dsimp only [Prod.map, after]
    rw [modify_modify]
    let settled (b : State) : State :=
      { b.setChain slot.address chain with mapper := s.mapper.under (.forgetful σ) }
    calc
      _ = (middle.under (.forgetful σ)).modify index settled := (modify_under (fun _ => rfl) ..).symm
      _ = _ := modify_under (fun _ => rfl) ..

end Arena.Pool

namespace Heap

variable {h after : Heap σ} {kind : ObjectKind} {tier : Tier}

theorem serveArena_again {kind : ArenaKind} (sound : h.Sound)
    (possible : contract.Possible h.machine.system) (harmless : os.Harmless)
    (modest : Modest os alignment)
    (denied : h.serveArena os thread size kind (some node) alignment = (.error (.map cause), after)) :
    (after.serveArena os thread size kind none alignment).map id (·.under (.forgetful σ)) =
      (h.serveArena os thread size kind none alignment).map id (·.under (.forgetful σ)) := by
  cases allocated : h.arenas.allocate os h.machine kind.index thread size alignment (some node) with
  | mk result rest =>
    obtain ⟨arenas, machine⟩ := rest
    rw [serveArena, allocated] at denied
    cases denied
    have again := Arena.Pool.allocate_elsewhere sound.arenas possible harmless modest allocated
    simp only [Prod.map, Prod.mk.injEq, id] at again
    obtain ⟨answer, arenas, machine⟩ := again
    simp only [serveArena, under, Prod.map, answer, arenas, machine, id]

theorem dispatch_large (os : Platform σ) (h : Heap σ) (thread : ThreadId) (size : Nat)
    (node : Option Nat) (alignment : PowerOfTwo) :
    h.dispatch os thread size .large node alignment =
      let place := node.getD (h.localNode os thread)
      let (answer, large, machine) := h.large.allocate os h.machine size place
      (answer.map fun address => ⟨address, place⟩, { h with large, machine }) := by
  unfold dispatch
  dsimp only
  cases h.large.allocate os h.machine size (node.getD (h.localNode os thread)) with
  | mk answer rest => cases answer <;> rfl

/-- Whatever tier has denied a request on a node, without the node it answers as before. -/
theorem dispatch_again (sound : h.Sound) (possible : contract.Possible h.machine.system)
    (harmless : os.Harmless) (modest : Modest os alignment)
    (denied : h.dispatch os thread size tier (some node) alignment =
      (.error (.map cause), after)) :
    (after.dispatch os thread size tier none alignment).map id (·.under (.forgetful σ)) =
      (h.dispatch os thread size tier none alignment).map id (·.under (.forgetful σ)) := by
  unfold dispatch at denied
  split at denied
  · dsimp only at denied
    split at denied
    · cases denied
    · next large machine refused =>
      cases denied
      have kept := (Large.allocate_denied harmless refused).1
      have place : localNode os { h with large, machine } thread = h.localNode os thread := by
        rw [kept]
        rfl
      have again := Large.allocate_elsewhere harmless refused (h.localNode os thread)
      simp only [Prod.map, Prod.mk.injEq, id] at again
      obtain ⟨answer, registries, machine⟩ := again
      simp only [dispatch_large, place, Option.getD_none, under, Prod.map, answer, registries, machine, id]
  · next cells present =>
    cases allocated : cells.allocate os h.machine thread size (some node) with
    | mk result rest =>
      obtain ⟨last, machine⟩ := rest
      rw [allocated] at denied
      cases denied
      have again := Slab.allocate_elsewhere harmless allocated
      simp only [Prod.map, Prod.mk.injEq, id] at again
      obtain ⟨answer, cells, machine⟩ := again
      simp only [dispatch, present, under, Prod.map, answer, cells, machine, Option.map_some, id]
  · next absent =>
    have empty : after.slab = none := (congrArg (·.2.slab) denied).symm.trans absent
    simp only [dispatch, absent, empty]
    exact serveArena_again sound possible harmless modest denied
  · exact serveArena_again sound possible harmless modest denied

/-- The heap with one more failure counted. -/
def withFailure (h : Heap σ) : Heap σ :=
  { h with counters := { h.counters with failures := h.counters.failures + 1 } }

theorem dispatch_withFailure (os : Platform σ) (h : Heap σ) (thread : ThreadId) (size : Nat)
    (tier : Tier) (node : Option Nat) (alignment : PowerOfTwo) :
    h.withFailure.dispatch os thread size tier node alignment =
      (h.dispatch os thread size tier node alignment).map id withFailure := by
  obtain ⟨_, _, _, slab, _⟩ := h
  cases tier with
  | large =>
    rw [dispatch_large, dispatch_large]
    rfl
  | arena kind => rfl
  | slab => cases slab <;> rfl

theorem inspect_withFailure (h : Heap σ) (address size : Nat) :
    h.withFailure.inspect address size = (h.inspect address size).map withFailure := by
  unfold inspect
  change (h.mode.validate size (h.machine.memory.read address) >>= fun _ => _) = _
  cases h.mode.validate size (h.machine.memory.read address) with
  | error cause => rfl
  | ok _ =>
    change (if h.mode.zeroFills then _ else _) =
      Except.map _ (if h.mode.zeroFills then _ else _)
    split <;> rfl

theorem discard_withFailure (os : Platform σ) (h : Heap σ) (thread : ThreadId) (address size : Nat)
    (tier : Tier) :
    h.withFailure.discard os thread address size tier =
      (h.discard os thread address size tier).withFailure := by
  obtain ⟨_, _, _, slab, _⟩ := h
  cases tier with
  | large => rfl
  | arena kind => rfl
  | slab => cases slab <;> rfl

theorem settle_withFailure (os : Platform σ) (h : Heap σ) (thread : ThreadId) (size : Nat)
    (kind : ObjectKind) (tier : Tier) (start : Nat) (answer : Except AllocError Arena.Placement) :
    h.withFailure.settle os thread size kind tier start answer =
      (h.settle os thread size kind tier start answer).map id withFailure := by
  cases answer with
  | error error => rfl
  | ok placement =>
    simp only [settle, inspect_withFailure]
    cases h.inspect placement.address size with
    | error cause =>
      dsimp only [Except.map]
      rw [discard_withFailure]
      rfl
    | ok inspected => rfl

theorem allocate_withFailure (os : Platform σ) (h : Heap σ) (thread : ThreadId) (size : Nat)
    (kind : ObjectKind) (tier : Tier) (node : Option Nat) (alignment : PowerOfTwo) :
    h.withFailure.allocate os thread size kind tier node alignment =
      (h.allocate os thread size kind tier node alignment).map id withFailure := by
  have mode : h.withFailure.mode = h.mode := rfl
  rw [allocate_eq_settle, allocate_eq_settle, dispatch_withFailure, mode]
  cases h.mode.checkSize size with
  | error cause => rfl
  | ok _ => exact settle_withFailure ..

/-- A request that is denied on a node ends without it as it would have ended at once, but for one more
failure. -/
theorem allocate_elsewhere (sound : h.Sound) (possible : contract.Possible h.machine.system)
    (harmless : os.Harmless) (modest : Modest os alignment)
    (denied : h.allocate os thread size kind tier (some node) alignment =
      (.error (.map cause), after)) :
    (after.allocate os thread size kind tier none alignment).map id (·.under (.forgetful σ)) =
      (h.allocate os thread size kind tier none alignment).map id
        (·.withFailure.under (.forgetful σ)) := by
  rw [allocate_eq_settle] at denied
  cases fits : h.mode.checkSize size with
  | error cause =>
    rw [fits] at denied
    cases denied
  | ok _ =>
    rw [fits] at denied
    cases dispatched : h.dispatch os thread size tier (some node) alignment with
    | mk answer middle =>
      rw [dispatched] at denied
      cases answer with
      | ok placement =>
        dsimp only [settle] at denied
        split at denied <;> cases denied
      | error error =>
        cases denied
        have still := dispatch_still dispatched
        have idle := dispatch_denied sound possible harmless modest dispatched
        have clock : middle.clock os = h.clock os := by
          rw [clock, clock, idle.machine, still.origin]
        have again := dispatch_again sound possible harmless modest dispatched
        simp only [Prod.map, Prod.mk.injEq, id] at again
        have same : (middle.allocate os thread size kind tier none alignment).map id
            (·.under (.forgetful σ)) =
              (h.allocate os thread size kind tier none alignment).map id (·.under (.forgetful σ)) := by
          rw [allocate_eq_settle, allocate_eq_settle, still.mode, fits, clock]
          dsimp only
          rw [← settle_under (Guise.forgetful_suits os), ← settle_under (Guise.forgetful_suits os),
            again.1, again.2]
        change (middle.withFailure.allocate os thread size kind tier none alignment).map id _ = _
        rw [allocate_withFailure]
        exact congrArg (Prod.map id withFailure) same

/-- In every run of a heap, on a platform where a map that fails has no effect, a request on a node does
not fail for want of a mapping where one without a node would succeed; and once it has been denied on the
node, it ends as that one would have ended, with one more failure and other counts of fallbacks. -/
theorem retry_unnoticed {configuration : Configuration} (harmless : os.Harmless)
    (possible : contract.Possible machine.system)
    (created : Heap.create os machine configuration = .ok h)
    (runs : h.Runs os contract.Drifts after) (there : os.topology.contains node = true) :
    (∀ address, (after.alloc os thread size .generic).1 = .ok address →
      ∀ cause, (after.allocNuma os thread size node).1 ≠ .error (.map cause)) ∧
    ∀ cause denied,
      after.allocate os thread size .generic (after.classify size .generic) (some node) wordAlignment =
        (.error (.map cause), denied) →
      (after.allocNuma os thread size node).1 = (after.alloc os thread size .generic).1 ∧
      (after.allocNuma os thread size node).2.under (.forgetful σ) =
        (after.alloc os thread size .generic).2.withFailure.under (.forgetful σ) := by
  obtain ⟨good, bare, start, -⟩ := create_spec created
  have custody : os.Custody contract h.machine.system h.regions := by
    rw [bare, start]
    exact .nil possible
  obtain ⟨sound, custody⟩ := runs.custody good custody
  have retried : ∀ cause denied,
      after.allocate os thread size .generic (after.classify size .generic) (some node) wordAlignment =
        (.error (.map cause), denied) →
      (after.allocNuma os thread size node).map id (·.under (.forgetful σ)) =
        (after.alloc os thread size .generic).map id (·.withFailure.under (.forgetful σ)) := by
    intro cause denied first
    have again := allocate_elsewhere sound custody.possible harmless (.word os) first
    simpa only [allocNuma, alloc, there, if_true, first] using again
  refine ⟨fun address served cause failed => ?_, fun cause denied first => ?_⟩
  · cases first : after.allocate os thread size .generic (after.classify size .generic) (some node)
        wordAlignment with
    | mk answer denied =>
      simp only [allocNuma, there, if_true, first] at failed
      cases answer with
      | ok other => cases failed
      | error error =>
        cases error with
        | map other =>
          have same := (Prod.ext_iff.1 (retried other denied first)).1
          simp only [Prod.map, id, allocNuma, there, if_true, first] at same
          cases failed.symm.trans (same.trans served)
        | _ => cases failed
  · exact Prod.ext_iff.1 (retried cause denied first)

/-- A node that holds nothing is asked for an object when no mapping is left; the other node has room. -/
theorem retry_unnoticed_other_node :
    let settings : Simulated.Settings := { topology := Topology.singleNode.describe ⟨1, "1", none⟩ }
    let os := Simulated.platform settings
    ∃ h : Heap Simulated.State,
      (h.allocNuma os 0 24 1).1 = .ok 65568 ∧ (h.alloc os 0 24 .generic).1 = .ok 65568 ∧
      (h.allocNuma os 0 24 1).2.counters.failures = 1 ∧
      (h.allocNuma os 0 24 1).2.under (.forgetful _) =
        (h.alloc os 0 24 .generic).2.withFailure.under (.forgetful _) := by
  intro settings os
  let full (system : Simulated.State) : Simulated.State :=
    { system with switches := { system.switches with mapsLeft := some 0 } }
  let first : Action := .allocate 0 (.object 24 .generic)
  let busy (heap : Heap Simulated.State) :=
    (heap.act os first).onSystem (full (heap.act os first).machine.system)
  let attempt (heap : Heap Simulated.State) :=
    (busy heap).allocate os 0 24 .generic ((busy heap).classify 24 .generic) (some 1) wordAlignment
  obtain ⟨heap, created, values⟩ := exists_created os (Simulated.machine {}) {}
    (fun heap => (match (attempt heap).1 with
        | .error error => some error
        | .ok _ => none,
      ((busy heap).allocNuma os 0 24 1).1.toOption,
      ((busy heap).allocNuma os 0 24 1).2.counters.failures))
    (some (.map .outOfMemory), some 65568, 1) (by decide +kernel)
  simp only [Prod.mk.injEq] at values
  obtain ⟨refused, served, failures⟩ := values
  have runs : heap.Runs os (Simulated.contract settings (by decide) (by decide)).Drifts (busy heap) :=
    .drift (.act first .start) rfl
  cases attempted : attempt heap with
  | mk answer denied =>
    rw [attempted] at refused
    cases answer with
    | ok address => cases refused
    | error error =>
      cases refused
      obtain ⟨same, state⟩ := (retry_unnoticed (Simulated.harmless settings)
        (Simulated.machine_sound {}) created runs (rfl : os.topology.contains 1 = true)).2
          .outOfMemory denied attempted
      have answer : ((busy heap).allocNuma os 0 24 1).1 = .ok 65568 := by
        cases met : ((busy heap).allocNuma os 0 24 1).1 with
        | ok address => simpa [met, Except.toOption] using served
        | error error => simp [met, Except.toOption] at served
      exact ⟨busy heap, answer, same.symm.trans answer, failures, state⟩

end Heap

end NumaHeap
