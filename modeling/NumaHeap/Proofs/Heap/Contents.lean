import NumaHeap.Proofs.Heap.Chronicle
import NumaHeap.Proofs.Heap.Inspection
import NumaHeap.Proofs.Platform.Simulated

/-!
What clients find in the memory that they are granted. It is blank, or left by an earlier holder who
wrote it at the same address; a link of a free list is never seen. So a request can be refused for
its content only because of memory that was handed out before.
-/

namespace NumaHeap

theorem Security.Mode.zeroFills_paranoid {mode : Security.Mode} (strictest : mode = .paranoid) :
    mode.zeroFills = true := by
  rw [strictest]
  rfl

namespace Heap

variable {σ : Type} {os : Platform σ} {contract : os.Contract} {h after : Heap (Journaled σ)}
  {free : Nat → List Nat} {live : List Allocation} {thread : ThreadId} {size : Nat} {tier : Tier}
  {node : Option Nat} {alignment : PowerOfTwo} {error : AllocError}

/-- What is live holds what the journal explains. -/
theorem Secured.explains {x : Allocation} {address : Nat}
    (secured : Secured (.told contract) h free live) (member : x ∈ live)
    (inside : x.extent.Holds address) :
    Journal.Explains h.machine.system.entries address (h.machine.memory.get address) := by
  obtain ⟨region, held, within⟩ := secured.within member
  exact secured.content region held address (within.holds inside)
    (secured.not_reserved member inside)

/-- The memory that was scanned was handed out before, some byte of it at least, and is no large
object. -/
def Tainted (h : Heap (Journaled σ)) (tier : Tier) (scanned : Option Extent) : Prop :=
  tier ≠ .large ∧ ∃ extent, scanned = some extent ∧
    ∃ address, extent.Holds address ∧ Journal.Handed address h.machine.system.entries

theorem allocate_tainted {kind : ObjectKind} (secured : Secured (.told contract) h free live)
    (slabs : tier = .slab → h.slab.isSome = true)
    (served : h.allocate os.journaled thread size kind tier node alignment = (.error error, after))
    (suspicious : error.isSuspicious = true) :
    h.Tainted tier (h.inspects? os.journaled thread size tier node alignment) := by
  simp only [allocate] at served
  split at served
  · next cause refused =>
    cases served
    rw [Security.Mode.checkSize_error refused] at suspicious
    cases suspicious
  · split at served
    · next failed =>
      cases served
      rw [dispatch_error failed] at suspicious
      cases suspicious
    · next placement middle dispatched =>
      obtain ⟨left, -, -, ok⟩ := dispatch_secured secured slabs dispatched
      obtain ⟨handed, placed⟩ := ok placement rfl
      split at served
      · next cause refused =>
        cases served
        -- The inspection refused some byte of what was about to be handed out.
        obtain ⟨byte, member, nonzero⟩ :=
          Security.Mode.validate_error (inspect_error refused) suspicious
        obtain ⟨address, scanned, rfl⟩ := Memory.mem_read member
        have shorter := middle.mode.scanLength_le size
        have inside : Extent.Holds ⟨placement.address, size⟩ address :=
          ⟨scanned.1, Nat.lt_of_lt_of_le scanned.2 (Nat.add_le_add_left shorter _)⟩
        rw [dispatch_mode dispatched] at scanned
        refine ⟨fun large => nonzero ((handed.large large).2 address inside),
          ⟨placement.address, h.mode.scanLength size⟩, ?_, address, scanned, ?_⟩
        · rw [inspects?, dispatched]
        · have explains := (placed 0).explains (List.mem_cons_self ..) inside
          have later := (explains.resolve_left nonzero).1
          exact Journaled.handed_of_trades (dispatch_moves secured.sound dispatched).trades later
      · cases served

theorem allocAlignedIn_tainted {asked : Nat} {arena : ArenaKind}
    (secured : Secured (.told contract) h free live)
    (served : h.allocAlignedIn os.journaled thread size asked arena = (.error error, after))
    (suspicious : error.isSuspicious = true) :
    h.Tainted (h.alignedTier size arena)
      (h.inspectsAligned? os.journaled thread size asked arena) := by
  unfold allocAlignedIn at served
  split at served
  · cases served
    cases suspicious
  · next power read =>
    have valid := (Option.filter_eq_some_iff.1 read).1
    have tainted :=
      allocate_tainted secured (fun slab => absurd slab alignedTier_ne_slab) served suspicious
    rw [inspectsAligned?, valid]
    exact tainted

theorem allocNuma_tainted {node : Nat} (secured : Secured (.told contract) h free live)
    (served : h.allocNuma os.journaled thread size node = (.error error, after))
    (suspicious : error.isSuspicious = true) :
    h.Tainted (h.classify size .generic) (h.scans? os.journaled thread (.onNode size node)) := by
  simp only [allocNuma] at served
  split at served
  · split at served
    · next cause middle first =>
      obtain ⟨left, good, -⟩ := allocate_secured secured classify_slab first
      have moves := allocate_moves os.journaled secured.sound thread size .generic
        (h.classify size .generic) (some node) wordAlignment
      rw [first] at moves
      obtain ⟨other, extent, scanned, address, inside, handed⟩ := allocate_tainted good
        (fun slab => moves.slab.trans (classify_slab slab)) served suspicious
      refine ⟨other, extent, ?_, address, inside, ?_⟩
      · simp only [scans?, first]
        exact scanned
      · exact Journaled.handed_of_trades moves.trades handed
    · next answered =>
      have tainted := allocate_tainted secured classify_slab served suspicious
      simp only [scans?, served]
      cases error with
      | map cause => cases suspicious
      | _ => exact tainted
  · cases served
    cases suspicious

theorem allocZeroed_tainted {count : Nat} {kind : ObjectKind}
    (secured : Secured (.told contract) h free live)
    (served : h.allocZeroed os.journaled thread count size kind = (.error error, after))
    (suspicious : error.isSuspicious = true) :
    h.Tainted (h.classify (count * size) kind)
      (h.scans? os.journaled thread (.zeroed count size kind)) := by
  unfold allocZeroed at served
  split at served
  · cases served
    cases suspicious
  · next total product =>
    obtain ⟨-, rfl⟩ := Word.fit?_eq_some_iff.1 product
    split at served
    · cases served
    · exact allocate_tainted secured classify_slab served suspicious

/-- A demand is refused for what memory held only if it had been handed out before. -/
theorem meet_tainted {demand : Session.Demand} (secured : Secured (.told contract) h free live)
    (served : h.meet os.journaled thread demand = (.error error, after))
    (suspicious : error.isSuspicious = true) :
    h.Tainted (h.tierOf demand) (h.scans? os.journaled thread demand) := by
  cases demand with
  | object size kind => exact allocate_tainted secured classify_slab served suspicious
  | onNode size node => exact allocNuma_tainted secured served suspicious
  | aligned size asked => exact allocAlignedIn_tainted secured served suspicious
  | cacheAligned size => exact allocAlignedIn_tainted secured served suspicious
  | zeroed count size kind => exact allocZeroed_tainted secured served suspicious

end Heap

namespace World

variable {σ : Type} {os : Platform σ} {contract : os.Contract} {w : World (Journaled σ)}

/-- Whatever clients have done and told, memory that is granted holds what the journal explains. It
is blank if the mode is the strictest, if zeros were asked for, or if none of it was handed out since
it was mapped; and so is the first word of a slab object. A request that is refused for its content
was served by another tier than that of large objects, from memory that had been handed out. -/
theorem contents_explained (told : w.Told contract) (thread : ThreadId)
    (demand : Session.Demand) :
    (∀ {address : Nat} {after : Heap (Journaled σ)},
      w.heap.meet os.journaled thread demand = (.ok address, after) →
      (∀ place, Extent.Holds ⟨address, demand.size⟩ place →
        Journal.Explains after.machine.system.entries place (after.machine.memory.get place)) ∧
      (w.heap.mode = .paranoid ∨ demand.isZeroed = true ∨
          (∀ place, Extent.Holds ⟨address, demand.size⟩ place →
            ¬Journal.Handed place after.machine.system.entries) →
        ∀ place, Extent.Holds ⟨address, demand.size⟩ place →
          after.machine.memory.get place = 0) ∧
      (w.heap.tierOf demand = .slab →
        ∀ place, Extent.Holds ⟨address, min demand.size 8⟩ place →
          after.machine.memory.get place = 0)) ∧
    (∀ {error : AllocError} {after : Heap (Journaled σ)},
      w.heap.meet os.journaled thread demand = (.error error, after) →
      error.isSuspicious = true →
      w.heap.Tainted (w.heap.tierOf demand) (w.heap.scans? os.journaled thread demand)) := by
  obtain ⟨free, good⟩ := told.chronicled.secured.heap
  refine ⟨fun {address after} served => ?_, fun served suspicious =>
    Heap.meet_tainted good served suspicious⟩
  obtain ⟨left, -, -, ok⟩ := Heap.meet_secured good served
  obtain ⟨met, last⟩ := ok address rfl
  have explains : ∀ place, Extent.Holds ⟨address, demand.size⟩ place →
      Journal.Explains after.machine.system.entries place (after.machine.memory.get place) :=
    fun place inside => last.explains (List.mem_cons_self ..) inside
  refine ⟨explains, fun blank place inside => ?_, fun slab place inside => ?_⟩
  · rcases blank with strictest | zeroed | fresh
    · exact met.filled (.inl (Security.Mode.zeroFills_paranoid strictest)) place inside
    · exact met.filled (.inr zeroed) place inside
    · exact (explains place inside).eq_zero (fresh place inside)
  · refine met.recycled slab place ⟨inside.1, Nat.lt_of_lt_of_le inside.2 ?_⟩
    exact Nat.add_le_add_left (Nat.min_le_right ..) _

/-- A thread leaves a run of no-operation bytes behind in an object that it frees; another thread is
refused the object, and granted zeros elsewhere. -/
theorem contents_explained_nop_bytes :
    ∃ w : World (Journaled Simulated.State),
      w.Told (Simulated.contract {} (by decide) (by decide)) ∧
        (∃ error after, w.heap.meet (Simulated.platform {}).journaled 1 (.object 24 .generic) =
          (.error error, after) ∧ error.isSuspicious = true ∧
            w.heap.Tainted .slab
              (w.heap.scans? (Simulated.platform {}).journaled 1 (.object 24 .generic))) ∧
        ∃ address after, w.heap.meet (Simulated.platform {}).journaled 1 (.zeroed 4 25 .generic) =
          (.ok address, after) ∧
            ∀ place, Extent.Holds ⟨address, 100⟩ place → after.machine.memory.get place = 0 := by
  let os := Simulated.platform {}
  let x : Allocation := ⟨65536, 24, 8, 0, .slab⟩
  let first : Action := .allocate 0 (.object 24 .generic)
  let second : Action := .write 65544 [0x90, 0x90, 0x90, 0x90]
  let third : Action := .free 0 65536 24
  let one (heap : Heap (Journaled Simulated.State)) := recount os ⟨heap, []⟩ first
  let two (heap : Heap (Journaled Simulated.State)) := (one heap).recount os second
  let used (heap : Heap (Journaled Simulated.State)) := (two heap).recount os third
  let refused (heap : Heap (Journaled Simulated.State)) : Bool :=
    match ((used heap).heap.meet os.journaled 1 (.object 24 .generic)).1 with
    | .error error => error.isSuspicious
    | .ok _ => false
  let granted (heap : Heap (Journaled Simulated.State)) : Bool :=
    ((used heap).heap.meet os.journaled 1 (.zeroed 4 25 .generic)).1.isOk
  obtain ⟨heap, created, computed⟩ := Heap.exists_created os.journaled
    ⟨{ system := (Simulated.machine {}).system }, .zeros⟩ {}
    (fun heap => ((one heap).live, (two heap).live, refused heap, granted heap,
      (used heap).heap.tierOf (.object 24 .generic)))
    ([x], [x], true, true, .slab) (by decide +kernel)
  obtain ⟨before, between, bad, good, tier⟩ : (one heap).live = [x] ∧ (two heap).live = [x] ∧
      refused heap = true ∧ granted heap = true ∧
        (used heap).heap.tierOf (.object 24 .generic) = .slab := by
    simpa only [Prod.mk.injEq] using computed
  have own : (one heap).Permits second := by
    refine ⟨x, before ▸ List.mem_singleton_self x, ?_⟩
    exact ⟨by decide, by decide⟩
  have mine : (two heap).Permits third := ⟨x, between ▸ List.mem_singleton_self x, rfl, rfl⟩
  have told : (used heap).Told (Simulated.contract {} (by decide) (by decide)) :=
    .perform third (.perform second (.perform first
      (.create (Simulated.machine_sound {}) created) trivial) own) mine
  obtain ⟨-, failed⟩ := contents_explained told 1 (.object 24 .generic)
  obtain ⟨served, -⟩ := contents_explained told 1 (.zeroed 4 25 .generic)
  refine ⟨used heap, told, ?_, ?_⟩
  · cases answered : (used heap).heap.meet os.journaled 1 (.object 24 .generic) with
    | mk answer after =>
      simp only [refused, answered] at bad
      cases answer with
      | ok address => cases bad
      | error error => exact ⟨error, after, rfl, bad, tier ▸ failed answered bad⟩
  · cases answered : (used heap).heap.meet os.journaled 1 (.zeroed 4 25 .generic) with
    | mk answer after =>
      simp only [granted, answered] at good
      cases answer with
      | error error => cases good
      | ok address =>
        exact ⟨address, after, rfl, (served answered).2.1 (.inr (.inl rfl))⟩

end World

end NumaHeap
