import NumaHeap.Arena.Pool
import NumaHeap.Proofs.Arena.Pool
import NumaHeap.Proofs.Platform.Guise

/-!
Arenas in another guise. The chains are the same in both; only the mappers of the arenas and the
machine look different. What an arena answers does not depend on either but for the regions that are
mapped.
-/

namespace NumaHeap.Arena

variable {σ τ : Type} {g : Guise σ τ} {os : Platform σ} {other : Platform τ}

namespace Chain

variable (fits : g.Serves os other)

include fits

theorem extend_under (blockSize : PowerOfTwo) (c : Chain) (s : Supply σ) (rounded node : Nat) :
    c.extend other blockSize (s.under g) rounded node =
      (c.extend os blockSize s rounded node).map id (·.under g) := by
  unfold extend
  cases blockLength? blockSize rounded with
  | none => rfl
  | some length =>
    simp only [fits.map, fits.pageSize]
    cases s.map os length node with
    | mk answer supply => cases answer <;> rfl

theorem allocate_under (blockSize : PowerOfTwo) (c : Chain) (s : Supply σ) (r : Request) :
    c.allocate other blockSize (s.under g) r =
      (c.allocate os blockSize s r).map id (Prod.map id (·.under g)) := by
  simp only [allocate, extend_under fits]
  split
  · rfl
  · split
    · rfl
    · cases c.extend os blockSize s r.rounded (r.node.getD c.preferred) with
      | mk answer supply => cases answer <;> rfl

theorem release_under (c : Chain) (s : Supply σ) :
    c.release other (s.under g) = (c.release os s).map id (·.under g) := by
  simp only [release, fits.toSuits.unmapAll]
  rfl

end Chain

/-- The report with other counts of what the mapper did without. -/
def Stats.counted (s : Stats) (fallbacks failures : Nat → Nat) : Stats :=
  { s with hugeFallbacks := fallbacks s.hugeFallbacks, bindFailures := failures s.bindFailures }

/-- The arena with its mapper in another guise. -/
def State.under (a : State) (g : Guise σ τ) : State := { a with mapper := a.mapper.under g }

namespace Pool

/-- All arenas in another guise. -/
def under (p : Pool) (g : Guise σ τ) : Pool := { p with arenas := p.arenas.map (·.under g) }

theorem arena?_under (p : Pool) (g : Guise σ τ) (index : Nat) :
    (p.under g).arena? index = (p.arena? index).map (·.under g) := List.getElem?_map

theorem modify_under {f f' : State → State} (same : ∀ a : State, f' (a.under g) = (f a).under g)
    (p : Pool) (index : Nat) : (p.under g).modify index f' = (p.modify index f).under g := by
  have arenas : (p.arenas.map (·.under g)).modify index f' =
      (p.arenas.modify index f).map (·.under g) := by
    apply List.ext_getElem?
    intro place
    rw [List.getElem?_modify, List.getElem?_map, List.getElem?_map, List.getElem?_modify]
    cases p.arenas[place]? with
    | none => split <;> rfl
    | some a =>
      split
      · exact congrArg some (same a)
      · rfl
  simp only [modify, under, arenas]

theorem slotAddresses_under (p : Pool) (g : Guise σ τ) :
    (p.under g).slotAddresses = p.slotAddresses := by
  rw [slotAddresses, under, List.flatMap_map]
  rfl

theorem freshAddress_under (p : Pool) (g : Guise σ τ) :
    (p.under g).freshAddress = p.freshAddress := by
  rw [freshAddress, slotAddresses_under, freshAddress]

theorem isStale_under (p : Pool) (g : Guise σ τ) : (p.under g).isStale = p.isStale := by
  funext guard
  unfold isStale
  rw [arena?_under]
  cases p.arena? guard.arena <;> rfl

theorem guardedSlot?_under (p : Pool) (g : Guise σ τ) (index : Nat) (thread : ThreadId) :
    (p.under g).guardedSlot? index thread = p.guardedSlot? index thread := by
  unfold guardedSlot?
  rw [arena?_under]
  cases p.arena? index <;> rfl

section

variable (fits : g.Fits os other)

include fits

theorem releaseSlot_under (p : Pool) (machine : Machine σ) (index : Nat) (slot : Slot) :
    (p.under g).releaseSlot other (machine.under g) index slot =
      (p.releaseSlot os machine index slot).map (·.under g) (·.under g) := by
  unfold releaseSlot
  rw [arena?_under]
  cases p.arena? index with
  | none => rfl
  | some a =>
    have released : slot.chain.release other ⟨(a.under g).mapper, machine.under g⟩ =
        (slot.chain.release os ⟨a.mapper, machine⟩).map id (·.under g) :=
      Chain.release_under fits.toServes slot.chain ⟨a.mapper, machine⟩
    simp only [Option.map_some, released]
    exact Prod.ext (modify_under (fun b => rfl) p index) rfl

theorem dropGuard_under (p : Pool) (machine : Machine σ) (guard : Guard) :
    (p.under g).dropGuard other (machine.under g) guard =
      (p.dropGuard os machine guard).map (·.under g) (·.under g) := by
  unfold dropGuard
  rw [arena?_under]
  cases p.arena? guard.arena with
  | none => rfl
  | some a =>
    have slots : (a.under g).slots = a.slots := rfl
    have active : (a.under g).active = a.active := rfl
    simp only [Option.map_some, slots, active]
    split
    · cases a.slots.find? fun s => s.generation == guard.generation && s.address == guard.slot with
      | none => rfl
      | some slot =>
        dsimp only
        rw [modify_under (f := (·.dropSlot slot.address)) (fun _ => rfl), releaseSlot_under fits]
    · rfl

theorem dropGuards_under (p : Pool) (machine : Machine σ) (guards : List Guard) :
    (p.under g).dropGuards other (machine.under g) guards =
      (p.dropGuards os machine guards).map (·.under g) (·.under g) := by
  induction guards generalizing p machine with
  | nil => rfl
  | cons guard rest ih =>
    change List.foldl _ ((p.under g).dropGuard other (machine.under g) guard) rest = _
    rw [dropGuard_under fits]
    exact ih ..

theorem dropGuardsWhere_under (p : Pool) (machine : Machine σ) (thread : ThreadId)
    (test : Guard → Bool) :
    (p.under g).dropGuardsWhere other (machine.under g) thread test =
      (p.dropGuardsWhere os machine thread test).map (·.under g) (·.under g) :=
  dropGuards_under fits (p.setGuards thread ((p.guards thread).partition test).2) machine
    ((p.guards thread).partition test).1

theorem register_under (p : Pool) (machine : Machine σ) (index : Nat) (thread : ThreadId) :
    (p.under g).register other (machine.under g) index thread =
      (p.register os machine index thread).map (Prod.map id (·.under g)) := by
  unfold register
  rw [arena?_under, freshAddress_under, fits.currentNode]
  cases p.arena? index with
  | none => rfl
  | some a =>
    have slot : (a.under g).slotOf? thread = a.slotOf? thread := rfl
    simp only [Option.map_some, bind, Option.bind_some, slot]
    cases a.slotOf? thread with
    | some slot => rfl
    | none => exact congrArg some (Prod.ext rfl (modify_under (fun _ => rfl) p index))

theorem threadSlot_under (p : Pool) (machine : Machine σ) (index : Nat) (thread : ThreadId) :
    (p.under g).threadSlot other (machine.under g) index thread =
      (p.threadSlot os machine index thread).map
        (Prod.map id (Prod.map (·.under g) (·.under g))) := by
  unfold threadSlot
  rw [guardedSlot?_under]
  cases p.guardedSlot? index thread with
  | some slot => rfl
  | none =>
    simp only [register_under fits]
    cases p.register os machine index thread with
    | none => rfl
    | some made =>
      simp only [Option.map_some, bind, Option.bind_some, Prod.map, isStale_under,
        dropGuardsWhere_under fits]
      rfl

theorem serve_under (p : Pool) (machine : Machine σ) (index : Nat) (thread : ThreadId)
    (request : Request) :
    (p.under g).serve other (machine.under g) index thread request =
      (p.serve os machine index thread request).map id (Prod.map (·.under g) (·.under g)) := by
  unfold serve
  rw [threadSlot_under fits]
  cases p.threadSlot os machine index thread with
  | none => rfl
  | some found =>
    obtain ⟨slot, p, machine⟩ := found
    simp only [Option.map_some, Prod.map, id, arena?_under]
    cases p.arena? index with
    | none => rfl
    | some a =>
      have allocated : slot.chain.allocate other (a.under g).blockSize
          ⟨(a.under g).mapper, machine.under g⟩ request =
            (slot.chain.allocate os a.blockSize ⟨a.mapper, machine⟩ request).map id
              (Prod.map id (·.under g)) :=
        Chain.allocate_under fits.toServes a.blockSize slot.chain ⟨a.mapper, machine⟩ request
      simp only [Option.map_some, allocated]
      exact Prod.ext rfl (Prod.ext (modify_under (fun _ => rfl) p index) rfl)

theorem allocate_under (p : Pool) (machine : Machine σ) (index : Nat) (thread : ThreadId)
    (size : Nat) (alignment : PowerOfTwo) (node : Option Nat) :
    (p.under g).allocate other (machine.under g) index thread size alignment node =
      (p.allocate os machine index thread size alignment node).map id
        (Prod.map (·.under g) (·.under g)) := by
  unfold allocate
  rw [fits.topology]
  split
  · rfl
  · split
    · rfl
    · split
      · rfl
      · exact serve_under fits ..

theorem releaseSlots_under (p : Pool) (machine : Machine σ) (index : Nat) (slots : List Slot) :
    slots.foldl (fun (p, machine) slot => p.releaseSlot other machine index slot)
        (p.under g, machine.under g) =
      (slots.foldl (fun (p, machine) slot => p.releaseSlot os machine index slot)
        (p, machine)).map (·.under g) (·.under g) := by
  induction slots generalizing p machine with
  | nil => rfl
  | cons slot rest ih =>
    change rest.foldl _ ((p.under g).releaseSlot other (machine.under g) index slot) = _
    rw [releaseSlot_under fits]
    exact ih ..

theorem destroy_under (p : Pool) (machine : Machine σ) (index : Nat) (thread : ThreadId) :
    (p.under g).destroy other (machine.under g) index thread =
      (p.destroy os machine index thread).map (·.under g) (·.under g) := by
  unfold destroy
  rw [arena?_under]
  cases p.arena? index with
  | none => rfl
  | some a =>
    have generation : (a.under g).generation = a.generation := rfl
    simp only [Option.map_some, generation, dropGuardsWhere_under fits]
    cases p.dropGuardsWhere os machine thread (·.generation == a.generation) with
    | mk p machine =>
      have slots : ((p.under g).arena? index).map (·.slots) = (p.arena? index).map (·.slots) := by
        rw [arena?_under, Option.map_map]
        rfl
      simp only [Prod.map, slots]
      rw [modify_under (f := ({ · with slots := [] })) (fun _ => rfl), releaseSlots_under fits]
      cases List.foldl _ _ _ with
      | mk last machine =>
        dsimp only [Prod.map]
        rw [modify_under (f := ({ · with generation := last.nextGeneration })) fun _ => rfl]
        rfl

theorem close_under (p : Pool) (machine : Machine σ) (index : Nat) (thread : ThreadId) :
    (p.under g).close other (machine.under g) index thread =
      (p.close os machine index thread).map (·.under g) (·.under g) := by
  unfold close
  rw [destroy_under fits]
  exact Prod.ext (modify_under (fun _ => rfl) ..) rfl

theorem releaseThread_under (p : Pool) (machine : Machine σ) (index : Nat) (thread : ThreadId) :
    (p.under g).releaseThread other (machine.under g) index thread =
      (p.releaseThread os machine index thread).map (·.under g) (·.under g) := by
  unfold releaseThread
  rw [arena?_under]
  cases p.arena? index with
  | none => rfl
  | some a =>
    have generation : (a.under g).generation = a.generation := rfl
    simp only [Option.map_some, generation, dropGuardsWhere_under fits]
    cases p.dropGuardsWhere os machine thread (·.generation == a.generation) with
    | mk p machine =>
      have slot : ((p.under g).arena? index).bind (·.slotOf? thread) =
          (p.arena? index).bind (·.slotOf? thread) := by
        rw [arena?_under, Option.bind_map]
        rfl
      simp only [Prod.map, slot]
      cases (p.arena? index).bind (·.slotOf? thread) with
      | none => rfl
      | some slot =>
        dsimp only
        rw [modify_under (f := (·.dropSlot slot.address)) (fun _ => rfl), releaseSlot_under fits]
        rfl

theorem add_under (p : Pool) (blockSize : PowerOfTwo) (hugePages numaAware : Bool) :
    (p.under g).add blockSize (g.hugePages hugePages) numaAware =
      (p.add blockSize hugePages numaAware).under g := by
  have mapper : ({ hugePages := g.hugePages hugePages, numaAware } : Mapper) =
      Mapper.under { hugePages, numaAware } g := by
    simp only [Mapper.under, fits.fallbacks, fits.failures]
  simp only [add, under, List.map_append, List.map_singleton, mapper]
  rfl

theorem stats_under (p : Pool) (index : Nat) :
    (p.under g).stats index = (p.stats index).counted g.fallbacks g.failures := by
  unfold stats
  rw [arena?_under]
  cases p.arena? index with
  | none => simp only [Option.map_none, Option.elim_none, Stats.counted, fits.fallbacks, fits.failures]
  | some a => rfl

theorem exitThread_under (p : Pool) (machine : Machine σ) (thread : ThreadId) :
    (p.under g).exitThread other (machine.under g) thread =
      (p.exitThread os machine thread).map (·.under g) (·.under g) :=
  dropGuardsWhere_under fits ..

end

theorem reset_under (p : Pool) (g : Guise σ τ) (index : Nat) :
    (p.under g).reset index = (p.reset index).under g :=
  modify_under (fun _ => rfl) p index

theorem compact_under (p : Pool) (g : Guise σ τ) (index : Nat) :
    (p.under g).compact index = (p.compact index).under g :=
  modify_under (fun _ => rfl) p index

end Pool

end NumaHeap.Arena
