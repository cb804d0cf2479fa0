import NumaHeap.Large
import NumaHeap.Proofs.Platform.Guise
import NumaHeap.Slab.Basic

/-!
Slabs and large objects in another guise. Cells and registries are the same in both, and so are the
objects that they answer.
-/

namespace NumaHeap

variable {σ τ : Type} {g : Guise σ τ} {os : Platform σ} {other : Platform τ}

/-- The slabs with their mapper in another guise. -/
def Slab.under (s : Slab) (g : Guise σ τ) : Slab := { s with mapper := s.mapper.under g }

/-- The report with other counts of what the mapper did without. -/
def Slab.Stats.counted (s : Slab.Stats) (fallbacks failures : Nat → Nat) : Slab.Stats :=
  { s with hugeFallbacks := fallbacks s.hugeFallbacks, bindFailures := failures s.bindFailures }

/-- The large objects with their mapper in another guise. -/
def Large.under (l : Large) (g : Guise σ τ) : Large := { l with mapper := l.mapper.under g }

/-- The report with other counts of what the mapper did without. -/
def Large.Stats.counted (s : Large.Stats) (fallbacks failures : Nat → Nat) : Large.Stats :=
  { s with hugeFallbacks := fallbacks s.hugeFallbacks, bindFailures := failures s.bindFailures }

namespace Slab

theorem cell?_under (s : Slab) (g : Guise σ τ) (node sizeClass : Nat) :
    (s.under g).cell? node sizeClass = s.cell? node sizeClass := rfl

theorem popFirst?_under (s : Slab) (g : Guise σ τ) (memory : Memory) (sizeClass : Nat)
    (nodes : List Nat) :
    (s.under g).popFirst? memory sizeClass nodes =
      (s.popFirst? memory sizeClass nodes).map (Prod.map id (Prod.map (·.under g) id)) := by
  induction nodes with
  | nil => rfl
  | cons node rest ih =>
    unfold popFirst?
    rw [cell?_under]
    cases (s.cell? node sizeClass).bind (·.pop? memory) with
    | none => exact ih
    | some popped => rfl

theorem reclaimFirst?_under (s : Slab) (g : Guise σ τ) (memory : Memory) (sizeClass object : Nat)
    (nodes : List Nat) :
    (s.under g).reclaimFirst? memory sizeClass object nodes =
      (s.reclaimFirst? memory sizeClass object nodes).map (Prod.map (·.under g) id) := by
  induction nodes with
  | nil => rfl
  | cons node rest ih =>
    unfold reclaimFirst?
    rw [cell?_under]
    cases (s.cell? node sizeClass).bind (·.reclaim? memory object) with
    | none => exact ih
    | some taken => rfl

section

variable (fits : g.Suits os other)

include fits

theorem localNode_under (s : Slab) (machine : Machine σ) (thread : ThreadId) :
    (s.under g).localNode other (machine.under g) thread = s.localNode os machine thread := by
  unfold localNode
  rw [fits.currentNode]
  rfl

theorem free_under (s : Slab) (machine : Machine σ) (thread : ThreadId) (object size : Nat) :
    (s.under g).free other (machine.under g) thread object size =
      (s.free os machine thread object size).map id (Prod.map (·.under g) (·.under g)) := by
  unfold free
  rw [localNode_under fits, fits.topology]
  split
  · rfl
  · next sizeClass _ =>
    have memory : (machine.under g).memory = machine.memory := rfl
    simp only [reclaimFirst?_under, memory]
    cases s.reclaimFirst? machine.memory sizeClass object
      (s.localNode os machine thread ::
        otherNodes os.topology (s.localNode os machine thread)) <;> rfl

theorem close_under (s : Slab) (machine : Machine σ) :
    (s.under g).close other (machine.under g) =
      (s.close os machine).map (·.under g) (·.under g) := by
  have released : Supply.unmapAll other ⟨(s.under g).mapper, machine.under g⟩
      ((s.under g).cells.flatMap (·.regions.reverse)) =
        (Supply.unmapAll os ⟨s.mapper, machine⟩ (s.cells.flatMap (·.regions.reverse))).under g :=
    fits.unmapAll ⟨s.mapper, machine⟩ _
  unfold close
  dsimp only
  rw [released]
  rfl

end

section

variable (fits : g.Serves os other)

include fits

theorem Cell.ensureRoom_under (c : Cell) (s : Supply σ) :
    c.ensureRoom other (s.under g) = (c.ensureRoom os s).map id (·.under g) := by
  unfold ensureRoom
  rw [fits.map, fits.pageSize]
  cases c.roomy? with
  | some region => rfl
  | none =>
    cases s.map os (regionLength os.pageSize c.objectSize) c.node with
    | mk answer supply => cases answer <;> rfl

theorem Cell.allocate_under (c : Cell) (s : Supply σ) :
    c.allocate other (s.under g) = (c.allocate os s).map id (Prod.map id (·.under g)) := by
  have memory : (s.under g).machine.memory = s.machine.memory := rfl
  unfold allocate
  rw [ensureRoom_under fits, memory]
  cases c.pop? s.machine.memory with
  | some popped => rfl
  | none =>
    cases c.ensureRoom os s with
    | mk answer supply => cases answer <;> rfl

theorem serve_under (s : Slab) (machine : Machine σ) (node sizeClass : Nat) :
    (s.under g).serve other (machine.under g) node sizeClass =
      (s.serve os machine node sizeClass).map id (Prod.map (·.under g) (·.under g)) := by
  unfold serve
  rw [cell?_under]
  cases s.cell? node sizeClass with
  | none => rfl
  | some c =>
    have allocated : c.allocate other ⟨(s.under g).mapper, machine.under g⟩ =
        (c.allocate os ⟨s.mapper, machine⟩).map id (Prod.map id (·.under g)) :=
      Cell.allocate_under fits c ⟨s.mapper, machine⟩
    dsimp only
    rw [allocated, fits.topology]
    cases c.allocate os ⟨s.mapper, machine⟩ with
    | mk answer result =>
      obtain ⟨c, supply⟩ := result
      cases answer with
      | ok object => rfl
      | error cause =>
        let left := { s with mapper := supply.mapper }
        have popped : popFirst? { s.under g with mapper := (supply.under g).mapper }
            (supply.under g).machine.memory sizeClass (otherNodes os.topology node) =
              (left.popFirst? supply.machine.memory sizeClass (otherNodes os.topology node)).map
                (Prod.map id (Prod.map (·.under g) id)) := popFirst?_under left g ..
        dsimp only [Prod.map, id]
        rw [popped]
        cases left.popFirst? supply.machine.memory sizeClass (otherNodes os.topology node) <;> rfl

theorem allocate_under (s : Slab) (machine : Machine σ) (thread : ThreadId) (size : Nat)
    (node : Option Nat) :
    (s.under g).allocate other (machine.under g) thread size node =
      (s.allocate os machine thread size node).map id (Prod.map (·.under g) (·.under g)) := by
  unfold allocate
  rw [localNode_under fits.toSuits, fits.topology]
  split
  · rfl
  · split
    · rfl
    · dsimp only
      split
      · exact serve_under fits ..
      · rfl

end

theorem create_under (fits : g.Fits os other) (topology : Topology) (hugePages numaAware : Bool) :
    create topology (g.hugePages hugePages) numaAware =
      (create topology hugePages numaAware).under g := by
  simp only [create, under, Mapper.under, fits.fallbacks, fits.failures]

theorem stats_under (s : Slab) (g : Guise σ τ) :
    (s.under g).stats = s.stats.counted g.fallbacks g.failures := rfl

end Slab

namespace Large

theorem stats_under (l : Large) (g : Guise σ τ) :
    (l.under g).stats = l.stats.counted g.fallbacks g.failures := rfl

theorem free_under (fits : g.Suits os other) (l : Large) (machine : Machine σ) (address : Nat) :
    (l.under g).free other (machine.under g) address =
      (l.free os machine address).map id (Prod.map (·.under g) (·.under g)) := by
  have located : (l.under g).locate? address = l.locate? address := rfl
  unfold free
  rw [located]
  cases l.locate? address with
  | none => rfl
  | some found =>
    have released : Supply.unmap other ⟨(l.under g).mapper, machine.under g⟩ found.2.region =
        (Supply.unmap os ⟨l.mapper, machine⟩ found.2.region).under g :=
      fits.unmapRegion ⟨l.mapper, machine⟩ found.2.region
    dsimp only
    rw [released]
    rfl

theorem close_under (fits : g.Suits os other) (l : Large) (machine : Machine σ) :
    (l.under g).close other (machine.under g) =
      (l.close os machine).map (·.under g) (·.under g) := by
  have released : Supply.unmapAll other ⟨(l.under g).mapper, machine.under g⟩
      ((l.under g).registries.flatMap fun r => r.objects.map (·.region)) =
        (Supply.unmapAll os ⟨l.mapper, machine⟩
          (l.registries.flatMap fun r => r.objects.map (·.region))).under g :=
    fits.unmapAll ⟨l.mapper, machine⟩ _
  unfold close
  dsimp only
  rw [released]
  rfl

theorem allocate_under (fits : g.Serves os other) (l : Large) (machine : Machine σ)
    (size node : Nat) :
    (l.under g).allocate other (machine.under g) size node =
      (l.allocate os machine size node).map id (Prod.map (·.under g) (·.under g)) := by
  unfold allocate
  have mapped : Supply.map other ⟨(l.under g).mapper, machine.under g⟩ size node =
      (Supply.map os ⟨l.mapper, machine⟩ size node).map id (·.under g) :=
    fits.map ⟨l.mapper, machine⟩ size node
  split
  · rfl
  · have registries : (l.under g).registries = l.registries := rfl
    rw [registries]
    cases l.registries[node]? with
    | none => rfl
    | some registry =>
      dsimp only
      rw [mapped]
      cases Supply.map os ⟨l.mapper, machine⟩ size node with
      | mk answer supply => cases answer <;> rfl

theorem create_under (fits : g.Fits os other) (topology : Topology) (hugePages numaAware : Bool) :
    create topology (g.hugePages hugePages) numaAware =
      (create topology hugePages numaAware).under g := by
  simp only [create, under, Mapper.under, fits.fallbacks, fits.failures]

end Large

end NumaHeap
