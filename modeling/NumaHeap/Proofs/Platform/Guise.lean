import NumaHeap.Region

/-!
Mappers in another guise. A guise takes the states of one platform to those of another, and alters
what a mapper wishes for and what it has counted of the services that it can do without. Where both
platforms map the same regions, whatever is built on a mapper does the same in the other guise.
-/

namespace NumaHeap

/-- How a system, the wish for huge pages and the counts of failed services look from elsewhere. -/
structure Guise (σ τ : Type) where
  system : σ → τ
  hugePages : Bool → Bool := id
  fallbacks : Nat → Nat := id
  failures : Nat → Nat := id

variable {σ τ : Type} {g : Guise σ τ} {os : Platform σ} {other : Platform τ}

def Mapper.under (m : Mapper) (g : Guise σ τ) : Mapper :=
  { m with
    hugePages := g.hugePages m.hugePages
    hugeFallbacks := g.fallbacks m.hugeFallbacks
    bindFailures := g.failures m.bindFailures }

def Machine.under (machine : Machine σ) (g : Guise σ τ) : Machine τ :=
  ⟨g.system machine.system, machine.memory⟩

def Supply.under (s : Supply σ) (g : Guise σ τ) : Supply τ := ⟨s.mapper.under g, s.machine.under g⟩

/-- One platform looks in the guise like the other one: it answers the same about CPUs and time, and
takes regions back in the same way. -/
structure Guise.Suits (g : Guise σ τ) (os : Platform σ) (other : Platform τ) : Prop where
  pageSize : other.pageSize = os.pageSize
  topology : other.topology = os.topology
  currentCpu? : ∀ s thread, other.currentCpu? (g.system s) thread = os.currentCpu? s thread
  now : ∀ s, other.now (g.system s) = os.now s
  unmap : ∀ s start length, other.unmap (g.system s) start length = g.system (os.unmap s start length)

/-- It maps the same regions as well. -/
structure Guise.Serves (g : Guise σ τ) (os : Platform σ) (other : Platform τ) : Prop
    extends g.Suits os other where
  map : ∀ (s : Supply σ) (length node : Nat),
    (s.under g).map other length node = (s.map os length node).map id (·.under g)

/-- One platform does in the guise what the other one does, from counts of nothing on. -/
structure Guise.Fits (g : Guise σ τ) (os : Platform σ) (other : Platform τ) : Prop
    extends g.Serves os other where
  fallbacks : g.fallbacks 0 = 0
  failures : g.failures 0 = 0

namespace Guise.Suits

theorem currentNode (fits : g.Suits os other) (machine : Machine σ) (thread : ThreadId) :
    (machine.under g).currentNode other thread = machine.currentNode os thread := by
  unfold Machine.currentNode Platform.currentNode
  rw [fits.topology]
  exact congrArg (·.elim 0 os.topology.nodeOfCpu) (fits.currentCpu? ..)

theorem unmapRegion (fits : g.Suits os other) (s : Supply σ) (region : Region) :
    (s.under g).unmap other region = (s.unmap os region).under g := by
  have system := fits.unmap s.machine.system region.start region.length
  simp only [Supply.unmap, Supply.under, Machine.unmap, Machine.under, system]
  rfl

theorem unmapAll (fits : g.Suits os other) (s : Supply σ) (regions : List Region) :
    (s.under g).unmapAll other regions = (s.unmapAll os regions).under g := by
  induction regions generalizing s with
  | nil => rfl
  | cons region rest ih =>
    change ((s.under g).unmap other region).unmapAll other rest = _
    rw [fits.unmapRegion, ih]
    rfl

end Guise.Suits

end NumaHeap
