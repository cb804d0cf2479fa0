import NumaHeap.Heap.Signals
import NumaHeap.Session.Allocator

/-!
Everything that can be done to a heap while it is open, as data. An action is taken by some thread,
or by a caller who writes to memory; nothing is said here of which actions a caller should take.
-/

namespace NumaHeap

open Session Telemetry

variable {σ : Type}

/-- Something that is done to a heap. -/
inductive Action where
  | allocate (thread : ThreadId) (demand : Demand)
  | free (thread : ThreadId) (address size : Nat)
  | write (address : Nat) (bytes : List UInt8)
  | resetArenas
  | destroyArenas (thread : ThreadId)
  | releaseThread (thread : ThreadId)
  | exitThread (thread : ThreadId)
  | setMode (mode : Security.Mode)
  | compact
  | compactArena (kind : ArenaKind)
  | checkPressure
  | handlePressure
  | collectionDone
  | setCallback (callback : Option Callback)
  | bindThread (thread : ThreadId) (node : Nat)

namespace Session.Demand

/-- The alignment asked for; without any it is that of a word. -/
def alignment : Demand → Nat
  | .aligned _ alignment => alignment
  | .cacheAligned _ => cacheLine.value
  | _ => wordAlignment.value

/-- The elements are asked to be zero. -/
def isZeroed : Demand → Bool
  | .zeroed .. => true
  | _ => false

end Session.Demand

namespace Heap

/-- The tier that serves a demand. -/
def tierOf (h : Heap σ) : Demand → Tier
  | .object size kind => h.classify size kind
  | .onNode size _ => h.classify size .generic
  | .aligned size _ => h.alignedTier size .general
  | .cacheAligned size => h.alignedTier size .object
  | .zeroed count size kind => h.classify (count * size) kind

/-- Allocates as demanded. -/
def meet (os : Platform σ) (h : Heap σ) (thread : ThreadId) :
    Demand → Except AllocError Nat × Heap σ
  | .object size kind => h.alloc os thread size kind
  | .onNode size node => h.allocNuma os thread size node
  | .aligned size alignment => h.allocAligned os thread size alignment
  | .cacheAligned size => h.allocCacheAligned os thread size
  | .zeroed count size kind => h.allocZeroed os thread count size kind

/-- Does something to a heap. -/
def act (os : Platform σ) (h : Heap σ) : Action → Heap σ
  | .allocate thread demand => (h.meet os thread demand).2
  | .free thread address size => (h.free os thread address size).2
  | .write address bytes =>
    { h with machine := h.machine.withMemory (h.machine.memory.write address bytes) }
  | .resetArenas => h.resetArenas
  | .destroyArenas thread => h.destroyArenas os thread
  | .releaseThread thread => h.releaseThread os thread
  | .exitThread thread => h.exitThread os thread
  | .setMode mode => h.setMode mode
  | .compact => (h.compact os).2
  | .compactArena kind => (h.compactArena kind).2
  | .checkPressure => (h.checkPressure os).2
  | .handlePressure => h.handlePressure os
  | .collectionDone => h.collectionDone
  | .setCallback callback => h.setCallback callback
  | .bindThread thread node => (h.bindThread os thread node).2

/-- The platform below is found in another state. -/
def onSystem (h : Heap σ) (system : σ) : Heap σ := { h with machine := { h.machine with system } }

variable (os : Platform σ) (drifts : σ → σ → Prop) (h : Heap σ)

/-- What becomes of an open heap: it is acted on, and the platform drifts by itself. -/
inductive Runs : Heap σ → Prop
  | start : Runs h
  | act {middle : Heap σ} (action : Action) : Runs middle → Runs (middle.act os action)
  | drift {middle : Heap σ} {system : σ} :
      Runs middle → drifts middle.machine.system system → Runs (middle.onSystem system)

theorem Runs.foldl {os : Platform σ} {drifts : σ → σ → Prop} {h middle : Heap σ}
    (runs : h.Runs os drifts middle) (actions : List Action) :
    h.Runs os drifts (actions.foldl (Heap.act os) middle) := by
  induction actions generalizing middle with
  | nil => exact runs
  | cons action rest ih => exact ih (.act action runs)

/-- What becomes of a heap that some thread closes: other threads may exit later. -/
inductive Winds : Heap σ → Prop
  | close (thread : ThreadId) : Winds (h.close os thread)
  | exit {middle : Heap σ} (thread : ThreadId) : Winds middle → Winds (middle.exitThread os thread)
  | drift {middle : Heap σ} {system : σ} :
      Winds middle → drifts middle.machine.system system → Winds (middle.onSystem system)

end Heap

/-- What is computed from a new heap is computed from some heap that was created. -/
theorem Heap.exists_created {α : Type} (os : Platform σ) (machine : Machine σ)
    (configuration : Configuration) (f : Heap σ → α) (value : α)
    (computed : ((Heap.create os machine configuration).map f).toOption = some value) :
    ∃ h, Heap.create os machine configuration = .ok h ∧ f h = value := by
  cases created : Heap.create os machine configuration with
  | error cause =>
    rw [created] at computed
    cases computed
  | ok h =>
    rw [created] at computed
    exact ⟨h, rfl, Option.some.inj computed⟩

end NumaHeap
