import NumaHeap.Arena.Pool
import NumaHeap.Configuration
import NumaHeap.Kind
import NumaHeap.Large
import NumaHeap.Slab.Basic
import NumaHeap.Telemetry.Counters
import NumaHeap.Telemetry.Pressure

/-!
A heap joins the three arenas, the slabs and the large objects on one machine, with the security
mode, the counters and the pressure signals. This module holds its parts, its creation, the tier
that serves a request, and its reports.
-/

namespace NumaHeap

open Telemetry

/-- A heap on a machine. -/
structure Heap (σ : Type) where
  configuration : Configuration
  machine : Machine σ
  /-- The general arena, that of containers and that of strings, in this order. -/
  arenas : Arena.Pool
  slab : Option Slab
  large : Large
  mode : Security.Mode
  counters : Counters := {}
  pressure : Pressure Float
  /-- Bytes served by the arenas since they were last reset or destroyed, counted in a word. -/
  arenaBytes : Nat := 0
  /-- When the heap was created. -/
  origin : Nat
  /-- When the last compaction was made, counted from the origin. -/
  lastCompaction : Nat := 0

/-- The number of an arena in the pool of a heap. -/
def ArenaKind.index : ArenaKind → Nat
  | .general => 0
  | .object => 1
  | .string => 2

namespace ArenaKind

/-- The arenas in the order of their numbers. -/
def all : List ArenaKind := [.general, .object, .string]

/-- The kind of the objects for which an arena is meant first. -/
def objectKind : ArenaKind → ObjectKind
  | .general => .generic
  | .object => .array
  | .string => .string

end ArenaKind

namespace Heap

/-- A report of the whole heap. -/
structure Stats where
  counters : Counters := {}
  gcPressure : Float := 0.0
  underPressure : Bool := false
  generalArena : Arena.Stats := {}
  objectArena : Arena.Stats := {}
  stringArena : Arena.Stats := {}
  slab : Slab.Stats := {}
  large : Large.Stats := {}

namespace Stats

/-- The reports of the three arenas. -/
def arenas (s : Stats) : List Arena.Stats := [s.generalArena, s.objectArena, s.stringArena]

/-- Bytes wasted by all arenas, as a share of those used. -/
def fragmentation (s : Stats) : Ratio :=
  ⟨(s.arenas.map (·.wastedBytes)).sum, (s.arenas.map (·.bytesUsed)).sum⟩

/-- Mappings of huge pages that fell back to normal ones. -/
def hugeFallbacks (s : Stats) : Nat :=
  (s.arenas.map (·.hugeFallbacks)).sum + s.slab.hugeFallbacks + s.large.hugeFallbacks

/-- Regions that could not be bound to their node. -/
def bindFailures (s : Stats) : Nat :=
  (s.arenas.map (·.bindFailures)).sum + s.slab.bindFailures + s.large.bindFailures

end Stats

variable {σ : Type}

/-- Creates a heap from a valid configuration. -/
def create (os : Platform σ) (machine : Machine σ) (configuration : Configuration) :
    Except ConfigError (Heap σ) := do
  configuration.validate
  let blockSize ← configuration.blockSize
  let huge := configuration.hugePages
  let aware := configuration.numaAware
  let arenas := ArenaKind.all.foldl
    (fun pool kind => pool.add (kind.blockSize blockSize Configuration.minimumBlock) huge aware) {}
  return {
    configuration, machine, arenas
    slab := if configuration.slabEnabled then some (.create os.topology huge aware) else none
    large := .create os.topology huge aware
    mode := configuration.securityMode
    pressure := .create .double configuration.pressureThreshold configuration.pressureInterval
      blockSize.value
    origin := os.now machine.system }

/-- The tier that serves a request: large from the threshold on, else the slabs up to their largest
object, if there are slabs, else the arena of the kind. -/
def classify (h : Heap σ) (size : Nat) (kind : ObjectKind) : Tier :=
  if h.configuration.largeThreshold ≤ size then .large
  else if h.slab.isSome && size ≤ Size.slabMax then .slab
  else .arena kind.arena

/-- The tier that serves a request for aligned bytes: large from the threshold on, else an arena. -/
def alignedTier (h : Heap σ) (size : Nat) (arena : ArenaKind) : Tier :=
  if h.configuration.largeThreshold ≤ size then .large else .arena arena

/-- Nanoseconds since the heap was created. -/
def clock (os : Platform σ) (h : Heap σ) : Nat :=
  min (os.now h.machine.system - h.origin) Word.last

/-- The report of an arena. -/
def arenaStats (h : Heap σ) (kind : ArenaKind) : Arena.Stats := h.arenas.stats kind.index

/-- The report of the whole heap. -/
def stats (h : Heap σ) : Stats where
  counters := h.counters
  gcPressure := h.pressure.level
  underPressure := h.pressure.underPressure
  generalArena := h.arenaStats .general
  objectArena := h.arenaStats .object
  stringArena := h.arenaStats .string
  slab := h.slab.elim {} Slab.stats
  large := h.large.stats

/-- Bytes wasted by all arenas, as a share of those used. -/
def fragmentation (h : Heap σ) : Ratio :=
  let arenas := ArenaKind.all.map h.arenaStats
  ⟨(arenas.map (·.wastedBytes)).sum, (arenas.map (·.bytesUsed)).sum⟩

/-- The counters agree with each other, and the accounts of large objects with the objects. -/
def validateIntegrity (h : Heap σ) : Bool :=
  let c := h.counters
  c.currentBytes ≤ c.totalBytes &&
    c.localAllocations + c.remoteAllocations == c.totalAllocations &&
    c.kinds.total == c.totalAllocations &&
    c.currentBytes ≤ c.peakBytes &&
    h.large.validate

end Heap

end NumaHeap
