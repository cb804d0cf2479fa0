import NumaHeap.Heap.Basic
import NumaHeap.Platform.Simulated
import NumaHeap.Report.Name
import NumaHeap.Report.Basic

/-!
Reports of topologies, configurations, blocks, counters and statistics.
-/

namespace NumaHeap

open Report (counts named)

def Ratio.report (r : Ratio) : Report := .real r.value

/-- Seconds and nanoseconds. -/
def Duration.report (d : Duration) : Report := counts [d.seconds, d.nanoseconds]

def Configuration.report (c : Configuration) : Report :=
  .fields [
    ("default_block_size", .count c.defaultBlockSize),
    ("huge_pages", .flag c.hugePages),
    ("numa_aware", .flag c.numaAware),
    ("slab_enabled", .flag c.slabEnabled),
    ("large_object_threshold", .count c.largeThreshold),
    ("security_mode", .text c.securityMode.name),
    ("pressure_threshold", .count c.pressureThreshold),
    ("pressure_check_interval", c.pressureInterval.report),
    ("compaction_interval", c.compactionInterval.report),
    ("compaction_threshold", .real c.compactionThreshold),
    ("prefetch", .flag c.cacheHints)]

namespace Topology

/-- Equal neighbours taken together, with their number. -/
def runs : List Nat → List (Nat × Nat)
  | [] => []
  | n :: rest =>
    match runs rest with
    | (m, length) :: tail =>
      if m = n then (n, length + 1) :: tail else (n, 1) :: (m, length) :: tail
    | [] => [(n, 1)]

/-- Everything about a topology, and more about some CPUs and nodes. -/
def report (t : Topology) (cpus nodes : List Nat) : Report :=
  let owners := runs ((List.range maxCpus).map t.nodeOfCpu)
  .fields [
    ("node_count", .count t.nodeCount),
    ("available", .flag t.available),
    ("runs", .list (owners.map fun (node, length) => counts [node, length])),
    ("nodes", .list (t.nodes.map fun node =>
      .list [.count node, .text (toString node), .count (t.memoryOf node)])),
    ("cpus", counts (cpus.map t.nodeOfCpu)),
    ("contains", .list (nodes.map fun node =>
      .list [.flag (t.contains node), .count (t.memoryOf node)])),
    ("single", .flag (t = singleNode))]

end Topology

/-- Mappings, huge mappings and bytes at present, then mappings and bindings ever made. -/
def Simulated.State.report (s : State) : Report :=
  counts [s.live.length, s.liveHuge, s.liveBytes, s.maps, s.binds]

/-- Shows the start only if addresses are shown. -/
def Arena.Block.View.report (start : Nat → Report) (b : View) : Report :=
  .fields [("start", start b.start), ("size", .count b.size), ("used", .count b.used),
    ("node", .count b.node), ("huge", .flag b.huge)]

def Arena.Stats.report (s : Stats) : Report :=
  .fields (("fragmentation", s.fragmentation.report) :: named [
    ("threads", s.threads), ("allocations", s.allocations),
    ("bytes_requested", s.bytesRequested), ("bytes_used", s.bytesUsed),
    ("wasted_bytes", s.wastedBytes), ("blocks_allocated", s.blocksAllocated),
    ("huge_blocks", s.hugeBlocks), ("bytes_reserved", s.bytesReserved),
    ("resets", s.resets), ("compactions", s.compactions),
    ("huge_page_fallbacks", s.hugeFallbacks), ("bind_failures", s.bindFailures)])

def Slab.Cell.View.report (c : View) : Report :=
  counts [c.objectSize, c.node, c.hits, c.misses, c.freeObjects, c.regions]

def Slab.Stats.report (s : Stats) : Report :=
  .fields (("classes", .list (s.cells.map (·.report))) ::
    ("hit_ratio", s.hitRatio.report) :: named [
      ("allocations", s.allocations), ("deallocations", s.deallocations),
      ("hits", s.hits), ("misses", s.misses),
      ("remote_fallbacks", s.remoteFallbacks), ("bytes_reserved", s.bytesReserved),
      ("huge_page_fallbacks", s.hugeFallbacks), ("bind_failures", s.bindFailures)])

def Large.Usage.report (u : Usage) : Report := counts [u.objects, u.bytes]

def Large.Stats.report (s : Stats) : Report :=
  .fields (("nodes", .list (s.nodes.map (·.report))) :: named [
    ("objects", s.objects), ("bytes", s.bytes), ("allocations", s.allocations),
    ("deallocations", s.deallocations), ("huge_objects", s.hugeObjects),
    ("huge_page_fallbacks", s.hugeFallbacks), ("bind_failures", s.bindFailures)])

namespace Telemetry

def KindCounts.report (k : KindCounts) : Report :=
  counts [k.object, k.string, k.array, k.hashMap, k.large]

/-- The counters that no node and no clock has a part in. -/
def Counters.entries (c : Counters) : List (String × Report) :=
  ("kinds", c.kinds.report) :: named [
    ("total_allocations", c.totalAllocations), ("total_bytes_allocated", c.totalBytes),
    ("current_memory_usage", c.currentBytes), ("peak_memory_usage", c.peakBytes),
    ("failed_allocations", c.failures), ("security_rejections", c.rejections),
    ("compactions", c.compactions), ("kinds_total", c.kinds.total)]

/-- The counters of nodes. -/
def Counters.nodeEntries (c : Counters) : List (String × Report) :=
  ("locality_ratio", c.locality.report) :: named [
    ("numa_local_allocations", c.localAllocations),
    ("numa_remote_allocations", c.remoteAllocations)]

/-- The counters of time. -/
def Counters.timeEntries (c : Counters) : List (String × Report) := [
  ("allocation_time", c.allocationTime.report),
  ("compaction_time", c.compactionTime.report),
  ("average_latency", c.averageLatency.report)]

def Counters.report (c : Counters) : Report :=
  .fields (c.entries ++ c.nodeEntries ++ c.timeEntries)

end Telemetry

/-- Shows the counters of nodes only if asked to. -/
def Heap.Stats.report (withNodes : Bool) (s : Stats) : Report :=
  .fields (s.counters.entries ++ (if withNodes then s.counters.nodeEntries else []) ++ [
    ("gc_pressure", .real s.gcPressure),
    ("under_pressure", .flag s.underPressure),
    ("general_arena", s.generalArena.report),
    ("object_arena", s.objectArena.report),
    ("string_arena", s.stringArena.report),
    ("slab", s.slab.report),
    ("large", s.large.report),
    ("fragmentation_ratio", s.fragmentation.report),
    ("all_huge_page_fallbacks", .count s.hugeFallbacks),
    ("all_bind_failures", .count s.bindFailures)])

/-- The counts that change with every step: allocations, bytes in use, their peak, and failures. -/
def Heap.vitals {σ : Type} (h : Heap σ) : List Nat :=
  [h.counters.totalAllocations, h.counters.currentBytes, h.counters.peakBytes,
    h.counters.failures]

end NumaHeap
