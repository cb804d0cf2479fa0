import NumaHeap.Topology.CpuList
import NumaHeap.Topology.MemInfo

/-!
Which NUMA nodes there are, which node a CPU belongs to and how much memory a node has. A topology
is read from descriptions of its nodes, in any order; a later description overrides an earlier one
for the CPUs and the memory that it names.
-/

namespace NumaHeap

namespace Topology

/-- Nodes are tracked below this index. -/
def maxNodes : Nat := 64

/-- What the system says of one node. -/
structure Description where
  node : Nat
  cpuList : String
  memInfo : Option String

end Topology

/-- The nodes of a machine. With a single node there is no locality to speak of, and `available` is
false. -/
structure Topology where
  nodeCount : Nat
  available : Bool
  cpuNodes : Vector Nat Topology.maxCpus
  nodeBytes : Vector Nat Topology.maxNodes
deriving DecidableEq

namespace Topology

/-- One node that owns every CPU. -/
def singleNode : Topology where
  nodeCount := 1
  available := false
  cpuNodes := Vector.replicate maxCpus 0
  nodeBytes := Vector.replicate maxNodes 0

/-- The topology with one more description taken into account. -/
def describe (t : Topology) (d : Description) : Topology :=
  if d.node < maxNodes then
    { nodeCount := max t.nodeCount (d.node + 1)
      available := t.available || d.node != 0
      cpuNodes := (CpuList.read d.cpuList.toList).foldl
        (fun table cpu => table.setIfInBounds cpu d.node) t.cpuNodes
      nodeBytes := match d.memInfo.bind fun text => MemInfo.totalBytes? text.toList with
        | some bytes => t.nodeBytes.setIfInBounds d.node bytes
        | none => t.nodeBytes }
  else t

/-- Reads descriptions, one after the other. -/
def ofDescriptions (ds : List Description) : Topology := ds.foldl describe singleNode

/-- The node that a CPU belongs to, or node 0 if nothing is known about it. -/
def nodeOfCpu (t : Topology) (cpu : Nat) : Nat :=
  if t.available then t.cpuNodes[cpu]?.getD 0 else 0

/-- The memory of a node in bytes, or 0 if it is unknown. -/
def memoryOf (t : Topology) (node : Nat) : Nat := t.nodeBytes[node]?.getD 0

/-- The node exists. -/
def contains (t : Topology) (node : Nat) : Bool := node < t.nodeCount

/-- All nodes, in ascending order. -/
def nodes (t : Topology) : List Nat := List.range t.nodeCount

end Topology

end NumaHeap
