import NumaHeap.Platform.Basic

/-!
Topologies that are read from descriptions. There is at least one node, and every CPU belongs to a node
that exists; so does every thread, wherever it runs.
-/

namespace NumaHeap

namespace Topology

variable {t : Topology} {cpu : Nat}

/-- There are some nodes, though not too many, and no CPU belongs to another. -/
structure Closed (t : Topology) : Prop where
  positive : 0 < t.nodeCount
  few : t.nodeCount ≤ maxNodes
  cpus : ∀ {cpu node : Nat}, t.cpuNodes[cpu]? = some node → node < t.nodeCount

theorem singleNode_closed : singleNode.Closed where
  positive := Nat.one_pos
  few := by decide
  cpus {cpu node} found := by
    obtain ⟨inside, rfl⟩ := Vector.getElem?_eq_some_iff.1 found
    simp [singleNode]

/-- CPUs that are given to a node are its own then, and all others stay where they were. -/
theorem getElem?_foldl_setIfInBounds (cpus : List Nat) (node : Nat) (table : Vector Nat maxCpus) :
    (cpus.foldl (fun table cpu => table.setIfInBounds cpu node) table)[cpu]? =
      if cpu < maxCpus ∧ cpu ∈ cpus then some node else table[cpu]? := by
  induction cpus generalizing table with
  | nil => simp
  | cons first rest ih =>
    rw [List.foldl_cons, ih, Vector.getElem?_setIfInBounds]
    by_cases here : first = cpu
    · subst here
      by_cases inside : first < maxCpus <;> simp [inside]
    · simp [here, Ne.symm here]

/-- A description gives CPUs to its own node only. -/
theorem Closed.describe (closed : t.Closed) (d : Description) : (t.describe d).Closed := by
  unfold Topology.describe
  split
  · next small =>
    refine ⟨?_, ?_, fun found => ?_⟩
    · exact Nat.lt_of_lt_of_le closed.positive (Nat.le_max_left ..)
    · exact Nat.max_le.2 ⟨closed.few, small⟩
    · rw [getElem?_foldl_setIfInBounds] at found
      split at found
      · cases found
        exact Nat.le_max_right ..
      · exact Nat.lt_of_lt_of_le (closed.cpus found) (Nat.le_max_left ..)
  · exact closed

theorem ofDescriptions_closed (ds : List Description) : (ofDescriptions ds).Closed := by
  have step : ∀ (ds : List Description) (t : Topology), t.Closed → (ds.foldl describe t).Closed := by
    intro ds
    induction ds with
    | nil => exact fun _ closed => closed
    | cons d rest ih => exact fun t closed => ih _ (closed.describe d)
  exact step ds singleNode singleNode_closed

theorem Closed.nodeOfCpu_lt (closed : t.Closed) (cpu : Nat) : t.nodeOfCpu cpu < t.nodeCount := by
  unfold nodeOfCpu
  split
  · cases found : t.cpuNodes[cpu]? with
    | none => exact closed.positive
    | some node => exact closed.cpus found
  · exact closed.positive

theorem contains_iff {node : Nat} : t.contains node = true ↔ node < t.nodeCount :=
  decide_eq_true_iff

end Topology

/-- A thread runs on a node that exists. -/
theorem Platform.currentNode_lt {σ : Type} {os : Platform σ} (closed : os.topology.Closed) (system : σ)
    (thread : ThreadId) : os.currentNode system thread < os.topology.nodeCount := by
  unfold currentNode
  cases os.currentCpu? system thread with
  | none => exact closed.positive
  | some cpu => exact closed.nodeOfCpu_lt cpu

end NumaHeap
