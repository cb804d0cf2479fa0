import Mathlib.Data.List.Induction
import NumaHeap.Proofs.Size.Checked
import NumaHeap.Proofs.Topology

/-!
What a topology says of the descriptions it was read from. Descriptions of nodes beyond the tracked ones
say nothing; of the others, the last that names a CPU decides about the CPU, and the last that tells a
node's memory decides about the memory. A machine reads them into tables that grow as nodes are mentioned,
and writes to no place that a table does not have.
-/

namespace NumaHeap.Topology

namespace Description

/-- The description names the CPU. -/
def lists (d : Description) (cpu : Nat) : Bool := (CpuList.read d.cpuList.toList).contains cpu

/-- The memory that the description tells, in bytes. -/
def bytes? (d : Description) : Option Nat :=
  d.memInfo.bind fun text => MemInfo.totalBytes? text.toList

end Description

/-- The descriptions of nodes that are tracked. -/
def tracked (ds : List Description) : List Description := ds.filter (·.node < maxNodes)

/-- The largest node that is tracked. -/
def largest? (ds : List Description) : Option Nat := ((tracked ds).map (·.node)).max?

/-- The node of the last description that names a CPU. -/
def owner? (ds : List Description) (cpu : Nat) : Option Nat :=
  ((tracked ds).filter (·.lists cpu)).getLast?.map (·.node)

/-- The memory that was told last of a node. -/
def lastBytes? (ds : List Description) (node : Nat) : Option Nat :=
  ((ds.filter (·.node = node)).filterMap (·.bytes?)).getLast?

/-! ## One more description -/

section

variable (t : Topology) (ds : List Description) {d : Description}

theorem ofDescriptions_concat :
    ofDescriptions (ds ++ [d]) = (ofDescriptions ds).describe d := by
  rw [ofDescriptions, List.foldl_append]
  rfl

theorem tracked_concat (small : d.node < maxNodes) : tracked (ds ++ [d]) = tracked ds ++ [d] := by
  rw [tracked, List.filter_append, List.filter_cons, List.filter_nil, if_pos (decide_eq_true small)]
  rfl

theorem tracked_concat_of_le (large : maxNodes ≤ d.node) : tracked (ds ++ [d]) = tracked ds := by
  have ignored : ¬decide (d.node < maxNodes) = true := by simpa using large
  rw [tracked, List.filter_append, List.filter_cons, List.filter_nil, if_neg ignored]
  exact List.append_nil _

theorem describe_of_le (large : maxNodes ≤ d.node) : t.describe d = t :=
  if_neg (Nat.not_lt.2 large)

theorem nodeCount_describe (small : d.node < maxNodes) :
    (t.describe d).nodeCount = max t.nodeCount (d.node + 1) := by
  rw [describe, if_pos small]

theorem available_describe (small : d.node < maxNodes) :
    (t.describe d).available = (t.available || d.node != 0) := by
  rw [describe, if_pos small]

/-- A list names tracked CPUs only, so there is a place in the table for each. -/
theorem cpuNodes_describe (small : d.node < maxNodes) (cpu : Nat) :
    (t.describe d).cpuNodes[cpu]? = if d.lists cpu then some d.node else t.cpuNodes[cpu]? := by
  rw [describe, if_pos small]
  change (List.foldl _ t.cpuNodes _)[cpu]? = _
  rw [getElem?_foldl_setIfInBounds]
  apply if_congr _ rfl rfl
  rw [Description.lists, List.contains_iff_mem]
  exact ⟨And.right, fun listed => ⟨CpuList.lt_of_mem_read listed, listed⟩⟩

theorem memoryOf_describe (small : d.node < maxNodes) (node : Nat) :
    (t.describe d).memoryOf node =
      if d.node = node then d.bytes?.getD (t.memoryOf node) else t.memoryOf node := by
  rw [describe, if_pos small, memoryOf, memoryOf]
  cases told : d.bytes? with
  | none =>
    rw [Description.bytes?] at told
    rw [told]
    exact (ite_self _).symm
  | some bytes =>
    rw [Description.bytes?] at told
    rw [told]
    show (t.nodeBytes.setIfInBounds d.node bytes)[node]?.getD 0 = _
    rw [Vector.getElem?_setIfInBounds, if_pos small]
    by_cases here : d.node = node
    · rw [if_pos here, if_pos here]
      rfl
    · rw [if_neg here, if_neg here]

theorem memoryOf_describe_of_ne {node : Nat} (other : d.node ≠ node) :
    (t.describe d).memoryOf node = t.memoryOf node := by
  rcases Nat.lt_or_ge d.node maxNodes with small | large
  · rw [memoryOf_describe t small, if_neg other]
  · rw [describe_of_le t large]

end

/-!
## All descriptions

Each of these is by induction from the end of the list: the last description is read last, and has the
last word.
-/

variable (ds : List Description)

theorem max?_concat (numbers : List Nat) (n : Nat) :
    (numbers ++ [n]).max? = some (numbers.max?.elim n (max · n)) := by
  cases numbers with
  | nil => rfl
  | cons first rest =>
    rw [List.cons_append, List.max?_cons', List.foldl_append, List.max?_cons']
    rfl

/-- Descriptions that are not tracked change nothing. -/
theorem ofDescriptions_tracked : ofDescriptions (tracked ds) = ofDescriptions ds := by
  unfold ofDescriptions tracked
  rw [List.foldl_filter]
  congr 1
  funext t d
  rcases Nat.lt_or_ge d.node maxNodes with small | large
  · exact if_pos (decide_eq_true small)
  · rw [t.describe_of_le large, ite_self]

theorem nodeCount_ofDescriptions : (ofDescriptions ds).nodeCount = (largest? ds).elim 1 (· + 1) := by
  unfold largest?
  induction ds using List.reverseRecOn with
  | nil => rfl
  | append_singleton ds d ih =>
    rw [ofDescriptions_concat]
    rcases Nat.lt_or_ge d.node maxNodes with small | large
    · rw [nodeCount_describe _ small, ih, tracked_concat ds small, List.map_append, List.map_cons,
        List.map_nil, max?_concat]
      cases ((tracked ds).map (·.node)).max? with
      | none => exact Nat.max_eq_right (Nat.succ_pos _)
      | some most => exact Nat.add_max_add_right ..
    · rw [describe_of_le _ large, ih, tracked_concat_of_le ds large]

/-- There is locality to speak of where a tracked node is not the first. -/
theorem available_ofDescriptions :
    (ofDescriptions ds).available = true ↔ ∃ d ∈ ds, 0 < d.node ∧ d.node < maxNodes := by
  induction ds using List.reverseRecOn with
  | nil => exact iff_of_false Bool.false_ne_true (by simp)
  | append_singleton ds d ih =>
    rw [ofDescriptions_concat]
    simp only [List.mem_append, List.mem_singleton, or_and_right, exists_or, exists_eq_left]
    rcases Nat.lt_or_ge d.node maxNodes with small | large
    · rw [available_describe _ small, Bool.or_eq_true, ih, bne_iff_ne, ← Nat.pos_iff_ne_zero,
        and_iff_left small]
    · rw [describe_of_le _ large, ih, or_iff_left (by omega)]

theorem cpuNodes_ofDescriptions {cpu : Nat} (inside : cpu < maxCpus) :
    (ofDescriptions ds).cpuNodes[cpu]? = some ((owner? ds cpu).getD 0) := by
  unfold owner?
  induction ds using List.reverseRecOn with
  | nil => exact (Vector.getElem?_replicate ..).trans (if_pos inside)
  | append_singleton ds d ih =>
    rw [ofDescriptions_concat]
    rcases Nat.lt_or_ge d.node maxNodes with small | large
    · rw [cpuNodes_describe _ small, ih, tracked_concat ds small, List.filter_append,
        List.filter_cons, List.filter_nil]
      by_cases listed : d.lists cpu = true
      · rw [if_pos listed, if_pos listed, List.getLast?_concat]
        rfl
      · rw [if_neg listed, if_neg listed, List.append_nil]
    · rw [describe_of_le _ large, ih, tracked_concat_of_le ds large]

/-- Without locality, all descriptions are of the first node, and so is every CPU. -/
theorem nodeOfCpu_ofDescriptions (cpu : Nat) :
    (ofDescriptions ds).nodeOfCpu cpu = if cpu < maxCpus then (owner? ds cpu).getD 0 else 0 := by
  have looked : (ofDescriptions ds).cpuNodes[cpu]?.getD 0 =
      if cpu < maxCpus then (owner? ds cpu).getD 0 else 0 := by
    by_cases inside : cpu < maxCpus
    · rw [cpuNodes_ofDescriptions ds inside, if_pos inside]
      rfl
    · rw [Vector.getElem?_eq_none (Nat.le_of_not_lt inside), if_neg inside]
      rfl
  rw [nodeOfCpu, looked]
  apply ite_eq_left_iff.2
  intro single
  rw [available_ofDescriptions] at single
  cases found : owner? ds cpu with
  | none => exact (ite_self _).symm
  | some node =>
    obtain ⟨d, last, rfl⟩ := Option.map_eq_some_iff.1 found
    obtain ⟨member, small⟩ := List.mem_filter.1 (List.mem_filter.1 (List.mem_of_getLast? last)).1
    have first : d.node = 0 := by
      by_contra other
      exact single ⟨d, member, Nat.pos_of_ne_zero other, of_decide_eq_true small⟩
    show 0 = if cpu < maxCpus then d.node else 0
    rw [first, ite_self]

theorem memoryOf_ofDescriptions (node : Nat) :
    (ofDescriptions ds).memoryOf node = if node < maxNodes then (lastBytes? ds node).getD 0 else 0 := by
  by_cases inside : node < maxNodes
  · rw [if_pos inside]
    unfold lastBytes?
    induction ds using List.reverseRecOn with
    | nil =>
      show (Vector.replicate maxNodes 0)[node]?.getD 0 = 0
      rw [Vector.getElem?_replicate, if_pos inside]
      rfl
    | append_singleton ds d ih =>
      rw [ofDescriptions_concat, List.filter_append, List.filter_cons, List.filter_nil,
        List.filterMap_append]
      by_cases here : d.node = node
      · rw [memoryOf_describe _ (here ▸ inside), if_pos here, ih, if_pos (decide_eq_true here),
          List.getLast?_append, Option.getD_or]
        cases told : d.bytes? <;> simp [told]
      · rw [memoryOf_describe_of_ne _ here, ih, if_neg (by simpa using here), List.filterMap_nil,
          List.append_nil]
  · rw [if_neg inside, memoryOf, Vector.getElem?_eq_none (Nat.le_of_not_lt inside)]
    rfl

/-! ## Tables that grow -/

/-- A topology that is being read. The memory is kept of as many nodes as the largest so far calls for. -/
structure Draft where
  largest : Option Nat
  cpuNodes : Vector Nat maxCpus
  nodeBytes : List Nat

namespace Draft

/-- One node, before any was mentioned. -/
def start : Draft where
  largest := none
  cpuNodes := Vector.replicate maxCpus 0
  nodeBytes := [0]

def giveChecked (node : Nat) (table : Vector Nat maxCpus) (cpu : Nat) :
    Option (Vector Nat maxCpus) := do
  guard (cpu < maxCpus)
  return table.setIfInBounds cpu node

def tellChecked (table : List Nat) (node : Nat) : Option Nat → Option (List Nat)
  | none => some table
  | some bytes => do
    guard (node < table.length)
    return table.set node bytes

def describeChecked (draft : Draft) (d : Description) : Option Draft :=
  if d.node < maxNodes then do
    let nodeCount ← Word.add? d.node 1
    let cpuNodes ← (CpuList.read d.cpuList.toList).foldlM (giveChecked d.node) draft.cpuNodes
    let nodeBytes ← tellChecked (draft.nodeBytes.rightpad nodeCount 0) d.node d.bytes?
    return { largest := some (draft.largest.elim d.node (max · d.node)), cpuNodes, nodeBytes }
  else some draft

def finishChecked (draft : Draft) : Option Topology := do
  let nodeCount ← draft.largest.elim (some 1) (Word.add? · 1)
  let nodeBytes := (draft.nodeBytes.rightpad nodeCount 0).take nodeCount
  return { nodeCount := nodeCount
           available := draft.largest.any (0 < ·)
           cpuNodes := draft.cpuNodes
           nodeBytes := Vector.ofFn fun node => nodeBytes[node.val]?.getD 0 }

/-- The draft says what the topology says, and its table of memory is as long as there are nodes. -/
structure Shows (draft : Draft) (t : Topology) : Prop where
  nodeCount : t.nodeCount = draft.largest.elim 1 (· + 1)
  available : t.available = draft.largest.any (0 < ·)
  cpuNodes : t.cpuNodes = draft.cpuNodes
  length : draft.nodeBytes.length = t.nodeCount
  bytes : ∀ node, draft.nodeBytes[node]?.getD 0 = t.memoryOf node

variable {draft : Draft} {t : Topology} {d : Description}

theorem start_shows : start.Shows singleNode where
  nodeCount := rfl
  available := rfl
  cpuNodes := rfl
  length := rfl
  bytes node := by
    show [0][node]?.getD 0 = (Vector.replicate maxNodes 0)[node]?.getD 0
    rw [Vector.getElem?_replicate]
    cases node <;> split <;> rfl

/-- A CPU that a list names has a place in the table. -/
theorem foldlM_giveChecked {cpus : List Nat} (inside : ∀ cpu ∈ cpus, cpu < maxCpus) (node : Nat)
    (table : Vector Nat maxCpus) :
    cpus.foldlM (giveChecked node) table =
      some (cpus.foldl (fun table cpu => table.setIfInBounds cpu node) table) := by
  induction cpus generalizing table with
  | nil => rfl
  | cons first rest ih =>
    obtain ⟨here, later⟩ := List.forall_mem_cons.1 inside
    rw [List.foldlM_cons, giveChecked, guard_eq_some here]
    exact ih later _

/-- A node that was just mentioned has a place in the table. -/
theorem tellChecked_rightpad (table : List Nat) (node : Nat) (told : Option Nat) :
    ∃ table', tellChecked (table.rightpad (node + 1) 0) node told = some table' ∧
      table'.length = max (node + 1) table.length ∧
      ∀ place : Nat, table'[place]?.getD 0 =
        if node = place then told.getD (table[place]?.getD 0) else table[place]?.getD 0 := by
  have length : (table.rightpad (node + 1) 0).length = max (node + 1) table.length :=
    List.length_rightpad
  have padded : ∀ place : Nat, (table.rightpad (node + 1) 0)[place]?.getD 0 = table[place]?.getD 0 := by
    intro place
    rw [List.rightpad, List.getElem?_append]
    split
    · rfl
    · next beyond =>
      rw [List.getElem?_replicate, List.getElem?_eq_none (Nat.le_of_not_lt beyond)]
      split <;> rfl
  cases told with
  | none =>
    refine ⟨_, rfl, length, fun place => ?_⟩
    rw [padded, Option.getD_none, ite_self]
  | some bytes =>
    have inside : node < (table.rightpad (node + 1) 0).length := by omega
    refine ⟨(table.rightpad (node + 1) 0).set node bytes, ?_, ?_, fun place => ?_⟩
    · rw [tellChecked, guard_eq_some inside]
      rfl
    · rw [List.length_set, length]
    · rw [List.getElem?_set]
      by_cases here : node = place
      · rw [if_pos here, if_pos (by omega), if_pos here]
        rfl
      · rw [if_neg here, if_neg here, padded]

theorem Shows.describe (shows : draft.Shows t) (d : Description) :
    ∃ draft', draft.describeChecked d = some draft' ∧ draft'.Shows (t.describe d) := by
  rcases Nat.lt_or_ge d.node maxNodes with small | large
  · obtain ⟨nodeBytes, told, length, bytes⟩ :=
      tellChecked_rightpad draft.nodeBytes d.node d.bytes?
    have word : Word.add? d.node 1 = some (d.node + 1) :=
      Word.add?_of_lt (Nat.lt_of_le_of_lt small (by decide))
    have given : (CpuList.read d.cpuList.toList).foldlM (giveChecked d.node) draft.cpuNodes =
        some (t.describe d).cpuNodes := by
      rw [foldlM_giveChecked fun _ => CpuList.lt_of_mem_read, ← shows.cpuNodes, Topology.describe,
        if_pos small]
    refine ⟨{ largest := some (draft.largest.elim d.node (max · d.node)), cpuNodes := _, nodeBytes },
      ?_, { nodeCount := ?_, available := ?_, cpuNodes := rfl, length := ?_, bytes := fun node => ?_ }⟩
    · rw [describeChecked, if_pos small, word]
      show ((CpuList.read d.cpuList.toList).foldlM (giveChecked d.node) draft.cpuNodes).bind _ = _
      rw [given]
      show (tellChecked (draft.nodeBytes.rightpad (d.node + 1) 0) d.node d.bytes?).bind _ = _
      rw [told]
      rfl
    · rw [nodeCount_describe t small, shows.nodeCount]
      cases draft.largest with
      | none => exact Nat.max_eq_right (Nat.succ_pos _)
      | some most => exact Nat.add_max_add_right ..
    · rw [available_describe t small, shows.available]
      cases draft.largest with
      | none =>
        show (d.node != 0) = decide (0 < d.node)
        grind
      | some most =>
        show (decide (0 < most) || d.node != 0) = decide (0 < max most d.node)
        grind
    · rw [length, shows.length, nodeCount_describe t small, Nat.max_comm]
    · rw [bytes, shows.bytes, memoryOf_describe t small]
  · refine ⟨draft, if_neg (Nat.not_lt.2 large), ?_⟩
    rw [t.describe_of_le large]
    exact shows

theorem Shows.descriptions (shows : draft.Shows t) (ds : List Description) :
    ∃ draft', ds.foldlM describeChecked draft = some draft' ∧
      draft'.Shows (ds.foldl Topology.describe t) := by
  induction ds generalizing draft t with
  | nil => exact ⟨draft, rfl, shows⟩
  | cons d rest ih =>
    obtain ⟨next, described, shown⟩ := shows.describe d
    rw [List.foldlM_cons, described]
    exact ih shown

/-- The last table of memory is neither too short nor too long. -/
theorem Shows.finish (shows : draft.Shows t) (closed : t.Closed) :
    draft.finishChecked = some t := by
  have word : draft.largest.elim (some 1) (Word.add? · 1) = some t.nodeCount := by
    have few : t.nodeCount < Word.bound := Nat.lt_of_le_of_lt closed.few (by decide)
    rw [shows.nodeCount] at few ⊢
    cases mentioned : draft.largest with
    | none => rfl
    | some most =>
      rw [mentioned] at few
      exact Word.add?_of_lt few
  have kept : (draft.nodeBytes.rightpad t.nodeCount 0).take t.nodeCount = draft.nodeBytes := by
    rw [List.rightpad, shows.length, Nat.sub_self, List.replicate_zero, List.append_nil,
      ← shows.length, List.take_length]
  have nodeBytes : (Vector.ofFn fun node : Fin maxNodes => draft.nodeBytes[node.val]?.getD 0) =
      t.nodeBytes := by
    apply Vector.ext
    intro node inside
    rw [Vector.getElem_ofFn, shows.bytes, memoryOf, Vector.getElem?_eq_getElem inside]
    rfl
  rw [finishChecked, word]
  show some (Topology.mk t.nodeCount (draft.largest.any (0 < ·)) draft.cpuNodes
    (Vector.ofFn fun node =>
      ((draft.nodeBytes.rightpad t.nodeCount 0).take t.nodeCount)[node.val]?.getD 0)) = some t
  rw [kept, nodeBytes, ← shows.available, ← shows.cpuNodes]

end Draft

/-- Reads descriptions into tables, with all checks made. -/
def ofDescriptionsChecked (ds : List Description) : Option Topology := do
  let draft ← ds.foldlM Draft.describeChecked Draft.start
  draft.finishChecked

/-- No check fails. -/
theorem ofDescriptionsChecked_eq : ofDescriptionsChecked ds = some (ofDescriptions ds) := by
  obtain ⟨draft, read, shows⟩ := Draft.start_shows.descriptions ds
  rw [ofDescriptionsChecked, read]
  exact shows.finish (ofDescriptions_closed ds)

/-- What a topology says of its descriptions, whatever they are. They are read without a check that fails.
There is one node more than the largest that is tracked, or a single one; and locality to speak of exactly
if a tracked node is not the first. A CPU belongs to the tracked node whose description was the last to
name it, and to the first node if there is none. The memory of a node, if it is tracked, is what was told
of it last, and else unknown. Every CPU belongs to a node that exists, and descriptions of nodes that are
not tracked change nothing. -/
theorem last_description_decides :
    ofDescriptionsChecked ds = some (ofDescriptions ds) ∧
    (ofDescriptions ds).nodeCount = (largest? ds).elim 1 (· + 1) ∧
    ((ofDescriptions ds).available = true ↔ ∃ d ∈ ds, 0 < d.node ∧ d.node < maxNodes) ∧
    (∀ cpu, (ofDescriptions ds).nodeOfCpu cpu =
      if cpu < maxCpus then (owner? ds cpu).getD 0 else 0) ∧
    (∀ node, (ofDescriptions ds).memoryOf node =
      if node < maxNodes then (lastBytes? ds node).getD 0 else 0) ∧
    (∀ cpu, (ofDescriptions ds).contains ((ofDescriptions ds).nodeOfCpu cpu) = true) ∧
    ofDescriptions (tracked ds) = ofDescriptions ds := by
  refine ⟨ofDescriptionsChecked_eq ds, nodeCount_ofDescriptions ds, available_ofDescriptions ds,
    nodeOfCpu_ofDescriptions ds, memoryOf_ofDescriptions ds, fun cpu => ?_, ofDescriptions_tracked ds⟩
  apply contains_iff.2
  exact (ofDescriptions_closed ds).nodeOfCpu_lt cpu

/-- The memory of a node that is not tracked is unknown, though a description tells it. -/
theorem memoryOf_untracked :
    let ds : List Description := [⟨64, "0", some "MemTotal: 5"⟩]
    lastBytes? ds 64 = some 5 ∧ (ofDescriptions ds).memoryOf 64 ≠ (lastBytes? ds 64).getD 0 := by
  decide +kernel

end NumaHeap.Topology
