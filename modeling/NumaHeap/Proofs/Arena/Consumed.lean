import NumaHeap.Proofs.Arena.Turns
import NumaHeap.Proofs.Platform.Simulated
import Mathlib.Algebra.BigOperators.Group.Finset.Basic

/-!
What a chain has consumed of its blocks: all of the blocks of a node that stand before its current one,
and of that one what was taken. Used bytes count the same, but for the blocks that were passed over since
the last reset: their bytes cannot be handed out any more either, and were never counted.
-/

namespace NumaHeap.Arena

variable {σ : Type} {os : Platform σ} {contract : os.Contract} {blockSize : PowerOfTwo}

namespace Block

variable {b : Block}

theorem ofRegion_used (region : Region) : (ofRegion region).used = 0 := Nat.sub_self _

/-- What was taken and what is left make up the block. -/
theorem Sound.used_add_available (sound : b.Sound) : b.used + b.available = b.region.length := by
  obtain ⟨above, below⟩ := sound
  unfold used available
  unfold Region.stop at below ⊢
  omega

end Block

namespace Chain

/-- The bytes of a node that a chain cannot hand out before it is reset. -/
def consumed (c : Chain) (node : Nat) : Nat :=
  match c.current node with
  | none => 0
  | some index =>
    Region.total ((c.regions.take index).filter (·.node == node)) +
      (c.blocks[index]?).elim 0 Block.used

/-- The regions passed over since the last reset. -/
def passed : List Turn → List Region
  | [] => []
  | .asked regions :: earlier => regions ++ passed earlier
  | .reset :: _ => []
  | .released :: earlier => passed earlier

/-- Used bytes, and those that were passed over, are what was consumed of all nodes. -/
def Balanced (c : Chain) (missed : List Region) : Prop :=
  ∀ nodes : Finset Nat, (∀ {node}, (c.current node).isSome → node ∈ nodes) →
    c.tally.bytesUsed + Region.total missed = ∑ node ∈ nodes, c.consumed node

variable {c next : Chain} {s supply : Supply σ} {r : Request} {node index : Nat}
  {block : Block} {taken : Block.Taken} {new missed : List Region} {turns : List Turn}
  {answer : Except AllocError Placement}

/-- A sum in which one term has grown. -/
theorem sum_consumed_add {nodes : Finset Nat} {more : Nat} (member : node ∈ nodes)
    (others : ∀ other, other ≠ node → next.consumed other = c.consumed other)
    (grown : next.consumed node = c.consumed node + more) :
    ∑ other ∈ nodes, next.consumed other = ∑ other ∈ nodes, c.consumed other + more := by
  have rest : ∑ other ∈ nodes.erase node, next.consumed other =
      ∑ other ∈ nodes.erase node, c.consumed other :=
    Finset.sum_congr rfl fun other inside => others other (Finset.ne_of_mem_erase inside)
  rw [← Finset.add_sum_erase nodes _ member, ← Finset.add_sum_erase nodes _ member, grown, rest]
  omega

/-- A chain that begins has consumed nothing. -/
theorem Begins.consumed_eq_zero (begins : c.Begins) (node : Nat) : c.consumed node = 0 := by
  obtain ⟨blocks, current, -⟩ := begins.spec
  unfold consumed
  cases here : c.current node with
  | none => rfl
  | some index =>
    rw [current] at here
    obtain ⟨inside, -, first⟩ := List.findIdx?_eq_some_iff_getElem.1 here
    have before : (c.regions.take index).filter (·.node == node) = [] := by
      refine List.filter_eq_nil_iff.2 fun region member => ?_
      obtain ⟨place, below, rfl⟩ := List.mem_iff_getElem.1 member
      rw [List.length_take] at below
      have other := first place (by omega)
      simpa [nodes] using other
    have unused : (c.blocks[index]?).elim 0 Block.used = 0 := by
      rw [blocks, List.getElem?_map]
      cases c.regions[index]? with
      | none => rfl
      | some region => exact Block.ofRegion_used region
    simp only [before, unused]
    rfl

theorem Begins.balanced (begins : c.Begins) : c.Balanced [] := by
  obtain ⟨-, -, used, -⟩ := begins.spec
  intro nodes _
  rw [used, Finset.sum_eq_zero fun node _ => begins.consumed_eq_zero node]
  rfl

/-- What is taken from the current block of a node is used. -/
theorem Balanced.took (balanced : c.Balanced missed) (ordered : c.Ordered) (sound : block.Sound)
    (here : c.current node = some index) (found : c.blocks[index]? = some block)
    (fits : block.take? r.rounded r.alignment = some taken) :
    (c.took index r taken).Balanced missed := by
  have regions := took_regions found fits
  intro nodes all
  have known := balanced nodes all
  have member : node ∈ nodes := all (here ▸ rfl)
  have grown : (c.took index r taken).consumed node =
      c.consumed node + (r.rounded + taken.padding) := by
    have set : (c.took index r taken).blocks[index]? = some taken.block := getElem?_took found
    have same : (c.took index r taken).current node = some index := here
    simp only [consumed, same, here, set, found, regions, Option.elim_some,
      Block.take?_used sound fits]
    omega
  have others : ∀ other, other ≠ node →
      (c.took index r taken).consumed other = c.consumed other := by
    intro other different
    have same : (c.took index r taken).current other = c.current other := rfl
    cases there : c.current other with
    | none => simp only [consumed, same, there]
    | some place =>
      have apart : index ≠ place := by
        rintro rfl
        exact different ((ordered.own there found).symm.trans (ordered.own here found))
      have unset : (c.took index r taken).blocks[place]? = c.blocks[place]? :=
        getElem?_took_of_ne apart
      simp only [consumed, same, there, unset, regions]
  rw [sum_consumed_add member others grown, ← known]
  simp only [Chain.took, Tally.record]
  omega

/-- The regions up to a position are those up to an earlier one, the one there, and those between. -/
theorem take_split {regions : List Region} {old : Nat} {region : Region}
    (there : regions[old]? = some region) (behind : old < index) :
    regions.take index = regions.take old ++ region :: (regions.take index).drop (old + 1) := by
  have inside : (regions.take index)[old]? = some region := by
    rw [List.getElem?_take_of_lt behind, there]
  obtain ⟨below, same⟩ := List.getElem?_eq_some_iff.1 inside
  have split := List.take_append_drop old (regions.take index)
  rw [List.drop_eq_getElem_cons below, same, List.take_take, Nat.min_eq_left (Nat.le_of_lt behind)]
    at split
  exact split.symm

/-- Another block becomes current: what was left of the previous one is consumed, and so is what is
passed over. -/
theorem consumed_advance {old : Nat} {previous : Block} (succeeds : c.Succeeds node index)
    (here : c.current node = some old) (there : c.blocks[old]? = some previous) :
    (c.advance node index).consumed node = c.consumed node +
      (previous.available + Region.total (c.skipped (c.advance node index) node)) := by
  obtain ⟨behind, block, same, own⟩ := succeeds.previous here
  cases Option.some.inj (there.symm.trans same)
  obtain ⟨fresh, found⟩ := succeeds.unused
  have region := getElem?_regions there
  have mine : (previous.region.node == node) = true := beq_iff_eq.2 own
  have length := (succeeds.sound previous (List.mem_of_getElem? there)).used_add_available
  have split : Region.total ((c.regions.take index).filter (·.node == node)) =
      Region.total ((c.regions.take old).filter (·.node == node)) + (previous.region.length +
        Region.total (((c.regions.take index).drop (old + 1)).filter (·.node == node))) := by
    conv => lhs; rw [take_split region behind]
    rw [List.filter_append, Region.total_append, List.filter_cons, if_pos mine]
    rfl
  have moved := current_advance_self c node index
  have blocks : (c.advance node index).blocks = c.blocks := rfl
  have regions : (c.advance node index).regions = c.regions := rfl
  simp only [consumed, skipped, here, moved, blocks, regions, found, there, Option.elim_some,
    Block.ofRegion_used, split]
  omega

/-- The first block of a node becomes current: nothing of the node was consumed before, nor is it now. -/
theorem consumed_advance_first (succeeds : c.Succeeds node index) (here : c.current node = none) :
    (c.advance node index).consumed node = c.consumed node := by
  obtain ⟨fresh, found⟩ := succeeds.unused
  have moved := current_advance_self c node index
  have blocks : (c.advance node index).blocks = c.blocks := rfl
  have regions : (c.advance node index).regions = c.regions := rfl
  have none : (c.regions.take index).filter (·.node == node) = [] :=
    List.filter_eq_nil_iff.2 fun region member => by simpa using succeeds.first here region member
  simp only [consumed, here, moved, blocks, regions, found, none, Option.elim_some,
    Block.ofRegion_used]
  rfl

/-- The rest of the previous block is used, and what is passed over is missed. -/
theorem Balanced.advance (balanced : c.Balanced missed) (succeeds : c.Succeeds node index) :
    (c.advance node index).Balanced (c.skipped (c.advance node index) node ++ missed) := by
  intro nodes all
  have member : node ∈ nodes := all (current_advance_self c node index ▸ rfl)
  have others : ∀ other, other ≠ node →
      (c.advance node index).consumed other = c.consumed other := by
    intro other different
    simp only [consumed, current_advance_of_ne different]
    rfl
  -- A node that is busy before is busy after, so the nodes are enough for both sums.
  have known := balanced nodes fun {other} busy => by
    by_cases mine : other = node
    · exact mine ▸ member
    · exact all ((current_advance_of_ne mine).symm ▸ busy)
  cases here : c.current node with
  | none =>
    have grown : (c.advance node index).consumed node = c.consumed node + 0 :=
      consumed_advance_first succeeds here
    have none : c.skipped (c.advance node index) node = [] := by simp only [skipped, here]
    rw [sum_consumed_add member others grown, ← known, none]
    simp only [Chain.advance, here, Option.bind_none, List.nil_append]
    rfl
  | some old =>
    obtain ⟨-, previous, there, -⟩ := succeeds.previous here
    have grown := consumed_advance succeeds here there
    rw [sum_consumed_add member others grown, ← known, Region.total_append]
    simp only [Chain.advance, here, Option.bind_some, there, Tally.abandon]
    omega

/-- A region that is added is of no account until it is used. -/
theorem consumed_joined {region : Region} (settled : c.Settled) (node : Nat) :
    (c.joined region).consumed node = c.consumed node := by
  have same : (c.joined region).current node = c.current node := rfl
  cases here : c.current node with
  | none => simp only [consumed, same, here]
  | some index =>
    have inside := settled.inside here
    have old : (c.joined region).blocks[index]? = c.blocks[index]? := getElem?_joined inside
    have before : (c.joined region).regions.take index = c.regions.take index := by
      rw [joined_regions, List.take_append_of_le_length]
      rw [regions, List.length_map]
      exact Nat.le_of_lt inside
    simp only [consumed, same, here, old, before]

theorem Balanced.joined {region : Region} (balanced : c.Balanced missed) (settled : c.Settled) :
    (c.joined region).Balanced missed := by
  intro nodes all
  refine (balanced nodes all).trans (Finset.sum_congr rfl fun node _ => ?_)
  exact (consumed_joined settled node).symm

/-- Nothing is passed over where the same block stays current. -/
theorem skipped_self (c : Chain) (node : Nat) : c.skipped c node = [] := by
  unfold skipped
  split
  · next old new here there =>
    cases Option.some.inj (here.symm.trans there)
    rw [List.drop_eq_nil_of_le (Nat.le_succ_of_le (List.length_take_le ..)), List.filter_nil]
  · rfl

theorem Balanced.turned (balanced : c.Balanced missed) (good : c.Good contract s)
    (moves : c.Turns node new next) : next.Balanced (c.skipped next node ++ missed) := by
  rcases good.succeeds moves with ⟨rfl, -⟩ | ⟨d, index, rfl, succeeds, ⟨rfl, -⟩ | ⟨region, rfl, -⟩⟩
  · rw [skipped_self]
    exact balanced
  · exact balanced.advance succeeds
  · exact (balanced.joined good.ordered.toSettled).advance succeeds

theorem Balanced.ends (balanced : c.Balanced missed) (ordered : c.Ordered)
    (sound : ∀ block ∈ c.blocks, block.Sound) (ends : c.Ends r answer next) :
    next.Balanced missed := by
  cases ends with
  | denied => exact balanced
  | taken here found fits =>
    exact balanced.took ordered (sound _ (List.mem_of_getElem? found)) here found fits

/-- A request is answered at the expense of what it uses and of what it passes over. -/
theorem Balanced.allocate (balanced : c.Balanced missed) (good : c.Good contract s)
    (served : c.allocate os blockSize s r = (answer, next, supply)) :
    next.Balanced (c.skipped next (c.target r) ++ missed) := by
  obtain ⟨new, middle, moves, ends⟩ := allocate_turns served
  have same : c.skipped next (c.target r) = c.skipped middle (c.target r) := by
    simp only [skipped, ends.current, ends.regions]
  rw [same]
  exact (balanced.turned good moves).ends (good.ordered.turned moves)
    (moves.cursors good.sound.cursors) ends

theorem Reached.balanced (reached : Reached contract blockSize c s turns)
    (kept : .released ∉ turns) : c.Balanced (passed turns) := by
  induction reached with
  | start preferred _ => exact (Begins.created preferred).balanced
  | allocate reached served ih =>
    exact (ih fun old => kept (List.mem_cons_of_mem _ old)).allocate reached.good served
  | @reset c => exact (Begins.reset c).balanced
  | release => exact absurd (List.mem_cons_self ..) kept
  | others _ _ _ ih => exact ih kept

/-- Only regions of some length are passed over. -/
theorem Reached.passed_pos (reached : Reached contract blockSize c s turns) :
    ∀ region ∈ passed turns, 0 < region.length := by
  induction reached with
  | start => exact nofun
  | @allocate c next s supply turns r answer reached served ih =>
    refine List.forall_mem_append.2 ⟨fun region member => ?_, ih⟩
    have custody := (reached.good.allocate served).custody
    unfold skipped at member
    split at member
    · exact custody.length_pos region
        (List.mem_of_mem_take (List.mem_of_mem_drop (List.mem_of_mem_filter member)))
    · cases member
  | reset => exact nofun
  | release _ ih => exact ih
  | others _ _ _ ih => exact ih

/-- As long as a chain is not released, its used bytes and those of the blocks that were passed over
since the last reset are the bytes that it cannot hand out before the next one. So the used bytes alone
are these exactly where no block was passed over. -/
theorem Reached.bytesUsed_add_passed (reached : Reached contract blockSize c s turns)
    (kept : .released ∉ turns) {nodes : Finset Nat}
    (all : ∀ {node}, (c.current node).isSome → node ∈ nodes) :
    c.tally.bytesUsed + Region.total (passed turns) = ∑ node ∈ nodes, c.consumed node ∧
      (c.tally.bytesUsed = ∑ node ∈ nodes, c.consumed node ↔ passed turns = []) := by
  have balanced := reached.balanced kept nodes all
  refine ⟨balanced, fun exact => ?_, fun none => ?_⟩
  · refine List.eq_nil_iff_forall_not_mem.2 fun region member => ?_
    have positive : 0 < Region.total (passed turns) := List.sum_pos_iff_exists_pos_nat.2
      ⟨region.length, List.mem_map_of_mem member, reached.passed_pos region member⟩
    omega
  · rw [← balanced, none]
    rfl

/-- Only nodes that have blocks have current ones. -/
theorem Ordered.busy_mem (ordered : c.Ordered) {nodes : Finset Nat}
    (all : ∀ node ∈ c.nodes, node ∈ nodes) (busy : (c.current node).isSome) : node ∈ nodes := by
  obtain ⟨index, here⟩ := Option.isSome_iff_exists.1 busy
  exact all node (ordered.mem_nodes here)

/-- A block is left for another one of its node, and the rest of it is used. -/
theorem Reached.bytesUsed_add_passed_two_nodes :
    let settings : Simulated.Settings := { topology := Topology.singleNode.describe ⟨1, "1", none⟩ }
    let contract := Simulated.contract settings (by decide) (by decide)
    ∃ c s turns, Reached contract ⟨12, by decide⟩ c s turns ∧ .released ∉ turns ∧
      (∀ {node}, (c.current node).isSome → node ∈ ({0, 1} : Finset Nat)) ∧
      c.tally.bytesUsed = 12416 ∧ c.tally.bytesUsed = ∑ node ∈ {0, 1}, c.consumed node := by
  let settings : Simulated.Settings := { topology := Topology.singleNode.describe ⟨1, "1", none⟩ }
  let contract := Simulated.contract settings (by decide) (by decide)
  let s : Supply Simulated.State := ⟨⟨false, false, 0, 0, 0⟩, Simulated.machine {}⟩
  have start : Reached contract ⟨12, by decide⟩ { preferred := 0 } s [] :=
    .start 0 (Simulated.machine_sound {})
  have reached := ((start.ask ⟨100, 128, wordAlignment, none⟩).ask
    ⟨8192, 8192, wordAlignment, none⟩).ask ⟨100, 128, wordAlignment, some 1⟩
  have all {node : Nat} : _ → node ∈ ({0, 1} : Finset Nat) :=
    reached.good.ordered.busy_mem (by decide +kernel)
  exact ⟨_, _, _, reached, by decide +kernel, all, by decide +kernel,
    (reached.bytesUsed_add_passed (by decide +kernel) all).2.2 (by decide +kernel)⟩

/-- After a reset a block is passed over. Of the three blocks of the node, the first and third are
accounted for. -/
theorem Reached.bytesUsed_misses_passed :
    let contract := Simulated.contract {} (by decide) (by decide)
    ∃ c s turns, Reached contract ⟨12, by decide⟩ c s turns ∧ .released ∉ turns ∧
      (∀ node, (c.current node).isSome ↔ node ∈ ({0} : Finset Nat)) ∧
      c.tally.bytesUsed = 16384 ∧ ∑ node ∈ {0}, c.consumed node = 24576 ∧
      c.tally.bytesUsed ≠ ∑ node ∈ {0}, c.consumed node := by
  let contract := Simulated.contract {} (by decide) (by decide)
  let s : Supply Simulated.State := ⟨⟨false, false, 0, 0, 0⟩, Simulated.machine {}⟩
  have start : Reached contract ⟨12, by decide⟩ { preferred := 0 } s [] :=
    .start 0 (Simulated.machine_sound {})
  have reached := ((((start.ask ⟨100, 128, wordAlignment, none⟩).ask
    ⟨4096, 4096, wordAlignment, none⟩).ask ⟨12288, 12288, wordAlignment, none⟩).reset).ask
      ⟨12288, 12288, wordAlignment, none⟩
  refine ⟨_, _, _, reached, by decide +kernel, ?_, by decide +kernel, ?_, ?_⟩
  · refine fun node => ⟨reached.good.ordered.busy_mem (by decide +kernel), fun here => ?_⟩
    cases Finset.mem_singleton.1 here
    decide +kernel
  · rw [Finset.sum_singleton]
    decide +kernel
  · rw [Finset.sum_singleton]
    decide +kernel

end Chain

end NumaHeap.Arena
