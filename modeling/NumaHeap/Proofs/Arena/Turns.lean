import NumaHeap.Proofs.Arena.Replay

/-!
What becomes of a chain turn by turn. To answer a request, a chain makes at most one block current
that was not so, and takes at most once from the block that is current then. The blocks of a node
behind its current one stay as they were mapped or rewound, and a node has a current block as soon as
it has any.
-/

namespace NumaHeap.Arena

variable {σ : Type}

/-- What is taken is used, and so is the padding before it. -/
theorem Block.take?_used {b : Block} {size : Nat} {alignment : PowerOfTwo} {taken : Taken}
    (sound : b.Sound) (some : b.take? size alignment = some taken) :
    taken.block.used = b.used + (size + taken.padding) := by
  unfold take? at some
  split at some
  · cases some
    have above := sound.1
    simp only [used]
    omega
  · cases some

namespace Chain

/-- The block from which a node is served is current already, or becomes so: a later block of the
node, or a new one over a region that is added. -/
inductive Turns (node : Nat) (c : Chain) : List Region → Chain → Prop
  | stays : Turns node c [] c
  | later {index : Nat} {block : Block} :
      c.blocks[index]? = some block → block.node = node →
      (∀ current, c.current node = some current → current < index) →
      Turns node c [] (c.advance node index)
  | joined {region : Region} :
      region.node = node →
      Turns node c [region] ((c.joined region).advance node c.blocks.length)

/-- A request is served from the current block of its node, or it is denied. -/
inductive Ends (r : Request) (c : Chain) : Except AllocError Placement → Chain → Prop
  | denied (error : AllocError) : Ends r c (.error error) c
  | taken {index : Nat} {block : Block} {taken : Block.Taken} :
      c.current (c.target r) = some index → c.blocks[index]? = some block →
      block.take? r.rounded r.alignment = some taken →
      Ends r c (.ok ⟨taken.address, c.target r⟩) (c.took index r taken)

/-- Current blocks belong to their nodes, and nothing was taken from those behind them. -/
structure Ordered (c : Chain) : Prop extends c.Settled where
  own : ∀ {node index block}, c.current node = some index → c.blocks[index]? = some block →
    block.node = node
  fresh : ∀ {node current index block}, c.current node = some current → current < index →
    c.blocks[index]? = some block → block.node = node → block = .ofRegion block.region

/-- The block at a position may become current: nothing was taken from it, and it stands behind the
current block of the node, or is the first one if there is none. -/
structure Succeeds (c : Chain) (node index : Nat) : Prop where
  sound : ∀ block ∈ c.blocks, block.Sound
  previous : ∀ {old}, c.current node = some old →
    old < index ∧ ∃ block, c.blocks[old]? = some block ∧ block.node = node
  first : c.current node = none → ∀ region ∈ c.regions.take index, region.node ≠ node
  unused : ∃ region, c.blocks[index]? = some (.ofRegion region)

variable {os : Platform σ} {contract : os.Contract} {blockSize : PowerOfTwo}
  {c next after : Chain} {s supply : Supply σ} {r : Request} {node index : Nat}
  {new : List Region} {answer : Except AllocError Placement} {block : Block}
  {taken : Block.Taken}

theorem current_advance_self (c : Chain) (node index : Nat) :
    (c.advance node index).current node = some index := if_pos rfl

theorem current_advance_of_ne {other : Nat} (different : other ≠ node) :
    (c.advance node index).current other = c.current other := if_neg different

theorem getElem?_joined {region : Region} (inside : index < c.blocks.length) :
    (c.joined region).blocks[index]? = c.blocks[index]? := List.getElem?_append_left inside

theorem getElem?_joined_length (c : Chain) (region : Region) :
    (c.joined region).blocks[c.blocks.length]? = some (.ofRegion region) :=
  List.getElem?_concat_length ..

theorem getElem?_took (found : c.blocks[index]? = some block) :
    (c.took index r taken).blocks[index]? = some taken.block :=
  List.getElem?_set_self (List.getElem?_eq_some_iff.1 found).1

theorem getElem?_took_of_ne {other : Nat} (different : index ≠ other) :
    (c.took index r taken).blocks[other]? = c.blocks[other]? := List.getElem?_set_ne different

/-- A search that begins behind the current block turns to a later one. -/
theorem turns_of_candidate?
    (found : c.candidate? ((c.current node).elim 0 (· + 1)) node r = some index) :
    c.Turns node [] (c.advance node index) := by
  obtain ⟨behind, block, there, same, -⟩ := candidate?_spec found
  refine .later there same fun current here => ?_
  rw [here, Option.elim_some] at behind
  exact behind

/-- The current block serves the request, or there is no room for it. -/
theorem ends_serveFrom (c : Chain) (r : Request) (index : Nat) :
    (c.advance (c.target r) index).Ends r (c.serveFrom (c.target r) index r).1
      (c.serveFrom (c.target r) index r).2 := by
  simp only [serveFrom]
  split
  · next some =>
    obtain ⟨block, taken, found, fits, rfl, rfl⟩ := takeFrom?_eq_some some
    exact .taken (current_advance_self c (c.target r) index) found fits
  · exact .denied _

/-- A chain answers a request in two steps, of which the first decides about its blocks. -/
theorem allocate_turns (served : c.allocate os blockSize s r = (answer, next, supply)) :
    ∃ new middle, c.Turns (c.target r) new middle ∧ middle.Ends r answer next := by
  simp only [allocate] at served
  split at served
  · next some =>
    obtain ⟨index, here, some⟩ := Option.bind_eq_some_iff.1 some
    obtain ⟨block, taken, found, fits, rfl, rfl⟩ := takeFrom?_eq_some some
    cases served
    exact ⟨[], c, .stays, .taken here found fits⟩
  · split at served
    · next index found =>
      cases served
      exact ⟨[], _, turns_of_candidate? found, ends_serveFrom c r index⟩
    · split at served
      · cases served
        exact ⟨[], c, .stays, .denied _⟩
      · next larger middle extended =>
        unfold extend at extended
        split at extended
        · cases extended
        · next length enough =>
          split at extended
          · cases extended
          · next region between mapped =>
            obtain ⟨-, here, -⟩ := (Supply.map_grows (blockLength?_pos enough) mapped).1 region rfl
            cases extended
            cases served
            exact ⟨[region], _, .joined here,
              ends_serveFrom (c.joined region) r c.blocks.length⟩

theorem Turns.target (moves : c.Turns node new next) (r : Request) : next.target r = c.target r := by
  cases moves <;> rfl

theorem Turns.cursors (moves : c.Turns node new next) (sound : ∀ block ∈ c.blocks, block.Sound) :
    ∀ block ∈ next.blocks, block.Sound := by
  cases moves with
  | stays => exact sound
  | later => exact sound
  | joined =>
    exact List.forall_mem_append.2
      ⟨sound, List.forall_mem_singleton.2 (Block.ofRegion_sound _)⟩

theorem Ends.regions (ends : c.Ends r answer next) : next.regions = c.regions := by
  cases ends with
  | denied => rfl
  | taken _ found fits => exact took_regions found fits

theorem Ends.current (ends : c.Ends r answer next) : next.current = c.current := by
  cases ends <;> rfl

/-- A node that has a block has a current one. -/
theorem Settled.exists_current (settled : c.Settled) (found : c.blocks[index]? = some block)
    (same : block.node = node) : ∃ current, c.current node = some current := by
  refine Option.ne_none_iff_exists'.1 fun none => settled.present none ?_
  exact List.mem_map.2 ⟨block.region, List.mem_map_of_mem (List.mem_of_getElem? found), same⟩

namespace Ordered

/-- Taking from the current block of a node touches none behind it. -/
theorem took (ordered : c.Ordered) (here : c.current node = some index)
    (found : c.blocks[index]? = some block)
    (fits : block.take? r.rounded r.alignment = some taken) : (c.took index r taken).Ordered where
  toSettled := ordered.toSettled.took found fits
  own {other place later} there stands := by
    rw [Chain.took, List.getElem?_set] at stands
    split at stands
    · next same =>
      split at stands
      · cases stands
        rw [Block.node, Block.take?_region fits]
        exact ordered.own there (same ▸ found)
      · cases stands
    · exact ordered.own there stands
  fresh {other current place later} there behind stands mine := by
    rw [Chain.took, List.getElem?_set] at stands
    split at stands
    · next same =>
      split at stands
      · cases stands
        rw [Block.node, Block.take?_region fits] at mine
        have owner : block.node = node := ordered.own here found
        obtain rfl : node = other := owner.symm.trans mine
        rw [← same, Option.some.inj (there.symm.trans here)] at behind
        exact absurd behind (Nat.lt_irrefl index)
      · cases stands
    · exact ordered.fresh there behind stands mine

/-- A later block of a node becomes current. -/
theorem advance (ordered : c.Ordered) (found : c.blocks[index]? = some block)
    (same : block.node = node)
    (behind : ∀ current, c.current node = some current → current < index) :
    (c.advance node index).Ordered where
  toSettled := Settled.advance ordered.inside (fun _ => ordered.present)
    (List.getElem?_eq_some_iff.1 found).1
  own {other place later} there stands := by
    by_cases mine : other = node
    · subst mine
      cases (current_advance_self c other index).symm.trans there
      cases Option.some.inj (found.symm.trans stands)
      exact same
    · rw [current_advance_of_ne mine] at there
      exact ordered.own there stands
  fresh {other current place later} there after stands its := by
    by_cases mine : other = node
    · subst mine
      cases (current_advance_self c other index).symm.trans there
      obtain ⟨old, here⟩ := ordered.exists_current found same
      exact ordered.fresh here (Nat.lt_trans (behind old here) after) stands its
    · rw [current_advance_of_ne mine] at there
      exact ordered.fresh there after stands its

/-- A block that was mapped for a node becomes current. -/
theorem joined {region : Region} (ordered : c.Ordered) (same : region.node = node) :
    ((c.joined region).advance node c.blocks.length).Ordered := by
  have new := c.getElem?_joined_length region
  refine { toSettled := ordered.toSettled.joined same, own := ?_, fresh := ?_ }
  · intro other place later there stands
    by_cases mine : other = node
    · subst mine
      cases (current_advance_self _ other _).symm.trans there
      cases Option.some.inj (new.symm.trans stands)
      exact same
    · rw [current_advance_of_ne mine] at there
      exact ordered.own there ((getElem?_joined (ordered.inside there)).symm.trans stands)
  · intro other current place later there after stands its
    have last : place < c.blocks.length + 1 := by
      have within := (List.getElem?_eq_some_iff.1 stands).1
      simpa [Chain.advance, Chain.joined] using within
    by_cases ends : place = c.blocks.length
    · subst ends
      cases Option.some.inj (new.symm.trans stands)
      rfl
    · have inside : place < c.blocks.length := by omega
      by_cases mine : other = node
      · subst mine
        cases (current_advance_self _ other _).symm.trans there
        omega
      · rw [current_advance_of_ne mine] at there
        exact ordered.fresh there after ((getElem?_joined inside).symm.trans stands) its

theorem turned (ordered : c.Ordered) (moves : c.Turns node new next) : next.Ordered := by
  cases moves with
  | stays => exact ordered
  | later found same behind => exact ordered.advance found same behind
  | joined same => exact ordered.joined same

theorem ends (ordered : c.Ordered) (ends : c.Ends r answer next) : next.Ordered := by
  cases ends with
  | denied => exact ordered
  | taken here found fits => exact ordered.took here found fits

theorem allocate (ordered : c.Ordered)
    (served : c.allocate os blockSize s r = (answer, next, supply)) : next.Ordered := by
  obtain ⟨new, middle, moves, ends⟩ := allocate_turns served
  exact (ordered.turned moves).ends ends

end Ordered

/-- Nothing was taken from the blocks of a chain that begins. -/
theorem Begins.ordered (begins : c.Begins) : c.Ordered := by
  obtain ⟨blocks, current, -⟩ := begins.spec
  refine { toSettled := begins.settled, own := ?_, fresh := ?_ }
  · intro node index block here found
    rw [current] at here
    obtain ⟨inside, same, -⟩ := List.findIdx?_eq_some_iff_getElem.1 here
    have there : c.nodes[index]? = some block.node := by
      rw [nodes, regions, List.getElem?_map, List.getElem?_map, found]
      rfl
    rw [List.getElem?_eq_getElem inside] at there
    exact Option.some.inj there ▸ beq_iff_eq.1 same
  · intro node current index block _ _ found _
    have member := List.mem_of_getElem? found
    rw [blocks] at member
    obtain ⟨region, -, rfl⟩ := List.mem_map.1 member
    rfl

theorem Ordered.reset (c : Chain) : c.reset.Ordered := (Begins.reset c).ordered

/-- A node that has a current block has a block. -/
theorem Ordered.mem_nodes (ordered : c.Ordered) (here : c.current node = some index) :
    node ∈ c.nodes := by
  have there := List.getElem?_eq_getElem (ordered.inside here)
  have own := ordered.own here there
  exact List.mem_map.2
    ⟨_, List.mem_map_of_mem (List.mem_of_getElem? there), own⟩

/-- A chain without blocks has no current ones. -/
theorem Ordered.release (c : Chain) (os : Platform σ) (s : Supply σ) :
    (c.release os s).1.Ordered where
  inside := nofun
  present _ := List.not_mem_nil
  own := nofun
  fresh := nofun

/-- The regions of a node that a chain has passed over on the way from its current block of the node
to another one. -/
def skipped (c next : Chain) (node : Nat) : List Region :=
  match c.current node, next.current node with
  | some old, some new => ((next.regions.take new).drop (old + 1)).filter (·.node == node)
  | _, _ => []

/-- What happened to a chain. -/
inductive Turn where
  /-- It was asked for memory, and passed over some blocks. -/
  | asked (passed : List Region)
  | reset
  | released
deriving DecidableEq

/-- What becomes of the chain of a thread: it is asked, reset and released in any order, with whatever
supply there is then, as long as the regions that it has stay mapped. What happened last stands
first. -/
inductive Reached {os : Platform σ} (contract : os.Contract) (blockSize : PowerOfTwo) :
    Chain → Supply σ → List Turn → Prop
  | start {s : Supply σ} (preferred : Nat) :
      contract.Possible s.machine.system → Reached contract blockSize { preferred } s []
  | allocate {c next : Chain} {s supply : Supply σ} {turns : List Turn} {r : Request}
      {answer : Except AllocError Placement} :
      Reached contract blockSize c s turns →
      c.allocate os blockSize s r = (answer, next, supply) →
      Reached contract blockSize next supply (.asked (c.skipped next (c.target r)) :: turns)
  | reset {c : Chain} {s : Supply σ} {turns : List Turn} :
      Reached contract blockSize c s turns →
      Reached contract blockSize c.reset s (.reset :: turns)
  | release {c : Chain} {s : Supply σ} {turns : List Turn} :
      Reached contract blockSize c s turns →
      Reached contract blockSize (c.release os s).1 (c.release os s).2 (.released :: turns)
  | others {c : Chain} {s supply : Supply σ} {turns : List Turn} :
      Reached contract blockSize c s turns → contract.Possible supply.machine.system →
      (∀ region ∈ c.regions, contract.Mapped supply.machine.system region.extent) →
      Reached contract blockSize c supply turns

variable {turns : List Turn}

/-- Whatever comes of it, a chain may be asked. -/
theorem Reached.ask (reached : Reached contract blockSize c s turns) (r : Request) :
    Reached contract blockSize (c.allocate os blockSize s r).2.1 (c.allocate os blockSize s r).2.2
      (.asked (c.skipped (c.allocate os blockSize s r).2.1 (c.target r)) :: turns) :=
  .allocate reached rfl

/-- What a chain always is: its cursors are within its blocks, which are mapped and in order. -/
structure Good (contract : os.Contract) (c : Chain) (s : Supply σ) : Prop where
  sound : c.Sound
  ordered : c.Ordered
  custody : os.Custody contract s.machine.system c.regions

/-- Whatever block becomes current, it is the successor of the one that was so. -/
theorem Good.succeeds (good : c.Good contract s) (moves : c.Turns node new next) :
    next = c ∧ new = [] ∨ ∃ d index, next = d.advance node index ∧ d.Succeeds node index ∧
      (d = c ∧ new = [] ∧ index < c.blocks.length ∨
        ∃ region, d = c.joined region ∧ new = [region] ∧ index = c.blocks.length) := by
  obtain ⟨sound, ordered, -⟩ := good
  cases moves with
  | stays => exact .inl ⟨rfl, rfl⟩
  | @later index block found same behind =>
    obtain ⟨current, here⟩ := ordered.exists_current found same
    have inside := (List.getElem?_eq_some_iff.1 found).1
    refine .inr ⟨c, index, rfl, ⟨sound.cursors, fun {old} busy => ⟨behind old busy, ?_⟩,
      fun none => ?_, block.region, ?_⟩, .inl ⟨rfl, rfl, inside⟩⟩
    · have there := List.getElem?_eq_getElem (ordered.inside busy)
      exact ⟨_, there, ordered.own busy there⟩
    · cases none.symm.trans here
    · rw [← ordered.fresh here (behind current here) found same]
      exact found
  | @joined region same =>
    have before : (c.joined region).regions.take c.blocks.length = c.regions := by
      rw [joined_regions, List.take_left']
      exact List.length_map ..
    refine .inr ⟨c.joined region, c.blocks.length, rfl, ⟨?_, fun {old} busy => ?_,
      fun none other member mine => ?_, region, c.getElem?_joined_length region⟩,
      .inr ⟨region, rfl, rfl, rfl⟩⟩
    · exact List.forall_mem_append.2
        ⟨sound.cursors, List.forall_mem_singleton.2 (Block.ofRegion_sound region)⟩
    · have inside := ordered.inside busy
      have there := List.getElem?_eq_getElem inside
      exact ⟨inside, _, (getElem?_joined inside).trans there, ordered.own busy there⟩
    · rw [before] at member
      exact ordered.present none (List.mem_map.2 ⟨other, member, mine⟩)

theorem Good.allocate (good : c.Good contract s)
    (served : c.allocate os blockSize s r = (answer, next, supply)) : next.Good contract supply := by
  obtain ⟨new, answers⟩ := allocate_spec served
  refine ⟨answers.sound good.sound, good.ordered.allocate served, ?_⟩
  rw [answers.regions good.sound]
  exact (answers.grows.gains.custody good.custody).perm List.perm_append_comm

theorem Good.release (good : c.Good contract s) :
    (c.release os s).1.Good contract (c.release os s).2 where
  sound := by
    refine ⟨nofun, ?_⟩
    have counted : c.tally.hugeBlocks = c.blocks.countP (·.region.isHuge) := by
      rw [good.sound.huge, regions, List.countP_map]
      rfl
    change c.tally.hugeBlocks - c.blocks.countP (·.region.isHuge) = 0
    rw [counted, Nat.sub_self]
  ordered := .release c os s
  custody := by
    have machine := (Supply.unmapAll_spec os s c.regions).1
    have all : os.Custody contract s.machine.system (c.regions ++ []) := by
      rw [List.append_nil]
      exact good.custody
    have none := all.unmapAll
    change os.Custody contract (s.unmapAll os c.regions).machine.system []
    rw [machine]
    exact none

theorem Reached.good (reached : Reached contract blockSize c s turns) :
    c.Good contract s := by
  induction reached with
  | start preferred possible =>
    exact ⟨⟨nofun, rfl⟩, (Begins.created preferred).ordered, .nil possible⟩
  | allocate _ served ih => exact ih.allocate served
  | @reset c s turns _ ih =>
    exact ⟨ih.sound.reset, .reset c, (reset_regions c).symm ▸ ih.custody⟩
  | release _ ih => exact ih.release
  | others _ possible mapped ih =>
    exact ⟨ih.sound, ih.ordered, ih.custody.of_system possible mapped⟩

end Chain

end NumaHeap.Arena
