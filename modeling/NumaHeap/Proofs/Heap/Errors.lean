import NumaHeap.Proofs.Heap.Checked
import NumaHeap.Proofs.Heap.Denial

/-!
The errors to which a demand may come. The tier that serves a demand is chosen by its size, and the nodes
that it is asked for exist; so all that a tier can be short of is memory, unless the mode lets a size pass
that is zero or that comes too close to the end of memory to be rounded up.
-/

namespace NumaHeap

open Session

/-- With one of these errors a tier denies a request of some size. -/
inductive AllocError.Denies (size : Nat) : AllocError → Prop
  | zeroSize : size = 0 → Denies size .zeroSize
  | overflow : Word.bound - 128 < size → Denies size .overflow
  | map (cause : MapError) : Denies size (.map cause)

/-- To one of these errors a request of some size comes in some mode. -/
inductive AllocError.Arises (mode : Security.Mode) (size : Nat) : AllocError → Prop
  | zeroSize : mode = .disabled → size = 0 → Arises mode size .zeroSize
  | overflow : mode = .disabled → Word.bound - 128 < size → Arises mode size .overflow
  | map (cause : MapError) : Arises mode size (.map cause)
  | rejected (cause : Rejection) : Arises mode size (.rejected cause)

/-- To one of these errors a demand comes in some mode: to one of its requests, or to one about what else
it names. -/
inductive Session.Demand.Fails (mode : Security.Mode) : Demand → AllocError → Prop
  | request {demand : Demand} {error : AllocError} :
      error.Arises mode demand.size → Fails mode demand error
  | node {size node : Nat} : Fails mode (.onNode size node) (.invalidNode node)
  | alignment {size alignment : Nat} :
      Fails mode (.aligned size alignment) (.invalidAlignment alignment)
  | cacheLine {size : Nat} : Fails mode (.cacheAligned size) (.invalidAlignment cacheLine.value)
  | product {count size : Nat} {kind : ObjectKind} : Word.bound ≤ count * size →
      Fails mode (.zeroed count size kind) .overflow

namespace Size

variable {size rounded : Nat}

/-- What is no class is less than a cache line more than it was. -/
theorem arenaRounded?_lt (some : arenaRounded? size = some rounded) :
    rounded ≤ 32768 ∨ rounded < size + 64 := by
  have classes : ∀ slot ∈ arenaClasses, slot ≤ 32768 := by decide
  unfold arenaRounded? at some
  split at some
  · cases some
  · split at some
    · next found =>
      cases some
      exact .inl (classes rounded (List.mem_of_find?_eq_some found))
    · rw [PowerOfTwo.roundUp?_eq, Word.fit?_eq_some_iff, PowerOfTwo.mask,
        cacheLine_value] at some
      obtain ⟨-, rfl⟩ := some
      omega

end Size

/-- Only the disabled mode lets every size pass. -/
theorem Security.Mode.checkSize_ok {mode : Mode} {size : Nat} (accepted : mode.checkSize size = .ok ()) :
    mode = .disabled ∨ size ≠ 0 ∧ size ≤ basicLimit := by
  have limited : ∀ limit, mode.sizeLimit? = some limit → limit ≤ basicLimit →
      size ≠ 0 ∧ size ≤ basicLimit := by
    intro limit here low
    simp only [checkSize, here] at accepted
    split at accepted
    · cases accepted
    · split at accepted
      · cases accepted
      · omega
  cases mode with
  | disabled => exact .inl rfl
  | basic => exact .inr (limited _ rfl (Nat.le_refl _))
  | enhanced => exact .inr (limited _ rfl (by decide))
  | paranoid => exact .inr (limited _ rfl (by decide))

theorem AllocError.Denies.arises {error : AllocError} {mode : Security.Mode} {size : Nat}
    (denies : error.Denies size) (accepted : mode.checkSize size = .ok ()) :
    error.Arises mode size := by
  have passed := Security.Mode.checkSize_ok accepted
  unfold Security.Mode.basicLimit at passed
  cases denies with
  | zeroSize empty => exact .zeroSize (passed.resolve_right fun some => some.1 empty) empty
  | overflow close =>
    refine .overflow (passed.resolve_right fun some => ?_) close
    unfold Word.bound at close
    omega
  | map cause => exact .map cause

variable {σ : Type} {os : Platform σ} {contract : os.Contract} {error : AllocError}
  {size : Nat} {thread : ThreadId} {machine later : Machine σ} {node : Option Nat}
  {alignment : PowerOfTwo}

namespace Arena

variable {p after : Pool} {id : Nat} {a : State}

/-- A block for a request that is rounded up has a length, except close to the end of memory. -/
theorem Chain.blockLength?_eq_none {blockSize : PowerOfTwo} {rounded : Nat}
    (enough : Size.arenaRounded? size = some rounded) (none : blockLength? blockSize rounded = none) :
    Word.bound - 128 < size := by
  have most := Size.arenaRounded?_lt enough
  unfold blockLength? at none
  split at none
  · rw [Word.add?, Word.fit?_eq_none_iff, Size.blockSlop, Word.bound] at none
    unfold Word.bound
    omega
  · cases none

theorem Pool.allocate_denies (sound : p.Sound) (possible : contract.Possible machine.system)
    (modest : alignment.value ≤ Max.max os.pageSize.value wordAlignment.value)
    (known : ∀ wish, node = some wish → os.topology.contains wish = true)
    (there : p.arena? id = some a)
    (served : p.allocate os machine id thread size alignment node = (.error error, after, later)) :
    error.Denies size := by
  unfold allocate at served
  split at served
  · next empty =>
    cases served
    exact .zeroSize empty
  · next nonzero =>
    split at served
    · next wish foreign =>
      obtain ⟨asked, foreign⟩ := Option.filter_eq_some_iff.1 foreign
      simp [known wish asked] at foreign
    · split at served
      · next none =>
        cases served
        have close := (Size.arenaRounded?_eq_none_iff.1 none).resolve_left nonzero
        exact .overflow (by omega)
      · next rounded enough =>
        unfold serve at served
        split at served
        · next lost => exact absurd lost (threadSlot_ne_none there)
        · next slot middle between found =>
          obtain ⟨rfl, -, -, b, here, -⟩ := threadSlot_spec sound found
          rw [here] at served
          cases answered : slot.chain.allocate os b.blockSize ⟨b.mapper, between⟩
              ⟨size, rounded, alignment, node⟩ with
          | mk answer rest =>
            obtain ⟨chain, supply⟩ := rest
            simp only [answered] at served
            cases served
            obtain ⟨-, denied⟩ := Chain.extend_of_denied possible modest
              (Size.eight_le_arenaRounded enough) answered
            rcases Chain.extend_denied denied with ⟨rfl, endless, -⟩ | ⟨cause, length, rfl, -⟩
            · exact .overflow (Chain.blockLength?_eq_none enough endless)
            · exact .map cause

end Arena

theorem Slab.allocate_denies {s after : Slab} (closed : os.topology.Closed) (counted : s.Counted os)
    (small : size ≤ Size.slabMax)
    (known : ∀ wish, node = some wish → os.topology.contains wish = true)
    (served : s.allocate os machine thread size node = (.error error, after, later)) :
    error.Denies size := by
  by_cases nonzero : size = 0
  · simp only [allocate, if_pos nonzero] at served
    cases served
    exact .zeroSize nonzero
  · have positive := Nat.pos_of_ne_zero nonzero
    obtain ⟨sizeClass, fits⟩ :=
      Option.isSome_iff_exists.1 (Size.slabClass?_isSome_iff.2 ⟨positive, small⟩)
    have target : os.topology.contains (node.getD (s.localNode os machine thread)) = true := by
      cases asked : node with
      | none => exact Topology.contains_iff.2 (localNode_lt closed s machine thread)
      | some wish => exact known wish asked
    obtain ⟨c, found⟩ := counted.cell target (Size.slabClass_lt fits)
    rw [allocate_eq_serve machine fits target] at served
    unfold serve at served
    rw [found] at served
    cases answered : c.allocate os ⟨s.mapper, machine⟩ with
    | mk answer rest =>
      obtain ⟨last, supply⟩ := rest
      simp only [answered] at served
      cases answer with
      | ok object => cases served
      | error cause =>
        dsimp only at served
        split at served
        · cases served
          exact .map cause
        · cases served

theorem Large.allocate_denies {l after : Large} {wish : Nat} (there : wish < l.registries.length)
    (served : l.allocate os machine size wish = (.error error, after, later)) : error.Denies size := by
  unfold allocate at served
  split at served
  · next empty =>
    cases served
    exact .zeroSize empty
  · rw [List.getElem?_eq_getElem there] at served
    split at served
    · next absent => cases absent
    · split at served
      · next cause _ _ =>
        cases served
        exact .map cause
      · cases served

namespace Heap

variable {h after : Heap σ} {explanation : Platform.Explanation contract} {free : Nat → List Nat}
  {live : List Allocation} {kind : ObjectKind} {tier : Tier}

/-- Large objects of a thread are served by a node that exists. -/
theorem localNode_lt (closed : os.topology.Closed) (h : Heap σ) (thread : ThreadId) :
    h.localNode os thread < os.topology.nodeCount := by
  unfold localNode
  split
  · exact os.currentNode_lt closed h.machine.system thread
  · exact closed.positive

/-- A tier that is there and serves sizes like this one. -/
def Suits (h : Heap σ) (size : Nat) (tier : Tier) : Prop :=
  tier = .slab → h.slab.isSome = true ∧ size ≤ Size.slabMax

theorem classify_suits (h : Heap σ) (size : Nat) (kind : ObjectKind) :
    h.Suits size (h.classify size kind) := by
  intro served
  unfold classify at served
  split at served
  · cases served
  · split at served
    · next both =>
      obtain ⟨there, small⟩ := Bool.and_eq_true_iff.1 both
      exact ⟨there, of_decide_eq_true small⟩
    · cases served

/-- Where no node is named, none is unknown. -/
theorem unnamed : ∀ wish, none = some wish → os.topology.contains wish = true := nofun

section

variable (closed : os.topology.Closed) (furnished : h.Furnished os)
  (secured : Secured explanation h free live) (modest : Modest os alignment)
  (suits : h.Suits size tier) (known : ∀ wish, node = some wish → os.topology.contains wish = true)

include closed furnished secured modest suits known

theorem dispatch_denies
    (served : h.dispatch os thread size tier node alignment = (.error error, after)) :
    error.Denies size := by
  have possible := secured.custody.possible
  have arena : ∀ {kind : ArenaKind},
      h.serveArena os thread size kind node alignment = (.error error, after) →
        error.Denies size := by
    intro kind served
    obtain ⟨a, there⟩ := secured.sound.arena? kind
    exact Arena.Pool.allocate_denies secured.sound.arenas possible modest known there
      (Prod.ext (congrArg (·.1) served) rfl)
  unfold dispatch at served
  split at served
  · have there : node.getD (h.localNode os thread) < h.large.registries.length := by
      rw [furnished.registries]
      cases asked : node with
      | none => exact localNode_lt closed h thread
      | some wish => exact Topology.contains_iff.1 (known wish asked)
    dsimp only at served
    split at served
    · cases served
    · next denied =>
      cases served
      exact Large.allocate_denies there denied
  · next cells present =>
    exact Slab.allocate_denies closed (furnished.counted cells present) (suits rfl).2 known
      (Prod.ext (congrArg (·.1) served) rfl)
  · exact arena served
  · exact arena served

theorem allocate_arises
    (served : h.allocate os thread size kind tier node alignment = (.error error, after)) :
    error.Arises h.mode size := by
  cases accepted : h.mode.checkSize size with
  | error cause =>
    simp only [allocate, accepted] at served
    cases served
    exact .rejected cause
  | ok =>
    cases allocate_outcome served with
    | barred => exact .rejected _
    | refused => exact .rejected _
    | denied denied =>
      exact (dispatch_denies closed furnished secured modest suits known denied).arises accepted

end

section

variable {count wish asked : Nat} {arena : ArenaKind} {demand : Demand}
  (closed : os.topology.Closed) (furnished : h.Furnished os)
  (secured : Secured explanation h free live)

include closed furnished secured

/-- The second request is made in the same mode, of a heap that is as sound as before. -/
theorem allocNuma_fails (served : h.allocNuma os thread size wish = (.error error, after)) :
    Demand.Fails h.mode (.onNode size wish) error := by
  simp only [allocNuma] at served
  split at served
  · next there =>
    split at served
    · next cause middle first =>
      obtain ⟨left, good, -⟩ := allocate_secured secured classify_slab first
      have between := furnished.allocate closed secured first
      have mode := allocate_mode os h thread size .generic (h.classify size .generic) (some wish)
        wordAlignment
      rw [first] at mode
      have same := (allocate_extends secured.sound first).classify size .generic
      have suits := middle.classify_suits size .generic
      rw [same] at suits
      have arises := allocate_arises closed between good (.word os) suits unnamed served
      rw [mode] at arises
      exact .request arises
    · refine .request (allocate_arises closed furnished secured (.word os)
        (h.classify_suits size .generic) (fun other same => ?_) served)
      cases same
      exact there
  · cases served
    exact .node

theorem allocAlignedIn_fails
    (served : h.allocAlignedIn os thread size asked arena = (.error error, after)) :
    error.Arises h.mode size ∨ error = .invalidAlignment asked := by
  unfold allocAlignedIn at served
  split at served
  · cases served
    exact .inr rfl
  · next power read =>
    obtain ⟨-, small⟩ := Option.filter_eq_some_iff.1 read
    exact .inl (allocate_arises closed furnished secured (.max (of_decide_eq_true small))
      (fun slab => absurd slab alignedTier_ne_slab) unnamed served)

theorem allocZeroed_fails
    (served : h.allocZeroed os thread count size kind = (.error error, after)) :
    Demand.Fails h.mode (.zeroed count size kind) error := by
  unfold allocZeroed at served
  split at served
  · next beyond =>
    cases served
    exact .product (Word.fit?_eq_none_iff.1 beyond)
  · next total product =>
    obtain ⟨-, rfl⟩ := Word.fit?_eq_some_iff.1 product
    split at served
    · cases served
    · exact .request (allocate_arises closed furnished secured (.word os)
        (h.classify_suits (count * size) kind) unnamed served)

/-- A demand that is not met comes to one of the errors that are its own. -/
theorem meet_fails (met : h.meet os thread demand = (.error error, after)) :
    demand.Fails h.mode error := by
  cases demand with
  | object size kind =>
    exact .request (allocate_arises closed furnished secured (.word os)
      (h.classify_suits size kind) unnamed met)
  | onNode size wish => exact allocNuma_fails closed furnished secured met
  | aligned size alignment =>
    rcases allocAlignedIn_fails closed furnished secured met with arises | rfl
    · exact .request arises
    · exact .alignment
  | cacheAligned size =>
    rcases allocAlignedIn_fails closed furnished secured met with arises | rfl
    · exact .request arises
    · exact .cacheLine
  | zeroed count size kind => exact allocZeroed_fails closed furnished secured met

end

end Heap

end NumaHeap
