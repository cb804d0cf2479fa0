import NumaHeap.Proofs.Heap.Takeback

/-!
Requests. What a tier hands out is still in the heap's own hands while it is inspected: it is then
cleared, passed on, or wiped and taken back. Whatever comes of a request, the allocations of others
are kept, and what is granted joins them.
-/

namespace NumaHeap.Heap

variable {σ : Type} {os : Platform σ} {contract : os.Contract} {h after : Heap σ}
  {free left : Nat → List Nat} {live : List Allocation} {x y : Allocation} {thread : ThreadId}
  {size : Nat} {tier : Tier} {alignment : PowerOfTwo} {explanation : Platform.Explanation contract}

theorem dispatch_secured {node : Option Nat} {answer : Except AllocError Arena.Placement}
    (secured : Secured explanation h free live) (slabs : tier = .slab → h.slab.isSome = true)
    (served : h.dispatch os thread size tier node alignment = (answer, after)) :
    ∃ left, Secured explanation after left live ∧ Keeps os live h.machine after.machine ∧
      ∀ placement, answer = .ok placement →
        Handed os tier alignment size after.machine.memory placement.address ∧
          ∀ wish, Secured explanation after left
            (⟨placement.address, size, wish, thread, tier⟩ :: live) := by
  unfold dispatch at served
  split at served
  · cases allocated : h.large.allocate os h.machine size (node.getD (h.localNode os thread)) with
    | mk result rest =>
      obtain ⟨large, machine⟩ := rest
      simp only [allocated] at served
      cases result with
      | error error =>
        cases served
        obtain ⟨grown, keeps, -⟩ := serveLarge_secured thread secured allocated
        exact ⟨free, grown, keeps, denied⟩
      | ok address =>
        cases served
        obtain ⟨grown, keeps, ok⟩ := serveLarge_secured thread secured allocated
        obtain ⟨positive, page, blank, more⟩ := ok address rfl
        refine ⟨free, grown, keeps, fun placement same => ?_⟩
        cases same
        exact ⟨⟨positive, nofun, nofun, fun _ => ⟨page, blank⟩⟩, more⟩
  · next cells present =>
    cases allocated : cells.allocate os h.machine thread size node with
    | mk result rest =>
      obtain ⟨last, machine⟩ := rest
      simp only [allocated] at served
      cases served
      obtain ⟨left, grown, keeps, ok⟩ := serveSlab_secured secured present allocated
      refine ⟨left, grown, keeps, fun placement same => ?_⟩
      obtain ⟨positive, word, clean, more⟩ := ok placement same
      exact ⟨⟨positive, nofun, fun _ => ⟨word, clean⟩, nofun⟩, more⟩
  · next absent =>
    have present := slabs rfl
    rw [absent] at present
    cases present
  · obtain ⟨grown, keeps, ok⟩ := serveArena_secured secured served
    refine ⟨free, grown, keeps, fun placement same => ?_⟩
    obtain ⟨positive, aligned, more⟩ := ok placement same
    exact ⟨⟨positive, fun _ _ => aligned, nofun, nofun⟩, more⟩

/-- An allocation may be cleared at any time. -/
theorem Secured.clear (secured : Secured explanation h free (x :: live)) :
    Secured explanation
        { h with machine := h.machine.withMemory (h.machine.memory.clear x.address x.size) } free
        (x :: live) ∧
      Keeps os live h.machine
        (h.machine.withMemory (h.machine.memory.clear x.address x.size)) := by
  have outside : ∀ address, ¬x.extent.Holds address →
      (h.machine.memory.clear x.address x.size).get address = h.machine.memory.get address :=
    fun address outside => Memory.get_clear_outside outside
  refine ⟨secured.write (List.mem_cons_self ..) (.refl _) secured.custody
    (fun address other => ⟨outside address other, fun _ known => known⟩) ?_,
    secured.write_keeps outside⟩
  intro address inside
  rw [Memory.get_clear_inside inside]
  exact explanation.zero ..

theorem get_clear_or (memory : Memory) (start length address : Nat) :
    (memory.clear start length).get address = memory.get address ∨
      (memory.clear start length).get address = 0 := by
  by_cases inside : Extent.Holds ⟨start, length⟩ address
  · exact .inr (Memory.get_clear_inside inside)
  · exact .inl (Memory.get_clear_outside inside)

/-- Blank bytes stay blank. -/
theorem Handed.of_get {memory last : Memory} {address : Nat}
    (handed : Handed os tier alignment size memory address)
    (same : ∀ place, last.get place = memory.get place ∨ last.get place = 0) :
    Handed os tier alignment size last address := by
  have blank : ∀ place, memory.get place = 0 → last.get place = 0 :=
    fun place zero => (same place).elim (fun equal => equal.trans zero) id
  refine ⟨handed.nonempty, handed.arena, fun served => ?_, fun served => ?_⟩
  · obtain ⟨word, clean⟩ := handed.slab served
    exact ⟨word, fun place inside => blank place (clean place inside)⟩
  · obtain ⟨page, clean⟩ := handed.large served
    exact ⟨page, fun place inside => blank place (clean place inside)⟩

theorem inspect_secured (secured : Secured explanation h free (x :: live))
    (inspected : h.inspect x.address x.size = .ok after) :
    Secured explanation after free (x :: live) ∧ Keeps os live h.machine after.machine ∧
      (∀ place, after.machine.memory.get place = h.machine.memory.get place ∨
        after.machine.memory.get place = 0) ∧
      (h.mode.zeroFills = true → ∀ place, x.extent.Holds place →
        after.machine.memory.get place = 0) := by
  rw [(inspect_spec inspected).2]
  split
  · obtain ⟨cleared, keeps⟩ := secured.clear
    exact ⟨cleared, keeps, get_clear_or _ _ _, fun _ _ inside => Memory.get_clear_inside inside⟩
  · next fills => exact ⟨secured, Keeps.refl os live _, fun _ => .inl rfl, fun zero => absurd zero fills⟩

theorem discard_secured (thread : ThreadId) (tier : Tier)
    (secured : Secured explanation h free (x :: live)) :
    ∃ left, Secured explanation (h.discard os thread x.address x.size tier) left live ∧
      Keeps os live h.machine (h.discard os thread x.address x.size tier).machine := by
  obtain ⟨cleared, keeps⟩ := secured.clear
  let wiped : Heap σ :=
    { h with machine := h.machine.withMemory (h.machine.memory.clear x.address x.size) }
  have fewer : Secured explanation wiped free live :=
    cleared.sublist (List.sublist_cons_self x live)
  unfold discard
  split
  · cases freed : wiped.large.free os wiped.machine x.address with
    | mk answer rest =>
      obtain ⟨large, machine⟩ := rest
      have taken := freeLarge_secured cleared freed
      simp only [wiped] at freed
      simp only [freed]
      cases answer with
      | error error =>
        obtain ⟨rfl, rfl⟩ := taken.1 error rfl
        exact ⟨free, fewer, keeps⟩
      | ok size =>
        obtain ⟨-, last, still⟩ := taken.2 size rfl
        exact ⟨free, last, keeps.trans still⟩
  · next cells present =>
    cases freed : cells.free os wiped.machine thread x.address x.size with
    | mk answer rest =>
      obtain ⟨lastCells, machine⟩ := rest
      have taken := freeSlab_secured cleared present freed
      simp only [wiped] at freed
      simp only [freed]
      cases answer with
      | error error =>
        obtain ⟨rfl, rfl⟩ := taken.1 error rfl
        exact ⟨free, fewer.alike ⟨rfl, present.symm, rfl, rfl⟩ rfl, keeps⟩
      | ok =>
        obtain ⟨-, left, last, still⟩ := taken.2 rfl
        exact ⟨left, last, keeps.trans still⟩
  · exact ⟨free, fewer, keeps⟩

theorem dispatch_mode {node : Option Nat} {answer : Except AllocError Arena.Placement}
    (served : h.dispatch os thread size tier node alignment = (answer, after)) :
    after.mode = h.mode := by
  simp only [dispatch] at served
  split at served
  · split at served
    · cases served
      rfl
    · cases served
      rfl
  · cases served
    rfl
  · cases served
    rfl
  · cases served
    rfl

theorem discard_mode (os : Platform σ) (h : Heap σ) (thread : ThreadId) (address size : Nat)
    (tier : Tier) : (h.discard os thread address size tier).mode = h.mode := by
  unfold discard
  split
  · rfl
  · rfl
  · rfl

theorem inspect_mode {address : Nat} (inspected : h.inspect address size = .ok after) :
    after.mode = h.mode := by
  rw [(inspect_spec inspected).2]
  split
  · rfl
  · rfl

theorem allocate_mode (os : Platform σ) (h : Heap σ) (thread : ThreadId) (size : Nat)
    (kind : ObjectKind) (tier : Tier) (node : Option Nat) (alignment : PowerOfTwo) :
    (h.allocate os thread size kind tier node alignment).2.mode = h.mode := by
  simp only [allocate]
  split
  · rfl
  · split
    · next error middle served => exact (dispatch_mode served : middle.mode = h.mode)
    · next placement middle served =>
      split
      · exact (discard_mode ..).trans (dispatch_mode served)
      · next clean => exact (inspect_mode clean).trans (dispatch_mode served)

/-- What is true of an address at the moment at which it is granted, in some mode. -/
structure Granted (os : Platform σ) (mode : Security.Mode) (tier : Tier) (alignment : PowerOfTwo)
    (size : Nat) (memory : Memory) (address : Nat) : Prop
    extends Handed os tier alignment size memory address where
  filled : mode.zeroFills = true → ∀ place, Extent.Holds ⟨address, size⟩ place →
    memory.get place = 0

theorem allocate_secured {kind : ObjectKind} {node : Option Nat} {answer : Except AllocError Nat}
    (secured : Secured explanation h free live) (slabs : tier = .slab → h.slab.isSome = true)
    (served : h.allocate os thread size kind tier node alignment = (answer, after)) :
    ∃ left, Secured explanation after left live ∧ Keeps os live h.machine after.machine ∧
      ∀ address, answer = .ok address →
        Granted os h.mode tier alignment size after.machine.memory address ∧
          ∀ wish, Secured explanation after left (⟨address, size, wish, thread, tier⟩ :: live) := by
  have failed : ∀ {middle : Heap σ} {left : Nat → List Nat} (error : AllocError),
      Secured explanation middle left live →
        Secured explanation (middle.fail error).2 left live :=
    fun error good => good.alike (fail_alike _ error) rfl
  simp only [allocate] at served
  split at served
  · cases served
    exact ⟨free, failed _ secured, Keeps.refl os live _, denied⟩
  · split at served
    · next error middle dispatched =>
      obtain ⟨left, good, keeps, -⟩ := dispatch_secured secured slabs dispatched
      cases served
      exact ⟨left, failed error good, keeps, denied⟩
    · next placement middle dispatched =>
      obtain ⟨left, -, keeps, ok⟩ := dispatch_secured secured slabs dispatched
      obtain ⟨handed, placed⟩ := ok placement rfl
      let pending : Allocation := ⟨placement.address, size, 0, thread, tier⟩
      split at served
      · obtain ⟨last, good, still⟩ := discard_secured thread tier (placed 0)
        cases served
        exact ⟨last, failed _ good, keeps.trans still, denied⟩
      · next inspected clean =>
        have seen := fun wish =>
          inspect_secured (x := ⟨placement.address, size, wish, thread, tier⟩) (placed wish) clean
        obtain ⟨good, still, same, filled⟩ := seen 0
        cases served
        have recorded : ∀ {live}, Secured explanation inspected left live → Secured explanation
            (inspected.record os thread size kind tier placement.node (h.clock os)) left live :=
          fun good => good.alike (record_alike ..) rfl
        refine ⟨left, recorded (good.sublist (List.sublist_cons_self ..)), keeps.trans still,
          fun address equal => ?_⟩
        cases equal
        refine ⟨⟨handed.of_get same, fun zero => filled ?_⟩, fun wish => recorded (seen wish).1⟩
        rw [dispatch_mode dispatched]
        exact zero

theorem classify_slab {kind : ObjectKind} (served : h.classify size kind = .slab) :
    h.slab.isSome = true := by
  unfold classify at served
  split at served
  · cases served
  · split at served
    · next both => exact (Bool.and_eq_true _ _ ▸ both).1
    · cases served

theorem alignedTier_ne_slab {arena : ArenaKind} : h.alignedTier size arena ≠ .slab := by
  unfold alignedTier
  split
  · exact nofun
  · exact nofun

/-- Only slabs that are there serve anything. -/
theorem tierOf_slab {demand : Session.Demand} (tier : h.tierOf demand = .slab) :
    h.slab.isSome = true := by
  cases demand with
  | object => exact classify_slab tier
  | onNode => exact classify_slab tier
  | zeroed => exact classify_slab tier
  | aligned => exact absurd tier alignedTier_ne_slab
  | cacheAligned => exact absurd tier alignedTier_ne_slab

/-- What is true of an address at the moment at which a demand is met. -/
structure Met (os : Platform σ) (h : Heap σ) (demand : Session.Demand) (memory : Memory)
    (address : Nat) : Prop where
  word : 8 ∣ os.pageSize.value → 8 ∣ address
  asked : 8 ∣ os.pageSize.value → demand.alignment ∣ address
  page : h.tierOf demand = .large → os.pageSize.value ∣ address
  filled : h.mode.zeroFills = true ∨ demand.isZeroed = true →
    ∀ place, Extent.Holds ⟨address, demand.size⟩ place → memory.get place = 0
  recycled : h.tierOf demand = .slab →
    ∀ place, (Memory.linkAt address).Holds place → memory.get place = 0

theorem Handed.word {memory : Memory} {address : Nat}
    (handed : Handed os tier alignment size memory address) (wide : 8 ∣ alignment.value)
    (page : 8 ∣ os.pageSize.value) : 8 ∣ address := by
  cases served : tier with
  | arena kind => exact Nat.dvd_trans wide (handed.arena kind served)
  | slab => exact (handed.slab served).1 page
  | large => exact Nat.dvd_trans page (handed.large served).1

theorem Granted.met (demand : Session.Demand) {memory : Memory} {address : Nat}
    (granted : Granted os h.mode (h.tierOf demand) alignment demand.size memory address)
    (wide : 8 ∣ alignment.value) (asked : 8 ∣ os.pageSize.value → demand.alignment ∣ address)
    (plain : demand.isZeroed = false) : Met os h demand memory address where
  word := granted.word wide
  asked := asked
  page served := (granted.large served).1
  filled zero := by
    rw [plain] at zero
    exact granted.filled (zero.resolve_right nofun)
  recycled served := (granted.slab served).2

theorem meet_aligned_secured {arena : ArenaKind} {answer : Except AllocError Nat}
    {demand : Session.Demand} (secured : Secured explanation h free live)
    (served : h.allocAlignedIn os thread demand.size demand.alignment arena = (answer, after))
    (tier : h.tierOf demand = h.alignedTier demand.size arena)
    (plain : demand.isZeroed = false) :
    ∃ left, Secured explanation after left live ∧ Keeps os live h.machine after.machine ∧
      ∀ address, answer = .ok address → Met os h demand after.machine.memory address ∧
        Secured explanation after left
          (⟨address, demand.size, demand.alignment, thread, h.tierOf demand⟩ :: live) := by
  unfold allocAlignedIn at served
  split at served
  · cases served
    exact ⟨free, secured.alike (fail_alike h _) rfl, Keeps.refl os live _, denied⟩
  · next power read =>
    obtain ⟨valid, small⟩ := Option.filter_eq_some_iff.1 read
    have value := PowerOfTwo.value_of_ofNat? valid
    have fits : power.value ≤ os.pageSize.value := of_decide_eq_true small
    obtain ⟨left, good, keeps, ok⟩ :=
      allocate_secured secured (fun slab => absurd slab alignedTier_ne_slab) served
    refine ⟨left, good, keeps, fun address equal => ?_⟩
    obtain ⟨granted, placed⟩ := ok address equal
    rw [← tier] at granted placed
    refine ⟨granted.met demand (power.value_dvd_max_right wordAlignment) (fun page => ?_) plain, placed _⟩
    rw [← value]
    cases there : h.tierOf demand with
    | arena kind =>
      exact Nat.dvd_trans (power.value_dvd_max_left wordAlignment) (granted.arena kind there)
    | slab => exact absurd (tier.symm.trans there) alignedTier_ne_slab
    | large =>
      exact Nat.dvd_trans (PowerOfTwo.value_dvd_of_value_le fits) (granted.large there).1

section

variable {answer : Except AllocError Nat} {node count : Nat} {kind : ObjectKind}

theorem meet_object_secured (secured : Secured explanation h free live)
    (served : h.alloc os thread size kind = (answer, after)) :
    ∃ left, Secured explanation after left live ∧ Keeps os live h.machine after.machine ∧
      ∀ address, answer = .ok address → Met os h (.object size kind) after.machine.memory address ∧
        Secured explanation after left
          (⟨address, size, 8, thread, h.classify size kind⟩ :: live) := by
  obtain ⟨left, good, keeps, ok⟩ := allocate_secured secured classify_slab served
  refine ⟨left, good, keeps, fun address equal => ?_⟩
  obtain ⟨granted, placed⟩ := ok address equal
  have met := granted.met (.object size kind) (Nat.dvd_refl 8) (granted.word (Nat.dvd_refl 8)) rfl
  exact ⟨met, placed _⟩

/-- A second attempt is made by the same tier in the same mode. -/
theorem meet_onNode_secured (secured : Secured explanation h free live)
    (served : h.allocNuma os thread size node = (answer, after)) :
    ∃ left, Secured explanation after left live ∧ Keeps os live h.machine after.machine ∧
      ∀ address, answer = .ok address → Met os h (.onNode size node) after.machine.memory address ∧
        Secured explanation after left
          (⟨address, size, 8, thread, h.classify size .generic⟩ :: live) := by
  have met : ∀ {memory address},
      Granted os h.mode (h.classify size .generic) wordAlignment size memory address →
        Met os h (.onNode size node) memory address := by
    intro memory address granted
    exact granted.met (.onNode size node) (Nat.dvd_refl 8) (granted.word (Nat.dvd_refl 8)) rfl
  simp only [allocNuma] at served
  split at served
  · split at served
    · next cause middle first =>
      obtain ⟨between, good, keeps, -⟩ := allocate_secured secured classify_slab first
      have moves := allocate_moves os secured.sound thread size .generic
        (h.classify size .generic) (some node) wordAlignment
      have mode := allocate_mode os h thread size .generic (h.classify size .generic) (some node)
        wordAlignment
      rw [first] at moves mode
      obtain ⟨left, last, still, ok⟩ := allocate_secured good
        (fun slab => moves.slab.trans (classify_slab slab)) served
      refine ⟨left, last, keeps.trans still, fun address equal => ?_⟩
      obtain ⟨granted, placed⟩ := ok address equal
      rw [mode] at granted
      exact ⟨met granted, placed _⟩
    · obtain ⟨left, good, keeps, ok⟩ := allocate_secured secured classify_slab served
      refine ⟨left, good, keeps, fun address equal => ?_⟩
      obtain ⟨granted, placed⟩ := ok address equal
      exact ⟨met granted, placed _⟩
  · cases served
    exact ⟨free, secured.alike (fail_alike h _) rfl, Keeps.refl os live _, denied⟩

theorem meet_zeroed_secured (secured : Secured explanation h free live)
    (served : h.allocZeroed os thread count size kind = (answer, after)) :
    ∃ left, Secured explanation after left live ∧ Keeps os live h.machine after.machine ∧
      ∀ address, answer = .ok address →
        Met os h (.zeroed count size kind) after.machine.memory address ∧
        Secured explanation after left
          (⟨address, count * size, 8, thread, h.classify (count * size) kind⟩ :: live) := by
  unfold allocZeroed at served
  split at served
  · cases served
    exact ⟨free, secured.alike (fail_alike h _) rfl, Keeps.refl os live _, denied⟩
  · next total product =>
    obtain ⟨-, rfl⟩ := Word.fit?_eq_some_iff.1 product
    split at served
    · next address middle given =>
      obtain ⟨left, good, keeps, ok⟩ := allocate_secured secured classify_slab given
      obtain ⟨granted, placed⟩ := ok address rfl
      cases served
      let cleared := fun wish => (placed wish).clear
      refine ⟨left, (cleared 0).1.sublist (List.sublist_cons_self ..),
        keeps.trans (cleared 0).2, fun address equal => ?_⟩
      cases equal
      have handed := granted.toHanded.of_get (get_clear_or _ address (count * size))
      exact ⟨⟨handed.word (Nat.dvd_refl 8), handed.word (Nat.dvd_refl 8),
        fun large => (handed.large large).1, fun _ _ inside => Memory.get_clear_inside inside,
        fun slab => (handed.slab slab).2⟩, (cleared _).1⟩
    · next refused =>
      obtain ⟨left, good, keeps, -⟩ := allocate_secured secured classify_slab served
      refine ⟨left, good, keeps, fun address equal => ?_⟩
      subst equal
      exact (refused _ _ served).elim

end

/-- Whatever comes of a demand, nothing that is live is harmed, and what is granted is live. -/
theorem meet_secured {demand : Session.Demand} {answer : Except AllocError Nat}
    (secured : Secured explanation h free live)
    (served : h.meet os thread demand = (answer, after)) :
    ∃ left, Secured explanation after left live ∧ Keeps os live h.machine after.machine ∧
      ∀ address, answer = .ok address → Met os h demand after.machine.memory address ∧
        Secured explanation after left
          (⟨address, demand.size, demand.alignment, thread, h.tierOf demand⟩ :: live) := by
  cases demand with
  | object size kind => exact meet_object_secured secured served
  | onNode size node => exact meet_onNode_secured secured served
  | aligned size alignment => exact meet_aligned_secured secured served rfl rfl
  | cacheAligned size => exact meet_aligned_secured secured served rfl rfl
  | zeroed count size kind => exact meet_zeroed_secured secured served

end NumaHeap.Heap
