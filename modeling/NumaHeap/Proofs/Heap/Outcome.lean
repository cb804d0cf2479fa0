import NumaHeap.Proofs.Heap.World

/-!
What may come of an action. A request is turned away for its size, denied by its tier, refused by the
inspection, or granted; a demand makes one request, or two if the node that it names has no mapping
to spare. Every action that neither allocates nor releases leaves the slabs, the large objects and
the account of bytes as they are.
-/

namespace NumaHeap

/-- The action allocates or releases something, or makes all arena memory available again. -/
def Action.trades : Action → Bool
  | .allocate .. | .free .. | .resetArenas | .destroyArenas _ => true
  | _ => false

namespace Heap

variable {σ : Type} {os : Platform σ} {h after : Heap σ} {thread : ThreadId} {size : Nat}
  {kind : ObjectKind} {tier : Tier} {node : Option Nat} {alignment : PowerOfTwo}

/-- The parts and the machine may differ; what the heap keeps of itself is as before. -/
structure Still (h after : Heap σ) : Prop where
  configuration : after.configuration = h.configuration
  mode : after.mode = h.mode
  counters : after.counters = h.counters
  pressure : after.pressure = h.pressure
  arenaBytes : after.arenaBytes = h.arenaBytes
  origin : after.origin = h.origin
  lastCompaction : after.lastCompaction = h.lastCompaction

namespace Still

theorem of_parts (h : Heap σ) (machine : Machine σ) (arenas : Arena.Pool) (slab : Option Slab)
    (large : Large) : Still h { h with machine, arenas, slab, large } :=
  ⟨rfl, rfl, rfl, rfl, rfl, rfl, rfl⟩

theorem refl (h : Heap σ) : Still h h := of_parts h h.machine h.arenas h.slab h.large

theorem trans {last : Heap σ} (first : Still h after) (second : Still after last) : Still h last where
  configuration := second.configuration.trans first.configuration
  mode := second.mode.trans first.mode
  counters := second.counters.trans first.counters
  pressure := second.pressure.trans first.pressure
  arenaBytes := second.arenaBytes.trans first.arenaBytes
  origin := second.origin.trans first.origin
  lastCompaction := second.lastCompaction.trans first.lastCompaction

end Still

theorem dispatch_still {answer : Except AllocError Arena.Placement}
    (served : h.dispatch os thread size tier node alignment = (answer, after)) : Still h after := by
  simp only [dispatch] at served
  split at served
  · split at served
    · cases served
      exact .of_parts ..
    · cases served
      exact .of_parts ..
  · cases served
    exact .of_parts ..
  · cases served
    exact .of_parts ..
  · cases served
    exact .of_parts ..

theorem inspect_still {address : Nat} (inspected : h.inspect address size = .ok after) :
    Still h after := by
  rw [(inspect_spec inspected).2]
  split
  · exact .of_parts ..
  · exact .refl h

theorem discard_still (os : Platform σ) (h : Heap σ) (thread : ThreadId) (address size : Nat)
    (tier : Tier) : Still h (h.discard os thread address size tier) := by
  unfold discard
  split
  · exact .of_parts ..
  · exact .of_parts ..
  · exact .of_parts ..

/-- The four ways in which a request ends. -/
inductive Outcome (os : Platform σ) (h : Heap σ) (thread : ThreadId) (size : Nat) (kind : ObjectKind)
    (tier : Tier) (node : Option Nat) (alignment : PowerOfTwo) :
    Except AllocError Nat → Heap σ → Prop
  | barred {cause : Rejection} : h.mode.checkSize size = .error cause →
      Outcome os h thread size kind tier node alignment (.error (.rejected cause))
        (h.fail (.rejected cause)).2
  | denied {error : AllocError} {middle : Heap σ} :
      h.dispatch os thread size tier node alignment = (.error error, middle) →
      Outcome os h thread size kind tier node alignment (.error error) (middle.fail error).2
  | refused {placement : Arena.Placement} {middle : Heap σ} {cause : Rejection} :
      h.mode.checkSize size = .ok () →
      h.dispatch os thread size tier node alignment = (.ok placement, middle) →
      middle.inspect placement.address size = .error cause →
      Outcome os h thread size kind tier node alignment (.error (.rejected cause))
        ((middle.discard os thread placement.address size tier).fail (.rejected cause)).2
  | granted {placement : Arena.Placement} {middle inspected : Heap σ} :
      h.dispatch os thread size tier node alignment = (.ok placement, middle) →
      middle.inspect placement.address size = .ok inspected →
      Outcome os h thread size kind tier node alignment (.ok placement.address)
        (inspected.record os thread size kind tier placement.node (h.clock os))

theorem allocate_outcome {answer : Except AllocError Nat}
    (served : h.allocate os thread size kind tier node alignment = (answer, after)) :
    Outcome os h thread size kind tier node alignment answer after := by
  simp only [allocate] at served
  split at served
  · next oversized =>
    cases served
    exact .barred oversized
  · next fits =>
    split at served
    · next denied =>
      cases served
      exact .denied denied
    · next dispatched =>
      split at served
      · next refused =>
        cases served
        exact .refused fits dispatched refused
      · next clean =>
        cases served
        exact .granted dispatched clean

/-- A request that fails is counted as a failure, and as nothing else. -/
theorem Outcome.failed {error : AllocError}
    (outcome : Outcome os h thread size kind tier node alignment (.error error) after) :
    Still { h with counters := h.counters.recordFailure error } after := by
  have counted : ∀ {middle : Heap σ}, Still h middle →
      Still { h with counters := h.counters.recordFailure error } (middle.fail error).2 :=
    fun still => ⟨still.configuration, still.mode,
      congrArg (Telemetry.Counters.recordFailure · error) still.counters, still.pressure,
      still.arenaBytes, still.origin, still.lastCompaction⟩
  cases outcome with
  | barred => exact counted (.refl h)
  | denied denied => exact counted (dispatch_still denied)
  | refused _ dispatched _ => exact counted ((dispatch_still dispatched).trans (discard_still ..))

/-- A request that is granted is counted once. -/
theorem Outcome.counted {address : Nat}
    (outcome : Outcome os h thread size kind tier node alignment (.ok address) after) :
    ∃ isLocal nanoseconds,
      Still
        { h with
          arenaBytes := match tier with
            | .arena _ => Word.wrap (h.arenaBytes + size)
            | _ => h.arenaBytes
          counters := h.counters.recordAllocation size kind (tier = .large) isLocal nanoseconds
          pressure := h.pressure.recordAllocation .double size }
        after := by
  cases outcome with
  | @granted placement _ inspected dispatched clean =>
    have still := (dispatch_still dispatched).trans (inspect_still clean)
    refine ⟨placement.node == inspected.machine.currentNode os thread,
      inspected.clock os - h.clock os, still.configuration, still.mode, ?_, ?_, ?_, still.origin,
      still.lastCompaction⟩
    · exact congrArg (Telemetry.Counters.recordAllocation · ..) still.counters
    · exact congrArg (Telemetry.Pressure.recordAllocation .double · size) still.pressure
    · cases tier with
      | arena => exact congrArg (fun bytes => Word.wrap (bytes + size)) still.arenaBytes
      | slab => exact still.arenaBytes
      | large => exact still.arenaBytes

/-- A demand that names a node is met by a second request once no mapping was found for the first. -/
def retries (os : Platform σ) (h : Heap σ) (thread : ThreadId) : Session.Demand → Bool
  | .onNode size node =>
    os.topology.contains node &&
      match (h.allocate os thread size .generic (h.classify size .generic) (some node)
        wordAlignment).1 with
      | .error (.map _) => true
      | _ => false
  | _ => false

/-- No request asks for more than the start of a page can offer, or of a word. -/
def Modest (os : Platform σ) (alignment : PowerOfTwo) : Prop :=
  alignment.value ≤ max os.pageSize.value wordAlignment.value

/-- How a demand is met: it is turned away by itself, or by the requests made for it. -/
inductive Meets (os : Platform σ) (h : Heap σ) (thread : ThreadId) (demand : Session.Demand) :
    (retried : Bool) → Except AllocError Nat → Heap σ → Prop
  | barred {error : AllocError} : error.isSuspicious = false →
      Meets os h thread demand false (.error error) (h.fail error).2
  | once {kind : ObjectKind} {node : Option Nat} {alignment : PowerOfTwo}
      {answer : Except AllocError Nat} {after : Heap σ} : Modest os alignment →
      h.allocate os thread demand.size kind (h.tierOf demand) node alignment = (answer, after) →
      Meets os h thread demand false answer after
  | again {node : Nat} {cause : MapError} {middle after : Heap σ} {answer : Except AllocError Nat} :
      h.allocate os thread demand.size .generic (h.tierOf demand) (some node) wordAlignment =
        (.error (.map cause), middle) →
      middle.allocate os thread demand.size .generic (h.tierOf demand) none wordAlignment =
        (answer, after) →
      Meets os h thread demand true answer after
  | cleared {kind : ObjectKind} {address : Nat} {middle : Heap σ} :
      h.allocate os thread demand.size kind (h.tierOf demand) none wordAlignment =
        (.ok address, middle) →
      Meets os h thread demand false (.ok address)
        { middle with
          machine := middle.machine.withMemory (middle.machine.memory.clear address demand.size) }

theorem Modest.word (os : Platform σ) : Modest os wordAlignment := Nat.le_max_right ..

theorem Modest.max {power : PowerOfTwo} (fits : power.value ≤ os.pageSize.value) :
    Modest os (power.max wordAlignment) := by
  have larger := power.value_max_le wordAlignment
  unfold Modest
  omega

theorem meets_onNode {bytes wish : Nat} {answer : Except AllocError Nat}
    (met : h.allocNuma os thread bytes wish = (answer, after)) :
    Meets os h thread (.onNode bytes wish) (h.retries os thread (.onNode bytes wish)) answer
      after := by
  cases first : h.allocate os thread bytes .generic (h.classify bytes .generic) (some wish)
      wordAlignment with
  | mk result middle =>
    simp only [allocNuma, retries, first] at met ⊢
    by_cases known : os.topology.contains wish = true
    · rw [if_pos known] at met
      rw [known, Bool.true_and]
      split at met
      · next cause again same =>
        cases same
        exact .again first met
      · next other =>
        cases met
        split
        · next cause => exact (other cause _ rfl).elim
        · exact .once (.word os) first
    · rw [if_neg known] at met
      rw [Bool.not_eq_true] at known
      rw [known, Bool.false_and]
      cases met
      exact .barred rfl

theorem meets_aligned {demand : Session.Demand} {arena : ArenaKind} {answer : Except AllocError Nat}
    (met : h.allocAlignedIn os thread demand.size demand.alignment arena = (answer, after))
    (tier : h.tierOf demand = h.alignedTier demand.size arena) :
    Meets os h thread demand false answer after := by
  unfold allocAlignedIn at met
  split at met
  · cases met
    exact .barred rfl
  · next power read =>
    obtain ⟨-, small⟩ := Option.filter_eq_some_iff.1 read
    rw [← tier] at met
    exact .once (.max (of_decide_eq_true small)) met

theorem meets_zeroed {count bytes : Nat} {wanted : ObjectKind} {answer : Except AllocError Nat}
    (met : h.allocZeroed os thread count bytes wanted = (answer, after)) :
    Meets os h thread (.zeroed count bytes wanted) false answer after := by
  unfold allocZeroed at met
  split at met
  · cases met
    exact .barred rfl
  · next total product =>
    obtain ⟨-, rfl⟩ := Word.fit?_eq_some_iff.1 product
    split at met
    · next address middle given =>
      cases met
      exact .cleared given
    · exact .once (.word os) met

theorem meet_meets {demand : Session.Demand} {answer : Except AllocError Nat}
    (met : h.meet os thread demand = (answer, after)) :
    Meets os h thread demand (h.retries os thread demand) answer after := by
  cases demand with
  | object => exact .once (.word os) met
  | onNode => exact meets_onNode met
  | aligned => exact meets_aligned met rfl
  | cacheAligned => exact meets_aligned met rfl
  | zeroed => exact meets_zeroed met

theorem exists_meets {demand : Session.Demand} {answer : Except AllocError Nat}
    (met : h.meet os thread demand = (answer, after)) :
    ∃ retried, Meets os h thread demand retried answer after := ⟨_, meet_meets met⟩

theorem classify_congr (configuration : after.configuration = h.configuration)
    (slab : after.slab.isSome = h.slab.isSome) (size : Nat) (kind : ObjectKind) :
    after.classify size kind = h.classify size kind := by
  simp only [classify, configuration, slab]

/-- Objects of the slabs and large ones are told by their size alone, whatever was asked for. -/
theorem classify_tierOf {demand : Session.Demand} (object : (h.tierOf demand).isArena = false) :
    h.classify demand.size .generic = h.tierOf demand := by
  have told : ∀ size kind, (h.classify size kind).isArena = false →
      h.classify size .generic = h.classify size kind := by
    intro size kind object
    unfold classify at object ⊢
    split
    · rfl
    · split
      · rfl
      · next small fits =>
        rw [if_neg small, if_neg fits] at object
        cases object
  have aligned : ∀ size arena, (h.alignedTier size arena).isArena = false →
      h.classify size .generic = h.alignedTier size arena := by
    intro size arena object
    unfold alignedTier at object ⊢
    split
    · next large => rw [classify, if_pos large]
    · next small =>
      rw [if_neg small] at object
      cases object
  cases demand with
  | object => exact told _ _ object
  | onNode => rfl
  | aligned => exact aligned _ _ object
  | cacheAligned => exact aligned _ _ object
  | zeroed => exact told _ _ object

/-- How a release ends: a large object is unmapped, an object of the slabs is taken back, or nothing
happens. -/
inductive Releases (os : Platform σ) (h : Heap σ) (thread : ThreadId) (address size : Nat) :
    Except FreeError Unit → Heap σ → Prop
  | refused (error : FreeError) : Releases os h thread address size (.error error) h
  | large {freed : Nat} {large : Large} {machine : Machine σ} :
      h.classify size .generic = .large →
      h.large.free os h.machine address = (.ok freed, large, machine) →
      Releases os h thread address size (.ok ()) ({ h with large, machine }.recordFree freed)
  | slab {slab last : Slab} {machine : Machine σ} : h.classify size .generic = .slab →
      h.slab = some slab →
      slab.free os h.machine thread address size = (.ok (), last, machine) →
      Releases os h thread address size (.ok ())
        ({ h with slab := some last, machine }.recordFree size)

theorem free_releases {address : Nat} {answer : Except FreeError Unit}
    (freed : h.free os thread address size = (answer, after)) :
    Releases os h thread address size answer after := by
  unfold free at freed
  split at freed
  · next tier =>
    split at freed
    · next refused =>
      cases freed
      obtain ⟨rfl, rfl⟩ := (Large.free_spec refused).1 _ rfl
      exact .refused _
    · next released =>
      cases freed
      exact .large tier released
  · next slab tier present =>
    split at freed
    · next refused =>
      cases freed
      obtain ⟨rfl, rfl⟩ := (Slab.free_spec refused).1 _ rfl
      rw [← present]
      exact .refused _
    · next released =>
      cases freed
      exact .slab tier present released
  · cases freed
    exact .refused _

/-- Nothing is allocated or released: the slabs and the large objects are as before, and of the
counts only those of compactions differ. -/
structure Upkeep (h after : Heap σ) : Prop where
  configuration : after.configuration = h.configuration
  slab : after.slab = h.slab
  large : after.large = h.large
  arenaBytes : after.arenaBytes = h.arenaBytes
  counters : after.counters =
    { h.counters with
      compactions := after.counters.compactions
      compactionNanoseconds := after.counters.compactionNanoseconds }

theorem compact_upkeep (os : Platform σ) (h : Heap σ) : Upkeep h (h.compact os).2 :=
  ⟨rfl, rfl, rfl, rfl, rfl⟩

theorem maybeCompact_upkeep (os : Platform σ) (h : Heap σ) (now : Nat) :
    Upkeep h (h.maybeCompact os now) := by
  simp only [maybeCompact]
  split
  · exact ⟨rfl, rfl, rfl, rfl, rfl⟩
  · split
    · exact compact_upkeep os h
    · exact ⟨rfl, rfl, rfl, rfl, rfl⟩

theorem act_upkeep (os : Platform σ) (h : Heap σ) {action : Action} (keeps : action.trades = false) :
    Upkeep h (h.act os action) := by
  cases action with
  | allocate | free | resetArenas | destroyArenas => cases keeps
  | checkPressure =>
    let checked : Heap σ :=
      { h with pressure := (h.pressure.check h.counters.currentBytes (h.clock os)).state }
    have kept := maybeCompact_upkeep os checked (h.clock os)
    exact ⟨kept.configuration, kept.slab, kept.large, kept.arenaBytes, kept.counters⟩
  | bindThread thread node =>
    simp only [act, bindThread]
    split
    · exact ⟨rfl, rfl, rfl, rfl, rfl⟩
    · exact ⟨rfl, rfl, rfl, rfl, rfl⟩
  | _ => exact ⟨rfl, rfl, rfl, rfl, rfl⟩

end Heap

end NumaHeap
