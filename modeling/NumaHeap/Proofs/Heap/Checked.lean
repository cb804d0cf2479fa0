import NumaHeap.Proofs.Arena.Checked
import NumaHeap.Proofs.Heap.Furnished
import NumaHeap.Proofs.Heap.Homed
import NumaHeap.Proofs.Security.Checked

/-!
Requests and releases with every check made, from the tiers up to the counters. What a tier hands out is
aligned as it was asked and lies within a region, and what is given back is aligned for a link; so the
only checks that could still fail are those of the counters, which have to have room for what is granted.
-/

namespace NumaHeap

namespace Heap

open Session

variable {σ : Type}

section

variable (os : Platform σ) (h : Heap σ) (thread : ThreadId) (size : Nat)

def serveArenaChecked (kind : ArenaKind) (node : Option Nat) (alignment : PowerOfTwo) :
    Option (Except AllocError Arena.Placement × Heap σ) := do
  let (answer, arenas, machine) ←
    h.arenas.allocateChecked os h.machine kind.index thread size alignment node
  return (answer, { h with arenas, machine })

def dispatchChecked (tier : Tier) (node : Option Nat) (alignment : PowerOfTwo) :
    Option (Except AllocError Arena.Placement × Heap σ) :=
  match tier, h.slab with
  | .large, _ => do
    let node := node.getD (h.localNode os thread)
    match ← h.large.allocateChecked os h.machine size node with
    | (.ok address, large, machine) => return (.ok ⟨address, node⟩, { h with large, machine })
    | (.error error, large, machine) => return (.error error, { h with large, machine })
  | .slab, some slab => do
    let (answer, slab, machine) ← slab.allocateChecked os h.machine thread size node
    return (answer, { h with slab := some slab, machine })
  | .slab, none => h.serveArenaChecked os thread size .general node alignment
  | .arena kind, _ => h.serveArenaChecked os thread size kind node alignment

def inspectChecked (address : Nat) : Option (Except Rejection (Heap σ)) := do
  match ← h.mode.validateChecked size (h.machine.memory.read address) with
  | .error cause => return .error cause
  | .ok _ =>
    if h.mode.zeroFills then
      return .ok { h with machine := h.machine.withMemory (h.machine.memory.clear address size) }
    else return .ok h

def discardChecked (address : Nat) (tier : Tier) : Option (Heap σ) :=
  let machine := h.machine.withMemory (h.machine.memory.clear address size)
  match tier, h.slab with
  | .large, _ => do
    let (_, large, machine) ← h.large.freeChecked os machine address
    return { h with large, machine }
  | .slab, some slab => do
    let (_, slab, machine) ← slab.freeChecked os machine thread address size
    return { h with slab := some slab, machine }
  | _, _ => some { h with machine }

/-- Announces the first lines of larger objects to the cache, each by its address. -/
def announceChecked (address : Nat) : Option Unit :=
  if h.configuration.cacheHints ∧ 64 ≤ size then
    guard (∀ offset < min size 256, cacheLine.value ∣ offset → address + offset < Word.bound)
  else some ()

/-- Counts an allocation that was served. The bytes in use and those since the gauge was raised are also
added up outside of their counters, and these sums may not pass the word bound. -/
def recordChecked (kind : ObjectKind) (tier : Tier) (node start : Nat) : Option (Heap σ) := do
  let _ ← Word.add? h.counters.currentBytes size
  let _ ← Word.add? h.pressure.bytesSinceRaise size
  return h.record os thread size kind tier node start

/-- Allocates from a given tier. What it hands out is asserted to be aligned. -/
def allocateChecked (kind : ObjectKind) (tier : Tier) (node : Option Nat) (alignment : PowerOfTwo) :
    Option (Except AllocError Nat × Heap σ) :=
  let start := h.clock os
  match h.mode.checkSize size with
  | .error cause => some (h.fail (.rejected cause))
  | .ok _ => do
    match ← h.dispatchChecked os thread size tier node alignment with
    | (.error error, h) => return h.fail error
    | (.ok placement, h) =>
      guard (alignment.isAligned placement.address)
      match ← h.inspectChecked size placement.address with
      | .error cause =>
        let h ← h.discardChecked os thread size placement.address tier
        return h.fail (.rejected cause)
      | .ok h =>
        h.announceChecked size placement.address
        let h ← h.recordChecked os thread size kind tier placement.node start
        return (.ok placement.address, h)

def allocChecked (kind : ObjectKind) : Option (Except AllocError Nat × Heap σ) :=
  h.allocateChecked os thread size kind (h.classify size kind) none wordAlignment

def allocNumaChecked (node : Nat) : Option (Except AllocError Nat × Heap σ) :=
  if os.topology.contains node then do
    let tier := h.classify size .generic
    match ← h.allocateChecked os thread size .generic tier (some node) wordAlignment with
    | (.error (.map _), h) => h.allocateChecked os thread size .generic tier none wordAlignment
    | answer => return answer
  else some (h.fail (.invalidNode node))

def allocAlignedInChecked (alignment : Nat) (arena : ArenaKind) :
    Option (Except AllocError Nat × Heap σ) :=
  match (PowerOfTwo.ofNat? alignment).filter (·.value ≤ os.pageSize.value) with
  | none => some (h.fail (.invalidAlignment alignment))
  | some power =>
    h.allocateChecked os thread size arena.objectKind (h.alignedTier size arena) none
      (power.max wordAlignment)

def allocZeroedChecked (count : Nat) (kind : ObjectKind) : Option (Except AllocError Nat × Heap σ) :=
  match Word.mul? count size with
  | none => some (h.fail .overflow)
  | some total => do
    match ← h.allocChecked os thread total kind with
    | (.ok address, h) =>
      let memory := h.machine.memory.clear address total
      return (.ok address, { h with machine := h.machine.withMemory memory })
    | answer => return answer

end

/-- Allocates as demanded, with every check made. -/
def meetChecked (os : Platform σ) (h : Heap σ) (thread : ThreadId) :
    Demand → Option (Except AllocError Nat × Heap σ)
  | .object size kind => h.allocChecked os thread size kind
  | .onNode size node => h.allocNumaChecked os thread size node
  | .aligned size alignment => h.allocAlignedInChecked os thread size alignment .general
  | .cacheAligned size => h.allocAlignedInChecked os thread size cacheLine.value .object
  | .zeroed count size kind => h.allocZeroedChecked os thread size count kind

/-- Releases an object, with every check made. -/
def freeChecked (os : Platform σ) (h : Heap σ) (thread : ThreadId) (address size : Nat) :
    Option (Except FreeError Unit × Heap σ) :=
  match h.classify size .generic, h.slab with
  | .large, _ => do
    match ← h.large.freeChecked os h.machine address with
    | (.error error, large, machine) => return (.error error, { h with large, machine })
    | (.ok freed, large, machine) => return (.ok (), { h with large, machine }.recordFree freed)
  | .slab, some slab => do
    match ← slab.freeChecked os h.machine thread address size with
    | (.error error, slab, machine) => return (.error error, { h with slab := some slab, machine })
    | (.ok _, slab, machine) => return (.ok (), { h with slab := some slab, machine }.recordFree size)
  | _, _ => some (.error .arenaMemory, h)

/-- The counters have room for some more bytes in use. -/
def Counts (h : Heap σ) (size : Nat) : Prop :=
  h.counters.currentBytes + size < Word.bound ∧ h.pressure.bytesSinceRaise + size < Word.bound

variable {os : Platform σ} {contract : os.Contract} {h after : Heap σ} {thread : ThreadId}
  {size address : Nat} {kind : ObjectKind} {tier : Tier} {node : Option Nat} {alignment : PowerOfTwo}
  {explanation : Platform.Explanation contract} {free : Nat → List Nat} {live : List Allocation}

theorem Counts.of_still (room : h.Counts size) (still : Still h after) : after.Counts size := by
  unfold Counts
  rw [still.counters, still.pressure]
  exact room

/-- A request that fails leaves the counters with the room they had. -/
theorem Outcome.counts {error : AllocError}
    (outcome : Outcome os h thread size kind tier node alignment (.error error) after)
    (room : h.Counts size) : after.Counts size :=
  Counts.of_still (h := { h with counters := h.counters.recordFailure error }) room outcome.failed

/-- The slabs of a heap keep to words. -/
theorem Secured.slab_inWords {cells : Slab} (secured : Secured explanation h free live)
    (furnished : h.Furnished os) (bounded : contract.Bounded) (present : h.slab = some cells) :
    cells.InWords os :=
  Slab.inWords (secured.sound.slab cells present) (furnished.counted cells present)
    (furnished.packed cells present) (secured.stocked cells present)
    (slab_custody secured.custody present) bounded

theorem serveArenaChecked_eq {kind : ArenaKind} (closed : os.topology.Closed)
    (bounded : contract.Bounded) (furnished : h.Furnished os)
    (secured : Secured explanation h free live) :
    h.serveArenaChecked os thread size kind node alignment =
      some (h.serveArena os thread size kind node alignment) := by
  obtain ⟨a, found⟩ := secured.sound.arena? kind
  have mine : h.arenas.regions.Subperm h.regions := (List.sublist_append_left ..).subperm
  simp only [serveArenaChecked, serveArena, bind, Option.bind_some,
    Arena.Pool.allocateChecked_eq closed secured.sound.arenas furnished.arenas bounded secured.custody
      mine found]
  rfl

theorem dispatchChecked_eq (closed : os.topology.Closed) (bounded : contract.Bounded)
    (furnished : h.Furnished os) (secured : Secured explanation h free live) :
    h.dispatchChecked os thread size tier node alignment =
      some (h.dispatch os thread size tier node alignment) := by
  cases tier with
  | large =>
    have mine : h.large.regions.Sublist h.regions :=
      (List.sublist_append_right ..).trans (List.sublist_append_right ..)
    simp only [dispatchChecked, dispatch, bind, Option.bind_some,
      Large.allocateChecked_eq secured.sound.large furnished.accounts secured.custody mine]
    cases h.large.allocate os h.machine size (node.getD (h.localNode os thread)) with
    | mk answer rest => cases answer <;> rfl
  | slab =>
    cases present : h.slab with
    | none =>
      simp only [dispatchChecked, dispatch, present]
      exact serveArenaChecked_eq closed bounded furnished secured
    | some cells =>
      have words := secured.slab_inWords furnished bounded present
      simp only [dispatchChecked, dispatch, present, bind, Option.bind_some,
        words.allocateChecked_eq closed bounded secured.custody.possible]
      rfl
  | arena kind => exact serveArenaChecked_eq closed bounded furnished secured

theorem inspectChecked_eq (h : Heap σ) (size address : Nat) :
    h.inspectChecked size address = some (h.inspect address size) := by
  have scanned := h.mode.validateChecked_eq size (h.machine.memory.length_read_le address)
  simp only [inspectChecked, inspect, scanned, bind, Option.bind_some]
  cases h.mode.validate size (h.machine.memory.read address) with
  | error cause => rfl
  | ok =>
    simp only [Except.bind]
    split <;> rfl

theorem discardChecked_eq (closed : os.topology.Closed) (bounded : contract.Bounded)
    (furnished : h.Furnished os) (secured : Secured explanation h free live)
    (aligned : tier = .slab → 8 ∣ address) :
    h.discardChecked os thread size address tier = some (h.discard os thread address size tier) := by
  cases tier with
  | large =>
    simp only [discardChecked, discard, Large.freeChecked_eq furnished.accounts, bind,
      Option.bind_some]
    rfl
  | slab =>
    cases present : h.slab with
    | none => simp only [discardChecked, discard, present]
    | some cells =>
      have words := secured.slab_inWords furnished bounded present
      simp only [discardChecked, discard, present, bind, Option.bind_some,
        words.freeChecked_eq closed fun _ => aligned rfl]
      rfl
  | arena kind => rfl

theorem announceChecked_eq (h : Heap σ) (within : address + size ≤ Word.bound) :
    h.announceChecked size address = some () := by
  unfold announceChecked
  split
  · exact guard_eq_some fun offset few _ => by omega
  · rfl

theorem recordChecked_eq (room : h.Counts size) (thread : ThreadId) (kind : ObjectKind) (tier : Tier)
    (node start : Nat) : h.recordChecked os thread size kind tier node start =
      some (h.record os thread size kind tier node start) := by
  simp only [recordChecked, Word.add?_of_lt room.1, Word.add?_of_lt room.2, bind, Option.bind_some]
  rfl

/-- An address that is handed out is aligned as it was asked, if no more is asked than a page offers. -/
theorem Handed.aligned {memory : Memory} (handed : Handed os tier alignment size memory address)
    (page : 8 ≤ os.pageSize.value) (modest : Modest os alignment)
    (plain : tier = .slab → alignment = wordAlignment) : alignment.isAligned address = true := by
  have word : 8 ∣ os.pageSize.value := wordAlignment.value_dvd_of_value_le page
  have fits : alignment.value ≤ os.pageSize.value := by
    have word : wordAlignment.value = 8 := by decide
    unfold Modest at modest
    omega
  have divides : alignment.value ∣ address := by
    cases served : tier with
    | arena kind => exact handed.arena kind served
    | slab =>
      rw [plain served]
      exact (handed.slab served).1 word
    | large =>
      exact Nat.dvd_trans (PowerOfTwo.value_dvd_of_value_le fits) (handed.large served).1
  exact (PowerOfTwo.isAligned_eq_true_iff ..).2 (Nat.mod_eq_zero_of_dvd divides)

/-- No check fails when a request is made, if the counters have room for what is granted. -/
theorem allocateChecked_eq (closed : os.topology.Closed) (bounded : contract.Bounded)
    (page : 8 ≤ os.pageSize.value) (furnished : h.Furnished os)
    (secured : Secured explanation h free live) (modest : Modest os alignment)
    (slabs : tier = .slab → h.slab.isSome = true) (plain : tier = .slab → alignment = wordAlignment)
    (room : ∀ address, (h.allocate os thread size kind tier node alignment).1 = .ok address →
      h.Counts size) :
    h.allocateChecked os thread size kind tier node alignment =
      some (h.allocate os thread size kind tier node alignment) := by
  simp only [allocateChecked, allocate] at room ⊢
  cases accepted : h.mode.checkSize size with
  | error cause => rfl
  | ok =>
    simp only [dispatchChecked_eq closed bounded furnished secured, accepted, bind,
      Option.bind_some] at room ⊢
    cases dispatched : h.dispatch os thread size tier node alignment with
    | mk answer middle =>
      cases answer with
      | error error => rfl
      | ok placement =>
        obtain ⟨left, -, -, ok⟩ := dispatch_secured secured slabs dispatched
        obtain ⟨handed, placed⟩ := ok placement rfl
        have between := furnished.dispatch closed secured dispatched
        have held := placed 0
        have asserted := guard_eq_some (handed.aligned page modest plain)
        have returned : tier = .slab → 8 ∣ placement.address := fun served =>
          (handed.slab served).1 (wordAlignment.value_dvd_of_value_le page)
        simp only [dispatched, asserted, Option.bind_some, inspectChecked_eq] at room ⊢
        cases inspected : middle.inspect placement.address size with
        | error cause =>
          simp only [discardChecked_eq closed bounded between held returned, Option.bind_some]
          rfl
        | ok clean =>
          obtain ⟨region, member, -, inside⟩ := held.within (List.mem_cons_self ..)
          have below := held.custody.stop_lt bounded member
          have within : placement.address + size ≤ Word.bound :=
            Nat.le_trans inside (Nat.le_of_lt below)
          rw [inspected] at room
          have counts := (room _ rfl).of_still
            ((dispatch_still dispatched).trans (inspect_still inspected))
          simp only [announceChecked_eq clean within, recordChecked_eq counts, Option.bind_some]
          rfl

section

variable {count wish alignment : Nat} {kind : ObjectKind} {arena : ArenaKind} {demand : Demand}
  (closed : os.topology.Closed) (bounded : contract.Bounded) (page : 8 ≤ os.pageSize.value)
  (furnished : h.Furnished os) (secured : Secured explanation h free live)

include closed bounded page furnished secured

/-- The second request is made of a heap that has counted the failure and nothing else. -/
theorem allocNumaChecked_eq
    (room : ∀ address, (h.allocNuma os thread size wish).1 = .ok address → h.Counts size) :
    h.allocNumaChecked os thread size wish = some (h.allocNuma os thread size wish) := by
  by_cases known : os.topology.contains wish = true
  · simp only [allocNumaChecked, allocNuma, known, if_true, bind] at room ⊢
    cases first : h.allocate os thread size .generic (h.classify size .generic) (some wish)
      wordAlignment with
    | mk answer middle =>
      rw [first] at room
      have tried : h.allocateChecked os thread size .generic (h.classify size .generic) (some wish)
          wordAlignment = some (answer, middle) := by
        rw [← first]
        refine allocateChecked_eq closed bounded page furnished secured (.word os) classify_slab
          (fun _ => rfl) fun address granted => room address ?_
        rw [first] at granted
        cases granted
        rfl
      rw [tried, Option.bind_some]
      cases answer with
      | ok address => rfl
      | error error =>
        cases error with
        | map cause =>
          obtain ⟨left, good, -⟩ := allocate_secured secured classify_slab first
          have between := furnished.allocate closed secured first
          have slabs := (allocate_extends secured.sound first).isSome
          exact allocateChecked_eq closed bounded page between good (.word os)
            (fun tier => slabs.trans (classify_slab tier)) (fun _ => rfl)
            fun address granted => (allocate_outcome first).counts (room address granted)
        | _ => rfl
  · simp only [allocNumaChecked, allocNuma, known]
    rfl

theorem allocAlignedInChecked_eq
    (room : ∀ address, (h.allocAlignedIn os thread size alignment arena).1 = .ok address →
      h.Counts size) :
    h.allocAlignedInChecked os thread size alignment arena =
      some (h.allocAlignedIn os thread size alignment arena) := by
  unfold allocAlignedInChecked allocAlignedIn at *
  cases read : (PowerOfTwo.ofNat? alignment).filter (·.value ≤ os.pageSize.value) with
  | none => rfl
  | some power =>
    obtain ⟨-, small⟩ := Option.filter_eq_some_iff.1 read
    have modest := Modest.max (of_decide_eq_true small)
    rw [read] at room
    exact allocateChecked_eq closed bounded page furnished secured modest
      (fun slab => absurd slab alignedTier_ne_slab) (fun slab => absurd slab alignedTier_ne_slab) room

theorem allocZeroedChecked_eq
    (room : ∀ address, (h.allocZeroed os thread count size kind).1 = .ok address →
      h.Counts (count * size)) :
    h.allocZeroedChecked os thread size count kind = some (h.allocZeroed os thread count size kind) := by
  unfold allocZeroedChecked allocZeroed at *
  cases product : Word.mul? count size with
  | none => rfl
  | some total =>
    obtain ⟨-, rfl⟩ := Word.fit?_eq_some_iff.1 product
    simp only [product] at room
    have served : h.allocChecked os thread (count * size) kind =
        some (h.alloc os thread (count * size) kind) := by
      refine allocateChecked_eq closed bounded page furnished secured (.word os) classify_slab
        (fun _ => rfl) fun address granted => room address ?_
      simp only [alloc]
      split
      · next given => exact (congrArg Prod.fst given).symm.trans granted
      · exact granted
    simp only [served, bind, Option.bind_some]
    cases h.alloc os thread (count * size) kind with
    | mk answer middle => cases answer <;> rfl

/-- No check fails when a demand is made, if the counters have room for what is granted. -/
theorem meetChecked_eq
    (room : ∀ address, (h.meet os thread demand).1 = .ok address → h.Counts demand.size) :
    h.meetChecked os thread demand = some (h.meet os thread demand) := by
  cases demand with
  | object size kind =>
    exact allocateChecked_eq closed bounded page furnished secured (.word os) classify_slab
      (fun _ => rfl) room
  | onNode size wish => exact allocNumaChecked_eq closed bounded page furnished secured room
  | aligned size alignment =>
    exact allocAlignedInChecked_eq closed bounded page furnished secured room
  | cacheAligned size =>
    exact allocAlignedInChecked_eq closed bounded page furnished secured room
  | zeroed count size kind =>
    exact allocZeroedChecked_eq closed bounded page furnished secured room

end

/-- No check fails when something is released, if what the slabs take back is aligned for a link. -/
theorem freeChecked_eq (closed : os.topology.Closed) (bounded : contract.Bounded)
    (furnished : h.Furnished os) (secured : Secured explanation h free live)
    (aligned : ∀ cells, h.slab = some cells → h.classify size .generic = .slab →
      cells.Houses size address → 8 ∣ address) :
    h.freeChecked os thread address size = some (h.free os thread address size) := by
  unfold freeChecked Heap.free
  cases served : h.classify size .generic with
  | large =>
    simp only [Large.freeChecked_eq furnished.accounts, bind, Option.bind_some]
    cases h.large.free os h.machine address with
    | mk answer rest => cases answer <;> rfl
  | slab =>
    cases present : h.slab with
    | none => rfl
    | some cells =>
      have words := secured.slab_inWords furnished bounded present
      simp only [words.freeChecked_eq closed (aligned cells present served), bind, Option.bind_some]
      cases cells.free os h.machine thread address size with
      | mk answer rest => cases answer <;> rfl
  | arena kind => rfl

end Heap

namespace World

variable {σ : Type} {os : Platform σ} {contract : os.Contract} {w : World σ} {thread : ThreadId}
  {size address : Nat}

/-- What the slabs would take back is live, so it is aligned. -/
theorem Kept.dvd_of_houses {cells : Slab} (kept : w.Kept contract) (homed : w.Homed os)
    (word : 8 ∣ os.pageSize.value) (tolerates : w.Tolerates os (.free thread address size))
    (present : w.heap.slab = some cells) (served : w.heap.classify size .generic = .slab)
    (houses : cells.Houses size address) : 8 ∣ address := by
  obtain ⟨free, good⟩ := kept.secured.heap
  obtain ⟨node, sizeClass, c, fits, found, owns⟩ := houses
  have taken := Slab.free_of_owns (homed.counted cells present)
    (Heap.slab_custody good.custody present) fits found owns w.heap.machine thread
  have freed : (w.heap.free os thread address size).1 = .ok () := by
    simp only [Heap.free, served, present, taken]
  obtain ⟨x, member, rfl⟩ := tolerates served freed
  exact (kept.secured.aligned word x member).word

end World

end NumaHeap
