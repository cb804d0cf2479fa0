import NumaHeap.Proofs.Arena.Guise
import NumaHeap.Proofs.Heap.Action
import NumaHeap.Proofs.Slab.Guise

/-!
Heaps in another guise. Whatever is done to a heap is answered the same in the other guise, and the
heap that comes of it is the same again but for the guise.
-/

namespace NumaHeap

open Session Telemetry

variable {σ τ : Type} {g : Guise σ τ} {os : Platform σ} {other : Platform τ}

/-- The action asks the platform to place a thread. -/
def Action.placesThread : Action → Bool
  | .bindThread .. => true
  | _ => false

/-- The choices with another wish for huge pages. -/
def Configuration.under (c : Configuration) (g : Guise σ τ) : Configuration :=
  { c with hugePages := g.hugePages c.hugePages }

namespace Heap

/-- The report with other counts of what the mappers did without. -/
def Stats.counted (s : Stats) (fallbacks failures : Nat → Nat) : Stats :=
  { s with
    generalArena := s.generalArena.counted fallbacks failures
    objectArena := s.objectArena.counted fallbacks failures
    stringArena := s.stringArena.counted fallbacks failures
    slab := s.slab.counted fallbacks failures
    large := s.large.counted fallbacks failures }

/-- The heap with its mappers and its machine in another guise. -/
def under (h : Heap σ) (g : Guise σ τ) : Heap τ :=
  { h with
    configuration := h.configuration.under g
    machine := h.machine.under g
    arenas := h.arenas.under g
    slab := h.slab.map (·.under g)
    large := h.large.under g }

theorem classify_under (h : Heap σ) (g : Guise σ τ) (size : Nat) (kind : ObjectKind) :
    (h.under g).classify size kind = h.classify size kind := by
  have slab : (h.under g).slab.isSome = h.slab.isSome := Option.isSome_map ..
  unfold classify
  rw [slab]
  rfl

theorem inspect_under (h : Heap σ) (g : Guise σ τ) (address size : Nat) :
    (h.under g).inspect address size = (h.inspect address size).map (·.under g) := by
  unfold inspect
  change (h.mode.validate size (h.machine.memory.read address) >>= fun _ => _) = _
  cases h.mode.validate size (h.machine.memory.read address) with
  | error cause => rfl
  | ok _ =>
    change (if h.mode.zeroFills then _ else _) = Except.map _ (if h.mode.zeroFills then _ else _)
    split <;> rfl

/-- What becomes of a request once its tier has answered. -/
def settle (os : Platform σ) (h : Heap σ) (thread : ThreadId) (size : Nat) (kind : ObjectKind)
    (tier : Tier) (start : Nat) :
    Except AllocError Arena.Placement → Except AllocError Nat × Heap σ
  | .error error => h.fail error
  | .ok placement =>
    match h.inspect placement.address size with
    | .error cause => (h.discard os thread placement.address size tier).fail (.rejected cause)
    | .ok h => (.ok placement.address, h.record os thread size kind tier placement.node start)

theorem allocate_eq_settle (os : Platform σ) (h : Heap σ) (thread : ThreadId) (size : Nat)
    (kind : ObjectKind) (tier : Tier) (node : Option Nat) (alignment : PowerOfTwo) :
    h.allocate os thread size kind tier node alignment =
      match h.mode.checkSize size with
      | .error cause => h.fail (.rejected cause)
      | .ok _ =>
        let (answer, later) := h.dispatch os thread size tier node alignment
        later.settle os thread size kind tier (h.clock os) answer := by
  unfold allocate
  cases h.mode.checkSize size with
  | error cause => rfl
  | ok _ =>
    cases h.dispatch os thread size tier node alignment with
    | mk answer later => cases answer <;> rfl

section

variable (fits : g.Suits os other)

include fits

theorem clock_under (h : Heap σ) : (h.under g).clock other = h.clock os := by
  have now : other.now (h.under g).machine.system = os.now h.machine.system := fits.now _
  unfold clock
  rw [now]
  rfl

theorem localNode_under (h : Heap σ) (thread : ThreadId) :
    (h.under g).localNode other thread = h.localNode os thread := by
  have node : (h.under g).machine.currentNode other thread = h.machine.currentNode os thread :=
    fits.currentNode ..
  unfold localNode
  rw [node]
  rfl

theorem discard_under (h : Heap σ) (thread : ThreadId) (address size : Nat) (tier : Tier) :
    (h.under g).discard other thread address size tier =
      (h.discard os thread address size tier).under g := by
  let machine := h.machine.withMemory (h.machine.memory.clear address size)
  have wiped : (h.under g).machine.withMemory ((h.under g).machine.memory.clear address size) =
      machine.under g := rfl
  unfold discard
  rw [wiped]
  cases tier with
  | large =>
    have freed : (h.under g).large.free other (machine.under g) address =
        (h.large.free os machine address).map id (Prod.map (·.under g) (·.under g)) :=
      Large.free_under fits ..
    dsimp only
    rw [freed]
    rfl
  | arena kind => rfl
  | slab =>
    obtain ⟨_, _, _, slab, _⟩ := h
    cases slab with
    | none => rfl
    | some slab =>
      have freed : (slab.under g).free other (machine.under g) thread address size =
          (slab.free os machine thread address size).map id (Prod.map (·.under g) (·.under g)) :=
        Slab.free_under fits ..
      simp only [under, Option.map_some, freed]
      rfl

theorem record_under (h : Heap σ) (thread : ThreadId) (size : Nat) (kind : ObjectKind) (tier : Tier)
    (node start : Nat) :
    (h.under g).record other thread size kind tier node start =
      (h.record os thread size kind tier node start).under g := by
  have current : (h.under g).machine.currentNode other thread = h.machine.currentNode os thread :=
    fits.currentNode ..
  unfold record
  rw [current, clock_under fits]
  rfl

theorem settle_under (h : Heap σ) (thread : ThreadId) (size : Nat) (kind : ObjectKind) (tier : Tier)
    (start : Nat) (answer : Except AllocError Arena.Placement) :
    (h.under g).settle other thread size kind tier start answer =
      (h.settle os thread size kind tier start answer).map id (·.under g) := by
  cases answer with
  | error error => rfl
  | ok placement =>
    unfold settle
    dsimp only
    rw [inspect_under]
    cases h.inspect placement.address size with
    | error cause =>
      dsimp only [Except.map]
      rw [discard_under fits]
      rfl
    | ok h =>
      dsimp only [Except.map]
      rw [record_under fits]
      rfl

end

section

variable (fits : g.Fits os other)

include fits

theorem serveArena_under (h : Heap σ) (thread : ThreadId) (size : Nat) (kind : ArenaKind)
    (node : Option Nat) (alignment : PowerOfTwo) :
    (h.under g).serveArena other thread size kind node alignment =
      (h.serveArena os thread size kind node alignment).map id (·.under g) := by
  have served : (h.under g).arenas.allocate other (h.under g).machine kind.index thread size alignment
      node = (h.arenas.allocate os h.machine kind.index thread size alignment node).map id
        (Prod.map (·.under g) (·.under g)) := Arena.Pool.allocate_under fits ..
  unfold serveArena
  rw [served]
  rfl

theorem dispatch_under (h : Heap σ) (thread : ThreadId) (size : Nat) (tier : Tier)
    (node : Option Nat) (alignment : PowerOfTwo) :
    (h.under g).dispatch other thread size tier node alignment =
      (h.dispatch os thread size tier node alignment).map id (·.under g) := by
  unfold dispatch
  rw [localNode_under fits.toSuits]
  cases tier with
  | large =>
    have served (node : Nat) : (h.under g).large.allocate other (h.under g).machine size node =
        (h.large.allocate os h.machine size node).map id (Prod.map (·.under g) (·.under g)) :=
      Large.allocate_under fits.toServes ..
    dsimp only
    rw [served]
    cases h.large.allocate os h.machine size (node.getD (h.localNode os thread)) with
    | mk answer result => cases answer <;> rfl
  | arena kind => exact serveArena_under fits ..
  | slab =>
    have slabs : (h.under g).slab = h.slab.map (·.under g) := rfl
    rw [slabs]
    cases h.slab with
    | none => exact serveArena_under fits ..
    | some slab =>
      have served : (slab.under g).allocate other (h.under g).machine thread size node =
          (slab.allocate os h.machine thread size node).map id
            (Prod.map (·.under g) (·.under g)) := Slab.allocate_under fits.toServes ..
      simp only [Option.map_some, served]
      rfl

theorem allocate_under (h : Heap σ) (thread : ThreadId) (size : Nat) (kind : ObjectKind)
    (tier : Tier) (node : Option Nat) (alignment : PowerOfTwo) :
    (h.under g).allocate other thread size kind tier node alignment =
      (h.allocate os thread size kind tier node alignment).map id (·.under g) := by
  have mode : (h.under g).mode = h.mode := rfl
  rw [allocate_eq_settle, allocate_eq_settle, clock_under fits.toSuits, dispatch_under fits, mode]
  cases h.mode.checkSize size with
  | error cause => rfl
  | ok _ => exact settle_under fits.toSuits ..

theorem alloc_under (h : Heap σ) (thread : ThreadId) (size : Nat) (kind : ObjectKind) :
    (h.under g).alloc other thread size kind =
      (h.alloc os thread size kind).map id (·.under g) := by
  unfold alloc
  rw [classify_under, allocate_under fits]

theorem allocNuma_under (h : Heap σ) (thread : ThreadId) (size node : Nat) :
    (h.under g).allocNuma other thread size node =
      (h.allocNuma os thread size node).map id (·.under g) := by
  unfold allocNuma
  rw [fits.topology, classify_under]
  split
  · dsimp only
    rw [allocate_under fits]
    cases h.allocate os thread size .generic (h.classify size .generic) (some node)
        wordAlignment with
    | mk answer h =>
      cases answer with
      | ok address => rfl
      | error error =>
        cases error <;> first | rfl | exact allocate_under fits ..
  · rfl

theorem allocAlignedIn_under (h : Heap σ) (thread : ThreadId) (size alignment : Nat)
    (arena : ArenaKind) :
    (h.under g).allocAlignedIn other thread size alignment arena =
      (h.allocAlignedIn os thread size alignment arena).map id (·.under g) := by
  unfold allocAlignedIn
  rw [fits.pageSize]
  split
  · rfl
  · exact allocate_under fits ..

theorem allocZeroed_under (h : Heap σ) (thread : ThreadId) (count size : Nat) (kind : ObjectKind) :
    (h.under g).allocZeroed other thread count size kind =
      (h.allocZeroed os thread count size kind).map id (·.under g) := by
  unfold allocZeroed
  split
  · rfl
  · next total _ =>
    rw [alloc_under fits]
    cases h.alloc os thread total kind with
    | mk answer h => cases answer <;> rfl

theorem meet_under (h : Heap σ) (thread : ThreadId) (demand : Demand) :
    (h.under g).meet other thread demand = (h.meet os thread demand).map id (·.under g) := by
  cases demand with
  | object size kind => exact alloc_under fits ..
  | onNode size node => exact allocNuma_under fits ..
  | aligned size alignment => exact allocAlignedIn_under fits ..
  | cacheAligned size => exact allocAlignedIn_under fits ..
  | zeroed count size kind => exact allocZeroed_under fits ..

theorem free_under (h : Heap σ) (thread : ThreadId) (address size : Nat) :
    (h.under g).free other thread address size =
      (h.free os thread address size).map id (·.under g) := by
  unfold free
  rw [classify_under]
  cases h.classify size .generic with
  | arena kind => rfl
  | large =>
    have freed : (h.under g).large.free other (h.under g).machine address =
        (h.large.free os h.machine address).map id (Prod.map (·.under g) (·.under g)) :=
      Large.free_under fits.toSuits ..
    dsimp only
    rw [freed]
    cases h.large.free os h.machine address with
    | mk answer result => cases answer <;> rfl
  | slab =>
    have slabs : (h.under g).slab = h.slab.map (·.under g) := rfl
    rw [slabs]
    cases h.slab with
    | none => rfl
    | some slab =>
      have freed : (slab.under g).free other (h.under g).machine thread address size =
          (slab.free os h.machine thread address size).map id
            (Prod.map (·.under g) (·.under g)) := Slab.free_under fits.toSuits ..
      simp only [Option.map_some, freed]
      cases slab.free os h.machine thread address size with
      | mk answer result => cases answer <;> rfl

omit fits in
theorem forArenas_under {f : Arena.Pool → Machine σ → Nat → Arena.Pool × Machine σ}
    {f' : Arena.Pool → Machine τ → Nat → Arena.Pool × Machine τ}
    (same : ∀ (p : Arena.Pool) machine index, f' (p.under g) (machine.under g) index =
      (f p machine index).map (·.under g) (·.under g)) (h : Heap σ) :
    (h.under g).forArenas f' = (h.forArenas f).under g := by
  unfold forArenas
  refine List.foldl_hom (fun h : Heap σ => h.under g) fun h kind => ?_
  have first : f' (h.under g).arenas (h.under g).machine kind.index =
      (f h.arenas h.machine kind.index).map (·.under g) (·.under g) := same ..
  rw [first]
  rfl

theorem destroyArenas_under (h : Heap σ) (thread : ThreadId) :
    (h.under g).destroyArenas other thread = (h.destroyArenas os thread).under g := by
  unfold destroyArenas
  rw [forArenas_under fun p machine index => Arena.Pool.destroy_under fits p machine index thread]
  rfl

theorem releaseThread_under (h : Heap σ) (thread : ThreadId) :
    (h.under g).releaseThread other thread = (h.releaseThread os thread).under g :=
  forArenas_under (fun p machine index =>
    Arena.Pool.releaseThread_under fits p machine index thread) h

theorem exitThread_under (h : Heap σ) (thread : ThreadId) :
    (h.under g).exitThread other thread = (h.exitThread os thread).under g := by
  have exited : (h.under g).arenas.exitThread other (h.under g).machine thread =
      (h.arenas.exitThread os h.machine thread).map (·.under g) (·.under g) :=
    Arena.Pool.exitThread_under fits ..
  unfold exitThread
  rw [exited]
  rfl

theorem close_under (h : Heap σ) (thread : ThreadId) :
    (h.under g).close other thread = (h.close os thread).under g := by
  unfold close
  rw [forArenas_under fun p machine index => Arena.Pool.close_under fits p machine index thread]
  obtain ⟨configuration, machine, arenas, slab, large, _⟩ :=
    h.forArenas fun pool machine id => pool.close os machine id thread
  cases slab with
  | none =>
    have closed : (large.under g).close other (machine.under g) =
        (large.close os machine).map (·.under g) (·.under g) := Large.close_under fits.toSuits ..
    simp only [under, Option.map_none, closed]
    rfl
  | some slab =>
    have first : (slab.under g).close other (machine.under g) =
        (slab.close os machine).map (·.under g) (·.under g) := Slab.close_under fits.toSuits ..
    have closed : (large.under g).close other ((slab.close os machine).2.under g) =
        (large.close os (slab.close os machine).2).map (·.under g) (·.under g) :=
      Large.close_under fits.toSuits ..
    simp only [under, Option.map_some, first, Prod.map, closed]

theorem arenaStats_under (h : Heap σ) (kind : ArenaKind) :
    (h.under g).arenaStats kind = (h.arenaStats kind).counted g.fallbacks g.failures :=
  Arena.Pool.stats_under fits ..

/-- Fragmentation is a matter of what is used and what is wasted. -/
theorem fragmentation_under (h : Heap σ) : (h.under g).fragmentation = h.fragmentation := by
  unfold fragmentation
  simp only [List.map_map]
  have reports : (h.under g).arenaStats =
      fun kind => (h.arenaStats kind).counted g.fallbacks g.failures :=
    funext fun kind => arenaStats_under fits h kind
  rw [reports]
  rfl

theorem compact_under (h : Heap σ) :
    (h.under g).compact other = (h.compact os).map id (·.under g) := by
  have arenas : ArenaKind.all.foldl (fun pool kind => pool.compact kind.index) (h.arenas.under g) =
      (ArenaKind.all.foldl (fun pool kind => pool.compact kind.index) h.arenas).under g :=
    List.foldl_hom (fun p : Arena.Pool => p.under g) fun p kind =>
      Arena.Pool.compact_under p g kind.index
  let compacted : Heap σ :=
    { h with arenas := ArenaKind.all.foldl (fun pool kind => pool.compact kind.index) h.arenas }
  let counted : Heap σ :=
    { compacted with
      counters := h.counters.recordCompaction (compacted.clock os - h.clock os)
      lastCompaction := compacted.clock os }
  have stamped : ∀ k : Heap τ, k = compacted.under g →
      { k with
        counters := k.counters.recordCompaction (k.clock other - (h.under g).clock other)
        lastCompaction := k.clock other } = counted.under g := by
    rintro _ rfl
    rw [clock_under fits.toSuits, clock_under fits.toSuits]
    rfl
  have next : ((h.under g).compact other).2 = counted.under g :=
    stamped _ (congrArg (fun arenas => { h.under g with arenas }) arenas)
  exact Prod.ext ((congrArg fragmentation next).trans (fragmentation_under fits counted)) next

theorem maybeCompact_under (h : Heap σ) (now : Nat) :
    (h.under g).maybeCompact other now = (h.maybeCompact os now).under g := by
  unfold maybeCompact
  rw [fragmentation_under fits, compact_under fits]
  change (let interval := min h.configuration.compactionInterval.toNanoseconds Word.last
    if now - h.lastCompaction < interval then h.under g
    else if h.configuration.compactionThreshold < h.fragmentation.value then (h.compact os).2.under g
    else h.under g) = _
  dsimp only
  split
  · rfl
  · split <;> rfl

theorem checkPressure_under (h : Heap σ) :
    (h.under g).checkPressure other = (h.checkPressure os).map id (·.under g) := by
  unfold checkPressure
  rw [clock_under fits.toSuits]
  exact Prod.ext rfl (maybeCompact_under fits
    { h with pressure := (h.pressure.check h.counters.currentBytes (h.clock os)).state }
    (h.clock os))

theorem handlePressure_under (h : Heap σ) :
    (h.under g).handlePressure other = (h.handlePressure os).under g := by
  unfold handlePressure
  rw [compact_under fits]
  rfl

theorem compactArena_under (h : Heap σ) (kind : ArenaKind) :
    (h.under g).compactArena kind = (h.compactArena kind).map id (·.under g) := by
  have compacted : { h.under g with arenas := (h.under g).arenas.compact kind.index } =
      { h with arenas := h.arenas.compact kind.index }.under g := by
    simp only [under, Arena.Pool.compact_under]
  unfold compactArena
  rw [compacted]
  dsimp only
  rw [arenaStats_under fits]
  rfl

theorem stats_under (h : Heap σ) :
    (h.under g).stats = h.stats.counted g.fallbacks g.failures := by
  have slab : (h.slab.map (·.under g)).elim {} Slab.stats =
      (h.slab.elim {} Slab.stats).counted g.fallbacks g.failures := by
    cases h.slab with
    | none => simp only [Option.map_none, Option.elim_none, Slab.Stats.counted, fits.fallbacks,
        fits.failures]
    | some slab => exact Slab.stats_under slab g
  have large : (h.large.under g).stats = h.large.stats.counted g.fallbacks g.failures :=
    Large.stats_under ..
  unfold stats
  rw [arenaStats_under fits, arenaStats_under fits, arenaStats_under fits]
  simp only [Stats.counted, ← slab, ← large]
  rfl

theorem create_under (machine : Machine σ) (configuration : Configuration) :
    create other (machine.under g) (configuration.under g) =
      (create os machine configuration).map (·.under g) := by
  unfold create
  change (configuration.validate >>= fun _ => _) = _
  cases configuration.validate with
  | error cause => rfl
  | ok _ =>
    change (configuration.blockSize >>= fun _ => _) =
      Except.map _ (configuration.blockSize >>= fun _ => _)
    cases configuration.blockSize with
    | error cause => rfl
    | ok blockSize =>
      have now : other.now (machine.under g).system = os.now machine.system := fits.now _
      have slab : (if configuration.slabEnabled then
          some (Slab.create other.topology (g.hugePages configuration.hugePages)
            configuration.numaAware) else none) =
            (if configuration.slabEnabled then
              some (Slab.create os.topology configuration.hugePages configuration.numaAware)
              else none).map (·.under g) := by
        rw [fits.topology, Slab.create_under fits]
        split <;> rfl
      have arenas : ArenaKind.all.foldl (fun pool kind =>
          pool.add (kind.blockSize blockSize Configuration.minimumBlock)
            (g.hugePages configuration.hugePages) configuration.numaAware)
              (({} : Arena.Pool).under g) =
          (ArenaKind.all.foldl (fun (pool : Arena.Pool) kind =>
            pool.add (kind.blockSize blockSize Configuration.minimumBlock)
              configuration.hugePages configuration.numaAware) {}).under g :=
        List.foldl_hom (fun p : Arena.Pool => p.under g) fun p kind => Arena.Pool.add_under fits p ..
      have large : Large.create other.topology (g.hugePages configuration.hugePages)
          configuration.numaAware = (Large.create os.topology configuration.hugePages
            configuration.numaAware).under g := by
        rw [fits.topology, Large.create_under fits]
      refine congrArg Except.ok ?_
      simp only [under, ← arenas, ← slab, ← large, ← now]
      rfl

omit fits in
theorem resetArenas_under (h : Heap σ) (g : Guise σ τ) :
    (h.under g).resetArenas = h.resetArenas.under g := by
  have arenas : ArenaKind.all.foldl (fun pool kind => pool.reset kind.index) (h.arenas.under g) =
      (ArenaKind.all.foldl (fun pool kind => pool.reset kind.index) h.arenas).under g :=
    List.foldl_hom (fun p : Arena.Pool => p.under g) fun p kind =>
      Arena.Pool.reset_under p g kind.index
  exact congrArg (fun arenas => { h.under g with arenas }.recordBulkFree) arenas

omit fits in
theorem validateIntegrity_under (h : Heap σ) (g : Guise σ τ) :
    (h.under g).validateIntegrity = h.validateIntegrity := rfl

/-- Placing a thread alone asks of the platform what no guise says anything of. -/
theorem act_under (h : Heap σ) (action : Action) (placed : action.placesThread = false) :
    (h.under g).act other action = (h.act os action).under g := by
  cases action with
  | allocate thread demand => exact congrArg Prod.snd (meet_under fits h thread demand)
  | free thread address size => exact congrArg Prod.snd (free_under fits h thread address size)
  | resetArenas => exact resetArenas_under h g
  | destroyArenas thread => exact destroyArenas_under fits h thread
  | releaseThread thread => exact releaseThread_under fits h thread
  | exitThread thread => exact exitThread_under fits h thread
  | compact => exact congrArg Prod.snd (compact_under fits h)
  | compactArena kind => exact congrArg Prod.snd (compactArena_under fits h kind)
  | checkPressure => exact congrArg Prod.snd (checkPressure_under fits h)
  | handlePressure => exact handlePressure_under fits h
  | bindThread => cases placed
  | _ => rfl

end

end Heap

end NumaHeap
