import NumaHeap.Proofs.Heap.Receipts
import NumaHeap.Proofs.Heap.Entries
import NumaHeap.Proofs.Platform.Simulated

/-!
The account of a heap. Whatever clients do, as long as they free what is theirs in the size that they
were given, the counters of the heap agree with the receipts of its clients, the registries of large
objects hold what is charged for large objects, and the peak is the most that the bytes in use ever
showed. As long as the bytes on the account never filled a word, no more are ever taken off it than are
on it. Arenas can fill it: a thread that exits gives its memory back, and leaves its bytes on the account.
-/

namespace NumaHeap

open Receipt

/-- Between these counts the peak has risen to the bytes now in use, if it was lower. -/
def Telemetry.Counters.Rises (c later : Telemetry.Counters) : Prop :=
  later.peakBytes = max c.peakBytes later.currentBytes

/-- The peak stays where it is unless more bytes come into use. -/
theorem Telemetry.Counters.Rises.of_le {c later : Telemetry.Counters}
    (topped : c.currentBytes ≤ c.peakBytes) (same : later.peakBytes = c.peakBytes)
    (fewer : later.currentBytes ≤ c.currentBytes) : c.Rises later := by
  rw [Rises, same]
  exact (Nat.max_eq_left (Nat.le_trans fewer topped)).symm

/-- Something may be taken off the account by the action. -/
def Action.deducts : Action → Bool
  | .free .. | .resetArenas | .destroyArenas _ => true
  | _ => false

namespace Heap

variable {σ : Type} {os : Platform σ} {contract : os.Contract} {h after : Heap σ}
  {thread : ThreadId} {size address : Nat} {kind : ObjectKind} {tier : Tier} {node : Option Nat}
  {alignment : PowerOfTwo} {receipts : List Receipt} {readings : List Nat}
  {charges : List Allocation}

/-- What a client is told of an action. -/
def tells (os : Platform σ) (h : Heap σ) : Action → List Receipt
  | .allocate thread demand =>
    .ofAnswer demand.size demand.alignment thread (h.tierOf demand) (h.meet os thread demand).1 ::
      if h.retries os thread demand then [.retried] else []
  | .free thread address size =>
    match (h.free os thread address size).1 with
    | .ok _ => [.freed address size]
    | .error _ => []
  | .resetArenas | .destroyArenas _ => [.reclaimed]
  | _ => []

/-- What is freed is on the account, as an object of that size. -/
def Owes (os : Platform σ) (h : Heap σ) (receipts : List Receipt) : Action → Prop
  | .free thread address size => (h.free os thread address size).1 = .ok () →
      ∃ x ∈ charged receipts, x.isObject address size = true
  | _ => True

/-- A heap, the receipts of its clients, who free what they were given in its own size, and what it
showed as bytes in use after each action, latest first. -/
inductive Billed (contract : os.Contract) : Heap σ → List Receipt → List Nat → Prop
  | create {machine : Machine σ} {configuration : Configuration} {heap : Heap σ} :
      contract.Possible machine.system → Heap.create os machine configuration = .ok heap →
      Billed contract heap [] []
  | perform {h : Heap σ} {receipts : List Receipt} {readings : List Nat} (action : Action) :
      Billed contract h receipts readings → h.Owes os receipts action →
      Billed contract (h.act os action) (h.tells os action ++ receipts)
        ((h.act os action).counters.currentBytes :: readings)
  | drift {h : Heap σ} {receipts : List Receipt} {readings : List Nat} {system : σ} :
      Billed contract h receipts readings → contract.Drifts h.machine.system system →
      Billed contract (h.onSystem system) receipts readings

/-- The bytes that an action takes off the account: of a large object those that were recorded for it,
of an object of the slabs those that its holder names, and of the arenas all that they served. -/
def deducted (os : Platform σ) (h : Heap σ) : Action → Nat
  | .free thread address size =>
    match (h.free os thread address size).1, h.classify size .generic with
    | .ok _, .large => (h.large.sizeOf? address).getD 0
    | .ok _, _ => size
    | .error _, _ => 0
  | .resetArenas | .destroyArenas _ => h.arenaBytes
  | _ => 0

/-- The parts of a heap bear out what is charged. -/
structure Books (contract : os.Contract) (h : Heap σ) (charges : List Allocation) : Prop where
  sound : h.Sound
  custody : os.Custody contract h.machine.system h.regions
  routed : ∀ x ∈ charges, x.tier.isArena = false → h.classify x.size .generic = x.tier
  entries : h.large.entries.Perm (Allocation.entries charges)
  valid : h.large.validate = true
  /-- The bytes of the arenas are counted in a word. -/
  arenas : h.arenaBytes = Word.wrap (Allocation.total (charges.filter (·.tier.isArena)))

namespace Books

theorem routes (books : Books contract h charges) (moves : Moves os h after)
    (configuration : after.configuration = h.configuration) :
    ∀ x ∈ charges, x.tier.isArena = false → after.classify x.size .generic = x.tier := by
  intro x member object
  rw [classify_congr configuration moves.slab]
  exact books.routed x member object

/-- Charges that remain are borne out if the parts have given up what the others were for. -/
theorem remain {rest : List Allocation} (books : Books contract h charges)
    (moves : Moves os h after) (configuration : after.configuration = h.configuration)
    (within : ∀ x ∈ rest, x ∈ charges)
    (entries : after.large.entries.Perm (Allocation.entries rest))
    (valid : after.large.validate = true)
    (arenas : after.arenaBytes = Word.wrap (Allocation.total (rest.filter (·.tier.isArena)))) :
    Books contract after rest where
  sound := moves.sound
  custody := moves.trades.custody books.custody
  routed x kept := books.routes moves configuration x (within x kept)
  entries := entries
  valid := valid
  arenas := arenas

theorem refuse {error : AllocError} (books : Books contract h charges) (moves : Moves os h after)
    (outcome : Outcome os h thread size kind tier node alignment (.error error) after) :
    Books contract after charges := by
  have still := outcome.failed
  obtain ⟨valid, same⟩ := outcome.entries books.sound books.custody
  exact books.remain moves still.configuration (fun _ member => member) (same.trans books.entries)
    (valid books.valid) (still.arenaBytes.trans books.arenas)

theorem grant (books : Books contract h charges) (moves : Moves os h after)
    (outcome : Outcome os h thread size kind tier node alignment (.ok address) after)
    (routed : tier.isArena = false → h.classify size .generic = tier) (wish : Nat) :
    Books contract after (⟨address, size, wish, thread, tier⟩ :: charges) := by
  obtain ⟨isLocal, nanoseconds, still⟩ := outcome.counted
  obtain ⟨valid, entered⟩ := outcome.entries books.sound books.custody
  refine ⟨moves.sound, moves.trades.custody books.custody,
    List.forall_mem_cons.2 ⟨fun object => ?_, books.routes moves still.configuration⟩, ?_,
    valid books.valid, ?_⟩
  · rw [classify_congr still.configuration moves.slab]
    exact routed object
  · rw [Allocation.entries_cons]
    exact entered.trans (books.entries.append_left _)
  · rw [still.arenaBytes]
    cases tier with
    | arena =>
      simp only [books.arenas, Word.wrap_wrap_add]
      simp [Tier.isArena, Allocation.total, Nat.add_comm]
    | slab => simpa [Tier.isArena] using books.arenas
    | large => simpa [Tier.isArena] using books.arenas

theorem fail (books : Books contract h charges) (error : AllocError) :
    Books contract (h.fail error).2 charges :=
  ⟨(fail_alike h error).sound books.sound, books.custody, books.routed, books.entries, books.valid,
    books.arenas⟩

theorem withMemory (books : Books contract h charges) (memory : Memory) :
    Books contract { h with machine := h.machine.withMemory memory } charges :=
  ⟨⟨books.sound.arenas, books.sound.count, books.sound.slab, books.sound.large⟩, books.custody,
    books.routed, books.entries, books.valid, books.arenas⟩

/-- The tier that an object was charged for is that of its size, and what the parts bear out besides
is the rest of the charges. -/
theorem strike {x : Allocation} (books : Books contract h charges) (member : x ∈ charges)
    (object : x.isObject address size = true) :
    h.large.entries.Perm ((h.classify size .generic).entry address size ++
        Allocation.entries (charges.eraseP (·.isObject address size))) ∧
      h.arenaBytes = Word.wrap
        (Allocation.total ((charges.eraseP (·.isObject address size)).filter (·.tier.isArena))) := by
  obtain ⟨y, found, exchanged⟩ := Allocation.perm_eraseP member object
  obtain ⟨bare, here, same⟩ := Allocation.isObject_iff.1 found
  have charged : y ∈ charges := exchanged.mem_iff.2 (List.mem_cons_self ..)
  have tier : h.classify size .generic = y.tier := same ▸ books.routed y charged bare
  constructor
  · have whole := books.entries.trans (Allocation.entries_perm exchanged)
    rwa [Allocation.entries_cons, here, same, ← tier] at whole
  · rw [books.arenas, Allocation.total_perm (exchanged.filter _), List.filter_cons_of_neg]
    exact Bool.eq_false_iff.1 bare

/-- What is freed was charged, and was charged for as it is freed. -/
theorem free {x : Allocation} (books : Books contract h charges) (member : x ∈ charges)
    (object : x.isObject address size = true)
    (freed : h.free os thread address size = (.ok (), after)) :
    Books contract after (charges.eraseP (·.isObject address size)) ∧
      after.counters = h.counters.recordFree size ∧
      h.deducted os (.free thread address size) = size := by
  have moves : Moves os h after := by
    have whole : Moves os h (h.free os thread address size).2 :=
      free_moves books.sound thread address size
    rwa [freed] at whole
  obtain ⟨entries, arenas⟩ := books.strike member object
  have within : ∀ y ∈ charges.eraseP (·.isObject address size), y ∈ charges :=
    fun _ kept => List.mem_of_mem_eraseP kept
  cases free_releases freed with
  | @large bytes large machine served released =>
    rw [served] at entries
    have registered : (address, size) ∈ h.large.entries :=
      entries.mem_iff.2 (List.mem_append_left _ (List.mem_singleton_self _))
    obtain ⟨o, inside, equal⟩ := List.mem_map.1 registered
    cases equal
    obtain ⟨answer, left⟩ := Large.free_of_mem inside (large_starts_nodup books.custody) released
    cases answer
    have others : large.entries.Perm
        (Allocation.entries (charges.eraseP (·.isObject o.region.start o.size))) :=
      (List.perm_cons _).1 ((Large.entries_perm left).symm.trans entries)
    refine ⟨books.remain moves rfl within others (Large.free_validate books.valid released) arenas,
      rfl, ?_⟩
    simp only [deducted, freed, served, Large.sizeOf?_of_free released, Option.getD_some]
  | @slab cells last machine served present released =>
    rw [served] at entries
    refine ⟨books.remain moves rfl within entries books.valid arenas, rfl, ?_⟩
    simp only [deducted, freed, served]

end Books

/-- Nothing is on the account of a new heap. -/
theorem create_fresh {machine : Machine σ} {configuration : Configuration}
    (created : Heap.create os machine configuration = .ok h) :
    h.large.validate = true ∧ h.arenaBytes = 0 ∧ h.counters = {} := by
  simp only [Heap.create, bind, Except.bind] at created
  split at created
  · cases created
  · split at created
    · cases created
    · cases created
      exact ⟨Large.create_validate .., rfl, rfl⟩

/-- Counters and parts of a heap bear out the receipts. -/
structure Settled (contract : os.Contract) (h : Heap σ) (receipts : List Receipt) : Prop where
  books : Books contract h (charged receipts)
  agrees : h.counters.Agrees receipts

namespace Settled

theorem create {machine : Machine σ} {configuration : Configuration}
    (possible : contract.Possible machine.system)
    (created : Heap.create os machine configuration = .ok h) : Settled contract h [] := by
  obtain ⟨sound, bare, same, -⟩ := create_spec created
  obtain ⟨valid, empty, zero⟩ := create_fresh created
  have none : h.large.objects = [] := by
    have nothing := (List.append_eq_nil_iff.1 (List.append_eq_nil_iff.1 bare).2).2
    exact List.map_eq_nil_iff.1 nothing
  refine ⟨⟨sound, ?_, by simp [charged], ?_, valid, empty⟩, zero ▸ .create⟩
  · rw [bare, same]
    exact .nil possible
  · rw [Large.entries, none]
    exact .refl _

theorem drift {system : σ} (settled : Settled contract h receipts)
    (drifts : contract.Drifts h.machine.system system) :
    Settled contract (h.onSystem system) receipts where
  books :=
    { settled.books with
      sound := ⟨settled.books.sound.arenas, settled.books.sound.count, settled.books.sound.slab,
        settled.books.sound.large⟩
      custody := settled.books.custody.drift drifts }
  agrees := settled.agrees

theorem refuse {error : AllocError} (settled : Settled contract h receipts)
    (served : h.allocate os thread size kind tier node alignment = (.error error, after)) :
    Books contract after (charged receipts) ∧
      after.counters = h.counters.recordFailure error := by
  have outcome := allocate_outcome served
  have moves := allocate_moves os settled.books.sound thread size kind tier node alignment
  rw [served] at moves
  exact ⟨settled.books.refuse moves outcome, outcome.failed.counters⟩

theorem grant (settled : Settled contract h receipts)
    (served : h.allocate os thread size kind tier node alignment = (.ok address, after))
    (routed : tier.isArena = false → h.classify size .generic = tier) (wish : Nat) :
    Settled contract after (.granted ⟨address, size, wish, thread, tier⟩ :: receipts) := by
  have outcome := allocate_outcome served
  have moves := allocate_moves os settled.books.sound thread size kind tier node alignment
  rw [served] at moves
  obtain ⟨isLocal, nanoseconds, still⟩ := outcome.counted
  refine ⟨settled.books.grant moves outcome routed wish, ?_⟩
  rw [still.counters]
  exact settled.agrees.granted ⟨address, size, wish, thread, tier⟩ kind _ isLocal nanoseconds

/-- The last request that is made for a demand. -/
theorem answer {answer : Except AllocError Nat} (settled : Settled contract h receipts)
    (served : h.allocate os thread size kind tier node alignment = (answer, after))
    (routed : tier.isArena = false → h.classify size .generic = tier) (wish : Nat) :
    Settled contract after (.ofAnswer size wish thread tier answer :: receipts) := by
  cases answer with
  | ok address => exact settled.grant served routed wish
  | error error =>
    obtain ⟨books, counters⟩ := settled.refuse served
    exact ⟨books, counters ▸ settled.agrees.refused error⟩

theorem meet (settled : Settled contract h receipts) (thread : ThreadId)
    (demand : Session.Demand) :
    Settled contract (h.act os (.allocate thread demand))
      (h.tells os (.allocate thread demand) ++ receipts) := by
  have routed : (h.tierOf demand).isArena = false →
      h.classify demand.size .generic = h.tierOf demand := classify_tierOf
  cases met : h.meet os thread demand with
  | mk answer after =>
    have meets := meet_meets met
    obtain ⟨retried, same⟩ : ∃ retried, h.retries os thread demand = retried := ⟨_, rfl⟩
    rw [same] at meets
    simp only [act, tells, met, same]
    cases meets with
    | barred => exact ⟨settled.books.fail _, settled.agrees.refused _⟩
    | once _ served => exact settled.answer served routed demand.alignment
    | @again wish cause middle _ _ first second =>
      obtain ⟨books, counters⟩ := settled.refuse first
      have between : Settled contract middle (.retried :: receipts) :=
        ⟨books, counters ▸ settled.agrees.retried cause⟩
      have moves := allocate_moves os settled.books.sound thread demand.size .generic
        (h.tierOf demand) (some wish) wordAlignment
      rw [first] at moves
      refine between.answer second (fun object => ?_) demand.alignment
      rw [classify_congr (allocate_outcome first).failed.configuration moves.slab]
      exact routed object
    | cleared given =>
      have granted := settled.grant given routed demand.alignment
      exact ⟨granted.books.withMemory _, granted.agrees⟩

/-- The account after a release, and what was taken off it. -/
theorem freed (settled : Settled contract h receipts)
    (owes : h.Owes os receipts (.free thread address size))
    (freed : h.free os thread address size = (.ok (), after)) :
    Settled contract after (.freed address size :: receipts) ∧
      after.counters = h.counters.recordFree size ∧
      h.deducted os (.free thread address size) = size ∧ size ≤ used receipts := by
  obtain ⟨x, member, object⟩ := owes (congrArg Prod.fst freed)
  obtain ⟨books, counters, deducts⟩ := settled.books.free member object freed
  have less : used (.freed address size :: receipts) + size = used receipts := by
    obtain ⟨y, found, exchanged⟩ := Allocation.perm_eraseP member object
    have whole := Allocation.total_perm exchanged
    have bytes := (Allocation.isObject_iff.1 found).2.2
    simp only [Allocation.total, List.map_cons, List.sum_cons] at whole
    simp only [used, charged, Allocation.total]
    omega
  refine ⟨⟨books, ?_⟩, counters, deducts, less ▸ Nat.le_add_left ..⟩
  rw [counters]
  exact settled.agrees.released rfl ⟨rfl, rfl⟩ fun _ => less

theorem free (settled : Settled contract h receipts)
    (owes : h.Owes os receipts (.free thread address size)) :
    Settled contract (h.act os (.free thread address size))
      (h.tells os (.free thread address size) ++ receipts) := by
  cases answered : h.free os thread address size with
  | mk answer after =>
    simp only [act, tells, answered]
    cases answer with
    | ok => exact (settled.freed owes answered).1
    | error error =>
      cases free_releases answered
      exact settled

/-- Until it fills a word, the account holds all that the arenas served. -/
theorem arenas (settled : Settled contract h receipts) (fits : peak receipts < Word.bound) :
    h.arenaBytes = Allocation.total ((charged receipts).filter (·.tier.isArena)) ∧
      h.arenaBytes ≤ used receipts := by
  have whole := Allocation.total_filter_add (·.tier.isArena) (charged receipts)
  have below := used_lt_bound fits
  rw [used] at below ⊢
  rw [settled.books.arenas, Word.wrap_of_lt (by omega)]
  exact ⟨rfl, by omega⟩

theorem reclaim (settled : Settled contract h receipts) (moves : Moves os h after)
    (configuration : after.configuration = h.configuration) (large : after.large = h.large)
    (arenaBytes : after.arenaBytes = 0)
    (counters : after.counters = h.counters.recordFree h.arenaBytes) :
    Settled contract after (.reclaimed :: receipts) where
  books := by
    have books := settled.books
    refine books.remain moves configuration (fun x member => (List.mem_filter.1 member).1) ?_ ?_ ?_
    · have same : Allocation.entries (charged (.reclaimed :: receipts)) =
          Allocation.entries (charged receipts) := by
        refine congrArg (List.map _) ?_
        rw [charged, List.filter_filter]
        refine List.filter_congr fun x _ => ?_
        cases tier : x.tier <;> simp [Allocation.isLarge, Tier.isArena, tier]
      rw [large, same]
      exact books.entries
    · rw [large]
      exact books.valid
    · rw [arenaBytes, charged, List.filter_filter]
      simp [Allocation.total, Word.wrap]
  agrees := by
    rw [counters]
    refine settled.agrees.released rfl ⟨rfl, rfl⟩ fun fits => ?_
    have whole := Allocation.total_filter_add (·.tier.isArena) (charged receipts)
    rw [(settled.arenas fits).1, used, used, charged]
    omega

theorem upkeep (settled : Settled contract h receipts) (moves : Moves os h after)
    (upkeep : Upkeep h after) : Settled contract after receipts where
  books := by
    have books := settled.books
    refine books.remain moves upkeep.configuration (fun _ member => member) ?_ ?_
      (upkeep.arenaBytes.trans books.arenas)
    · rw [upkeep.large]
      exact books.entries
    · rw [upkeep.large]
      exact books.valid
  agrees := by
    rw [upkeep.counters]
    exact settled.agrees.upkeep _ _

theorem perform (settled : Settled contract h receipts) (action : Action)
    (owes : h.Owes os receipts action) :
    Settled contract (h.act os action) (h.tells os action ++ receipts) := by
  have moves := act_moves os settled.books.sound action
  cases action with
  | allocate thread demand => exact settled.meet thread demand
  | free thread address size => exact settled.free owes
  | resetArenas => exact settled.reclaim moves rfl rfl rfl rfl
  | destroyArenas thread => exact settled.reclaim moves rfl rfl rfl rfl
  | _ => exact settled.upkeep moves (act_upkeep os h rfl)

/-- The bytes reported for large objects are those charged for them. -/
theorem large (settled : Settled contract h receipts) :
    h.stats.large.bytes = Allocation.total ((charged receipts).filter Allocation.isLarge) := by
  have bytes := (settled.books.entries.map Prod.snd).sum_nat
  simp only [Large.entries, Allocation.entries, List.map_map] at bytes
  exact (Large.stats_bytes settled.books.valid).trans bytes

/-- What is taken off the account is on it, until it fills a word. -/
theorem deducts {action : Action} (settled : Settled contract h receipts)
    (owes : h.Owes os receipts action) (deducts : action.deducts = true) :
    (h.act os action).counters = h.counters.recordFree (h.deducted os action) ∧
      (peak receipts < Word.bound → h.deducted os action ≤ h.counters.currentBytes) := by
  have arenas (fits : peak receipts < Word.bound) : h.arenaBytes ≤ h.counters.currentBytes :=
    settled.agrees.current fits ▸ (settled.arenas fits).2
  cases action with
  | free thread address size =>
    cases answered : h.free os thread address size with
    | mk answer after =>
      simp only [act, answered]
      cases answer with
      | ok =>
        obtain ⟨-, counters, same, enough⟩ := settled.freed owes answered
        rw [same]
        exact ⟨counters, fun fits => settled.agrees.current fits ▸ enough⟩
      | error error =>
        cases free_releases answered
        simp only [deducted, answered]
        exact ⟨rfl, fun _ => Nat.zero_le _⟩
  | resetArenas => exact ⟨rfl, arenas⟩
  | destroyArenas => exact ⟨rfl, arenas⟩
  | _ => cases deducts

end Settled

theorem Billed.settled (billed : Billed contract h receipts readings) :
    Settled contract h receipts := by
  induction billed with
  | create possible created => exact .create possible created
  | perform action _ owes ih => exact ih.perform action owes
  | drift _ drifts ih => exact ih.drift drifts

section

variable (topped : h.counters.currentBytes ≤ h.counters.peakBytes)

include topped

theorem allocate_rises {answer : Except AllocError Nat}
    (served : h.allocate os thread size kind tier node alignment = (answer, after)) :
    h.counters.Rises after.counters := by
  have outcome := allocate_outcome served
  cases answer with
  | ok address =>
    obtain ⟨isLocal, nanoseconds, still⟩ := outcome.counted
    rw [still.counters]
    rfl
  | error error =>
    rw [outcome.failed.counters]
    exact .of_le topped rfl (Nat.le_refl _)

/-- However an action ends, the bytes in use change once at most. -/
theorem act_rises (os : Platform σ) (action : Action) :
    h.counters.Rises (h.act os action).counters := by
  cases action with
  | allocate thread demand =>
    cases met : h.meet os thread demand with
    | mk answer after =>
      have meets := meet_meets met
      obtain ⟨retried, same⟩ : ∃ retried, h.retries os thread demand = retried := ⟨_, rfl⟩
      rw [same] at meets
      simp only [act, met]
      cases meets with
      | barred => exact .of_le topped rfl (Nat.le_refl _)
      | once _ served => exact allocate_rises topped served
      | again first second =>
        have failed := (allocate_outcome first).failed.counters
        have later := allocate_rises (by rw [failed]; exact topped) second
        rw [Telemetry.Counters.Rises, failed] at later
        exact later
      | cleared given =>
        have granted := allocate_rises topped given
        exact granted
  | free thread address size =>
    cases answered : h.free os thread address size with
    | mk answer after =>
      simp only [act, answered]
      cases free_releases answered with
      | refused => exact .of_le topped rfl (Nat.le_refl _)
      | large => exact .of_le topped rfl (Nat.sub_le ..)
      | slab => exact .of_le topped rfl (Nat.sub_le ..)
  | resetArenas => exact .of_le topped rfl (Nat.sub_le ..)
  | destroyArenas => exact .of_le topped rfl (Nat.sub_le ..)
  | _ =>
    rw [(act_upkeep os h rfl).counters]
    exact .of_le topped rfl (Nat.le_refl _)

end

/-- The peak is the most that was ever shown. -/
theorem Billed.peak_eq (billed : Billed contract h receipts readings) :
    h.counters.currentBytes ≤ h.counters.peakBytes ∧
      h.counters.peakBytes = readings.foldr max 0 := by
  induction billed with
  | create _ created =>
    rw [(create_fresh created).2.2]
    exact ⟨Nat.le_refl _, rfl⟩
  | @perform h _ _ action _ _ ih =>
    obtain ⟨topped, shown⟩ := ih
    have rises := act_rises topped os action
    rw [Telemetry.Counters.Rises, Nat.max_comm] at rises
    refine ⟨rises ▸ Nat.le_max_left .., ?_⟩
    rw [rises, shown, List.foldr_cons]
  | drift _ _ ih => exact ih

/-- Whatever clients do, the counters agree with their receipts, the peak is the most that was ever shown
as bytes in use, and the bytes of large objects are those charged for them; and until the account fills a
word, nothing is taken off it that is not on it. -/
theorem usage_exact (billed : Billed contract h receipts readings) :
    h.counters.Agrees receipts ∧ h.counters.peakBytes = readings.foldr max 0 ∧
      h.stats.large.bytes = Allocation.total ((charged receipts).filter Allocation.isLarge) ∧
      ∀ action, h.Owes os receipts action → action.deducts = true →
        (h.act os action).counters = h.counters.recordFree (h.deducted os action) ∧
          (peak receipts < Word.bound → h.deducted os action ≤ h.counters.currentBytes) := by
  have settled := billed.settled
  exact ⟨settled.agrees, billed.peak_eq.2, settled.large,
    fun _ owes deducts => settled.deducts owes deducts⟩

/-- A heap, the receipts of its clients and what it showed as bytes in use, after one more action. -/
def bill (os : Platform σ) (before : Heap σ × List Receipt × List Nat) (action : Action) :
    Heap σ × List Receipt × List Nat :=
  (before.1.act os action, before.1.tells os action ++ before.2.1,
    (before.1.act os action).counters.currentBytes :: before.2.2)

/-- Three tiers serve two threads, one of which frees an object of the other and exits; a node that
does not exist is asked for at last. -/
theorem usage_exact_three_tiers :
    let readings := [1000100, 1000100, 1000100, 1000124, 124, 24]
    ∃ h receipts, Billed (Simulated.contract {} (by decide) (by decide)) h receipts readings ∧
      peak receipts < Word.bound ∧ used receipts = 1000100 ∧ h.counters.currentBytes = 1000100 ∧
      h.counters.peakBytes = 1000124 ∧ h.counters.failures = 1 ∧ h.counters.Agrees receipts ∧
      h.deducted (Simulated.platform {}) .resetArenas ≤ h.counters.currentBytes := by
  intro readings
  let os := Simulated.platform {}
  let first : Action := .allocate 0 (.object 24 .generic)
  let second : Action := .allocate 1 (.aligned 100 64)
  let third : Action := .allocate 0 (.object 1000000 .array)
  let release : Action := .free 1 65536 24
  let last : Action := .allocate 0 (.onNode 8 7)
  let early (heap : Heap Simulated.State) := [first, second, third].foldl (bill os) (heap, [], [])
  let late (heap : Heap Simulated.State) :=
    [release, .exitThread 1, last].foldl (bill os) (early heap)
  obtain ⟨heap, created, values⟩ := exists_created os (Simulated.machine {}) {}
    (fun heap => ((charged (early heap).2.1).any (·.isObject 65536 24), peak (late heap).2.1,
      used (late heap).2.1, (late heap).2.2, (late heap).1.counters.failures))
    (true, 1000124, 1000100, readings, 1) (by decide +kernel)
  simp only [Prod.mk.injEq] at values
  obtain ⟨held, most, account, shown, failures⟩ := values
  have start : Billed (Simulated.contract {} (by decide) (by decide)) heap [] [] :=
    .create (Simulated.machine_sound {}) created
  have busy : Billed _ (early heap).1 (early heap).2.1 (early heap).2.2 :=
    .perform third (.perform second (.perform first start trivial) trivial) trivial
  have billed : Billed _ (late heap).1 (late heap).2.1 (late heap).2.2 :=
    .perform last (.perform (.exitThread 1)
      (.perform release busy fun _ => List.any_eq_true.1 held) trivial) trivial
  have fits : peak (late heap).2.1 < Word.bound := most ▸ by decide
  obtain ⟨agrees, highest, -, deducts⟩ := usage_exact billed
  refine ⟨_, _, shown ▸ billed, fits, account, (agrees.current fits).trans account, ?_, failures,
    agrees, (deducts .resetArenas trivial rfl).2 fits⟩
  rw [highest, shown]
  rfl

/-- A large object is live, and two threads exit whose arenas served the rest of a word between them: the
addresses of the first serve the second again. The counters start again from zero, and releasing the
object takes more off the bytes in use than they show. -/
theorem usage_lost_past_word :
    let settings : Simulated.Settings :=
      { pageSize := ⟨60, by decide⟩, hugePageSize := ⟨60, by decide⟩
        memoryLimit := Word.bound, addressLimit := Word.bound }
    ∃ h receipts readings,
      Billed (Simulated.reusing settings (by decide) (by decide)) h receipts readings ∧
        used receipts = Word.bound + 1 ∧ h.counters.currentBytes = 1 ∧
        Allocation.total (grants receipts) = Word.bound + 1 ∧ h.counters.totalBytes = 1 ∧
        ∃ action, h.Owes (Simulated.platform settings) receipts action ∧
          action.deducts = true ∧
          h.counters.currentBytes < h.deducted (Simulated.platform settings) action := by
  intro settings
  let os := Simulated.platform settings
  let contract := Simulated.reusing settings (by decide) (by decide)
  let page := Word.bound / 16
  let configuration : Configuration :=
    { hugePages := false, securityMode := .disabled, largeThreshold := 4 * page + 1 }
  let object : Action := .allocate 0 (.object (4 * page + 1) .generic)
  let first : Action := .allocate 1 (.object (4 * page) .generic)
  let second : Action := .allocate 2 (.object (4 * page) .generic)
  let release : Action := .free 0 page (4 * page + 1)
  let early (heap : Heap Simulated.State) :=
    [object, first, first, .exitThread 1].foldl (bill os) (heap, [], [])
  let back (heap : Heap Simulated.State) : Simulated.State :=
    { (early heap).1.machine.system with cursor := 6 * page }
  let late (heap : Heap Simulated.State) :=
    [second, .exitThread 2].foldl (bill os) ((early heap).1.onSystem (back heap), (early heap).2)
  obtain ⟨heap, created, values⟩ := exists_created os (Simulated.machine {}) configuration
    (fun heap => ((early heap).1.machine.system.extents,
      (charged (late heap).2.1).any (·.isObject page (4 * page + 1)),
      [used (late heap).2.1, (late heap).1.counters.currentBytes,
        Allocation.total (grants (late heap).2.1), (late heap).1.counters.totalBytes,
        (late heap).1.deducted os release]))
    ([⟨page, 5 * page⟩], true, [Word.bound + 1, 1, Word.bound + 1, 1, 4 * page + 1])
    (by decide +kernel)
  simp only [Prod.mk.injEq, List.cons.injEq, and_true] at values
  obtain ⟨extents, held, account, current, granted, bytes, deducted⟩ := values
  have busy : Billed contract (early heap).1 (early heap).2.1 (early heap).2.2 :=
    .perform (.exitThread 1) (.perform first (.perform first (.perform object
      (.create (Simulated.machine_sound {}) created) trivial) trivial) trivial) trivial
  have positive : 0 < page := show 0 < Word.bound / 16 by decide
  have drifts : contract.Drifts (early heap).1.machine.system (back heap) := by
    have nodup := busy.settled.books.custody.possible.nodup
    refine ⟨⟨Nat.mul_pos (by decide) positive, fun e member => ?_, nodup⟩, rfl⟩
    obtain rfl := List.mem_singleton.1 (extents ▸ member)
    exact show page + 5 * page ≤ 6 * page by omega
  have billed : Billed contract (late heap).1 (late heap).2.1 (late heap).2.2 :=
    .perform (.exitThread 2) (.perform second (.drift busy drifts) trivial) trivial
  refine ⟨_, _, _, billed, account, current, granted, bytes, release, ?_, rfl, ?_⟩
  · exact fun _ => List.any_eq_true.1 held
  · rw [current, deducted]
    omega

end Heap

end NumaHeap
