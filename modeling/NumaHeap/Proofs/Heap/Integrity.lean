import NumaHeap.Proofs.Heap.Handled
import NumaHeap.Proofs.Heap.Usage

/-!
Counters that agree with each other, whatever clients do. They may free anything in any size, as often
as they like: taking bytes off the bytes in use stops at zero, so no more bytes are ever in use than
were granted in all, and each grant is counted once by node and once by kind. The bytes granted and the
bytes in use are both counted in words. Only once the former have filled theirs, and start again from
zero, can more seem to be in use than were granted.
-/

namespace NumaHeap

open Receipt

namespace Telemetry

theorem KindCounts.total_add (k : KindCounts) (kind : ObjectKind) (large : Bool) :
    (k.add kind large).total = k.total + 1 := by
  unfold add total
  split
  · rfl
  · split <;> simp only [] <;> omega

/-- Counts that agree with each other, once some bytes were granted in all. -/
structure Counters.Consistent (c : Counters) (granted : Nat) : Prop where
  bytes : c.totalBytes = Word.wrap granted
  current : c.currentBytes ≤ granted
  nodes : c.localAllocations + c.remoteAllocations = c.totalAllocations
  kinds : c.kinds.total = c.totalAllocations
  peak : c.currentBytes ≤ c.peakBytes

namespace Counters.Consistent

variable {c : Counters} {granted : Nat}

theorem create : ({} : Counters).Consistent 0 := ⟨rfl, Nat.le_refl _, rfl, rfl, Nat.le_refl _⟩

theorem recordAllocation (consistent : c.Consistent granted) (size : Nat) (kind : ObjectKind)
    (large isLocal : Bool) (nanoseconds : Nat) :
    (c.recordAllocation size kind large isLocal nanoseconds).Consistent (granted + size) where
  bytes := by
    simp only [Counters.recordAllocation, consistent.bytes]
    exact Word.wrap_wrap_add ..
  current := Nat.le_trans (Word.wrap_le _) (Nat.add_le_add_right consistent.current size)
  nodes := by
    have nodes := consistent.nodes
    cases isLocal <;> simp only [Counters.recordAllocation, Bool.toNat_true, Bool.toNat_false,
      Bool.not_true, Bool.not_false] <;> omega
  kinds := by
    simp only [Counters.recordAllocation, KindCounts.total_add, consistent.kinds]
  peak := Nat.le_max_right ..

theorem recordFailure (consistent : c.Consistent granted) (error : AllocError) :
    (c.recordFailure error).Consistent granted :=
  ⟨consistent.bytes, consistent.current, consistent.nodes, consistent.kinds, consistent.peak⟩

/-- Taking bytes off stops at zero, so any size may be taken off. -/
theorem recordFree (consistent : c.Consistent granted) (size : Nat) :
    (c.recordFree size).Consistent granted where
  bytes := consistent.bytes
  current := Nat.le_trans (Nat.sub_le ..) consistent.current
  nodes := consistent.nodes
  kinds := consistent.kinds
  peak := Nat.le_trans (Nat.sub_le ..) consistent.peak

theorem upkeep (consistent : c.Consistent granted) (compactions nanoseconds : Nat) :
    { c with compactions, compactionNanoseconds := nanoseconds }.Consistent granted :=
  ⟨consistent.bytes, consistent.current, consistent.nodes, consistent.kinds, consistent.peak⟩

end Counters.Consistent

end Telemetry

namespace Receipt

/-- The bytes granted in all. -/
def bytesGranted (receipts : List Receipt) : Nat := Allocation.total (grants receipts)

variable {receipts : List Receipt}

theorem bytesGranted_granted (x : Allocation) :
    bytesGranted (.granted x :: receipts) = bytesGranted receipts + x.size := by
  simp [bytesGranted, grants, grant?, Allocation.total, Nat.add_comm]

/-- Only grants add to the bytes granted. -/
theorem bytesGranted_cons {receipt : Receipt} (none : receipt.grant? = .none) :
    bytesGranted (receipt :: receipts) = bytesGranted receipts := by
  rw [bytesGranted, grants, List.filterMap_cons_none none, ← grants, ← bytesGranted]

end Receipt

namespace Heap

variable {σ : Type} {os : Platform σ} {h after : Heap σ} {thread : ThreadId} {size : Nat}
  {kind : ObjectKind} {tier : Tier} {node : Option Nat} {alignment : PowerOfTwo}
  {receipts : List Receipt}

/-- A heap with the log of all receipts of its clients, who may do anything to it. -/
inductive Logged (os : Platform σ) : Heap σ → List Receipt → Prop
  | create {machine : Machine σ} {configuration : Configuration} {heap : Heap σ} :
      Heap.create os machine configuration = .ok heap → Logged os heap []
  | perform {h : Heap σ} {receipts : List Receipt} (action : Action) : Logged os h receipts →
      Logged os (h.act os action) (h.tells os action ++ receipts)
  | drift {h : Heap σ} {receipts : List Receipt} {system : σ} : Logged os h receipts →
      Logged os (h.onSystem system) receipts

/-- The counters agree with each other, and the accounts of large objects with the objects. -/
structure Coherent (h : Heap σ) (receipts : List Receipt) : Prop where
  counters : h.counters.Consistent (bytesGranted receipts)
  large : h.large.validate = true

namespace Coherent

theorem create {machine : Machine σ} {configuration : Configuration}
    (created : Heap.create os machine configuration = .ok h) : h.Coherent [] := by
  obtain ⟨valid, -, zero⟩ := create_fresh created
  exact ⟨zero ▸ .create, valid⟩

/-- A receipt that grants nothing leaves what was granted in all. -/
theorem of_none (coherent : h.Coherent receipts) (receipt : Receipt)
    (none : receipt.grant? = .none) : h.Coherent (receipt :: receipts) where
  counters := by
    rw [bytesGranted_cons none]
    exact coherent.counters
  large := coherent.large

theorem fail (coherent : h.Coherent receipts) (error : AllocError) :
    (h.fail error).2.Coherent receipts :=
  ⟨coherent.counters.recordFailure error, coherent.large⟩

theorem upkeep (coherent : h.Coherent receipts) (upkeep : Upkeep h after) :
    after.Coherent receipts where
  counters := by
    rw [upkeep.counters]
    exact coherent.counters.upkeep ..
  large := upkeep.large ▸ coherent.large

theorem dispatch {answer : Except AllocError Arena.Placement} (coherent : h.Coherent receipts)
    (served : h.dispatch os thread size tier node alignment = (answer, after)) :
    after.Coherent receipts where
  counters := (dispatch_still served).counters ▸ coherent.counters
  large := (dispatch_entries served).1 coherent.large

theorem discard (coherent : h.Coherent receipts) (os : Platform σ) (thread : ThreadId)
    (address size : Nat) (tier : Tier) :
    (h.discard os thread address size tier).Coherent receipts where
  counters := (discard_still os h thread address size tier).counters ▸ coherent.counters
  large := discard_validate os thread address size tier coherent.large

/-- A request is counted once if it is granted, and adds nothing if it fails. -/
theorem allocate {answer : Except AllocError Nat} (coherent : h.Coherent receipts)
    (served : h.allocate os thread size kind tier node alignment = (answer, after)) (wish : Nat) :
    after.Coherent (.ofAnswer size wish thread tier answer :: receipts) := by
  cases allocate_outcome served with
  | barred => exact (coherent.fail _).of_none (.refused _) rfl
  | denied denied => exact ((coherent.dispatch denied).fail _).of_none (.refused _) rfl
  | @refused placement _ _ _ dispatched =>
    have discarded := (coherent.dispatch dispatched).discard os thread placement.address size tier
    exact (discarded.fail _).of_none (.refused _) rfl
  | granted dispatched clean =>
    have middle := coherent.dispatch dispatched
    refine ⟨?_, (congrArg Large.validate (inspect_alike clean).large).trans middle.large⟩
    rw [Receipt.ofAnswer, bytesGranted_granted]
    have counted := middle.counters
    rw [← (inspect_still clean).counters] at counted
    exact counted.recordAllocation ..

theorem meet (coherent : h.Coherent receipts) (thread : ThreadId) (demand : Session.Demand) :
    (h.act os (.allocate thread demand)).Coherent
      (h.tells os (.allocate thread demand) ++ receipts) := by
  cases met : h.meet os thread demand with
  | mk answer after =>
    have meets := meet_meets met
    obtain ⟨retried, same⟩ : ∃ retried, h.retries os thread demand = retried := ⟨_, rfl⟩
    rw [same] at meets
    simp only [act, tells, met, same]
    cases meets with
    | barred => exact (coherent.fail _).of_none (.refused _) rfl
    | once _ served => exact coherent.allocate served demand.alignment
    | again first second =>
      have denied := coherent.allocate first demand.alignment
      have between : Coherent _ (.retried :: receipts) :=
        ⟨denied.counters, denied.large⟩
      exact between.allocate second demand.alignment
    | cleared given =>
      have granted := coherent.allocate given demand.alignment
      exact ⟨granted.counters, granted.large⟩

/-- A release may name any address and any size. -/
theorem free (coherent : h.Coherent receipts) (thread : ThreadId) (address size : Nat) :
    (h.act os (.free thread address size)).Coherent
      (h.tells os (.free thread address size) ++ receipts) := by
  cases answered : h.free os thread address size with
  | mk answer after =>
    simp only [act, tells, answered]
    cases free_releases answered with
    | refused => exact coherent
    | @large freed large machine _ released =>
      have less : ({ h with large, machine }.recordFree freed).Coherent receipts :=
        ⟨coherent.counters.recordFree freed, Large.free_validate coherent.large released⟩
      exact less.of_none (.freed address size) rfl
    | @slab _ last machine =>
      have less : ({ h with slab := some last, machine }.recordFree size).Coherent receipts :=
        ⟨coherent.counters.recordFree size, coherent.large⟩
      exact less.of_none (.freed address size) rfl

theorem perform (coherent : h.Coherent receipts) (action : Action) :
    (h.act os action).Coherent (h.tells os action ++ receipts) := by
  cases action with
  | allocate thread demand => exact coherent.meet thread demand
  | free thread address size => exact coherent.free thread address size
  | resetArenas =>
    have less : h.resetArenas.Coherent receipts :=
      ⟨coherent.counters.recordFree h.arenaBytes, coherent.large⟩
    exact less.of_none .reclaimed rfl
  | destroyArenas thread =>
    have less : (h.destroyArenas os thread).Coherent receipts :=
      ⟨coherent.counters.recordFree h.arenaBytes, coherent.large⟩
    exact less.of_none .reclaimed rfl
  | _ => exact coherent.upkeep (act_upkeep os h rfl)

end Coherent

theorem Logged.coherent (logged : Logged os h receipts) : h.Coherent receipts := by
  induction logged with
  | create created => exact .create created
  | perform action _ ih => exact ih.perform action
  | drift _ ih => exact ⟨ih.counters, ih.large⟩

/-- Whatever clients do, the counters agree with each other; only the bytes in use and the bytes granted
in all compare as they should as long as the latter fit into a word. -/
theorem integrity_kept (logged : Logged os h receipts) :
    (bytesGranted receipts < Word.bound → h.validateIntegrity = true) ∧
      h.counters.localAllocations + h.counters.remoteAllocations = h.counters.totalAllocations ∧
      h.counters.kinds.total = h.counters.totalAllocations ∧
      h.counters.currentBytes ≤ h.counters.peakBytes ∧ h.large.validate = true := by
  have ⟨counters, large⟩ := logged.coherent
  refine ⟨fun fits => ?_, counters.nodes, counters.kinds, counters.peak, large⟩
  have bytes : h.counters.totalBytes = bytesGranted receipts :=
    counters.bytes.trans (Word.wrap_of_lt fits)
  have current := counters.current
  rw [← bytes] at current
  simp [validateIntegrity, current, counters.nodes, counters.kinds, counters.peak, large]

/-- An object is freed in another size of its class; a release in a size of another class is refused, and
so is one that names no large object. -/
theorem integrity_kept_wrong_sizes :
    ∃ h receipts, Logged (Simulated.platform {}) h receipts ∧ bytesGranted receipts = 1001048 ∧
      h.counters.currentBytes = 1001031 ∧ h.validateIntegrity = true := by
  let os := Simulated.platform {}
  let next (logged : Heap Simulated.State × List Receipt) (action : Action) :=
    (logged.1.act os action, logged.1.tells os action ++ logged.2)
  let first : Action := .allocate 0 (.object 24 .generic)
  let second : Action := .allocate 1 (.object 1024 .generic)
  let third : Action := .allocate 0 (.object 1000000 .array)
  let smaller : Action := .free 1 65536 17
  let other : Action := .free 0 69632 100
  let unknown : Action := .free 0 65536 1000000
  let late (heap : Heap Simulated.State) :=
    [first, second, third, smaller, other, unknown].foldl next (heap, [])
  obtain ⟨heap, created, values⟩ := exists_created os (Simulated.machine {}) {}
    (fun heap => (bytesGranted (late heap).2, (late heap).1.counters.currentBytes))
    (1001048, 1001031) (by decide +kernel)
  obtain ⟨granted, current⟩ := Prod.mk.inj values
  have logged : Logged os (late heap).1 (late heap).2 :=
    .perform unknown (.perform other (.perform smaller
      (.perform third (.perform second (.perform first (.create created))))))
  exact ⟨_, _, logged, granted, current, (integrity_kept logged).1 (granted ▸ by decide)⟩

end Heap

/-- On a machine that maps almost all addresses, the bytes granted in all pass the word bound while most
of them are in use. -/
theorem World.integrity_lost_past_word :
    ¬∀ w : World Simulated.State,
      w.Handled (Simulated.contract { memoryLimit := Word.bound, addressLimit := Word.bound } (by decide)
        (by decide)) → w.heap.validateIntegrity = true := by
  intro kept
  let settings : Simulated.Settings := { memoryLimit := Word.bound, addressLimit := Word.bound }
  let os := Simulated.platform settings
  let configuration : Configuration :=
    { hugePages := false, securityMode := .disabled, defaultBlockSize := 524288 }
  let small : Action := .allocate 0 (.object 500000 .generic)
  let large : Action := .allocate 0 (.object (2 ^ 62) .generic)
  let rest : Action := .allocate 0 (.object (2 ^ 62 - 600000) .generic)
  let late (heap : Heap Simulated.State) : World Simulated.State :=
    [small, .resetArenas, small, large, large, large, rest].foldl (World.perform os) ⟨heap, []⟩
  obtain ⟨heap, created, lost⟩ := Heap.exists_created os (Simulated.machine {}) configuration
    (fun heap => (late heap).heap.validateIntegrity) false (by decide +kernel)
  have handled : (late heap).Handled (Simulated.contract settings (by decide) (by decide)) :=
    ⟨_, _, heap, Simulated.machine_sound {}, created,
      .perform rest (.perform large (.perform large (.perform large (.perform small
        (.perform .resetArenas (.perform small .start trivial) trivial) trivial) trivial)
        trivial) trivial) trivial⟩
  rw [kept _ handled] at lost
  cases lost

end NumaHeap
