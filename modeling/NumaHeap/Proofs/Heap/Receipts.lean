import NumaHeap.Proofs.Heap.World

/-!
What clients are told. Every call leaves a receipt, and the receipts alone say what the heap has on
its account: an object from its grant until it is freed, and an arena allocation until all arena
memory is made available again, whatever its thread does meanwhile. The counters of a heap are
compared with its receipts. They count bytes in words: of all bytes ever granted they show what is left
of the sum beyond full words, and of those on the account they show the sum, until it fills a word.
-/

namespace NumaHeap

/-- What a client is told of a call. -/
inductive Receipt where
  | granted (x : Allocation)
  | refused (error : AllocError)
  /-- No mapping was found on the node asked for, and the request was made again without it. -/
  | retried
  | freed (address size : Nat)
  /-- All arena memory was made available again. -/
  | reclaimed

namespace Allocation

/-- An object that is released on its own, with this address and this size. -/
def isObject (x : Allocation) (address size : Nat) : Bool :=
  !x.tier.isArena && x.address == address && x.size == size

/-- The bytes of some allocations. -/
def total (xs : List Allocation) : Nat := (xs.map (·.size)).sum

theorem total_perm {xs ys : List Allocation} (same : xs.Perm ys) : total xs = total ys :=
  (same.map _).sum_nat

/-- What satisfies a test and what does not make up the whole. -/
theorem total_filter_add (test : Allocation → Bool) (xs : List Allocation) :
    total (xs.filter test) + total (xs.filter (!test ·)) = total xs := by
  induction xs with
  | nil => rfl
  | cons x rest ih =>
    unfold total at ih ⊢
    cases passed : test x <;> simp [passed] <;> omega

theorem isObject_iff {x : Allocation} {address size : Nat} :
    x.isObject address size = true ↔ x.tier.isArena = false ∧ x.address = address ∧ x.size = size := by
  simp [isObject, and_assoc]

/-- One object is taken away, and the rest stays. -/
theorem perm_eraseP {x : Allocation} {xs : List Allocation} {address size : Nat} (member : x ∈ xs)
    (object : x.isObject address size = true) :
    ∃ y : Allocation, y.isObject address size = true ∧
      xs.Perm (y :: xs.eraseP (·.isObject address size)) := by
  obtain ⟨y, before, after, -, found, whole, left⟩ :=
    List.exists_of_eraseP (p := (·.isObject address size)) member object
  refine ⟨y, found, ?_⟩
  rw [left]
  conv_lhs => rw [whole]
  exact List.perm_middle

end Allocation

namespace Receipt

/-- What a client is told who asked for some bytes. -/
def ofAnswer (size alignment : Nat) (thread : ThreadId) (tier : Tier) :
    Except AllocError Nat → Receipt
  | .ok address => .granted ⟨address, size, alignment, thread, tier⟩
  | .error error => .refused error

/-- The allocation that was granted. -/
def grant? : Receipt → Option Allocation
  | .granted x => some x
  | _ => none

def isRefusal : Receipt → Bool
  | .refused _ => true
  | _ => false

/-- The request was refused for its size or for what memory held. -/
def isRejection : Receipt → Bool
  | .refused (.rejected _) => true
  | _ => false

def isRetry : Receipt → Bool
  | .retried => true
  | _ => false

/-- What is on the account after some receipts, latest first. -/
def charged : List Receipt → List Allocation
  | [] => []
  | .granted x :: rest => x :: charged rest
  | .freed address size :: rest => (charged rest).eraseP (·.isObject address size)
  | .reclaimed :: rest => (charged rest).filter (!·.tier.isArena)
  | .refused _ :: rest | .retried :: rest => charged rest

/-- The bytes on the account. -/
def used (receipts : List Receipt) : Nat := Allocation.total (charged receipts)

/-- The most that was ever on the account. -/
def peak (receipts : List Receipt) : Nat := (receipts.tails.map used).foldr max 0

/-- All that was ever granted. -/
def grants (receipts : List Receipt) : List Allocation := receipts.filterMap grant?

theorem peak_cons (receipt : Receipt) (receipts : List Receipt) :
    peak (receipt :: receipts) = max (used (receipt :: receipts)) (peak receipts) := by
  simp [peak]

theorem used_le_peak (receipts : List Receipt) : used receipts ≤ peak receipts := by
  cases receipts with
  | nil => exact Nat.zero_le _
  | cons receipt rest =>
    rw [peak_cons]
    exact Nat.le_max_left ..

/-- Nothing on the account filled a word if not even the peak did. -/
theorem used_lt_bound {receipts : List Receipt} (fits : peak receipts < Word.bound) :
    used receipts < Word.bound :=
  Nat.lt_of_le_of_lt (used_le_peak receipts) fits

/-- A peak that fits into a word has always done so. -/
theorem peak_lt_bound {receipt : Receipt} {receipts : List Receipt}
    (fits : peak (receipt :: receipts) < Word.bound) : peak receipts < Word.bound := by
  rw [peak_cons] at fits
  exact Nat.lt_of_le_of_lt (Nat.le_max_right ..) fits

theorem used_granted (x : Allocation) (receipts : List Receipt) :
    used (.granted x :: receipts) = used receipts + x.size := by
  simp [used, charged, Allocation.total, Nat.add_comm]

/-- A receipt that adds nothing to the account leaves the peak where it is. -/
theorem peak_cons_of_le {receipt : Receipt} {receipts : List Receipt}
    (fewer : used (receipt :: receipts) ≤ used receipts) :
    peak (receipt :: receipts) = peak receipts := by
  have reached := used_le_peak receipts
  rw [peak_cons]
  omega

end Receipt

open Receipt

/-- The counters say what the receipts say: calls and the bytes ever granted in any case, and the bytes on
the account if these never came to fill a word. -/
structure Telemetry.Counters.Agrees (c : Telemetry.Counters) (receipts : List Receipt) : Prop where
  allocations : c.totalAllocations = (grants receipts).length
  bytes : c.totalBytes = Word.wrap (Allocation.total (grants receipts))
  failures : c.failures = receipts.countP isRefusal + receipts.countP isRetry
  rejections : c.rejections = receipts.countP isRejection
  current : peak receipts < Word.bound → c.currentBytes = used receipts
  peak : peak receipts < Word.bound → c.peakBytes = peak receipts

namespace Telemetry.Counters.Agrees

variable {c : Counters} {receipts : List Receipt}

theorem create : ({} : Counters).Agrees [] :=
  ⟨rfl, rfl, rfl, rfl, fun _ => rfl, fun _ => rfl⟩

theorem granted (agrees : c.Agrees receipts) (x : Allocation) (kind : ObjectKind)
    (large isLocal : Bool) (nanoseconds : Nat) :
    (c.recordAllocation x.size kind large isLocal nanoseconds).Agrees (.granted x :: receipts) where
  allocations := by simp [recordAllocation, agrees.allocations, grants, grant?]
  bytes := by
    simp only [recordAllocation, agrees.bytes, Word.wrap_wrap_add]
    simp [grants, grant?, Allocation.total, Nat.add_comm]
  failures := by simp [recordAllocation, agrees.failures, isRefusal, isRetry]
  rejections := by simp [recordAllocation, agrees.rejections, isRejection]
  current fits := by
    have below := used_lt_bound fits
    rw [used_granted] at below ⊢
    simp only [recordAllocation, agrees.current (peak_lt_bound fits)]
    exact Word.wrap_of_lt below
  peak fits := by
    have earlier := peak_lt_bound fits
    have below := used_lt_bound fits
    rw [used_granted] at below
    rw [peak_cons, used_granted]
    simp only [recordAllocation, agrees.current earlier, agrees.peak earlier,
      Word.wrap_of_lt below]
    exact Nat.max_comm ..

/-- A receipt that grants nothing and counts no failure takes what it says off the account. -/
theorem released (agrees : c.Agrees receipts) {receipt : Receipt} {size : Nat}
    (none : receipt.grant? = .none) (calm : receipt.isRefusal = false ∧ receipt.isRetry = false)
    (less : Receipt.peak receipts < Word.bound → used (receipt :: receipts) + size = used receipts) :
    (c.recordFree size).Agrees (receipt :: receipts) where
  current fits := by
    have earlier := peak_lt_bound fits
    have left := less earlier
    simp only [recordFree, agrees.current earlier]
    omega
  peak fits := by
    have earlier := peak_lt_bound fits
    have left := less earlier
    rw [peak_cons_of_le (by omega)]
    exact agrees.peak earlier
  allocations := by simp [recordFree, agrees.allocations, grants, none]
  bytes := by simp [recordFree, agrees.bytes, grants, none]
  failures := by simp [recordFree, agrees.failures, calm]
  rejections := by
    have plain : receipt.isRejection = false := by
      cases receipt with
      | refused error => cases calm.1
      | _ => rfl
    simp [recordFree, agrees.rejections, plain]

theorem refused (agrees : c.Agrees receipts) (error : AllocError) :
    (c.recordFailure error).Agrees (.refused error :: receipts) where
  current fits := agrees.current (peak_lt_bound fits)
  peak fits := by
    rw [peak_cons_of_le (Nat.le_refl _)] at fits ⊢
    exact agrees.peak fits
  allocations := by
    simp [recordFailure, agrees.allocations, grants, List.filterMap_cons, grant?]
  bytes := by simp [recordFailure, agrees.bytes, grants, List.filterMap_cons, grant?]
  failures := by
    simp only [recordFailure, agrees.failures, List.countP_cons, isRefusal, isRetry]
    simp
    omega
  rejections := by
    cases error <;> simp [recordFailure, agrees.rejections, List.countP_cons, isRejection]

theorem retried (agrees : c.Agrees receipts) (cause : MapError) :
    (c.recordFailure (.map cause)).Agrees (.retried :: receipts) where
  current fits := agrees.current (peak_lt_bound fits)
  peak fits := by
    rw [peak_cons_of_le (Nat.le_refl _)] at fits ⊢
    exact agrees.peak fits
  allocations := by
    simp [recordFailure, agrees.allocations, grants, List.filterMap_cons, grant?]
  bytes := by simp [recordFailure, agrees.bytes, grants, List.filterMap_cons, grant?]
  failures := by
    simp [recordFailure, agrees.failures, List.countP_cons, isRefusal, isRetry, Nat.add_assoc]
  rejections := by simp [recordFailure, agrees.rejections, isRejection]

/-- Compactions leave no receipt. -/
theorem upkeep (agrees : c.Agrees receipts) (compactions nanoseconds : Nat) :
    { c with compactions, compactionNanoseconds := nanoseconds }.Agrees receipts :=
  ⟨agrees.allocations, agrees.bytes, agrees.failures, agrees.rejections, agrees.current,
    agrees.peak⟩

end Telemetry.Counters.Agrees

end NumaHeap
