import NumaHeap.Proofs.Heap.Moves
import NumaHeap.Proofs.Memory
import Mathlib.Tactic.IntervalCases

/-!
Inspection. The tiers never look at what memory holds, so a request is refused for its content by
the inspection alone, and for some byte that is not zero among those that were scanned. `scans?` says
which memory that is: what the tier served last, as far as the mode scans it.
-/

namespace NumaHeap

namespace Security

theorem firstWordFrom?_zeros (offset count : Nat) :
    firstWordFrom? offset (List.replicate count 0) = none := by
  induction count using Nat.strongRecOn generalizing offset with
  | ind count ih =>
    match count with
    | 0 | 1 | 2 | 3 => rfl
    | rest + 4 =>
      change (if isSignature (word 0 0 0 0) then some offset
        else firstWordFrom? (offset + 4) (List.replicate rest 0)) = none
      rw [if_neg (by decide)]
      exact ih rest (by omega) _

theorem firstInBlocksFrom?_zeros (offset count : Nat) :
    firstInBlocksFrom? offset (List.replicate count 0) = none := by
  induction count using Nat.strongRecOn generalizing offset with
  | ind count ih =>
    by_cases small : count < 16
    · have tail : firstInBlocksFrom? offset (List.replicate count 0) =
          firstWordFrom? offset (List.replicate count 0) := by
        interval_cases count <;> rfl
      rw [tail]
      exact firstWordFrom?_zeros ..
    · obtain ⟨rest, rfl⟩ := Nat.exists_eq_add_of_le' (Nat.le_of_not_lt small)
      have blank : (signatureLanes ⟨word 0 0 0 0, word 0 0 0 0, word 0 0 0 0,
          word 0 0 0 0⟩).byteMask = 0 := by decide
      simp only [List.replicate_succ, firstInBlocksFrom?, blank, if_true]
      exact ih rest (by omega) _

/-- A scan that finds something has found a byte that is not zero. -/
theorem exists_ne_zero_of_scan {bytes : List UInt8} {offset : Nat} (found : scan bytes = some offset) :
    ∃ byte ∈ bytes, byte ≠ 0 := by
  by_contra none
  push Not at none
  have zeros : bytes = List.replicate bytes.length 0 := List.eq_replicate_of_mem none
  rw [zeros, scan, firstInBlocks?, firstInBlocksFrom?_zeros] at found
  cases found

namespace Mode

variable {mode : Mode} {size : Nat} {cause : Rejection}

/-- An allocation is only refused for its content if some byte that was scanned is not zero. -/
theorem validate_error {leading : Nat → List UInt8}
    (refused : mode.validate size leading = .error cause)
    (suspicious : (AllocError.rejected cause).isSuspicious = true) :
    ∃ byte ∈ leading (mode.scanLength size), byte ≠ 0 := by
  simp only [validate, bind, Except.bind] at refused
  split at refused
  · next small =>
    cases refused
    rw [checkSize_error small] at suspicious
    cases suspicious
  · split at refused
    · cases refused
    · unfold checkContent at refused
      split at refused
      · next found => exact exists_ne_zero_of_scan found
      · cases refused

/-- A request whose size is accepted is refused for what memory holds, if at all. -/
theorem isSuspicious_of_validate {leading : Nat → List UInt8}
    (fits : mode.checkSize size = .ok ())
    (refused : mode.validate size leading = .error cause) :
    (AllocError.rejected cause).isSuspicious = true := by
  simp only [validate, fits, bind, Except.bind] at refused
  split at refused
  · cases refused
  · unfold checkContent at refused
    split at refused
    · cases refused
      rfl
    · cases refused

end Mode

end Security

/-- What is read are the bytes at the addresses of the range. -/
theorem Memory.mem_read {m : Memory} {start length : Nat} {byte : UInt8}
    (member : byte ∈ m.read start length) :
    ∃ address, Extent.Holds ⟨start, length⟩ address ∧ m.get address = byte := by
  rw [read, MemoryTree.slice_eq_map, List.append_nil, List.mem_map] at member
  obtain ⟨address, inside, rfl⟩ := member
  rw [List.mem_range'_1] at inside
  refine ⟨address, Extent.holds_mk.2 ⟨inside.1, by omega⟩, ?_⟩
  rw [get, if_pos (by omega)]

variable {σ : Type} {os : Platform σ} {error : AllocError}

theorem Arena.Chain.allocate_error {c after : Chain} {s later : Supply σ} {r : Request}
    {blockSize : PowerOfTwo} (served : c.allocate os blockSize s r = (.error error, after, later)) :
    error.isSuspicious = false := by
  have fromBlock : ∀ {d last : Chain} {node index : Nat},
      d.serveFrom node index r = (.error error, last) → error.isSuspicious = false := by
    intro d last node index failed
    simp only [serveFrom] at failed
    split at failed
    · cases failed
    · cases failed
      rfl
  simp only [allocate] at served
  split at served
  · cases served
  · split at served
    · next index _ =>
      exact fromBlock (Prod.ext (congrArg (·.1) served) rfl)
    · split at served
      · next cause supply failed =>
        cases served
        unfold extend at failed
        split at failed
        · cases failed
          rfl
        · split at failed
          · cases failed
            rfl
          · cases failed
      · exact fromBlock (Prod.ext (congrArg (·.1) served) rfl)

theorem Arena.Pool.allocate_error {p after : Pool} {machine later : Machine σ} {id size : Nat}
    {thread : ThreadId} {alignment : PowerOfTwo} {node : Option Nat}
    (served : p.allocate os machine id thread size alignment node = (.error error, after, later)) :
    error.isSuspicious = false := by
  cases allocate_outcome served with
  | invalid clean => exact clean
  | lost => rfl
  | chained _ _ _ answered => exact Chain.allocate_error answered

theorem Slab.allocate_error {s after : Slab} {machine later : Machine σ} {thread : ThreadId}
    {size : Nat} {node : Option Nat}
    (served : s.allocate os machine thread size node = (.error error, after, later)) :
    error.isSuspicious = false := by
  cases allocate_outcome served with
  | invalid _ clean => exact clean
  | exhausted => rfl

theorem Large.allocate_error {l after : Large} {machine later : Machine σ} {size node : Nat}
    (served : l.allocate os machine size node = (.error error, after, later)) :
    error.isSuspicious = false := by
  unfold allocate at served
  split at served
  · cases served
    rfl
  · split at served
    · cases served
      rfl
    · split at served
      · cases served
        rfl
      · cases served

namespace Heap

variable {h after : Heap σ} {thread : ThreadId} {size : Nat} {tier : Tier} {node : Option Nat}
  {alignment : PowerOfTwo}

/-- No tier refuses a request for what memory holds. -/
theorem dispatch_error
    (served : h.dispatch os thread size tier node alignment = (.error error, after)) :
    error.isSuspicious = false := by
  unfold dispatch at served
  split at served
  · dsimp only at served
    split at served
    · cases served
    · next failed =>
      cases served
      exact Large.allocate_error failed
  · exact Slab.allocate_error (Prod.ext (congrArg (·.1) served) rfl)
  · exact Arena.Pool.allocate_error (Prod.ext (congrArg (·.1) served) rfl)
  · exact Arena.Pool.allocate_error (Prod.ext (congrArg (·.1) served) rfl)

/-- The memory that is scanned on behalf of a request, if its tier serves it. -/
def inspects? (os : Platform σ) (h : Heap σ) (thread : ThreadId) (size : Nat) (tier : Tier)
    (node : Option Nat) (alignment : PowerOfTwo) : Option Extent :=
  match h.dispatch os thread size tier node alignment with
  | (.ok placement, _) => some ⟨placement.address, h.mode.scanLength size⟩
  | (.error _, _) => none

/-- The same, with an alignment of the caller's choice. -/
def inspectsAligned? (os : Platform σ) (h : Heap σ) (thread : ThreadId) (size alignment : Nat)
    (arena : ArenaKind) : Option Extent :=
  (PowerOfTwo.ofNat? alignment).bind fun power =>
    h.inspects? os thread size (h.alignedTier size arena) none (power.max wordAlignment)

/-- The memory that is scanned last on behalf of a demand. A demand that names a node may be tried
again without it, on what the first attempt left. -/
def scans? (os : Platform σ) (h : Heap σ) (thread : ThreadId) :
    Session.Demand → Option Extent
  | .object size kind => h.inspects? os thread size (h.classify size kind) none wordAlignment
  | .onNode size node =>
    let tier := h.classify size .generic
    match h.allocate os thread size .generic tier (some node) wordAlignment with
    | (.error (.map _), h) => h.inspects? os thread size tier none wordAlignment
    | _ => h.inspects? os thread size tier (some node) wordAlignment
  | .aligned size alignment => h.inspectsAligned? os thread size alignment .general
  | .cacheAligned size => h.inspectsAligned? os thread size cacheLine.value .object
  | .zeroed count size kind =>
    h.inspects? os thread (count * size) (h.classify (count * size) kind) none wordAlignment

end Heap

end NumaHeap
