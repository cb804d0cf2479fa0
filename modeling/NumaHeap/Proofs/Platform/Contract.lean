import NumaHeap.Proofs.Extent

/-!
What a heap may rely on in its platform. A contract names the states that the platform can be in and
the ranges that it has mapped in each of them; a successful map answers whole pages that are apart
from all of these. Unmapping is only promised to work for a range that is mapped.

An allocator changes the platform in two ways: it gains regions, or it sheds some that it held.
`Custody` is what the two keep: the regions held are mapped, and no two of them share a byte.
-/

namespace NumaHeap

variable {σ : Type}

namespace Platform

/-- The size of a page of a kind. -/
def page (os : Platform σ) : PageKind → PowerOfTwo
  | .normal => os.pageSize
  | .huge => os.hugePageSize

/-- A length that may be asked for: some whole pages of the kind. -/
def Mappable (os : Platform σ) (length : Nat) (pages : PageKind) : Prop :=
  0 < length ∧ (os.page pages).value ∣ length

/-- What users of a platform may rely on. -/
structure Contract (os : Platform σ) where
  /-- The platform can be in this state. -/
  Possible : σ → Prop
  /-- The range is mapped in this state. -/
  Mapped : σ → Extent → Prop
  /-- What may become of the state between two uses. -/
  Drifts : σ → σ → Prop
  /-- A new mapping starts on a page, is an actual range of addresses, and is apart from all others. -/
  map_ok : ∀ {system after : σ} {length : Nat} {pages : PageKind} {start : Nat},
    Possible system → os.Mappable length pages → os.map system length pages = (.ok start, after) →
      Possible after ∧ 0 < start ∧ os.pageSize.value ∣ start ∧ start + length ≤ Word.bound ∧
      (∀ e, Mapped system e → e.Apart ⟨start, length⟩) ∧
      (∀ e, Mapped after e ↔ e = ⟨start, length⟩ ∨ Mapped system e)
  /-- A map that fails leaves all mappings as they are. -/
  map_error : ∀ {system after : σ} {length : Nat} {pages : PageKind} {cause : MapError},
    Possible system → os.Mappable length pages → os.map system length pages = (.error cause, after) →
      Possible after ∧ ∀ e, Mapped after e ↔ Mapped system e
  /-- A mapping is given back as a whole. -/
  unmap : ∀ {system : σ} {start length : Nat}, Possible system → Mapped system ⟨start, length⟩ →
    Possible (os.unmap system start length) ∧
      ∀ e, Mapped (os.unmap system start length) e ↔ Mapped system e ∧ e ≠ ⟨start, length⟩
  /-- Placing memory keeps the mappings. -/
  bind : ∀ {system : σ} {start length node : Nat}, Possible system → Mapped system ⟨start, length⟩ →
    Possible (os.bind system start length node).2 ∧
      ∀ e, Mapped (os.bind system start length node).2 e ↔ Mapped system e
  /-- Placing a thread keeps the mappings. -/
  bindThread : ∀ {system : σ} {thread : ThreadId} {node : Nat}, Possible system →
    Possible (os.bindThread system thread node).2 ∧
      ∀ e, Mapped (os.bindThread system thread node).2 e ↔ Mapped system e
  /-- Between two uses no mapping is lost. -/
  drift : ∀ {system after : σ}, Possible system → Drifts system after →
    Possible after ∧ ∀ e, Mapped system e → Mapped after e

/-- From one state to a later one some regions were mapped, latest first, and none was unmapped. -/
inductive Gains (os : Platform σ) (system : σ) : σ → List Region → Prop
  | refl : Gains os system system []
  | mapped {middle after : σ} {new : List Region} {length node start : Nat} {pages : PageKind} :
      Gains os system middle new → os.Mappable length pages →
      os.map middle length pages = (.ok start, after) →
      Gains os system after (⟨start, length, pages, node⟩ :: new)
  | refused {middle after : σ} {new : List Region} {length : Nat} {pages : PageKind}
      {cause : MapError} :
      Gains os system middle new → os.Mappable length pages →
      os.map middle length pages = (.error cause, after) → Gains os system after new
  | bound {middle : σ} {new : List Region} {region : Region} {node : Nat} :
      Gains os system middle new → region ∈ new →
      Gains os system (os.bind middle region.start region.length node).2 new

/-- The state after some regions were given back, one after the other. -/
def unmapAll (os : Platform σ) (system : σ) (regions : List Region) : σ :=
  regions.foldl (fun system region => os.unmap system region.start region.length) system

theorem unmapAll_append (os : Platform σ) (system : σ) (first second : List Region) :
    os.unmapAll system (first ++ second) = os.unmapAll (os.unmapAll system first) second :=
  List.foldl_append ..

/-- A property of states that only a mapping over the address can end. -/
structure Steady (os : Platform σ) (address : Nat) (φ : σ → Prop) : Prop where
  mapped : ∀ {system after : σ} {length start : Nat} {pages : PageKind},
    os.map system length pages = (.ok start, after) → ¬Extent.Holds ⟨start, length⟩ address →
    φ system → φ after
  refused : ∀ {system after : σ} {length : Nat} {pages : PageKind} {cause : MapError},
    os.map system length pages = (.error cause, after) → φ system → φ after
  unmap : ∀ {system : σ} {start length : Nat}, φ system → φ (os.unmap system start length)
  bind : ∀ {system : σ} {start length node : Nat}, φ system →
    φ (os.bind system start length node).2
  bindThread : ∀ {system : σ} {thread : ThreadId} {node : Nat}, φ system →
    φ (os.bindThread system thread node).2

/-- What may be found in memory, as far as the state of the platform tells. Zero may be found anywhere,
and only a mapping over an address changes what may be found there. -/
structure Explanation {os : Platform σ} (contract : os.Contract) where
  Allows : σ → Nat → UInt8 → Prop
  zero : ∀ system address, Allows system address 0
  steady : ∀ address byte, os.Steady address (Allows · address byte)
  drift : ∀ {system after : σ} {address : Nat} {byte : UInt8}, contract.Drifts system after →
    Allows system address byte → Allows after address byte

variable {os : Platform σ} {contract : os.Contract} {system after : σ}
  {held new removed : List Region}

theorem Gains.trans {later : List Region} {last : σ} (first : os.Gains system after new)
    (second : os.Gains after last later) : os.Gains system last (later ++ new) := by
  induction second with
  | refl => exact first
  | mapped _ asked answer ih => exact .mapped ih asked answer
  | refused _ asked answer ih => exact .refused ih asked answer
  | bound _ member ih => exact .bound ih (List.mem_append_left _ member)

theorem Gains.steady {address : Nat} {φ : σ → Prop} (gains : os.Gains system after new)
    (steady : os.Steady address φ) (outside : ∀ region ∈ new, ¬region.extent.Holds address)
    (known : φ system) : φ after := by
  induction gains with
  | refl => exact known
  | mapped _ _ answer ih =>
    apply steady.mapped answer
    · exact outside _ (List.mem_cons_self ..)
    · exact ih fun region member => outside region (List.mem_cons_of_mem _ member)
  | refused _ _ answer ih => exact steady.refused answer (ih outside)
  | bound _ _ ih => exact steady.bind (ih outside)

theorem unmapAll_steady {address : Nat} {φ : σ → Prop} (steady : os.Steady address φ)
    (regions : List Region) (known : φ system) : φ (os.unmapAll system regions) := by
  induction regions generalizing system with
  | nil => exact known
  | cons region rest ih => exact ih (steady.unmap known)

/-- Some regions are held: each is mapped and starts on a page, and all are apart. -/
structure Custody (contract : os.Contract) (system : σ) (held : List Region) : Prop where
  possible : contract.Possible system
  mapped : ∀ region ∈ held, contract.Mapped system region.extent
  start_pos : ∀ region ∈ held, 0 < region.start
  length_pos : ∀ region ∈ held, 0 < region.length
  aligned : ∀ region ∈ held, os.pageSize.value ∣ region.start
  within : ∀ region ∈ held, region.stop ≤ Word.bound
  apart : held.Pairwise Region.Apart

namespace Custody

/-- Whoever holds nothing asks nothing of the platform but a possible state. -/
theorem nil (possible : contract.Possible system) : Custody contract system [] where
  possible := possible
  mapped := by simp
  start_pos := by simp
  length_pos := by simp
  aligned := by simp
  within := by simp
  apart := .nil

theorem perm {other : List Region} (custody : Custody contract system held)
    (same : held.Perm other) : Custody contract system other where
  possible := custody.possible
  mapped region member := custody.mapped region (same.mem_iff.2 member)
  start_pos region member := custody.start_pos region (same.mem_iff.2 member)
  length_pos region member := custody.length_pos region (same.mem_iff.2 member)
  aligned region member := custody.aligned region (same.mem_iff.2 member)
  within region member := custody.within region (same.mem_iff.2 member)
  apart := (same.pairwise_iff Region.Apart.symm).1 custody.apart

theorem sublist {some : List Region} (custody : Custody contract system held)
    (fewer : some.Sublist held) : Custody contract system some where
  possible := custody.possible
  mapped region member := custody.mapped region (fewer.subset member)
  start_pos region member := custody.start_pos region (fewer.subset member)
  length_pos region member := custody.length_pos region (fewer.subset member)
  aligned region member := custody.aligned region (fewer.subset member)
  within region member := custody.within region (fewer.subset member)
  apart := custody.apart.sublist fewer

/-- The platform may be in any other state in which the same regions are mapped. -/
theorem of_system (custody : Custody contract system held) (possible : contract.Possible after)
    (mapped : ∀ region ∈ held, contract.Mapped after region.extent) :
    Custody contract after held :=
  { custody with possible, mapped }

/-- A region is apart from itself only if it is empty, so no region is held twice. -/
theorem nodup (custody : Custody contract system held) : held.Nodup := by
  refine custody.apart.imp_of_mem fun {first second} member _ apart same => ?_
  subst same
  exact Extent.not_apart_self (custody.length_pos _ member) apart

theorem apart_of_ne (custody : Custody contract system held) {r s : Region} (first : r ∈ held)
    (second : s ∈ held) (different : r ≠ s) : r.Apart s :=
  Region.apart_of_ne custody.apart first second different

/-- A region is known by any of its addresses. -/
theorem eq_of_holds (custody : Custody contract system held) {r s : Region} {address : Nat}
    (first : r ∈ held) (second : s ∈ held) (inFirst : r.extent.Holds address)
    (inSecond : s.extent.Holds address) : r = s := by
  by_contra different
  exact (custody.apart_of_ne first second different).not_holds inFirst inSecond

theorem drift (custody : Custody contract system held) (drifts : contract.Drifts system after) :
    Custody contract after held := by
  obtain ⟨possible, mappings⟩ := contract.drift custody.possible drifts
  exact custody.of_system possible fun region member => mappings _ (custody.mapped region member)

theorem bindThread (custody : Custody contract system held) (thread : ThreadId) (node : Nat) :
    Custody contract (os.bindThread system thread node).2 held := by
  obtain ⟨possible, mappings⟩ : contract.Possible (os.bindThread system thread node).2 ∧ _ :=
    contract.bindThread custody.possible
  exact custody.of_system possible fun region member =>
    (mappings _).2 (custody.mapped region member)

end Custody

theorem Gains.custody (gains : os.Gains system after new)
    (custody : Custody contract system held) : Custody contract after (new ++ held) := by
  induction gains with
  | refl => exact custody
  | @mapped middle after new length node start pages _ asked answer ih =>
    obtain ⟨possible, positive, aligned, bounded, apart, mappings⟩ :=
      contract.map_ok ih.possible asked answer
    refine ⟨possible, ?_, List.forall_mem_cons.2 ⟨positive, ih.start_pos⟩,
      List.forall_mem_cons.2 ⟨asked.1, ih.length_pos⟩, List.forall_mem_cons.2 ⟨aligned, ih.aligned⟩,
      List.forall_mem_cons.2 ⟨bounded, ih.within⟩, ?_⟩
    · refine List.forall_mem_cons.2 ⟨(mappings _).2 (.inl rfl), fun region member => ?_⟩
      exact (mappings _).2 (.inr (ih.mapped region member))
    · rw [List.cons_append, List.pairwise_cons]
      exact ⟨fun region member => (apart _ (ih.mapped _ member)).symm, ih.apart⟩
  | refused _ asked answer ih =>
    obtain ⟨possible, mappings⟩ := contract.map_error ih.possible asked answer
    exact ih.of_system possible fun region member => (mappings _).2 (ih.mapped region member)
  | bound _ member ih =>
    obtain ⟨possible, mappings⟩ := contract.bind ih.possible
      (ih.mapped _ (List.mem_append_left _ member))
    exact ih.of_system possible fun region member => (mappings _).2 (ih.mapped region member)

/-- Unmapping one region leaves the others mapped, since none of them equals it. -/
theorem Custody.unmap {region : Region} (custody : Custody contract system (region :: held)) :
    Custody contract (os.unmap system region.start region.length) held := by
  obtain ⟨possible, mappings⟩ := contract.unmap custody.possible
    (custody.mapped region (List.mem_cons_self ..))
  have rest : Custody contract system held := custody.sublist (List.sublist_cons_self ..)
  refine rest.of_system possible fun other member => ?_
  refine (mappings _).2 ⟨custody.mapped other (List.mem_cons_of_mem _ member), fun same => ?_⟩
  have positive := custody.length_pos other (List.mem_cons_of_mem _ member)
  have apart : region.Apart other := (List.pairwise_cons.1 custody.apart).1 other member
  rw [Region.Apart, same] at apart
  have nonempty : 0 < region.extent.length := custody.length_pos region (List.mem_cons_self ..)
  exact Extent.not_apart_self nonempty apart

theorem Custody.unmapAll (custody : Custody contract system (removed ++ held)) :
    Custody contract (os.unmapAll system removed) held := by
  induction removed generalizing system with
  | nil => exact custody
  | cons region rest ih => exact ih custody.unmap

end Platform

end NumaHeap
