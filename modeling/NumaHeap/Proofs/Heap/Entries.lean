import NumaHeap.Proofs.Heap.Outcome

/-!
The registries of large objects, as lists of addresses and sizes. A request enters what it grants and
strikes out again what it discards, so that the registries hold what was granted and not yet released.
-/

namespace NumaHeap

/-- Address and size of each live object. -/
def Large.entries (l : Large) : List (Nat × Nat) := l.objects.map fun o => (o.region.start, o.size)

theorem Large.entries_perm {l after : Large} {object : Object}
    (left : l.objects.Perm (object :: after.objects)) :
    l.entries.Perm ((object.region.start, object.size) :: after.entries) := left.map _

namespace Allocation

def isLarge (x : Allocation) : Bool := x.tier = .large

/-- Address and size of each large one of some allocations. -/
def entries (xs : List Allocation) : List (Nat × Nat) :=
  (xs.filter isLarge).map fun x => (x.address, x.size)

end Allocation

/-- What a request enters in a registry of large objects. -/
def Tier.entry (tier : Tier) (address size : Nat) : List (Nat × Nat) :=
  if tier = .large then [(address, size)] else []

/-- What is entered for an answer: nothing unless it grants memory. -/
def Tier.entered (tier : Tier) (size : Nat) : Except AllocError Nat → List (Nat × Nat)
  | .ok address => tier.entry address size
  | .error _ => []

theorem Tier.entered_of_ne {tier : Tier} (other : tier ≠ .large) (size : Nat)
    (answer : Except AllocError Nat) : tier.entered size answer = [] := by
  cases answer with
  | ok => exact if_neg other
  | error => rfl

theorem Allocation.entries_cons (x : Allocation) (xs : List Allocation) :
    entries (x :: xs) = x.tier.entry x.address x.size ++ entries xs := by
  by_cases large : x.tier = .large <;> simp [entries, Tier.entry, isLarge, large]

theorem Allocation.mem_entries {xs : List Allocation} {address size : Nat} :
    (address, size) ∈ entries xs ↔ ∃ x ∈ xs, x.tier = .large ∧ x.address = address ∧ x.size = size := by
  simp [entries, isLarge, and_assoc]

theorem Allocation.entries_perm {xs ys : List Allocation} (same : xs.Perm ys) :
    (entries xs).Perm (entries ys) := (same.filter _).map _

namespace Heap

variable {σ : Type} {os : Platform σ} {contract : os.Contract} {h after : Heap σ}
  {thread : ThreadId} {size address : Nat} {kind : ObjectKind} {tier : Tier} {node : Option Nat}
  {alignment : PowerOfTwo}

/-- Large objects start at different addresses. -/
theorem large_starts_nodup (custody : os.Custody contract h.machine.system h.regions) :
    (h.large.objects.map (·.region.start)).Nodup := by
  have inner : os.Custody contract h.machine.system h.large.regions :=
    custody.sublist ((List.sublist_append_right ..).trans (List.sublist_append_right ..))
  exact Large.starts_nodup inner

/-- The tier of large objects enters what it serves, the others leave the registries alone. -/
theorem dispatch_entries {answer : Except AllocError Arena.Placement}
    (served : h.dispatch os thread size tier node alignment = (answer, after)) :
    (h.large.validate = true → after.large.validate = true) ∧
      after.large.entries.Perm (tier.entered size (answer.map (·.address)) ++ h.large.entries) := by
  have same : ∀ {tier : Tier} {large : Large}, tier ≠ .large → large = h.large →
      (h.large.validate = true → large.validate = true) ∧
        large.entries.Perm (tier.entered size (answer.map (·.address)) ++ h.large.entries) := by
    rintro tier large other rfl
    rw [Tier.entered_of_ne other, List.nil_append]
    exact ⟨id, .refl _⟩
  simp only [dispatch] at served
  split at served
  · cases allocated : h.large.allocate os h.machine size (node.getD (h.localNode os thread)) with
    | mk result rest =>
      obtain ⟨large, machine⟩ := rest
      obtain ⟨failed, ok⟩ := Large.allocate_spec allocated
      have valid := fun valid => Large.allocate_validate valid allocated
      rw [allocated] at served
      cases result with
      | error error =>
        cases served
        exact ⟨valid, .of_eq (congrArg (List.map _) (failed error rfl).1)⟩
      | ok start =>
        cases served
        obtain ⟨-, region, rfl, -, -, objects, -⟩ := ok start rfl
        exact ⟨valid, objects.map _⟩
  · cases served
    exact same (by simp) rfl
  · cases served
    exact same (by simp) rfl
  · cases served
    exact same (by simp) rfl

theorem discard_validate (os : Platform σ) (thread : ThreadId) (address size : Nat) (tier : Tier)
    (valid : h.large.validate = true) :
    (h.discard os thread address size tier).large.validate = true := by
  unfold discard
  split
  · exact Large.free_validate valid rfl
  · exact valid
  · exact valid

/-- What was entered for a request is struck out again when it is discarded. -/
theorem discard_entries {entries : List (Nat × Nat)} (thread : ThreadId)
    (once : (h.large.objects.map (·.region.start)).Nodup)
    (entered : h.large.entries.Perm (tier.entry address size ++ entries)) :
    (h.discard os thread address size tier).large.entries.Perm entries := by
  unfold discard
  split
  · have inside : (address, size) ∈ h.large.entries :=
      entered.mem_iff.2 (List.mem_append_left _ (List.mem_singleton_self _))
    obtain ⟨object, member, same⟩ := List.mem_map.1 inside
    cases same
    let machine := h.machine.withMemory (h.machine.memory.clear object.region.start object.size)
    have released : h.large.free os machine object.region.start = _ := rfl
    obtain ⟨-, left⟩ := Large.free_of_mem member once released
    exact (List.perm_cons _).1 ((Large.entries_perm left).symm.trans entered)
  · exact entered
  · next other _ =>
    rw [Tier.entry, if_neg fun same => other same] at entered
    exact entered

/-- Of all requests, only those that are granted leave an entry. -/
theorem Outcome.entries {answer : Except AllocError Nat} (sound : h.Sound)
    (custody : os.Custody contract h.machine.system h.regions)
    (outcome : Outcome os h thread size kind tier node alignment answer after) :
    (h.large.validate = true → after.large.validate = true) ∧
      after.large.entries.Perm (tier.entered size answer ++ h.large.entries) := by
  cases outcome with
  | barred => exact ⟨id, .refl _⟩
  | denied denied => exact dispatch_entries denied
  | refused _ dispatched =>
    obtain ⟨valid, entered⟩ := dispatch_entries dispatched
    have once := large_starts_nodup ((dispatch_moves sound dispatched).trades.custody custody)
    exact ⟨fun before => discard_validate os thread _ size tier (valid before),
      discard_entries thread once entered⟩
  | granted dispatched clean =>
    obtain ⟨valid, entered⟩ := dispatch_entries dispatched
    have large := (inspect_alike clean).large
    refine ⟨fun before => (congrArg Large.validate large).trans (valid before), ?_⟩
    rwa [← large] at entered

/-- A demand leaves an entry if it is met by a large object, and none else. -/
theorem meet_entries {demand : Session.Demand} {answer : Except AllocError Nat} (sound : h.Sound)
    (custody : os.Custody contract h.machine.system h.regions)
    (met : h.meet os thread demand = (answer, after)) :
    after.large.entries.Perm ((h.tierOf demand).entered demand.size answer ++ h.large.entries) := by
  obtain ⟨retried, meets⟩ := exists_meets met
  cases meets with
  | barred => exact .refl _
  | once _ served => exact ((allocate_outcome served).entries sound custody).2
  | @again wish _ _ _ _ first second =>
    have moves := allocate_moves os sound thread demand.size .generic (h.tierOf demand) (some wish)
      wordAlignment
    rw [first] at moves
    obtain ⟨-, same⟩ := (allocate_outcome first).entries sound custody
    obtain ⟨-, entered⟩ := (allocate_outcome second).entries moves.sound
      (moves.trades.custody custody)
    exact entered.trans (same.append_left _)
  | cleared given => exact ((allocate_outcome given).entries sound custody).2

end Heap

end NumaHeap
