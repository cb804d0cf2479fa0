import NumaHeap.Proofs.Large.Refinement
import NumaHeap.Proofs.Platform.Bounded

/-!
Large objects with every check made. The accounts are those of the objects, whose regions are apart; so
they never count as many bytes as there are addresses, and what is taken off them was counted before.
-/

namespace NumaHeap.Large

variable {σ : Type} {os : Platform σ} {contract : os.Contract}

namespace Registry

def insertChecked (r : Registry) (o : Object) : Option Registry := do
  let objects ← Word.add? r.usage.objects 1
  let bytes ← Word.add? r.usage.bytes o.size
  return { objects := o :: r.objects, usage := ⟨objects, bytes⟩ }

def eraseChecked (r : Registry) (o : Object) : Option Registry := do
  let objects ← Word.sub? r.usage.objects 1
  let bytes ← Word.sub? r.usage.bytes o.size
  return { objects := r.objects.eraseP (·.region.start == o.region.start), usage := ⟨objects, bytes⟩ }

variable {r : Registry} {o : Object}

theorem insertChecked_eq (count : r.usage.objects + 1 < Word.bound)
    (bytes : r.usage.bytes + o.size < Word.bound) : r.insertChecked o = some (r.insert o) := by
  simp only [insertChecked, Word.add?_of_lt count, Word.add?_of_lt bytes]
  rfl

/-- An object that is found is counted. -/
theorem eraseChecked_eq {address : Nat} (counted : r.recount = r.usage)
    (found : r.find? address = some o) : r.eraseChecked o = some (r.erase o) := by
  have erased := (perm_erase found).2
  have length := erased.length_eq
  have bytes := (erased.map (·.size)).sum_nat
  rw [List.length_cons] at length
  rw [List.map_cons, List.sum_cons] at bytes
  have fewer : Word.sub? r.usage.objects 1 = some (r.usage.objects - 1) :=
    Word.sub?_of_le (by simp only [← counted, recount]; omega)
  have less : Word.sub? r.usage.bytes o.size = some (r.usage.bytes - o.size) :=
    Word.sub?_of_le (by simp only [← counted, recount]; omega)
  simp only [eraseChecked, fewer, less]
  rfl

end Registry

def allocateChecked (os : Platform σ) (l : Large) (machine : Machine σ) (size node : Nat) :
    Option (Except AllocError Nat × Large × Machine σ) :=
  if size = 0 then some (.error .zeroSize, l, machine)
  else match l.registries[node]? with
    | none => some (.error (.invalidNode node), l, machine)
    | some registry => do
      match ← Supply.mapChecked os ⟨l.mapper, machine⟩ size node with
      | (.error cause, supply) =>
        return (.error (.map cause), { l with mapper := supply.mapper }, supply.machine)
      | (.ok region, supply) =>
        let registry ← registry.insertChecked ⟨region, size⟩
        return (.ok region.start,
          { l with
            mapper := supply.mapper
            registries := l.registries.set node registry
            allocations := l.allocations + 1
            hugeObjects := l.hugeObjects + region.isHuge.toNat },
          supply.machine)

def freeChecked (os : Platform σ) (l : Large) (machine : Machine σ) (address : Nat) :
    Option (Except FreeError Nat × Large × Machine σ) :=
  match l.locate? address with
  | none => some (.error (.unknownPointer address), l, machine)
  | some (index, object) => do
    let registry ← l.registries[index]?
    let registry ← registry.eraseChecked object
    let supply := Supply.unmap os ⟨l.mapper, machine⟩ object.region
    return (.ok object.size,
      { l with
        mapper := supply.mapper
        registries := l.registries.set index registry
        deallocations := l.deallocations + 1
        hugeObjects := l.hugeObjects - object.region.isHuge.toNat },
      supply.machine)

variable {l after : Large} {machine later : Machine σ} {size node address : Nat}

theorem sum_sizes_le {objects : List Object} (fits : ∀ o ∈ objects, o.size ≤ o.region.length) :
    (objects.map (·.size)).sum ≤ Region.total (objects.map Object.region) := by
  induction objects with
  | nil => exact Nat.le_refl 0
  | cons first rest ih =>
    obtain ⟨here, later⟩ := List.forall_mem_cons.1 fits
    have others := ih later
    simp only [Region.total, List.map_cons, List.sum_cons] at others ⊢
    omega

/-- The objects of a node and one more fill fewer bytes than there are addresses, hence they are fewer
than that. -/
theorem usage_lt {held : List Region} {system : σ} {registry : Registry} {region : Region}
    (sound : l.Sound) (valid : l.validate = true)
    (custody : os.Custody contract system (region :: held)) (mine : l.regions.Sublist held)
    (found : l.registries[node]? = some registry) (fits : size ≤ region.length) :
    registry.usage.objects + 1 < Word.bound ∧ registry.usage.bytes + size < Word.bound := by
  have member := List.mem_of_getElem? found
  have part : registry.objects.Sublist l.objects :=
    List.sublist_flatten_of_mem (List.mem_map_of_mem member)
  have inner := custody.sublist (((part.map Object.region).trans mine).cons_cons region)
  have bytes := sum_sizes_le fun object inside => sound.fits object (part.subset inside)
  have counted := validate_iff.1 valid registry member
  have count := inner.length_lt
  have total := inner.total_lt
  rw [List.length_cons, List.length_map] at count
  rw [Region.total, List.map_cons, List.sum_cons, ← Region.total] at total
  rw [← counted]
  refine ⟨count, ?_⟩
  show (registry.objects.map (·.size)).sum + size < Word.bound
  omega

/-- No check fails when an object is mapped. -/
theorem allocateChecked_eq {held : List Region} (sound : l.Sound) (valid : l.validate = true)
    (custody : os.Custody contract machine.system held) (mine : l.regions.Sublist held) :
    l.allocateChecked os machine size node = some (l.allocate os machine size node) := by
  unfold allocateChecked allocate
  split
  · rfl
  · next nonzero =>
    have asked := Nat.pos_of_ne_zero nonzero
    cases found : l.registries[node]? with
    | none => rfl
    | some registry =>
      simp only [Supply.mapChecked_eq asked, bind, Option.bind_some]
      cases mapped : Supply.map os ⟨l.mapper, machine⟩ size node with
      | mk answer supply =>
        cases answer with
        | error cause => rfl
        | ok region =>
          obtain ⟨long, -, grows⟩ := (Supply.map_grows asked mapped).1 region rfl
          obtain ⟨count, bytes⟩ :=
            usage_lt sound valid (grows.gains.custody custody) mine found long
          simp only [Registry.insertChecked_eq (o := ⟨region, size⟩) count bytes, Option.bind_some]
          rfl

/-- No check fails when an object is released, nor when nothing is. -/
theorem freeChecked_eq (valid : l.validate = true) (machine : Machine σ) (address : Nat) :
    l.freeChecked os machine address = some (l.free os machine address) := by
  unfold freeChecked free
  cases located : l.locate? address with
  | none => rfl
  | some place =>
    obtain ⟨index, object⟩ := place
    obtain ⟨registry, found, there⟩ := locate?_some located
    have counted := validate_iff.1 valid registry (List.mem_of_getElem? found)
    have same : l.registries.modify index (·.erase object) =
        l.registries.set index (registry.erase object) := by
      rw [List.modify_eq_set_getElem?, found]
      rfl
    simp only [found, Registry.eraseChecked_eq counted there, same, bind, Option.bind_some]
    rfl

theorem allocate_length {answer : Except AllocError Nat}
    (served : l.allocate os machine size node = (answer, after, later)) :
    after.registries.length = l.registries.length := by
  cases answer with
  | error error => rw [(registries_allocate_error served).1]
  | ok address =>
    obtain ⟨r, region, -, -, registries, -⟩ := registries_allocate served
    rw [registries, List.length_set]

theorem free_length {answer : Except FreeError Nat}
    (freed : l.free os machine address = (answer, after, later)) :
    after.registries.length = l.registries.length := by
  unfold free at freed
  split at freed
  · cases freed
    rfl
  · cases freed
    exact List.length_modify ..

end NumaHeap.Large
