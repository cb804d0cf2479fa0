import NumaHeap.Large
import NumaHeap.Proofs.Parts
import NumaHeap.Proofs.Supply

/-!
Large objects. Each has one region for itself, which is as old as the object: it is gained when the
object is served and given back when the object is released.
-/

namespace NumaHeap.Large

variable {σ : Type} {os : Platform σ} {l after : Large} {machine later : Machine σ}
  {size node address : Nat} {answer : Except FreeError Nat}

/-- The live objects of all nodes. -/
def objects (l : Large) : List Object := l.registries.flatMap (·.objects)

/-- The regions of all objects. -/
def regions (l : Large) : List Region := l.objects.map (·.region)

/-- Every object fits into its region, and the regions of huge pages are counted. -/
structure Sound (l : Large) : Prop where
  fits : ∀ object ∈ l.objects, object.size ≤ object.region.length
  huge : l.hugeObjects = l.regions.countP Region.isHuge

theorem create_spec (topology : Topology) (hugePages numaAware : Bool) :
    (create topology hugePages numaAware).Sound ∧
      (create topology hugePages numaAware).regions = [] := by
  have empty : (create topology hugePages numaAware).objects = [] := by
    rw [objects, create, List.flatMap_map]
    exact List.flatMap_eq_nil_iff.2 fun _ _ => rfl
  have none : (create topology hugePages numaAware).regions = [] := by
    rw [regions, empty, List.map_nil]
  refine ⟨⟨fun object member => ?_, ?_⟩, none⟩
  · rw [empty] at member
    cases member
  · rw [none]
    rfl

theorem Sound.perm (sound : l.Sound) (same : after.objects = l.objects)
    (huge : after.hugeObjects = l.hugeObjects) : after.Sound where
  fits := by
    rw [same]
    exact sound.fits
  huge := by rw [huge, regions, same, sound.huge, regions]

/-- A request that is served gains one region and one object in it. -/
theorem allocate_spec {answer : Except AllocError Nat}
    (served : l.allocate os machine size node = (answer, after, later)) :
    (∀ error, answer = .error error →
      after.objects = l.objects ∧ after.hugeObjects = l.hugeObjects ∧ machine.Grows os later []) ∧
    (∀ address, answer = .ok address → 0 < size ∧ ∃ region : Region, region.start = address ∧
      size ≤ region.length ∧ machine.Grows os later [region] ∧
      after.objects.Perm (⟨region, size⟩ :: l.objects) ∧
      after.hugeObjects = l.hugeObjects + region.isHuge.toNat) := by
  unfold allocate at served
  split at served
  · cases served
    exact ⟨fun _ _ => ⟨rfl, rfl, .refl os machine⟩, nofun⟩
  · next nonzero =>
    split at served
    · cases served
      exact ⟨fun _ _ => ⟨rfl, rfl, .refl os machine⟩, nofun⟩
    · next registry found =>
      cases mapped : Supply.map os ⟨l.mapper, machine⟩ size node with
      | mk result supply =>
        obtain ⟨ok, failed⟩ := Supply.map_grows (Nat.pos_of_ne_zero nonzero) mapped
        rw [mapped] at served
        cases result with
        | error cause =>
          cases served
          exact ⟨fun _ _ => ⟨rfl, rfl, (failed cause rfl).toGrows⟩, nofun⟩
        | ok region =>
          cases served
          obtain ⟨long, -, grows⟩ := ok region rfl
          obtain ⟨others, before, set⟩ := Parts.perm_set (fun r : Registry => r.objects) found
          refine ⟨nofun, fun address same => ?_⟩
          cases same
          refine ⟨Nat.pos_of_ne_zero nonzero, region, rfl, long, grows.toGrows, ?_, rfl⟩
          exact (set (registry.insert ⟨region, size⟩)).trans (before.symm.cons _)

theorem Sound.insert {region : Region} (sound : l.Sound) (fits : size ≤ region.length)
    (grown : after.objects.Perm (⟨region, size⟩ :: l.objects))
    (huge : after.hugeObjects = l.hugeObjects + region.isHuge.toNat) :
    after.Sound ∧ after.regions.Perm (region :: l.regions) := by
  have regions : after.regions.Perm (region :: l.regions) := grown.map Object.region
  refine ⟨⟨fun object member => ?_, ?_⟩, regions⟩
  · rcases List.mem_cons.1 (grown.mem_iff.1 member) with rfl | old
    · exact fits
    · exact sound.fits object old
  · rw [huge, regions.countP_eq, List.countP_cons, sound.huge]
    cases region.isHuge <;> rfl

theorem Registry.perm_erase {r : Registry} {object : Object}
    (found : r.find? address = some object) :
    object.region.start = address ∧ r.objects.Perm (object :: (r.erase object).objects) := by
  obtain ⟨here, before, rest, whole, others⟩ := List.find?_eq_some_iff_append.1 found
  have start : object.region.start = address := beq_iff_eq.1 here
  refine ⟨start, ?_⟩
  have skipped : ∀ other ∈ before, ¬(other.region.start == object.region.start) = true := by
    intro other member same
    have different := others other member
    rw [start] at same
    rw [same] at different
    cases different
  have erased : (r.erase object).objects = before ++ rest := by
    rw [erase, whole, List.eraseP_append_right _ skipped]
    exact congrArg (before ++ ·) (List.eraseP_cons_of_pos (beq_self_eq_true object.region.start))
  rw [erased, whole]
  exact List.perm_middle

theorem locate?_some {index : Nat} {object : Object}
    (located : l.locate? address = some (index, object)) :
    ∃ registry, l.registries[index]? = some registry ∧ registry.find? address = some object := by
  obtain ⟨place, -, here⟩ := List.exists_of_findSome?_eq_some located
  simp only [bind, Option.bind_eq_some_iff, pure, Option.some.injEq, Prod.mk.injEq] at here
  obtain ⟨registry, found, other, there, rfl, rfl⟩ := here
  exact ⟨registry, found, there⟩

/-- Every live object is found by its address. -/
theorem locate?_isSome {object : Object} (member : object ∈ l.objects) :
    (l.locate? object.region.start).isSome = true := by
  obtain ⟨registry, held, inside⟩ := List.mem_flatMap.1 member
  obtain ⟨index, found⟩ := List.mem_iff_getElem?.1 held
  have here : (registry.find? object.region.start).isSome = true :=
    List.find?_isSome.2 ⟨object, inside, beq_self_eq_true _⟩
  obtain ⟨other, there⟩ := Option.isSome_iff_exists.1 here
  refine List.findSome?_isSome_iff.2 ⟨index, ?_, ?_⟩
  · exact List.mem_range.2 (List.getElem?_eq_some_iff.1 found).1
  · simp [found, there, bind, pure]

/-- The object that starts at the address is released, together with its region. -/
theorem free_spec (freed : l.free os machine address = (answer, after, later)) :
    (∀ error, answer = .error error → after = l ∧ later = machine) ∧
    (∀ size, answer = .ok size → ∃ object : Object, object.region.start = address ∧
      object.size = size ∧ l.objects.Perm (object :: after.objects) ∧
      after.hugeObjects = l.hugeObjects - object.region.isHuge.toNat ∧
      later = { machine with system := os.unmapAll machine.system [object.region] }) := by
  unfold free at freed
  split at freed
  · cases freed
    exact ⟨fun _ _ => ⟨rfl, rfl⟩, nofun⟩
  · next index object some =>
    cases freed
    obtain ⟨registry, found, there⟩ := locate?_some some
    obtain ⟨start, erased⟩ := Registry.perm_erase there
    refine ⟨nofun, fun size same => ⟨object, start, Except.ok.inj same, ?_, rfl, rfl⟩⟩
    obtain ⟨others, before, modified⟩ := Parts.perm_modify (fun r : Registry => r.objects) found
    have exchanged := (erased.append_right others).trans
      ((modified (·.erase object)).symm.cons object)
    exact before.trans exchanged

/-- Objects whose regions are held start at different addresses. -/
theorem starts_nodup {contract : os.Contract} {system : σ}
    (custody : os.Custody contract system l.regions) :
    (l.objects.map (·.region.start)).Nodup := by
  have apart := custody.apart
  rw [regions, List.pairwise_map] at apart
  rw [List.Nodup, List.pairwise_map]
  refine apart.imp_of_mem fun {first second} one two apart same => ?_
  have long : ∀ object ∈ l.objects, 0 < object.region.length :=
    fun object member => custody.length_pos _ (List.mem_map_of_mem member)
  exact Extent.not_apart_of_start same (long first one) (long second two) apart

/-- A live object is released if no other one starts at its address. -/
theorem free_of_mem {object : Object} (member : object ∈ l.objects)
    (once : (l.objects.map (·.region.start)).Nodup)
    (freed : l.free os machine object.region.start = (answer, after, later)) :
    answer = .ok object.size ∧ l.objects.Perm (object :: after.objects) := by
  obtain ⟨⟨index, other⟩, located⟩ := Option.isSome_iff_exists.1 (locate?_isSome member)
  obtain ⟨-, ok⟩ := free_spec freed
  unfold free at freed
  rw [located] at freed
  cases freed
  obtain ⟨released, start, size, left, -⟩ := ok other.size rfl
  have same : released = object :=
    List.inj_on_of_nodup_map once (left.mem_iff.2 (List.mem_cons_self ..)) member start
  subst same
  exact ⟨congrArg Except.ok size.symm, left⟩

/-- The size that a release returns can be asked for beforehand. -/
theorem sizeOf?_of_free {bytes : Nat}
    (freed : l.free os machine address = (.ok bytes, after, later)) :
    l.sizeOf? address = some bytes := by
  unfold free at freed
  split at freed
  · cases freed
  · next located =>
    cases freed
    rw [sizeOf?, located, Option.map_some]

theorem locate?_eq_none (none : ∀ object ∈ l.objects, object.region.start ≠ address) :
    l.locate? address = .none := by
  refine Option.eq_none_iff_forall_ne_some.2 fun ⟨index, object⟩ located => ?_
  obtain ⟨registry, found, there⟩ := locate?_some located
  refine none object ?_ (beq_iff_eq.1 (List.find?_some there :))
  exact List.mem_flatMap.2
    ⟨registry, List.mem_of_getElem? found, List.mem_of_find?_eq_some there⟩

/-- Nothing is released where no object starts. -/
theorem free_of_none (none : ∀ object ∈ l.objects, object.region.start ≠ address) :
    l.free os machine address = (.error (.unknownPointer address), l, machine) := by
  unfold free
  rw [locate?_eq_none none]

theorem Sound.erase {object : Object} (sound : l.Sound)
    (left : l.objects.Perm (object :: after.objects))
    (huge : after.hugeObjects = l.hugeObjects - object.region.isHuge.toNat) :
    after.Sound ∧ l.regions.Perm (object.region :: after.regions) := by
  have regions : l.regions.Perm (object.region :: after.regions) := left.map Object.region
  refine ⟨⟨fun other member => ?_, ?_⟩, regions⟩
  · exact sound.fits other (left.mem_iff.2 (List.mem_cons_of_mem _ member))
  · rw [huge, sound.huge, regions.countP_eq, List.countP_cons]
    cases object.region.isHuge <;> simp

theorem validate_iff :
    l.validate = true ↔ ∀ registry ∈ l.registries, registry.recount = registry.usage := by
  simp only [validate, List.all_eq_true, decide_eq_true_eq]

theorem create_validate (topology : Topology) (hugePages numaAware : Bool) :
    (create topology hugePages numaAware).validate = true := by
  refine validate_iff.2 fun registry member => ?_
  obtain ⟨node, -, rfl⟩ := List.mem_map.1 member
  rfl

/-- Accounts that agree report the bytes of the live objects. -/
theorem stats_bytes (valid : l.validate = true) :
    l.stats.bytes = (l.objects.map (·.size)).sum := by
  have each : l.registries.map (·.usage.bytes) =
      l.registries.map fun registry => (registry.objects.map (·.size)).sum :=
    List.map_congr_left fun registry member =>
      (congrArg Usage.bytes (validate_iff.1 valid registry member)).symm
  rw [objects, List.map_flatMap, List.flatMap_def, List.sum_flatten, List.map_map]
  exact congrArg List.sum each

theorem allocate_validate {answer : Except AllocError Nat} (valid : l.validate = true)
    (served : l.allocate os machine size node = (answer, after, later)) :
    after.validate = true := by
  have counted := validate_iff.1 valid
  unfold allocate at served
  split at served
  · cases served
    exact valid
  · split at served
    · cases served
      exact valid
    · next registry found =>
      have before := counted registry (List.mem_of_getElem? found)
      split at served
      · cases served
        exact valid
      · cases served
        refine validate_iff.2 fun other member => ?_
        rcases List.mem_or_eq_of_mem_set member with old | rfl
        · exact counted other old
        · simp only [Registry.insert, Registry.recount, ← before, List.length_cons, List.map_cons,
            List.sum_cons]
          rw [Nat.add_comm size]

theorem free_validate (valid : l.validate = true)
    (freed : l.free os machine address = (answer, after, later)) : after.validate = true := by
  have counted := validate_iff.1 valid
  unfold free at freed
  split at freed
  · cases freed
    exact valid
  · next index object located =>
    cases freed
    obtain ⟨registry, found, there⟩ := locate?_some located
    obtain ⟨-, erased⟩ := Registry.perm_erase there
    refine validate_iff.2 fun other member => ?_
    obtain ⟨place, here⟩ := List.mem_iff_getElem?.1 member
    rw [List.getElem?_modify] at here
    split at here
    · next same =>
      subst same
      rw [found] at here
      cases here
      have length := erased.length_eq
      have bytes := (erased.map Object.size).sum_nat
      rw [List.length_cons] at length
      rw [List.map_cons, List.sum_cons] at bytes
      have before := counted registry (List.mem_of_getElem? found)
      simp only [Registry.erase, ← before, Registry.recount] at length bytes ⊢
      rw [length, bytes, Nat.add_sub_cancel, Nat.add_sub_cancel_left]
    · rw [id_map'] at here
      exact counted other (List.mem_of_getElem? here)

theorem close_spec (closed : l.close os machine = (after, later)) :
    after.regions = [] ∧
      later = { machine with system := os.unmapAll machine.system l.regions } := by
  unfold close at closed
  cases closed
  have nothing : objects { l with
      mapper := (Supply.unmapAll os ⟨l.mapper, machine⟩
        (l.registries.flatMap fun r => r.objects.map (·.region))).mapper
      registries := l.registries.map fun _ => {} } = [] := by
    rw [objects, List.flatMap_map]
    exact List.flatMap_eq_nil_iff.2 fun _ _ => rfl
  refine ⟨congrArg (List.map Object.region) nothing, ?_⟩
  have all : l.regions = l.registries.flatMap fun r => r.objects.map (·.region) :=
    List.map_flatMap ..
  rw [all]
  exact (Supply.unmapAll_spec ..).1

end NumaHeap.Large
