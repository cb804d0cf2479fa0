import NumaHeap.Proofs.Large
import NumaHeap.Proofs.Platform.Simulated

/-!
Large objects as a finite map. What clients hold is kept beside the registries, as the answers tell
it: each live object with its start, the size it was asked with and its node. Clients may ask on any
node and release any address; the platform and its other users may do whatever leaves the regions of
the objects mapped. Then the registries answer as the map does, and every account is that of the map.
-/

namespace NumaHeap.Large

/-- A live object, as its client knows it. -/
structure Holding where
  address : Nat
  size : Nat
  node : Nat
deriving DecidableEq

/-- The object, as its client knows it. -/
def Object.holding (node : Nat) (o : Object) : Holding := ⟨o.region.start, o.size, node⟩

/-- What the registry of a node holds for clients. -/
def holdings (l : Large) (node : Nat) : List Holding :=
  (l.registries[node]?).elim [] fun r => r.objects.map (·.holding node)

section

variable {l : Large} {address node : Nat} {object : Object} {r : Registry}

theorem mem_holdings {x : Holding} :
    x ∈ l.holdings node ↔
      ∃ r, l.registries[node]? = some r ∧ ∃ object ∈ r.objects, object.holding node = x := by
  unfold holdings
  cases l.registries[node]? <;> simp

theorem mem_objects (found : l.registries[node]? = some r) (member : object ∈ r.objects) :
    object ∈ l.objects :=
  List.mem_flatMap.2 ⟨r, List.mem_of_getElem? found, member⟩

/-- An object is looked up by its start, in the registry of its node. -/
theorem locate?_eq_some_iff (once : (l.objects.map (·.region.start)).Nodup) :
    l.locate? address = some (node, object) ↔
      ∃ r, l.registries[node]? = some r ∧ object ∈ r.objects ∧ object.region.start = address := by
  constructor
  · intro located
    obtain ⟨r, found, there⟩ := locate?_some located
    exact ⟨r, found, List.mem_of_find?_eq_some there, beq_iff_eq.1 (List.find?_some there :)⟩
  · rintro ⟨r, found, member, rfl⟩
    have here := mem_objects found member
    obtain ⟨⟨place, other⟩, located⟩ := Option.isSome_iff_exists.1 (locate?_isSome here)
    obtain ⟨s, also, there⟩ := locate?_some located
    have inside := List.mem_of_find?_eq_some there
    have start : other.region.start = object.region.start :=
      beq_iff_eq.1 (List.find?_some there :)
    cases List.inj_on_of_nodup_map once (mem_objects also inside) here start
    rw [located, Parts.index_unique (once.of_map _) also found inside member]

/-- Unlinking the one object at an address keeps the others, in their order. -/
theorem eraseP_eq_filter {objects : List Object}
    (once : (objects.map (·.region.start)).Nodup) (address : Nat) :
    objects.eraseP (·.region.start == address) =
      objects.filter (·.region.start != address) := by
  induction objects with
  | nil => rfl
  | cons first rest ih =>
    rw [List.map_cons, List.nodup_cons] at once
    by_cases same : first.region.start = address
    · have others : ∀ other ∈ rest, other.region.start ≠ address :=
        fun other member also => once.1 (same ▸ also ▸ List.mem_map_of_mem member)
      rw [List.eraseP_cons_of_pos (by simpa using same),
        List.filter_cons_of_neg (by simpa using same)]
      exact (List.filter_eq_self.2 fun other member => bne_iff_ne.2 (others other member)).symm
    · rw [List.eraseP_cons_of_neg (by simpa using same),
        List.filter_cons_of_pos (by simpa using same), ih once.2]

/-- A request that is served puts one object first on the list of its node. -/
theorem registries_allocate {σ : Type} {os : Platform σ} {machine later : Machine σ} {after : Large}
    {size : Nat} (served : l.allocate os machine size node = (.ok address, after, later)) :
    ∃ r region, l.registries[node]? = some r ∧ region.start = address ∧
      after.registries = l.registries.set node (r.insert ⟨region, size⟩) ∧
      after.allocations = l.allocations + 1 ∧ after.deallocations = l.deallocations := by
  unfold allocate at served
  split at served
  · cases served
  · split at served
    · cases served
    · next r found =>
      split at served
      · cases served
      · next region supply mapped =>
        cases served
        exact ⟨r, region, found, rfl, rfl, rfl, rfl⟩

/-- A request that fails leaves the registries as they are. -/
theorem registries_allocate_error {σ : Type} {os : Platform σ} {machine later : Machine σ}
    {after : Large} {size : Nat} {error : AllocError}
    (refused : l.allocate os machine size node = (.error error, after, later)) :
    after.registries = l.registries ∧ after.allocations = l.allocations ∧
      after.deallocations = l.deallocations := by
  unfold allocate at refused
  split at refused
  · cases refused
    exact ⟨rfl, rfl, rfl⟩
  · split at refused
    · cases refused
      exact ⟨rfl, rfl, rfl⟩
    · split at refused
      · cases refused
        exact ⟨rfl, rfl, rfl⟩
      · cases refused

theorem once_of_registry (once : (l.objects.map (·.region.start)).Nodup)
    (found : l.registries[node]? = some r) : (r.objects.map (·.region.start)).Nodup := by
  rw [objects, List.map_flatMap] at once
  exact (List.nodup_flatMap.1 once).1 r (List.mem_of_getElem? found)

/-- A release takes one object out of the registry it stands in, and every registry keeps the rest. -/
theorem registries_free {σ : Type} {os : Platform σ} {machine later : Machine σ} {after : Large}
    {size : Nat} (once : (l.objects.map (·.region.start)).Nodup)
    (freed : l.free os machine address = (.ok size, after, later)) :
    after.registries.map (·.objects) =
        (l.registries.map fun r => r.objects.filter (·.region.start != address)) ∧
      after.allocations = l.allocations ∧ after.deallocations = l.deallocations + 1 := by
  unfold free at freed
  split at freed
  · cases freed
  · next index object located =>
    obtain ⟨r, found, inside, rfl⟩ := (locate?_eq_some_iff once).1 located
    cases freed
    refine ⟨List.ext_getElem? fun place => ?_, rfl, rfl⟩
    rw [List.getElem?_map, List.getElem?_map, List.getElem?_modify]
    cases there : l.registries[place]? with
    | none => simp
    | some s =>
      simp only [Option.map_eq_map, Option.map_some, Option.some.injEq]
      by_cases here : index = place
      · rw [if_pos here]
        exact eraseP_eq_filter (once_of_registry once there) _
      · rw [if_neg here]
        refine (List.filter_eq_self.2 fun other member => bne_iff_ne.2 fun same => here ?_).symm
        have also := (locate?_eq_some_iff once).2 ⟨s, there, member, same⟩
        rw [located] at also
        cases also
        rfl

theorem holdings_free {σ : Type} {os : Platform σ} {machine later : Machine σ} {after : Large}
    {size : Nat} (once : (l.objects.map (·.region.start)).Nodup)
    (freed : l.free os machine address = (.ok size, after, later)) (node : Nat) :
    after.holdings node = (l.holdings node).filter (·.address != address) := by
  have lists := congrArg (·[node]?) (registries_free once freed).1
  simp only [List.getElem?_map] at lists
  unfold holdings
  cases before : l.registries[node]? with
  | none =>
    rw [before, Option.map_none, Option.map_eq_none_iff] at lists
    rw [lists]
    rfl
  | some r =>
    rw [before, Option.map_some, Option.map_eq_some_iff] at lists
    obtain ⟨s, found, objects⟩ := lists
    rw [found, Option.elim_some, Option.elim_some, objects, List.filter_map]
    rfl

end

/-- The large objects, the machine below them, and what is live, latest first. -/
structure World (σ : Type) where
  large : Large
  machine : Machine σ
  live : List Holding := []

namespace World

variable {σ : Type}

/-- The live object that starts at an address. -/
def find? (w : World σ) (address : Nat) : Option Holding := w.live.find? (·.address == address)

/-- The live objects of a node. -/
def liveOn (w : World σ) (node : Nat) : List Holding := w.live.filter (·.node == node)

/-- Asks for an object. -/
def allocate (os : Platform σ) (w : World σ) (size node : Nat) : Except AllocError Nat × World σ :=
  match w.large.allocate os w.machine size node with
  | (.ok address, large, machine) =>
    (.ok address, { large, machine, live := ⟨address, size, node⟩ :: w.live })
  | (.error error, large, machine) => (.error error, { w with large, machine })

/-- Releases an address. -/
def free (os : Platform σ) (w : World σ) (address : Nat) : Except FreeError Nat × World σ :=
  match w.large.free os w.machine address with
  | (.ok size, large, machine) =>
    (.ok size, { large, machine, live := w.live.filter (·.address != address) })
  | (.error error, large, machine) => (.error error, { w with large, machine })

/-- What becomes of new large objects, whatever clients ask for and release. -/
inductive Reached {os : Platform σ} (contract : os.Contract) : World σ → Prop
  | create {machine : Machine σ} (hugePages numaAware : Bool) :
      contract.Possible machine.system →
      Reached contract { large := .create os.topology hugePages numaAware, machine }
  | allocate {w : World σ} (size node : Nat) :
      Reached contract w → Reached contract (w.allocate os size node).2
  | free {w : World σ} (address : Nat) :
      Reached contract w → Reached contract (w.free os address).2
  /-- Others may make anything of the machine that leaves all regions mapped. -/
  | others {w : World σ} {machine : Machine σ} :
      Reached contract w → contract.Possible machine.system →
      (∀ region ∈ w.large.regions, contract.Mapped machine.system region.extent) →
      Reached contract { w with machine }

/-- The registries stand for what is live. -/
structure Tracked {os : Platform σ} (contract : os.Contract) (w : World σ) : Prop where
  sound : w.large.Sound
  custody : os.Custody contract w.machine.system w.large.regions
  recorded : ∀ node, w.large.holdings node = w.liveOn node
  once : (w.live.map (·.address)).Nodup
  valid : w.large.validate = true
  balanced : w.large.allocations = w.large.deallocations + w.live.length

variable {os : Platform σ} {contract : os.Contract} {w : World σ} {x : Holding}
  {size node address : Nat}

theorem find?_freed (w : World σ) (large : Large) (machine : Machine σ) (address other : Nat) :
    find? { large, machine, live := w.live.filter (·.address != address) } other =
      if other = address then none else w.find? other := by
  unfold find?
  rw [List.find?_filter]
  split
  · next same => exact List.find?_eq_none.2 fun x _ => by simp [same]
  · next different =>
    congr 1
    funext x
    by_cases here : x.address = other
    · simp [here, different]
    · simp [here]

theorem find?_served (w : World σ) (large : Large) (machine : Machine σ) (x : Holding)
    (other : Nat) :
    find? { large, machine, live := x :: w.live } other =
      if other = x.address then some x else w.find? other := by
  unfold find?
  by_cases here : x.address = other
  · rw [List.find?_cons_of_pos (by simpa using here), if_pos here.symm]
  · rw [List.find?_cons_of_neg (by simpa using here), if_neg (Ne.symm here)]

theorem mem_liveOn : x ∈ w.liveOn node ↔ x ∈ w.live ∧ x.node = node := by
  rw [liveOn, List.mem_filter, beq_iff_eq]

namespace Tracked

theorem create {machine : Machine σ} (hugePages numaAware : Bool)
    (possible : contract.Possible machine.system) :
    Tracked contract { large := .create os.topology hugePages numaAware, machine } := by
  obtain ⟨sound, none⟩ := create_spec os.topology hugePages numaAware
  refine
    { sound
      custody := none ▸ .nil possible
      recorded := fun node => ?_
      once := .nil
      valid := create_validate os.topology hugePages numaAware
      balanced := rfl }
  refine List.eq_nil_iff_forall_not_mem.2 fun x member => ?_
  obtain ⟨r, found, object, inside, -⟩ := mem_holdings.1 member
  obtain ⟨home, -, rfl⟩ := List.mem_map.1 (List.mem_of_getElem? found)
  cases inside

variable (tracked : Tracked contract w)
include tracked

/-- A live object is on the list of its node, and what is on a list is live. -/
theorem mem_live_iff :
    x ∈ w.live ↔ ∃ r, w.large.registries[x.node]? = some r ∧
      ∃ object ∈ r.objects, object.holding x.node = x := by
  rw [← mem_holdings, tracked.recorded, mem_liveOn, and_iff_left rfl]

theorem locate?_of_live (held : x ∈ w.live) :
    ∃ object, w.large.locate? x.address = some (x.node, object) ∧ object.size = x.size := by
  obtain ⟨r, found, object, inside, same⟩ := tracked.mem_live_iff.1 held
  have located := (locate?_eq_some_iff (starts_nodup tracked.custody)).2 ⟨r, found, inside, rfl⟩
  exact ⟨object, congrArg Holding.address same ▸ located, congrArg Holding.size same⟩

theorem live_of_locate? {object : Object}
    (located : w.large.locate? address = some (node, object)) :
    ⟨address, object.size, node⟩ ∈ w.live := by
  obtain ⟨r, found, inside, rfl⟩ :=
    (locate?_eq_some_iff (starts_nodup tracked.custody)).1 located
  exact tracked.mem_live_iff.2 ⟨r, found, object, inside, rfl⟩

/-- A live object is released, whatever its node and wherever it stands on the list. -/
theorem free_of_live (held : x ∈ w.live) :
    ∃ large machine, w.large.free os w.machine x.address = (.ok x.size, large, machine) := by
  obtain ⟨object, located, same⟩ := tracked.locate?_of_live held
  unfold Large.free
  rw [located, ← same]
  exact ⟨_, _, rfl⟩

theorem locate?_eq_none (absent : w.find? address = none) : w.large.locate? address = none := by
  refine Option.eq_none_iff_forall_ne_some.2 fun ⟨node, object⟩ located => ?_
  exact absurd (beq_self_eq_true address)
    (List.find?_eq_none.1 absent _ (tracked.live_of_locate? located))

/-- The sizes that are told are those of the live objects. -/
theorem sizeOf?_eq (address : Nat) :
    w.large.sizeOf? address = (w.find? address).map (·.size) := by
  rw [sizeOf?]
  cases found : w.find? address with
  | none => rw [tracked.locate?_eq_none found, Option.map_none, Option.map_none]
  | some x =>
    obtain rfl : x.address = address := beq_iff_eq.1 (List.find?_some found :)
    obtain ⟨object, located, same⟩ := tracked.locate?_of_live (List.mem_of_find?_eq_some found)
    rw [located, Option.map_some, Option.map_some]
    exact congrArg some same

theorem others {machine : Machine σ} (possible : contract.Possible machine.system)
    (mapped : ∀ region ∈ w.large.regions, contract.Mapped machine.system region.extent) :
    Tracked contract { w with machine } :=
  { tracked with custody := tracked.custody.of_system possible mapped }

/-- What is served starts where nothing live starts. -/
theorem fresh {large : Large} {machine : Machine σ}
    (served : w.large.allocate os w.machine size node = (.ok address, large, machine)) :
    w.find? address = none ∧ large.Sound ∧ os.Custody contract machine.system large.regions := by
  obtain ⟨-, ok⟩ := allocate_spec served
  obtain ⟨-, region, rfl, fits, grows, grown, huge⟩ := ok address rfl
  obtain ⟨sound, regions⟩ := tracked.sound.insert fits grown huge
  have custody := (grows.gains.custody tracked.custody).perm regions.symm
  refine ⟨List.find?_eq_none.2 fun x held same => ?_, sound, custody⟩
  obtain ⟨object, located, -⟩ := tracked.locate?_of_live held
  obtain ⟨r, found, inside, start⟩ :=
    (locate?_eq_some_iff (starts_nodup tracked.custody)).1 located
  have starts := (grown.map (·.region.start)).nodup_iff.1 (starts_nodup custody)
  rw [List.map_cons, List.nodup_cons] at starts
  exact starts.1 (List.mem_map.2 ⟨object, mem_objects found inside, start.trans (beq_iff_eq.1 same)⟩)

theorem served {large : Large} {machine : Machine σ}
    (served : w.large.allocate os w.machine size node = (.ok address, large, machine)) :
    Tracked contract { large, machine, live := ⟨address, size, node⟩ :: w.live } := by
  obtain ⟨unused, sound, custody⟩ := tracked.fresh served
  obtain ⟨r, region, found, start, registries, allocations, deallocations⟩ :=
    registries_allocate served
  refine
    { sound, custody
      recorded := fun home => ?_
      once := List.nodup_cons.2 ⟨fun member => ?_, tracked.once⟩
      valid := allocate_validate tracked.valid served
      balanced := ?_ }
  · have before := tracked.recorded home
    rw [holdings] at before ⊢
    rw [registries, List.getElem?_set]
    by_cases here : node = home
    · subst here
      have inside := (List.getElem?_eq_some_iff.1 found).1
      rw [found, Option.elim_some] at before
      rw [if_pos rfl, if_pos inside, Option.elim_some, liveOn, List.filter_cons,
        if_pos (beq_self_eq_true node), ← start]
      exact congrArg (_ :: ·) before
    · rw [if_neg here, liveOn, List.filter_cons, if_neg (by simpa using here)]
      exact before
  · obtain ⟨x, held, same⟩ := List.mem_map.1 member
    exact List.find?_eq_none.1 unused x held (beq_iff_eq.2 same)
  · rw [allocations, deallocations, tracked.balanced]
    exact Nat.add_assoc ..

theorem allocate (size node : Nat) : Tracked contract (w.allocate os size node).2 := by
  unfold World.allocate
  split
  · next served => exact tracked.served served
  · next error large machine refused =>
    obtain ⟨registries, allocations, deallocations⟩ := registries_allocate_error refused
    obtain ⟨same, huge, grows⟩ := (allocate_spec refused).1 error rfl
    have regions : large.regions = w.large.regions := congrArg (List.map Object.region) same
    refine
      { tracked with
        sound := tracked.sound.perm same huge
        custody := regions ▸ grows.gains.custody tracked.custody
        recorded := fun home => ?_
        valid := allocate_validate tracked.valid refused
        balanced := ?_ }
    · rw [holdings, registries]
      exact tracked.recorded home
    · rw [allocations, deallocations]
      exact tracked.balanced

/-- A release takes what is live at the address, whatever its node, and leaves the rest. -/
theorem released {large : Large} {machine : Machine σ}
    (freed : w.large.free os w.machine address = (.ok size, large, machine)) :
    Tracked contract { large, machine, live := w.live.filter (·.address != address) } := by
  have once := starts_nodup tracked.custody
  obtain ⟨-, ok⟩ := free_spec freed
  obtain ⟨object, -, -, left, huge, rfl⟩ := ok size rfl
  obtain ⟨sound, regions⟩ := tracked.sound.erase left huge
  obtain ⟨-, allocations, deallocations⟩ := registries_free once freed
  refine
    { sound
      custody := Platform.Custody.unmapAll (tracked.custody.perm regions)
      recorded := fun node => ?_
      once := tracked.once.sublist (List.filter_sublist.map _)
      valid := free_validate tracked.valid freed
      balanced := ?_ }
  · rw [holdings_free once freed, tracked.recorded, liveOn, List.filter_comm]
    rfl
  · have told := tracked.sizeOf?_eq address
    rw [sizeOf?_of_free freed] at told
    obtain ⟨x, found, -⟩ := Option.map_eq_some_iff.1 told.symm
    obtain rfl : x.address = address := beq_iff_eq.1 (List.find?_some found :)
    obtain ⟨before, after, whole, kept, -⟩ :=
      Parts.exists_split tracked.once (List.mem_of_find?_eq_some found)
    have balanced := tracked.balanced
    rw [whole, List.length_append, List.length_cons] at balanced
    rw [allocations, deallocations, kept, List.length_append, balanced]
    omega

theorem free (address : Nat) : Tracked contract (w.free os address).2 := by
  unfold World.free
  split
  · next freed => exact tracked.released freed
  · next error large machine refused =>
    obtain ⟨rfl, rfl⟩ := (free_spec refused).1 error rfl
    exact tracked

/-- Only its start is known of an object, not the addresses inside. -/
theorem sizeOf?_inside (held : x ∈ w.live) (above : x.address < address)
    (below : address < x.address + x.size) : w.large.sizeOf? address = none := by
  rw [tracked.sizeOf?_eq, Option.map_eq_none_iff]
  cases found : w.find? address with
  | none => rfl
  | some y =>
    obtain rfl : y.address = address := beq_iff_eq.1 (List.find?_some found :)
    obtain ⟨r, one, object, inOne, first⟩ := tracked.mem_live_iff.1 held
    obtain ⟨s, two, other, inTwo, second⟩ :=
      tracked.mem_live_iff.1 (List.mem_of_find?_eq_some found)
    have member := mem_objects one inOne
    have also := mem_objects two inTwo
    have fits := tracked.sound.fits object member
    have nonempty := tracked.custody.length_pos _ (List.mem_map_of_mem also)
    have start : object.region.start = x.address := congrArg Holding.address first
    have size : object.size = x.size := congrArg Holding.size first
    have elsewhere : other.region.start = y.address := congrArg Holding.address second
    -- The other object would start within the region of the first, so both would be one.
    have same : object.region = other.region :=
      tracked.custody.eq_of_holds (List.mem_map_of_mem member) (List.mem_map_of_mem also)
        (Extent.holds_mk.2 ⟨by omega, by omega⟩)
        (Extent.holds_mk.2 ⟨Nat.le_of_eq elsewhere, by omega⟩)
    rw [same] at start
    omega

/-- The account of a node is that of its live objects. -/
theorem usage_eq (node : Nat) :
    w.large.usage node = ⟨(w.liveOn node).length, ((w.liveOn node).map (·.size)).sum⟩ := by
  rw [← tracked.recorded, usage, holdings]
  cases found : w.large.registries[node]? with
  | none => rfl
  | some r =>
    rw [Option.elim_some, Option.elim_some,
      ← validate_iff.1 tracked.valid r (List.mem_of_getElem? found), Registry.recount,
      List.length_map, List.map_map]
    rfl

/-- What a release subtracts is part of what it is subtracted from. -/
theorem covers {object : Object} {r : Registry}
    (located : w.large.locate? address = some (node, object))
    (found : w.large.registries[node]? = some r) :
    1 ≤ r.usage.objects ∧ object.size ≤ r.usage.bytes ∧
      object.region.isHuge.toNat ≤ w.large.hugeObjects := by
  obtain ⟨s, also, there⟩ := locate?_some located
  cases Option.some.inj (found.symm.trans also)
  have inside := List.mem_of_find?_eq_some there
  have bytes := ((Registry.perm_erase there).2.map Object.size).sum_nat
  rw [List.map_cons, List.sum_cons] at bytes
  rw [← validate_iff.1 tracked.valid r (List.mem_of_getElem? found), tracked.sound.huge,
    Registry.recount, bytes]
  refine ⟨List.length_pos_of_mem inside, Nat.le_add_right .., ?_⟩
  · cases huge : object.region.isHuge with
    | false => exact Nat.zero_le _
    | true =>
      exact List.countP_pos_iff.2 ⟨_, List.mem_map_of_mem (mem_objects found inside), huge⟩

end Tracked

theorem Reached.tracked (reached : w.Reached contract) : w.Tracked contract := by
  induction reached with
  | create hugePages numaAware possible => exact .create hugePages numaAware possible
  | allocate size node _ ih => exact ih.allocate size node
  | free address _ ih => exact ih.free address
  | others _ possible mapped ih => exact ih.others possible mapped

/-- The large objects stand for the map of the live ones, from starts to sizes and nodes. -/
structure Refines (os : Platform σ) (w : World σ) : Prop where
  keys : (w.live.map (·.address)).Nodup
  /-- The list of each node has its live objects, latest first. -/
  lists : ∀ node, w.large.holdings node = w.liveOn node
  sizes : ∀ address, w.large.sizeOf? address = (w.find? address).map (·.size)
  inside : ∀ x ∈ w.live, ∀ address, x.address < address → address < x.address + x.size →
    w.large.sizeOf? address = none
  serves : ∀ {size node address : Nat} {large : Large} {machine : Machine σ},
    w.large.allocate os w.machine size node = (.ok address, large, machine) →
      w.find? address = none ∧ ∀ other,
        large.sizeOf? other = if other = address then some size else w.large.sizeOf? other
  fails : ∀ {size node : Nat} {error : AllocError} {large : Large} {machine : Machine σ},
    w.large.allocate os w.machine size node = (.error error, large, machine) →
      large.registries = w.large.registries
  releases : ∀ x ∈ w.live, ∃ large machine,
    w.large.free os w.machine x.address = (.ok x.size, large, machine) ∧
      large.registries.map (·.objects) =
        (w.large.registries.map fun r => r.objects.filter (·.region.start != x.address)) ∧
      ∀ other, large.sizeOf? other = if other = x.address then none else w.large.sizeOf? other
  refuses : ∀ address, w.find? address = none →
    w.large.free os w.machine address = (.error (.unknownPointer address), w.large, w.machine)
  usages : ∀ node,
    w.large.usage node = ⟨(w.liveOn node).length, ((w.liveOn node).map (·.size)).sum⟩
  recounts : ∀ r ∈ w.large.registries, r.recount = r.usage
  valid : w.large.validate = true
  balanced : w.large.allocations = w.large.deallocations + w.live.length
  covers : ∀ {address node : Nat} {object : Object} {r : Registry},
    w.large.locate? address = some (node, object) → w.large.registries[node]? = some r →
      1 ≤ r.usage.objects ∧ object.size ≤ r.usage.bytes ∧
        object.region.isHuge.toNat ≤ w.large.hugeObjects

/-- Whatever clients ask for and release, and whatever others do to the machine, the large objects are
a map of what is live. -/
theorem map_refined (reached : w.Reached contract) : w.Refines os where
  keys := reached.tracked.once
  lists := reached.tracked.recorded
  sizes := reached.tracked.sizeOf?_eq
  inside _ held _ above below := reached.tracked.sizeOf?_inside held above below
  serves {size node address large machine} served := by
    refine ⟨(reached.tracked.fresh served).1, fun other => ?_⟩
    rw [(reached.tracked.served served).sizeOf?_eq, reached.tracked.sizeOf?_eq, find?_served,
      apply_ite (Option.map _), Option.map_some]
  fails refused := (registries_allocate_error refused).1
  releases x held := by
    obtain ⟨large, machine, freed⟩ := reached.tracked.free_of_live held
    have next := reached.tracked.released freed
    refine ⟨large, machine, freed, (registries_free (starts_nodup reached.tracked.custody) freed).1,
      fun other => ?_⟩
    rw [next.sizeOf?_eq, reached.tracked.sizeOf?_eq, find?_freed, apply_ite (Option.map _),
      Option.map_none]
  refuses address absent := by
    unfold Large.free
    rw [reached.tracked.locate?_eq_none absent]
  usages := reached.tracked.usage_eq
  recounts := validate_iff.1 reached.tracked.valid
  valid := reached.tracked.valid
  balanced := reached.tracked.balanced
  covers := reached.tracked.covers

/-- Of three objects on two nodes the one in the middle of a list was released. -/
theorem map_refined_two_nodes :
    ∃ w : World Simulated.State,
      w.Reached (Simulated.contract { topology := Topology.singleNode.describe ⟨1, "1", none⟩ }
        (by decide) (by decide)) ∧
      w.live = [⟨81920, 3, 1⟩, ⟨73728, 5000, 0⟩, ⟨65536, 1, 1⟩] ∧
      w.Refines (Simulated.platform { topology := Topology.singleNode.describe ⟨1, "1", none⟩ }) := by
  let settings : Simulated.Settings := { topology := Topology.singleNode.describe ⟨1, "1", none⟩ }
  let os := Simulated.platform settings
  let new : World Simulated.State :=
    { large := .create os.topology false true, machine := Simulated.machine {} }
  let one := (new.allocate os 1 1).2
  let two := (one.allocate os 4096 1).2
  let three := (two.allocate os 5000 0).2
  let four := (three.allocate os 3 1).2
  let last := (four.free os 69632).2
  have reached : last.Reached (Simulated.contract settings (by decide) (by decide)) :=
    .free 69632 (.allocate 3 1 (.allocate 5000 0 (.allocate 4096 1 (.allocate 1 1
      (.create false true (Simulated.machine_sound {}))))))
  exact ⟨last, reached, by decide +kernel, map_refined reached⟩

end World

end NumaHeap.Large
