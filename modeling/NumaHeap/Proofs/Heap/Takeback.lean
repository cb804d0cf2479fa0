import NumaHeap.Proofs.Heap.Handout

/-!
Taking back. An address is given back to the part in whose memory it lies: no other part owns it, so
the tier that is told from the size cannot lead astray. What the others hold is not touched.
-/

namespace NumaHeap.Heap

variable {σ : Type} {os : Platform σ} {contract : os.Contract} {h after : Heap σ}
  {free left : Nat → List Nat} {live : List Allocation} {x y : Allocation} {thread : ThreadId}
  {size : Nat} {explanation : Platform.Explanation contract}

theorem Secured.address_ne (secured : Secured explanation h free (x :: live)) (member : y ∈ live) :
    x.address ≠ y.address := by
  intro same
  have apart := (List.pairwise_cons.1 secured.apart).1 y member
  exact Extent.not_apart_of_start same (secured.nonempty x (List.mem_cons_self ..))
    (secured.nonempty y (List.mem_cons_of_mem _ member)) apart

theorem Secured.holds_start (secured : Secured explanation h free live) (member : x ∈ live) :
    x.extent.Holds x.address :=
  Extent.holds_mk.2 ⟨Nat.le_refl _, Nat.lt_add_of_pos_right (secured.nonempty x member)⟩

/-- What reaches into the memory of a part has its place in that part. -/
theorem Secured.alike_of_holds (secured : Secured explanation h free live) (member : x ∈ live)
    {tier : Tier} {region : Region} {address : Nat} (held : region ∈ h.held tier)
    (mine : x.extent.Holds address) (inside : region.extent.Holds address) : x.tier.Alike tier := by
  by_contra unlike
  obtain ⟨home, own, within⟩ := (secured.placed x member).within secured.sound
  have apart := held_apart secured.custody unlike own held
  exact apart.not_holds (within.holds mine) inside

/-- A live allocation at the start of a large object is large. -/
theorem Secured.eq_large (secured : Secured explanation h free live) (member : x ∈ live)
    {object : Large.Object} (registered : object ∈ h.large.objects)
    (start : object.region.start = x.address) : x.tier = .large := by
  have held : object.region ∈ h.held .large := List.mem_map_of_mem registered
  have positive := secured.custody.length_pos _ (mem_regions .large held)
  have inside : object.region.extent.Holds x.address :=
    ⟨Nat.le_of_eq start, start ▸ Nat.lt_add_of_pos_right positive⟩
  exact (secured.alike_of_holds member held (secured.holds_start member) inside).eq_large

/-- A live allocation that reaches into a region of the slabs was served by them. -/
theorem Secured.eq_slab_of_holds {cells : Slab} {index : Nat} {c : Slab.Cell} {address : Nat}
    (secured : Secured explanation h free live) (member : x ∈ live)
    (present : h.slab = some cells) (found : cells.cells[index]? = some c)
    (mine : x.extent.Holds address) (owns : c.owns address = true) : x.tier = .slab := by
  obtain ⟨region, inside, contains⟩ := List.any_eq_true.1 owns
  have held : region ∈ h.held .slab := by
    rw [held_slab present]
    exact Slab.region_mem found inside
  exact (secured.alike_of_holds member held mine (Region.holds_of_contains contains)).eq_slab

theorem Secured.eq_slab {cells : Slab} {index : Nat} {c : Slab.Cell}
    (secured : Secured explanation h free live) (member : x ∈ live)
    (present : h.slab = some cells) (found : cells.cells[index]? = some c)
    (owns : c.owns x.address = true) : x.tier = .slab :=
  secured.eq_slab_of_holds member present found (secured.holds_start member) owns

theorem freeLarge_secured {answer : Except FreeError Nat} {large : Large} {machine : Machine σ}
    (secured : Secured explanation h free (x :: live))
    (freed : h.large.free os h.machine x.address = (answer, large, machine)) :
    (∀ error, answer = .error error → large = h.large ∧ machine = h.machine) ∧
      (∀ size, answer = .ok size → x.tier = .large ∧
        Secured explanation { h with large, machine } free live ∧ Keeps os live h.machine machine) := by
  have moves := free_large_moves secured.sound freed
  obtain ⟨failed, ok⟩ := Large.free_spec freed
  refine ⟨failed, fun size same => ?_⟩
  obtain ⟨object, start, -, objects, huge, rfl⟩ := ok size same
  have registered : object ∈ h.large.objects := objects.mem_iff.2 (List.mem_cons_self ..)
  have served := secured.eq_large (List.mem_cons_self ..) registered start
  have keeps : Keeps os live h.machine
      { h.machine with system := os.unmapAll h.machine.system [object.region] } :=
    fun _ _ address _ => .unmapAll os h.machine [object.region] address
  have gone : h.large.regions.Perm ([object.region] ++ large.regions) :=
    objects.map Large.Object.region
  have regions := perm_large (a := h.arenas.regions) (s := h.slabRegions) gone
  have old : ∀ region,
      region ∈ h.arenas.regions ++ (h.slabRegions ++ large.regions) → region ∈ h.regions :=
    fun region member => regions.mem_iff.2 (List.mem_append_right _ member)
  have fewer := secured.sublist (List.sublist_cons_self x live)
  refine ⟨served, ⟨moves.sound, moves.trades.custody secured.custody, secured.stocked, ?_,
    fewer.nonempty, fewer.apart, ?_⟩, keeps⟩
  · intro y member
    apply (fewer.placed y member).withLarge
    intro other there here
    refine (List.mem_cons.1 (objects.mem_iff.1 there)).resolve_left fun equal => ?_
    rw [equal, start] at here
    exact secured.address_ne member here
  · refine fun region member address inside outside =>
      secured.content_of_carries ?_ member inside outside
    intro region member address inside outside
    exact .inl ⟨⟨region, old region member, inside⟩, outside, .unmapAll os h.machine _ address⟩

theorem freeSlab_secured {answer : Except FreeError Unit} {cells last : Slab}
    {machine : Machine σ} (secured : Secured explanation h free (x :: live))
    (present : h.slab = some cells)
    (freed : cells.free os h.machine thread x.address size = (answer, last, machine)) :
    (∀ error, answer = .error error → last = cells ∧ machine = h.machine) ∧
      (answer = .ok () → x.tier = .slab ∧ ∃ left,
        Secured explanation { h with slab := some last, machine } left live ∧
          Keeps os live h.machine machine) := by
  have moves := free_slab_moves secured.sound present freed
  have inner := secured.sound.slab cells present
  obtain ⟨failed, ok⟩ := Slab.free_spec freed
  refine ⟨failed, fun same => ?_⟩
  obtain ⟨index, c, found, owns, mapper, replaced, rfl⟩ := ok same
  have mine := List.mem_cons_self (a := x) (l := live)
  have fewer := secured.sublist (List.sublist_cons_self x live)
  have served := secured.eq_slab mine present found owns
  have places := (secured.placed x mine).of_slab served present
  obtain ⟨stocked, kept, more, link⟩ := Slab.reclaim_spec inner
    (slab_custody secured.custody present) (secured.stocked cells present) places
    (secured.nonempty x mine) found owns replaced
  have spares : ∀ address, ¬(Memory.linkAt x.address).Holds address →
      h.machine.Spares os (h.machine.withMemory (c.free.push h.machine.memory x.address).2)
        address :=
    fun address outside => .of_get h.machine (Memory.get_setWord_outside outside)
  have old : (h.arenas.regions ++ (last.regions ++ h.large.regions)).Perm h.regions := by
    rw [regions, slabRegions_eq present]
    exact ((Slab.free_regions inner freed).2.1.append_right _).append_left _
  refine ⟨served, Function.update free index (x.address :: free index),
    ⟨moves.sound, moves.trades.custody secured.custody, ?_, ?_, fewer.nonempty, fewer.apart, ?_⟩, ?_⟩
  · intro other same
    cases same
    exact stocked
  · intro y member
    apply (fewer.placed y member).withSlab present
    exact fun places => kept _ _ places fun same => secured.address_ne member same.symm
  · refine fun region member address inside outside =>
      secured.content_of_carries ?_ member inside outside
    intro region member address inside outside
    refine .inl ⟨⟨region, old.mem_iff.1 member, inside⟩, fun reserved => outside ?_,
      spares address fun held => outside ⟨last, rfl, link address held⟩⟩
    exact ⟨last, rfl, more address (reserved.of_slab present)⟩
  · intro y member address inside
    apply spares
    have apart := slab_object_apart secured.sound secured.custody present (places.link inner)
      (fewer.placed y member) fun _ => secured.address_ne member
    exact apart.symm.not_holds inside

end NumaHeap.Heap
