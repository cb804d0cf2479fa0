import NumaHeap.Proofs.Heap.Secured

/-!
Handing out. A request is served from a block of the thread's own chain, from a slot of the slabs, or
with a region of its own; whichever it is, what is handed out was nobody's before, and what others
hold is not touched.
-/

namespace NumaHeap.Heap

variable {σ : Type} {os : Platform σ} {contract : os.Contract} {h after : Heap σ}
  {free left : Nat → List Nat} {live : List Allocation} {x : Allocation} {thread : ThreadId}
  {new : List Region} {size : Nat} {explanation : Platform.Explanation contract}

/-- A request that is denied grants nothing. -/
theorem denied {ε α : Type} {error : ε} {P : α → Prop} (value : α)
    (granted : (Except.error error : Except ε α) = .ok value) : P value := by
  cases granted

/-- What is true of an address at the moment at which a tier hands it out. -/
structure Handed (os : Platform σ) (tier : Tier) (alignment : PowerOfTwo) (size : Nat)
    (memory : Memory) (address : Nat) : Prop where
  nonempty : 0 < size
  arena : ∀ kind, tier = .arena kind → alignment.value ∣ address
  slab : tier = .slab → (8 ∣ os.pageSize.value → 8 ∣ address) ∧
    ∀ place, (Memory.linkAt address).Holds place → memory.get place = 0
  large : tier = .large → os.pageSize.value ∣ address ∧
    ∀ place, Extent.Holds ⟨address, size⟩ place → memory.get place = 0

/-- One more allocation is live. -/
theorem Secured.insert (secured : Secured explanation h free live) (places : h.Places free x)
    (nonempty : 0 < x.size) (apart : ∀ y ∈ live, x.tier.Alike y.tier → x.Apart y) :
    Secured explanation h free (x :: live) :=
  { secured with
    placed := List.forall_mem_cons.2 ⟨places, secured.placed⟩
    nonempty := List.forall_mem_cons.2 ⟨nonempty, secured.nonempty⟩
    apart := by
      refine List.pairwise_cons.2 ⟨fun y member => ?_, secured.apart⟩
      by_cases alike : x.tier.Alike y.tier
      · exact apart y member alike
      · exact places.apart_of_unlike secured.sound secured.custody (secured.placed y member) alike }

/-- A region that was held is apart from all new ones. -/
theorem not_fresh {system : σ} (custody : os.Custody contract system (new ++ h.regions))
    {region : Region} {address : Nat} (member : region ∈ h.regions)
    (inside : region.extent.Holds address) : ∀ fresh ∈ new, ¬fresh.extent.Holds address := by
  intro fresh gained
  have apart := (List.pairwise_append.1 custody.apart).2.2 fresh gained region member
  exact apart.symm.not_holds inside

/-- A part that gains regions takes nothing from anybody. -/
theorem Secured.grow (secured : Secured explanation h free live) (moves : Moves os h after)
    (grows : h.machine.Grows os after.machine new)
    (regions : after.regions.Perm (new ++ h.regions))
    (slab : after.slab.map Slab.cells = h.slab.map Slab.cells) (placed : ∀ y ∈ live, after.Places free y) :
    Secured explanation after free live ∧ Keeps os live h.machine after.machine := by
  have cells_eq : ∀ {old new : Slab}, h.slab = some old → after.slab = some new →
      new.cells = old.cells := by
    intro old new there here
    rw [there, here] at slab
    exact Option.some.inj slab
  have custody := moves.trades.custody secured.custody
  have whole := custody.perm regions
  have carries : Carries os h free after free := by
    intro region member address inside outside
    rcases List.mem_append.1 (regions.mem_iff.1 member) with gained | old
    · exact .inr (grows.blank region gained address inside)
    · refine .inl ⟨⟨region, old, inside⟩, fun reserved => outside ?_, ?_⟩
      · obtain ⟨old, there, index, c, found, kept⟩ := reserved
        have isSome : after.slab.isSome = true := by rw [moves.slab, there, Option.isSome_some]
        obtain ⟨last, here⟩ := Option.isSome_iff_exists.1 isSome
        exact ⟨last, here, index, c, (cells_eq there here).symm ▸ found, kept⟩
      · exact grows.spares (not_fresh whole old inside)
  refine ⟨⟨moves.sound, custody, fun last here index c found => ?_, placed, secured.nonempty,
    secured.apart, fun region member address inside outside =>
      secured.content_of_carries carries member inside outside⟩, ?_⟩
  · have isSome : h.slab.isSome = true := by rw [← moves.slab, here, Option.isSome_some]
    obtain ⟨old, there⟩ := Option.isSome_iff_exists.1 isSome
    have before := cells_eq there here ▸ found
    apply (secured.stocked old there index c before).congr
    intro address kept
    obtain ⟨region, member, inside⟩ := (secured.stocked old there).reserved_within
      (secured.sound.slab old there) ⟨index, c, before, kept⟩
    have held : region ∈ h.regions := mem_regions .slab ((held_slab there).symm ▸ member)
    exact grows.same address (not_fresh whole held inside)
  · intro y member address inside
    obtain ⟨region, held, within⟩ := secured.within member
    exact grows.spares (not_fresh whole held (within.holds inside))

/-- Above the cursor of a block, and in a new block, nothing is live. -/
theorem Secured.unused_apart {kind : ArenaKind} {block : Arena.Block} {system : σ} {part : Extent}
    (secured : Secured explanation h free live)
    (custody : os.Custody contract system (new ++ h.regions))
    (origin : h.arenas.Holds kind.index thread block ∨ ∃ region ∈ new, block = .ofRegion region)
    (inside : part.Within block.region.extent) (above : block.cursor ≤ part.start) :
    ∀ y ∈ live, (Tier.arena kind).Alike y.tier → part.Apart y.extent := by
  intro y member alike
  obtain ⟨other, served⟩ := alike.eq_arena
  have places := secured.placed y member
  rw [Heap.Places, served] at places
  obtain ⟨home, holds, first, last⟩ := places
  have held : home.region ∈ h.regions := mem_regions (.arena kind) holds.region_mem
  have within : y.extent.Within home.region.extent :=
    ⟨first, Nat.le_trans last (secured.sound.arenas.of_holds holds).2⟩
  rcases origin with old | ⟨fresh, gained, rfl⟩
  · by_cases same : block.region = home.region
    · have once : h.arenas.regions.Nodup := (List.nodup_append.1 secured.custody.nodup).1
      cases Arena.Pool.Holds.unique once old holds same
      exact .inr (Nat.le_trans last above)
    · have mine : block.region ∈ h.regions := mem_regions (.arena kind) old.region_mem
      have apart := secured.custody.apart_of_ne mine held same
      exact Extent.Apart.mono apart inside within
  · have apart := (List.pairwise_append.1 custody.apart).2.2 fresh gained _ held
    exact Extent.Apart.mono apart inside within

theorem serveArena_secured {kind : ArenaKind} {node : Option Nat} {alignment : PowerOfTwo}
    {answer : Except AllocError Arena.Placement} (secured : Secured explanation h free live)
    (served : h.serveArena os thread size kind node alignment = (answer, after)) :
    Secured explanation after free live ∧ Keeps os live h.machine after.machine ∧
      ∀ placement, answer = .ok placement → 0 < size ∧ alignment.value ∣ placement.address ∧
        ∀ wish, Secured explanation after free
          (⟨placement.address, size, wish, thread, .arena kind⟩ :: live) := by
  have moves := serveArena_moves secured.sound served
  cases allocated : h.arenas.allocate os h.machine kind.index thread size alignment node with
  | mk result rest =>
    obtain ⟨arenas, machine⟩ := rest
    obtain ⟨new, rounded, serves, enough⟩ :=
      Arena.Pool.allocate_spec secured.sound.arenas allocated
    simp only [serveArena, allocated] at served
    cases served
    have regions := perm_arenas (s := h.slabRegions) (l := h.large.regions) serves.regions
    have placed : ∀ y ∈ live, Heap.Places { h with arenas, machine } free y := by
      intro y member
      apply (secured.placed y member).map
      · exact fun _ _ _ holds => serves.kept holds
      · exact fun cells _ present places => ⟨cells, present, places⟩
      · exact fun _ object _ _ => object
    obtain ⟨grown, keeps⟩ := secured.grow moves serves.grows regions rfl placed
    refine ⟨grown, keeps, fun placement ok => ?_⟩
    obtain ⟨fits, positive⟩ := enough placement ok
    obtain ⟨block, taken, origin, took, address, held⟩ := serves.served placement ok
    have blockSound : block.Sound := by
      rcases origin with old | ⟨region, -, rfl⟩
      · exact secured.sound.arenas.of_holds old
      · exact Arena.Block.ofRegion_sound region
    obtain ⟨region, cursor, above, below⟩ := Arena.Block.take?_spec blockSound took
    rw [address] at cursor above below
    have bound : block.cursor ≤ Word.bound := by
      have mine : taken.block.region ∈ Heap.regions { h with arenas, machine } :=
        mem_regions (.arena kind) held.region_mem
      exact Nat.le_trans blockSound.2 (region ▸ grown.custody.within _ mine)
    have start : block.region.start ≤ placement.address := Nat.le_trans blockSound.1 above
    have stop : placement.address + size ≤ placement.address + rounded :=
      Nat.add_le_add_left fits _
    refine ⟨positive, address ▸ Arena.Block.take?_aligned bound took, fun wish => ?_⟩
    refine grown.insert ?_ positive ?_
    · exact ⟨taken.block, held, region ▸ start, cursor ▸ stop⟩
    · exact secured.unused_apart (grown.custody.perm regions) origin
        ⟨start, Nat.le_trans stop below⟩ above

theorem serveLarge_secured (thread : ThreadId) {node : Nat} {answer : Except AllocError Nat}
    {large : Large} {machine : Machine σ} (secured : Secured explanation h free live)
    (served : h.large.allocate os h.machine size node = (answer, large, machine)) :
    Secured explanation { h with large, machine } free live ∧ Keeps os live h.machine machine ∧
      ∀ address, answer = .ok address → 0 < size ∧ os.pageSize.value ∣ address ∧
        (∀ place, Extent.Holds ⟨address, size⟩ place → machine.memory.get place = 0) ∧
        ∀ wish, Secured explanation { h with large, machine } free
          (⟨address, size, wish, thread, .large⟩ :: live) := by
  have moves := allocate_large_moves secured.sound served
  obtain ⟨failed, ok⟩ := Large.allocate_spec served
  have placed : (∀ object ∈ h.large.objects, object ∈ large.objects) →
      ∀ y ∈ live, Heap.Places { h with large, machine } free y := by
    intro more y member
    exact (secured.placed y member).withLarge fun object there _ => more object there
  cases answer with
  | error error =>
    obtain ⟨objects, -, grows⟩ := failed error rfl
    have same : large.regions = h.large.regions := congrArg (List.map _) objects
    have regions : Heap.regions { h with large, machine } = h.regions := by
      rw [Heap.regions, Heap.regions, ← same]
      rfl
    obtain ⟨grown, keeps⟩ := secured.grow moves grows (.of_eq regions) rfl
      (placed fun object there => by rwa [objects])
    exact ⟨grown, keeps, denied⟩
  | ok start =>
    obtain ⟨positive, region, start, fits, grows, objects, -⟩ := ok _ rfl
    have gained : large.regions.Perm ([region] ++ h.large.regions) :=
      objects.map Large.Object.region
    have regions := perm_large (a := h.arenas.regions) (s := h.slabRegions) gained
    obtain ⟨grown, keeps⟩ := secured.grow moves grows regions rfl
      (placed fun object there => objects.mem_iff.2 (List.mem_cons_of_mem _ there))
    have whole := grown.custody.perm regions
    refine ⟨grown, keeps, fun address equal => ?_⟩
    cases equal
    have inner : ∀ place, Extent.Holds ⟨region.start, size⟩ place → region.extent.Holds place := by
      intro place inside
      exact ⟨inside.1, Nat.lt_of_lt_of_le inside.2 (Nat.add_le_add_left fits _)⟩
    subst start
    refine ⟨positive, whole.aligned region (List.mem_cons_self ..), fun place inside => ?_,
      fun wish => ?_⟩
    · exact grows.blank region (List.mem_singleton_self _) place (inner place inside)
    · refine grown.insert ?_ positive ?_
      · exact ⟨⟨region, size⟩, objects.mem_iff.2 (List.mem_cons_self ..), rfl, rfl⟩
      · intro y member _
        obtain ⟨other, held, within⟩ := secured.within member
        have apart : region.extent.Apart other.extent :=
          (List.pairwise_cons.1 whole.apart).1 other held
        exact apart.mono ⟨Nat.le_refl _, Nat.add_le_add_left fits _⟩ within

/-- An object of the slabs is apart from whatever else has a place. -/
theorem slab_object_apart {cells : Slab} {object n : Nat} {y : Allocation} (sound : h.Sound)
    (custody : os.Custody contract h.machine.system h.regions) (present : h.slab = some cells)
    (first : cells.Places free object n) (second : h.Places free y)
    (distinct : y.tier = .slab → object ≠ y.address) : Extent.Apart ⟨object, n⟩ y.extent := by
  by_cases alike : y.tier.Alike .slab
  · have served : y.tier = .slab := alike.eq_slab
    have places := second.of_slab served present
    exact first.apart (slab_custody custody present) places (distinct served)
  · exact (Places.apart_of_unlike (y := ⟨object, n, 0, 0, .slab⟩) sound custody second
      ⟨cells, present, first⟩ alike).symm

section

variable {cells last : Slab} {machine : Machine σ} {object width : Nat}

theorem Secured.hands_placed (secured : Secured explanation h free live)
    (present : h.slab = some cells)
    (hands : Slab.Hands os cells h.machine free object width last machine left new) :
    ∀ y ∈ live, Heap.Places { h with slab := some last, machine } left y := by
  intro y member
  exact (secured.placed y member).withSlab present fun places => (hands.kept _ _ places).1

/-- What the slabs hand out is nobody's. -/
theorem Secured.hands_apart (secured : Secured explanation h free live)
    (present : h.slab = some cells) (moves : Moves os h { h with slab := some last, machine })
    (hands : Slab.Hands os cells h.machine free object width last machine left new) {n : Nat}
    (places : last.Places left object n) : ∀ y ∈ live, Extent.Apart ⟨object, n⟩ y.extent := by
  intro y member
  have there := secured.hands_placed present hands y member
  apply slab_object_apart moves.sound (moves.trades.custody secured.custody) rfl places there
  intro served same
  have old := (secured.placed y member).of_slab served present
  exact (hands.kept _ _ old).2 same.symm

/-- New regions and the link of the object are blank, and so is what was in stock and no longer is. -/
theorem carries_of_hands (present : h.slab = some cells)
    (custody : os.Custody contract machine.system (new ++ h.regions))
    (regions : Heap.regions { h with slab := some last, machine } ⊆ new ++ h.regions)
    (hands : Slab.Hands os cells h.machine free object width last machine left new) :
    Carries os h free { h with slab := some last, machine } left := by
  intro region member address inside outside
  rcases List.mem_append.1 (regions member) with gained | old
  · exact .inr (hands.blank region gained address inside)
  · by_cases link : (Memory.linkAt object).Holds address
    · exact .inr (hands.clean address link)
    · have given : ¬last.Reserved left address := fun kept => outside ⟨last, rfl, kept⟩
      rcases hands.released address given with none | zero
      · refine .inl ⟨⟨region, old, inside⟩, fun reserved => none (reserved.of_slab present), ?_⟩
        exact hands.spared address (not_fresh custody old inside) link
      · exact .inr zero

/-- The slabs take nothing from anybody when they hand out an object. -/
theorem Secured.hands (secured : Secured explanation h free live) (present : h.slab = some cells)
    (moves : Moves os h { h with slab := some last, machine })
    (regions : (Heap.regions { h with slab := some last, machine }).Perm (new ++ h.regions))
    (hands : Slab.Hands os cells h.machine free object width last machine left new) :
    Secured explanation { h with slab := some last, machine } left live ∧
      Keeps os live h.machine machine := by
  have custody := moves.trades.custody secured.custody
  have whole : os.Custody contract machine.system (new ++ h.regions) := custody.perm regions
  have carries := carries_of_hands present whole regions.subset hands
  refine ⟨⟨moves.sound, custody, ?_, secured.hands_placed present hands, secured.nonempty,
    secured.apart, fun region member address inside outside =>
      secured.content_of_carries carries member inside outside⟩, ?_⟩
  · intro other same
    cases same
    exact hands.stocked
  · intro y member address inside
    obtain ⟨region, held, within⟩ := secured.within member
    have link := hands.placed.link (moves.sound.slab last rfl)
    apply hands.spared address (not_fresh whole held (within.holds inside))
    exact (secured.hands_apart present moves hands link y member).symm.not_holds inside

end

theorem serveSlab_secured {node : Option Nat} {answer : Except AllocError Arena.Placement}
    {cells last : Slab} {machine : Machine σ} (secured : Secured explanation h free live)
    (present : h.slab = some cells)
    (served : cells.allocate os h.machine thread size node = (answer, last, machine)) :
    ∃ left, Secured explanation { h with slab := some last, machine } left live ∧
      Keeps os live h.machine machine ∧
      ∀ placement, answer = .ok placement →
        0 < size ∧ (8 ∣ os.pageSize.value → 8 ∣ placement.address) ∧
        (∀ place, (Memory.linkAt placement.address).Holds place → machine.memory.get place = 0) ∧
        ∀ wish, Secured explanation { h with slab := some last, machine } left
          (⟨placement.address, size, wish, thread, .slab⟩ :: live) := by
  have moves := allocate_slab_moves secured.sound present served
  have inner := secured.sound.slab cells present
  obtain ⟨sizeClass, new, serves, enough⟩ := Slab.allocate_spec inner served
  obtain ⟨lastSound, gains, regions⟩ := serves.spec inner
  have more := perm_slab (a := h.arenas.regions) (l := h.large.regions) regions
  rw [← slabRegions_eq present] at more
  cases answer with
  | error error =>
    cases serves with
    | denied grows same _ =>
      have slab : (some last).map Slab.cells = h.slab.map Slab.cells := by
        rw [present]
        exact congrArg some same
      have placed : ∀ y ∈ live, Heap.Places { h with slab := some last, machine } free y := by
        intro y member
        apply (secured.placed y member).withSlab present
        intro places
        obtain ⟨index, c, found, rest⟩ := places
        exact ⟨index, c, same.symm ▸ found, rest⟩
      obtain ⟨grown, keeps⟩ := secured.grow moves grows more slab placed
      exact ⟨free, grown, keeps, denied⟩
  | ok placement =>
    have custody := slab_custody (moves.trades.custody secured.custody) rfl
    have hands := serves.hands inner (custody.perm regions) (secured.stocked cells present)
    obtain ⟨grown, keeps⟩ := secured.hands present moves more hands
    refine ⟨_, grown, keeps, fun placement' same => ?_⟩
    cases same
    obtain ⟨fits, positive⟩ := Size.le_slabObject (enough placement rfl)
    have here := hands.placed.mono fits
    have apart := secured.hands_apart present moves hands here
    refine ⟨positive, fun page => here.aligned lastSound custody page, hands.clean, fun wish => ?_⟩
    exact grown.insert ⟨last, rfl, here⟩ positive fun y member _ => apart y member

end NumaHeap.Heap
