import NumaHeap.Proofs.Heap.Request

/-!
Release and upkeep. An object that is freed leaves the others where they are; arena memory goes back
as a whole, and takes nothing with it but the allocations that it served. Compaction and the signals
touch neither memory nor what is held.
-/

namespace NumaHeap.Heap

variable {σ : Type} {os : Platform σ} {contract : os.Contract} {h after : Heap σ}
  {free left : Nat → List Nat} {live : List Allocation} {x : Allocation} {thread : ThreadId}
  {size : Nat} {explanation : Platform.Explanation contract}

theorem Secured.cons_erase (secured : Secured explanation h free live) (member : x ∈ live) :
    Secured explanation h free (x :: live.erase x) := secured.perm (List.perm_cons_erase member)

/-- What is freed, in whatever size, was served by the slabs or is large; it is live no more, and all
else is. -/
theorem free_secured {answer : Except FreeError Unit} (secured : Secured explanation h free live)
    (member : x ∈ live) (freed : h.free os thread x.address size = (answer, after)) :
    (∀ error, answer = .error error → after = h) ∧
      (answer = .ok () → (∀ kind, x.tier ≠ .arena kind) ∧
        ∃ left, Secured explanation after left (live.erase x) ∧
          Keeps os (live.erase x) h.machine after.machine) := by
  have mine := secured.cons_erase member
  unfold Heap.free at freed
  split at freed
  · cases released : h.large.free os h.machine x.address with
    | mk result rest =>
      obtain ⟨large, machine⟩ := rest
      have taken := freeLarge_secured mine released
      simp only [released] at freed
      cases result with
      | error error =>
        obtain ⟨rfl, rfl⟩ := taken.1 error rfl
        cases freed
        exact ⟨fun _ _ => rfl, nofun⟩
      | ok size =>
        cases freed
        obtain ⟨tier, good, keeps⟩ := taken.2 size rfl
        refine ⟨nofun, fun _ => ⟨fun kind arena => ?_, free, ?_, keeps⟩⟩
        · cases tier.symm.trans arena
        · exact good.alike ⟨rfl, rfl, rfl, rfl⟩ rfl
  · next cells _ present =>
    cases released : cells.free os h.machine thread x.address size with
    | mk result rest =>
      obtain ⟨last, machine⟩ := rest
      have taken := freeSlab_secured mine present released
      simp only [released] at freed
      cases result with
      | error error =>
        obtain ⟨rfl, rfl⟩ := taken.1 error rfl
        simp only [← present] at freed
        cases freed
        exact ⟨fun _ _ => rfl, nofun⟩
      | ok =>
        cases freed
        obtain ⟨tier, left, good, keeps⟩ := taken.2 rfl
        refine ⟨nofun, fun _ => ⟨fun kind arena => ?_, left, ?_, keeps⟩⟩
        · cases tier.symm.trans arena
        · exact good.alike ⟨rfl, rfl, rfl, rfl⟩ rfl
  · cases freed
    exact ⟨fun _ _ => rfl, nofun⟩

/-- The platform may be found in another state in which as much is held and explained. -/
theorem Secured.onSystem {system : σ} (secured : Secured explanation h free live)
    (custody : os.Custody contract system h.regions)
    (known : ∀ address byte, explanation.Allows h.machine.system address byte →
      explanation.Allows system address byte) :
    Secured explanation (h.onSystem system) free live where
  sound := ⟨secured.sound.arenas, secured.sound.count, secured.sound.slab, secured.sound.large⟩
  custody := custody
  stocked := secured.stocked
  placed := secured.placed
  nonempty := secured.nonempty
  apart := secured.apart
  content region member address inside outside :=
    known _ _ (secured.content region member address inside outside)

/-- The arenas may give up whatever serves nothing that is live. -/
theorem Secured.reduce (secured : Secured explanation h free live) (moves : Moves os h after)
    (slab : after.slab = h.slab) (large : after.large = h.large)
    (fewer : after.arenas.regions ⊆ h.arenas.regions)
    (spares : ∀ address, h.machine.Spares os after.machine address)
    (kept : ∀ y ∈ live, ∀ kind block, y.tier = .arena kind →
      h.arenas.Holds kind.index y.thread block → after.arenas.Holds kind.index y.thread block) :
    Secured explanation after free live where
  sound := moves.sound
  custody := moves.trades.custody secured.custody
  stocked cells present := by
    apply (secured.stocked cells (slab ▸ present)).congr
    exact fun address _ => (spares address).get
  placed y member := by
    apply (secured.placed y member).map
    · exact fun kind block served holds =>
        ⟨block, kept y member kind block served holds, rfl, Nat.le_refl _⟩
    · exact fun cells _ present places => ⟨cells, slab.trans present, places⟩
    · exact fun object there _ _ => large ▸ there
  nonempty := secured.nonempty
  apart := secured.apart
  content region member address inside outside := by
    have old : region ∈ h.regions := by
      have same : after.slabRegions = h.slabRegions := by rw [slabRegions, slab, slabRegions]
      rw [regions, same, large] at member
      exact (List.mem_append.1 member).elim (fun arena => List.mem_append_left _ (fewer arena))
        (List.mem_append_right _)
    have unreserved : ¬h.Reserved free address := by
      intro reserved
      obtain ⟨cells, present, held⟩ := reserved
      exact outside ⟨cells, slab.trans present, held⟩
    have known := secured.content region old address inside unreserved
    rw [(spares address).get]
    exact (spares address).steady _ (explanation.steady address _) known

/-- What becomes of a heap when nothing that is live is concerned. -/
structure Tended (explanation : Platform.Explanation contract) (h : Heap σ) (free : Nat → List Nat)
    (live : List Allocation) (after : Heap σ) : Prop where
  secured : Secured explanation after free live
  spares : ∀ address, h.machine.Spares os after.machine address

namespace Tended

theorem trans {last : Heap σ} (first : Tended explanation h free live after)
    (second : Tended explanation after free live last) : Tended explanation h free live last where
  secured := second.secured
  spares address := (first.spares address).trans (second.spares address)

theorem of_alike (secured : Secured explanation h free live) (alike : Alike h after)
    (memory : after.machine.memory = h.machine.memory) : Tended explanation h free live after where
  secured := secured.alike alike memory
  spares address := by
    refine ⟨by rw [memory], fun φ _ known => ?_⟩
    rw [alike.system]
    exact known

theorem of_sheds {lost : Nat → ThreadId → Prop} {arenas : Arena.Pool} {machine : Machine σ}
    (secured : Secured explanation h free live)
    (sheds : Arena.Pool.Sheds os lost h.arenas h.machine arenas machine)
    (spared : ∀ y ∈ live, ∀ kind, y.tier = .arena kind → ¬lost kind.index y.thread) :
    Tended explanation h free live { h with arenas, machine } := by
  have moves := arenas_moves secured.sound sheds
  obtain ⟨removed, same, rfl⟩ := sheds.returned
  have spares := Machine.Spares.unmapAll os h.machine removed
  refine ⟨secured.reduce moves rfl rfl ?_ spares ?_, spares⟩
  · intro region member
    exact same.mem_iff.2 (List.mem_append_right _ member)
  · exact fun y member kind block served holds =>
      sheds.kept holds (spared y member kind served)

theorem of_forArenas {f : Arena.Pool → Machine σ → (id : Nat) → Arena.Pool × Machine σ}
    (secured : Secured explanation h free live)
    (each : ∀ {h : Heap σ}, Secured explanation h free live → ∀ id,
      Tended explanation h free live
        { h with arenas := (f h.arenas h.machine id).1, machine := (f h.arenas h.machine id).2 }) :
    Tended explanation h free live (h.forArenas f) := by
  have first := each secured 0
  have second := each first.secured 1
  exact first.trans (second.trans (each second.secured 2))

theorem destroyArenas (secured : Secured explanation h free live)
    (none : ∀ y ∈ live, ∀ kind, y.tier ≠ .arena kind) (thread : ThreadId) :
    Tended explanation h free live (h.destroyArenas os thread) := by
  have shed := of_forArenas (f := fun pool machine id => pool.destroy os machine id thread) secured
    fun good id => of_sheds good (Arena.Pool.destroy_spec good.sound.arenas rfl).1
      fun y member kind served => absurd served (none y member kind)
  exact shed.trans (of_alike shed.secured ⟨rfl, rfl, rfl, rfl⟩ rfl)

theorem resetArenas (secured : Secured explanation h free live)
    (none : ∀ y ∈ live, ∀ kind, y.tier ≠ .arena kind) :
    Tended explanation h free live h.resetArenas := by
  have moves := resetArenas_moves os secured.sound
  obtain ⟨first, one⟩ := Arena.Pool.reset_spec secured.sound.arenas 0
  obtain ⟨second, two⟩ := Arena.Pool.reset_spec first 1
  obtain ⟨-, three⟩ := Arena.Pool.reset_spec second 2
  have spares := fun address => Machine.Spares.refl os h.machine address
  refine ⟨secured.reduce moves rfl rfl (three.trans (two.trans one)).subset spares ?_, spares⟩
  exact fun y member kind _ served _ => absurd served (none y member kind)

theorem releaseThread (secured : Secured explanation h free live) {thread : ThreadId}
    (others : ∀ y ∈ live, ∀ kind, y.tier = .arena kind → y.thread ≠ thread) :
    Tended explanation h free live (h.releaseThread os thread) :=
  of_forArenas secured fun good _ =>
    of_sheds good (Arena.Pool.releaseThread_spec good.sound.arenas rfl)
      fun y member kind served lost => others y member kind served lost.2

theorem exitThread (secured : Secured explanation h free live) {thread : ThreadId}
    (others : ∀ y ∈ live, ∀ kind, y.tier = .arena kind → y.thread ≠ thread) :
    Tended explanation h free live (h.exitThread os thread) :=
  of_sheds secured (Arena.Pool.exitThread_spec secured.sound.arenas rfl)
    fun y member kind served lost => others y member kind served lost

theorem compactArena (secured : Secured explanation h free live) (id : Nat) :
    Tended explanation h free live { h with arenas := h.arenas.compact id } :=
  of_sheds secured
    (Arena.Pool.compact_spec os (fun _ _ => False) secured.sound.arenas id)
    fun _ _ _ _ lost => lost

theorem compact (secured : Secured explanation h free live) :
    Tended explanation h free live (h.compact os).2 := by
  have first := compactArena secured 0
  have second := compactArena first.secured 1
  have third := compactArena second.secured 2
  have last := first.trans (second.trans third)
  exact last.trans (of_alike last.secured ⟨rfl, rfl, rfl, rfl⟩ rfl)

theorem checkPressure (secured : Secured explanation h free live) :
    Tended explanation h free live (h.checkPressure os).2 := by
  let checked : Heap σ :=
    { h with pressure := (h.pressure.check h.counters.currentBytes (h.clock os)).state }
  have first : Tended explanation h free live checked :=
    of_alike secured ⟨rfl, rfl, rfl, rfl⟩ rfl
  change Tended explanation h free live (checked.maybeCompact os (h.clock os))
  simp only [maybeCompact]
  split
  · exact first
  · split
    · exact first.trans (compact first.secured)
    · exact first

theorem handlePressure (secured : Secured explanation h free live) :
    Tended explanation h free live (h.handlePressure os) := by
  have first : Tended explanation h free live (h.compact os).2 := compact secured
  exact first.trans (of_alike first.secured ⟨rfl, rfl, rfl, rfl⟩ rfl)

theorem bindThread (secured : Secured explanation h free live) (thread : ThreadId) (node : Nat) :
    Tended explanation h free live (h.bindThread os thread node).2 := by
  unfold Heap.bindThread
  split
  · refine ⟨secured.onSystem (secured.custody.bindThread thread node) fun address byte known => ?_,
      fun address => ⟨rfl, fun _ steady known => steady.bindThread known⟩⟩
    exact (explanation.steady address byte).bindThread known
  · exact of_alike secured ⟨rfl, rfl, rfl, rfl⟩ rfl

end Tended

end NumaHeap.Heap
