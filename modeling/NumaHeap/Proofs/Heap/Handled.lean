import NumaHeap.Proofs.Heap.Entries
import NumaHeap.Proofs.Heap.Isolation
import NumaHeap.Proofs.Slab.Home

/-!
A heap in the hands of clients who may err. They may try to free anything in any size, as long as the
slabs take nothing back that is not live; a release that is refused changes nothing. What is live is as
secure as if everything were freed in its own size, every large object is live, and the choices of the
heap and the regions of its slabs stay what they are.
-/

namespace NumaHeap

namespace World

variable {σ : Type}

/-- A client may do this, even by mistake: the slabs take nothing back that is not live, and nothing is
written but to what is live. -/
def Tolerates (os : Platform σ) (w : World σ) : Action → Prop
  | .free thread address size => w.heap.classify size .generic = .slab →
      (w.heap.free os thread address size).1 = .ok () → ∃ x ∈ w.live, x.address = address
  | .write address bytes => ∃ x ∈ w.live, Extent.Within ⟨address, bytes.length⟩ x.extent
  | _ => True

/-- What becomes of a heap in the hands of such clients, while the platform drifts by itself. -/
inductive Becomes {os : Platform σ} (contract : os.Contract) (w : World σ) : World σ → Prop
  | start : Becomes contract w w
  | perform {middle : World σ} (action : Action) : Becomes contract w middle →
      middle.Tolerates os action → Becomes contract w (middle.perform os action)
  | drift {middle : World σ} {system : σ} : Becomes contract w middle →
      contract.Drifts middle.heap.machine.system system →
      Becomes contract w (middle.onSystem system)

/-- What has become of a new heap. -/
def Handled {os : Platform σ} (contract : os.Contract) (w : World σ) : Prop :=
  ∃ (machine : Machine σ) (configuration : Configuration) (heap : Heap σ),
    contract.Possible machine.system ∧ Heap.create os machine configuration = .ok heap ∧
      Becomes contract ⟨heap, []⟩ w

end World

namespace Heap

variable {σ : Type} {os : Platform σ} {h after last : Heap σ} {thread : ThreadId} {size : Nat}
  {tier : Tier} {node : Option Nat} {alignment : PowerOfTwo}

/-- The choices are the same, and the slabs have given up no region. -/
structure Extends (h after : Heap σ) : Prop where
  configuration : after.configuration = h.configuration
  isSome : after.slab.isSome = h.slab.isSome
  slab : ∀ {s}, h.slab = some s → ∃ last, after.slab = some last ∧ s.Extends last

namespace Extends

theorem of_eq (configuration : after.configuration = h.configuration)
    (slab : after.slab = h.slab) : Extends h after :=
  ⟨configuration, congrArg _ slab, fun present => ⟨_, slab.trans present, .refl _⟩⟩

theorem refl (h : Heap σ) : Extends h h := of_eq rfl rfl

theorem of_slab {s grown : Slab} (configuration : after.configuration = h.configuration)
    (present : h.slab = some s) (there : after.slab = some grown) (more : s.Extends grown) :
    Extends h after where
  configuration := configuration
  isSome := by rw [present, there, Option.isSome_some, Option.isSome_some]
  slab same := by
    cases present.symm.trans same
    exact ⟨grown, there, more⟩

theorem trans (first : Extends h after) (second : Extends after last) : Extends h last where
  configuration := second.configuration.trans first.configuration
  isSome := second.isSome.trans first.isSome
  slab present := by
    obtain ⟨middle, there, more⟩ := first.slab present
    obtain ⟨grown, here, most⟩ := second.slab there
    exact ⟨grown, here, more.trans most⟩

/-- The slabs were there before. -/
theorem origin (grown : Extends h after) {last : Slab} (present : after.slab = some last) :
    ∃ s, h.slab = some s ∧ s.Extends last := by
  have before : h.slab.isSome = true := by rw [← grown.isSome, present, Option.isSome_some]
  obtain ⟨s, there⟩ := Option.isSome_iff_exists.1 before
  obtain ⟨other, here, more⟩ := grown.slab there
  cases present.symm.trans here
  exact ⟨s, there, more⟩

/-- Requests go to the same tiers as before. -/
theorem classify (grown : Extends h after) (size : Nat) (kind : ObjectKind) :
    after.classify size kind = h.classify size kind :=
  classify_congr grown.configuration grown.isSome size kind

end Extends

theorem dispatch_extends {answer : Except AllocError Arena.Placement} (sound : h.Sound)
    (served : h.dispatch os thread size tier node alignment = (answer, after)) :
    Extends h after := by
  simp only [dispatch] at served
  split at served
  · split at served
    · cases served
      exact .of_eq rfl rfl
    · cases served
      exact .of_eq rfl rfl
  · next cells present =>
    cases allocated : cells.allocate os h.machine thread size node with
    | mk result rest =>
      obtain ⟨grown, machine⟩ := rest
      obtain ⟨_, _, serves, -⟩ := Slab.allocate_spec (sound.slab cells present) allocated
      rw [allocated] at served
      cases served
      exact .of_slab rfl present rfl serves.extends
  · cases served
    exact .of_eq rfl rfl
  · cases served
    exact .of_eq rfl rfl

theorem discard_extends (os : Platform σ) (h : Heap σ) (thread : ThreadId) (address size : Nat)
    (tier : Tier) : Extends h (h.discard os thread address size tier) := by
  unfold discard
  split
  · exact .of_eq rfl rfl
  · next cells present => exact .of_slab rfl present rfl (Slab.free_extends rfl)
  · exact .of_eq rfl rfl

theorem allocate_extends {kind : ObjectKind} {answer : Except AllocError Nat} (sound : h.Sound)
    (served : h.allocate os thread size kind tier node alignment = (answer, after)) :
    Extends h after := by
  cases allocate_outcome served with
  | barred => exact .of_eq rfl rfl
  | denied denied => exact (dispatch_extends sound denied).trans (.of_eq rfl rfl)
  | refused _ dispatched =>
    have first := dispatch_extends sound dispatched
    exact first.trans ((discard_extends ..).trans (.of_eq rfl rfl))
  | granted dispatched clean =>
    have second := Extends.of_eq (inspect_still clean).configuration (inspect_alike clean).slab
    exact (dispatch_extends sound dispatched).trans (second.trans (.of_eq rfl rfl))

theorem meet_extends {demand : Session.Demand} {answer : Except AllocError Nat} (sound : h.Sound)
    (met : h.meet os thread demand = (answer, after)) : Extends h after := by
  obtain ⟨retried, meets⟩ := exists_meets met
  cases meets with
  | barred => exact .of_eq rfl rfl
  | once _ served => exact allocate_extends sound served
  | @again wish _ _ _ _ first second =>
    have moves := allocate_moves os sound thread demand.size .generic (h.tierOf demand) (some wish)
      wordAlignment
    rw [first] at moves
    exact (allocate_extends sound first).trans (allocate_extends moves.sound second)
  | cleared given => exact (allocate_extends sound given).trans (.of_eq rfl rfl)

theorem free_extends {address : Nat} {answer : Except FreeError Unit}
    (freed : h.free os thread address size = (answer, after)) : Extends h after := by
  cases free_releases freed with
  | refused => exact .refl h
  | large => exact .of_eq rfl rfl
  | slab _ present released => exact .of_slab rfl present rfl (Slab.free_extends released)

/-- Whatever is done to a heap, its choices stay and its slabs give up no region. -/
theorem act_extends (os : Platform σ) (sound : h.Sound) (action : Action) :
    Extends h (h.act os action) := by
  have upkept : action.trades = false → Extends h (h.act os action) := fun keeps =>
    .of_eq (act_upkeep os h keeps).configuration (act_upkeep os h keeps).slab
  cases action with
  | allocate thread demand => exact meet_extends sound rfl
  | free thread address size => exact free_extends rfl
  | resetArenas => exact .of_eq rfl rfl
  | destroyArenas => exact .of_eq rfl rfl
  | _ => exact upkept rfl

end Heap

namespace World

open Heap

variable {σ : Type} {os : Platform σ} {contract : os.Contract} {w later : World σ}
  {action : Action}

/-- A release that is refused leaves everything as it is. -/
theorem perform_free_error {thread : ThreadId} {address size : Nat} {error : FreeError}
    (refused : (w.heap.free os thread address size).1 = .error error) :
    w.perform os (.free thread address size) = w := by
  cases freed : w.heap.free os thread address size with
  | mk answer after =>
    rw [freed] at refused
    cases refused
    cases free_releases freed
    simp only [perform, remaining, act, freed]

/-- What is live is secured, and every large object is live. -/
structure Kept (contract : os.Contract) (w : World σ) : Prop where
  secured : w.Secured (.any contract)
  registered : w.heap.large.entries ⊆ Allocation.entries w.live

theorem spares_of_large {x : Allocation} (large : x.tier = .large) (action : Action) :
    action.spares x = true := by
  cases action <;> simp [Action.spares, Tier.isArena, large]

/-- Large allocations outlive whatever is done to the heap, unless they are freed. -/
theorem entries_filter (live : List Allocation) (action : Action) :
    Allocation.entries (live.filter action.spares) = Allocation.entries live := by
  simp only [Allocation.entries, List.filter_filter]
  refine congrArg _ (List.filter_congr fun x _ => ?_)
  by_cases large : x.tier = .large
  · simp [Allocation.isLarge, large, spares_of_large large action]
  · simp [Allocation.isLarge, large]

namespace Kept

variable {thread : ThreadId} {address size : Nat}

theorem create {machine : Machine σ} {configuration : Configuration} {heap : Heap σ}
    (possible : contract.Possible machine.system)
    (created : Heap.create os machine configuration = .ok heap) : Kept contract ⟨heap, []⟩ where
  secured := .create possible created
  registered := by
    obtain ⟨-, bare, -⟩ := create_spec created
    have none := (List.append_eq_nil_iff.1 (List.append_eq_nil_iff.1 bare).2).2
    simp [Large.entries, List.map_eq_nil_iff.1 none]

/-- What is taken back is live. -/
theorem taken (kept : w.Kept contract) (tolerates : w.Tolerates os (.free thread address size))
    (freed : (w.heap.free os thread address size).1 = .ok ()) : ∃ x ∈ w.live, x.address = address := by
  cases answered : w.heap.free os thread address size with
  | mk answer after =>
    rw [answered] at freed
    cases freed
    cases free_releases answered with
    | large _ released =>
      obtain ⟨object, start, -, left, -⟩ := (Large.free_spec released).2 _ rfl
      have entry : (object.region.start, object.size) ∈ w.heap.large.entries :=
        List.mem_map_of_mem (left.mem_iff.2 (List.mem_cons_self ..))
      obtain ⟨x, member, -, here, -⟩ := Allocation.mem_entries.1 (kept.registered entry)
      exact ⟨x, member, here.trans start⟩
    | slab served => exact tolerates served (congrArg Prod.fst answered)

/-- A release strikes out at most the entry of what is released. -/
theorem entries_free {x : Allocation} {after : Heap σ} (kept : w.Kept contract) (member : x ∈ w.live)
    (freed : w.heap.free os thread x.address size = (.ok (), after)) :
    after.large.entries ⊆
      Allocation.entries (w.live.filter fun y => y.tier.isArena || y.address != x.address) := by
  obtain ⟨free, good⟩ := kept.secured.heap
  have others : ∀ entry ∈ w.heap.large.entries, entry.1 ≠ x.address → entry ∈
      Allocation.entries (w.live.filter fun y => y.tier.isArena || y.address != x.address) := by
    rintro ⟨start, length⟩ entry different
    obtain ⟨y, old, large, rfl, rfl⟩ := Allocation.mem_entries.1 (kept.registered entry)
    refine Allocation.mem_entries.2 ⟨y, List.mem_filter.2 ⟨old, ?_⟩, large, rfl, rfl⟩
    simpa [Tier.isArena, large] using different
  cases free_releases freed with
  | large _ released =>
    obtain ⟨object, start, -, left, -⟩ := (Large.free_spec released).2 _ rfl
    have once := (left.map (·.region.start)).nodup_iff.1 (large_starts_nodup good.custody)
    rw [List.map_cons, List.nodup_cons] at once
    intro entry still
    refine others entry ((Large.entries_perm left).mem_iff.2 (List.mem_cons_of_mem _ still)) ?_
    obtain ⟨other, there, rfl⟩ := List.mem_map.1 still
    exact fun same => once.1 (start.trans same.symm ▸ List.mem_map_of_mem there)
  | @slab cells last machine _ present released =>
    intro entry still
    refine others entry still fun same => ?_
    obtain ⟨y, old, large, here, -⟩ := Allocation.mem_entries.1 (kept.registered still)
    obtain ⟨index, c, found, owns, -⟩ := (Slab.free_spec released).2 rfl
    have served := good.eq_slab member present found owns
    cases good.eq_of_address old member (here.trans same)
    cases served.symm.trans large

theorem allocate (kept : w.Kept contract) (thread : ThreadId) (demand : Session.Demand) :
    (w.perform os (.allocate thread demand)).Kept contract where
  secured := (kept.secured.allocate thread demand).secured
  registered := by
    obtain ⟨free, good⟩ := kept.secured.heap
    cases met : w.heap.meet os thread demand with
    | mk answer after =>
      have entered := (meet_entries good.sound good.custody met).subset
      simp only [World.perform, remaining, act, met]
      cases answer with
      | error error => exact List.Subset.trans entered kept.registered
      | ok address =>
        rw [Allocation.entries_cons]
        refine List.Subset.trans entered (List.append_subset.2 ⟨List.subset_append_left .., ?_⟩)
        exact List.Subset.trans kept.registered (List.subset_append_right ..)

theorem free (kept : w.Kept contract) (tolerates : w.Tolerates os (.free thread address size)) :
    (w.perform os (.free thread address size)).Kept contract := by
  cases answered : w.heap.free os thread address size with
  | mk answer after =>
    cases answer with
    | error error =>
      rw [perform_free_error (congrArg Prod.fst answered)]
      exact kept
    | ok =>
      obtain ⟨x, member, rfl⟩ := kept.taken tolerates (congrArg Prod.fst answered)
      refine ⟨(kept.secured.free member thread size).secured, ?_⟩
      simp only [World.perform, remaining, act, answered]
      exact kept.entries_free member answered

/-- Whatever else is done leaves the large objects alone, and asks for no more than is tolerated. -/
theorem tolerate (kept : w.Kept contract) (tolerates : w.Tolerates os action) :
    (w.perform os action).Kept contract := by
  have same : (w.heap.act os action).large = w.heap.large →
      (w.heap.act os action).large.entries ⊆
        Allocation.entries (w.live.filter action.spares) := by
    intro large
    rw [large, entries_filter]
    exact kept.registered
  have secured : w.Permits action → (∀ address bytes, action ≠ .write address bytes) →
      (w.perform os action).Secured (.any contract) :=
    fun permits own => (kept.secured.perform permits own).secured
  cases action with
  | allocate thread demand => exact kept.allocate thread demand
  | free thread address size => exact kept.free tolerates
  | write address bytes =>
    exact ⟨kept.secured.write w.heap.machine.system tolerates id (fun _ _ _ known => known)
      fun _ _ => trivial, same rfl⟩
  | resetArenas => exact ⟨secured trivial (by simp), same rfl⟩
  | destroyArenas => exact ⟨secured trivial (by simp), same rfl⟩
  | _ => exact ⟨secured trivial (by simp), same (act_upkeep os w.heap rfl).large⟩

theorem drift {system : σ} (kept : w.Kept contract)
    (drifts : contract.Drifts w.heap.machine.system system) : (w.onSystem system).Kept contract :=
  ⟨kept.secured.drift drifts, kept.registered⟩

end Kept

theorem Handled.kept (handled : w.Handled contract) : w.Kept contract := by
  obtain ⟨machine, configuration, heap, possible, created, run⟩ := handled
  induction run with
  | start => exact .create possible created
  | perform _ _ tolerates ih => exact ih.tolerate tolerates
  | drift _ drifts ih => exact ih.drift drifts

theorem Handled.becomes (handled : w.Handled contract) (run : Becomes contract w later) :
    later.Handled contract := by
  obtain ⟨machine, configuration, heap, possible, created, before⟩ := handled
  refine ⟨machine, configuration, heap, possible, created, ?_⟩
  induction run with
  | start => exact before
  | perform action _ tolerates ih => exact .perform action ih tolerates
  | drift _ drifts ih => exact .drift ih drifts

/-- However long clients use a heap, its choices stay, and its slabs give up no region. -/
theorem Handled.extends (handled : w.Handled contract) (run : Becomes contract w later) :
    Heap.Extends w.heap later.heap := by
  induction run with
  | start => exact .refl w.heap
  | perform action before _ ih =>
    obtain ⟨free, good⟩ := (handled.becomes before).kept.secured.heap
    exact ih.trans (act_extends os good.sound action)
  | drift _ _ ih => exact ih.trans (.of_eq rfl rfl)

end World

end NumaHeap
