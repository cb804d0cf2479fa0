import NumaHeap.Proofs.Heap.Reclaim

/-!
A heap in use. Next to the heap stands what its clients have of it: an allocation is live from its
grant until it is freed, and an arena allocation until its arena is reset or destroyed or its thread
gives its memory up. Clients may free only what is live, with its own size, and write only there.
-/

namespace NumaHeap

/-- Reclaimed only as a whole. -/
def Tier.isArena : Tier → Bool
  | .arena _ => true
  | _ => false

/-- The allocation outlives the action, unless the action frees it. -/
def Action.spares (x : Allocation) : Action → Bool
  | .resetArenas | .destroyArenas _ => !x.tier.isArena
  | .releaseThread thread | .exitThread thread => !(x.tier.isArena && x.thread == thread)
  | _ => true

/-- A heap, and the allocations that are live. -/
structure World (σ : Type) where
  heap : Heap σ
  live : List Allocation := []

namespace World

variable {σ : Type}

/-- What is live after an action. -/
def remaining (os : Platform σ) (w : World σ) (action : Action) : List Allocation :=
  match action with
  | .allocate thread demand =>
    match (w.heap.meet os thread demand).1 with
    | .ok address =>
      ⟨address, demand.size, demand.alignment, thread, w.heap.tierOf demand⟩ :: w.live
    | .error _ => w.live
  | .free thread address size =>
    match (w.heap.free os thread address size).1 with
    | .ok _ => w.live.filter fun x => x.tier.isArena || x.address != address
    | .error _ => w.live
  | action => w.live.filter action.spares

/-- Does something to the heap. -/
def perform (os : Platform σ) (w : World σ) (action : Action) : World σ :=
  ⟨w.heap.act os action, w.remaining os action⟩

/-- The platform below is found in another state. -/
def onSystem (w : World σ) (system : σ) : World σ := { w with heap := w.heap.onSystem system }

/-- Some client may do this. -/
def Permits (w : World σ) : Action → Prop
  | .free _ address size => ∃ x ∈ w.live, x.address = address ∧ x.size = size
  | .write address bytes => ∃ x ∈ w.live, Extent.Within ⟨address, bytes.length⟩ x.extent
  | _ => True

/-- What becomes of a new heap while clients do what they may, and the platform drifts by itself. -/
inductive Reached {os : Platform σ} (contract : os.Contract) : World σ → Prop
  | create {machine : Machine σ} {configuration : Configuration} {heap : Heap σ} :
      contract.Possible machine.system → Heap.create os machine configuration = .ok heap →
      Reached contract ⟨heap, []⟩
  | perform {w : World σ} (action : Action) :
      Reached contract w → w.Permits action → Reached contract (w.perform os action)
  | drift {w : World σ} {system : σ} :
      Reached contract w → contract.Drifts w.heap.machine.system system →
      Reached contract (w.onSystem system)

end World

/-- The address suits the allocation, on pages of some size. -/
structure Allocation.Aligned (x : Allocation) (page : Nat) : Prop where
  word : 8 ∣ x.address
  asked : x.alignment ∣ x.address
  page : x.tier = .large → page ∣ x.address

namespace World

open Heap

variable {σ : Type} {os : Platform σ} {contract : os.Contract} {w : World σ}
  {explanation : Platform.Explanation contract} {action : Action} {thread : ThreadId}

/-- The heap secures what is live, and all of it is aligned. -/
structure Secured (explanation : Platform.Explanation contract) (w : World σ) : Prop where
  heap : ∃ free, w.heap.Secured explanation free w.live
  aligned : 8 ∣ os.pageSize.value → ∀ x ∈ w.live, x.Aligned os.pageSize.value

/-- The world after an action is secured, and what outlived the action is as it was. -/
structure Advances (explanation : Platform.Explanation contract) (w after : World σ) : Prop where
  secured : after.Secured explanation
  spares : ∀ x ∈ w.live, x ∈ after.live → ∀ address, x.extent.Holds address →
    w.heap.machine.Spares os after.heap.machine address

/-- No byte changes when the heap is tended, for those that live on. -/
theorem Secured.tended {after : Heap σ} (secured : w.Secured explanation)
    (tended : ∀ {free}, w.heap.Secured explanation free (w.live.filter action.spares) →
      Tended explanation w.heap free (w.live.filter action.spares) after) :
    Advances explanation w ⟨after, w.live.filter action.spares⟩ := by
  obtain ⟨free, good⟩ := secured.heap
  have upkeep := tended (good.sublist List.filter_sublist)
  refine ⟨⟨⟨free, upkeep.secured⟩, fun wide x member => ?_⟩,
    fun _ _ _ address _ => upkeep.spares address⟩
  exact secured.aligned wide x (List.mem_filter.1 member).1

theorem Secured.allocate (secured : w.Secured explanation) (thread : ThreadId)
    (demand : Session.Demand) : Advances explanation w (w.perform os (.allocate thread demand)) := by
  obtain ⟨free, good⟩ := secured.heap
  cases met : w.heap.meet os thread demand with
  | mk answer after =>
    obtain ⟨left, last, keeps, ok⟩ := meet_secured good met
    simp only [perform, remaining, act, met]
    cases answer with
    | error error =>
      exact ⟨⟨⟨left, last⟩, secured.aligned⟩, fun x member _ => keeps x member⟩
    | ok address =>
      obtain ⟨suits, more⟩ := ok address rfl
      refine ⟨⟨⟨left, more⟩, fun wide => ?_⟩, fun x member _ => keeps x member⟩
      have aligned : Allocation.Aligned ⟨address, demand.size, demand.alignment, thread,
          w.heap.tierOf demand⟩ os.pageSize.value :=
        ⟨suits.word wide, suits.asked wide, suits.page⟩
      exact List.forall_mem_cons.2 ⟨aligned, secured.aligned wide⟩

theorem Secured.free {x : Allocation} (secured : w.Secured explanation) (member : x ∈ w.live)
    (thread : ThreadId) (size : Nat) :
    Advances explanation w (w.perform os (.free thread x.address size)) := by
  obtain ⟨free, good⟩ := secured.heap
  cases freed : w.heap.free os thread x.address size with
  | mk answer after =>
    obtain ⟨failed, ok⟩ := free_secured good member freed
    simp only [perform, remaining, act, freed]
    cases answer with
    | error error =>
      cases failed error rfl
      exact ⟨secured, fun _ _ _ _ _ => .refl ..⟩
    | ok =>
      obtain ⟨object, left, last, keeps⟩ := ok rfl
      have gone : x ∉ w.live.filter fun y => y.tier.isArena || y.address != x.address := by
        intro still
        have passed := (List.mem_filter.1 still).2
        cases served : x.tier with
        | arena kind => exact object kind served
        | slab => simp [served, Tier.isArena] at passed
        | large => simp [served, Tier.isArena] at passed
      have fewer : (w.live.filter fun y => y.tier.isArena || y.address != x.address).Sublist
          (w.live.erase x) := by
        have erased := (List.filter_sublist
          (p := fun y : Allocation => y.tier.isArena || y.address != x.address)
          (l := w.live)).erase x
        rwa [List.erase_of_not_mem gone] at erased
      refine ⟨⟨⟨left, last.sublist fewer⟩, fun wide y kept => ?_⟩, fun y _ kept => ?_⟩
      · exact secured.aligned wide y (List.mem_filter.1 kept).1
      · exact keeps y (fewer.subset kept)

/-- Whatever is done to the heap itself, the world after it is secured. -/
theorem Secured.perform (secured : w.Secured explanation) (permits : w.Permits action)
    (own : ∀ address bytes, action ≠ .write address bytes) :
    Advances explanation w (w.perform os action) := by
  have bare : (∀ x, action.spares x = !x.tier.isArena) →
      ∀ x ∈ w.live.filter action.spares, ∀ kind, x.tier ≠ .arena kind := by
    intro same x member kind served
    have passed := (List.mem_filter.1 member).2
    rw [same x, served] at passed
    cases passed
  have others : ∀ thread, (∀ x, action.spares x = !(x.tier.isArena && x.thread == thread)) →
      ∀ x ∈ w.live.filter action.spares, ∀ kind, x.tier = .arena kind → x.thread ≠ thread := by
    intro thread same x member kind served equal
    have passed := (List.mem_filter.1 member).2
    rw [same x, served, equal, beq_self_eq_true] at passed
    cases passed
  cases action with
  | allocate thread demand => exact secured.allocate thread demand
  | free thread address size =>
    obtain ⟨x, member, rfl, -⟩ := permits
    exact secured.free member thread size
  | write address bytes => exact absurd rfl (own address bytes)
  | resetArenas => exact secured.tended fun good => .resetArenas good (bare fun _ => rfl)
  | destroyArenas thread =>
    exact secured.tended fun good => .destroyArenas good (bare fun _ => rfl) thread
  | releaseThread thread =>
    exact secured.tended fun good => .releaseThread good (others thread fun _ => rfl)
  | exitThread thread =>
    exact secured.tended fun good => .exitThread good (others thread fun _ => rfl)
  | setMode => exact secured.tended fun good => .of_alike good ⟨rfl, rfl, rfl, rfl⟩ rfl
  | compact => exact secured.tended fun good => .compact good
  | compactArena kind => exact secured.tended fun good => .compactArena good kind.index
  | checkPressure => exact secured.tended fun good => .checkPressure good
  | handlePressure =>
    exact secured.tended fun good => .handlePressure good
  | collectionDone => exact secured.tended fun good => .of_alike good ⟨rfl, rfl, rfl, rfl⟩ rfl
  | setCallback => exact secured.tended fun good => .of_alike good ⟨rfl, rfl, rfl, rfl⟩ rfl
  | bindThread thread node => exact secured.tended fun good => .bindThread good thread node

/-- Nothing is live in a new heap. -/
theorem Secured.create {machine : Machine σ} {configuration : Configuration} {heap : Heap σ}
    (possible : contract.Possible machine.system)
    (created : Heap.create os machine configuration = .ok heap) :
    Secured explanation ⟨heap, []⟩ := by
  obtain ⟨sound, bare, same, blank⟩ := create_spec created
  have custody : os.Custody contract heap.machine.system heap.regions := by
    rw [bare, same]
    exact .nil possible
  have stocked : ∀ slab, heap.slab = some slab →
      slab.Stocked heap.machine.memory fun _ => [] := by
    intro slab present index c found
    obtain ⟨free, regions, carved⟩ := blank slab present c (List.mem_of_getElem? found)
    exact Slab.Cell.stocked_of_unused free regions carved _
  refine ⟨⟨fun _ => [], sound, custody, stocked, nofun, nofun, .nil, ?_⟩, fun _ => nofun⟩
  intro region member
  rw [bare] at member
  cases member

theorem Secured.drift {system : σ} (secured : w.Secured explanation)
    (drifts : contract.Drifts w.heap.machine.system system) :
    Secured explanation (w.onSystem system) := by
  obtain ⟨free, good⟩ := secured.heap
  refine ⟨⟨free, ?_⟩, secured.aligned⟩
  exact good.onSystem (good.custody.drift drifts) fun _ _ known => explanation.drift drifts known

/-- A client may write to what is live whatever can be explained then. -/
theorem Secured.write {address : Nat} {bytes : List UInt8} (secured : w.Secured explanation)
    (system : σ) (permits : w.Permits (.write address bytes))
    (custody : ∀ {held}, os.Custody contract w.heap.machine.system held →
      os.Custody contract system held)
    (outside : ∀ place, ¬Extent.Holds ⟨address, bytes.length⟩ place →
      ∀ byte, explanation.Allows w.heap.machine.system place byte →
        explanation.Allows system place byte)
    (explained : ∀ place, Extent.Holds ⟨address, bytes.length⟩ place →
      explanation.Allows system place ((w.heap.machine.memory.write address bytes).get place)) :
    Secured explanation ((w.perform os (.write address bytes)).onSystem system) := by
  obtain ⟨free, good⟩ := secured.heap
  obtain ⟨x, member, within⟩ := permits
  have same : w.remaining os (.write address bytes) = w.live :=
    List.filter_eq_self.2 fun _ _ => rfl
  refine ⟨⟨free, ?_⟩, fun wide y kept => secured.aligned wide y (same ▸ kept)⟩
  change Heap.Secured explanation _ free (w.remaining os (.write address bytes))
  rw [same]
  exact good.write member within (custody good.custody)
    (fun place other => ⟨Memory.get_write_outside bytes other, outside place other⟩) explained

end World

end NumaHeap
