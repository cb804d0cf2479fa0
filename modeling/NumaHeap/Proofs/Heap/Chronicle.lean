import NumaHeap.Proofs.Heap.World
import NumaHeap.Proofs.Platform.History

/-!
A chronicle of a heap in use. The journal of the platform is kept up by the clients: it tells what
was handed out to them, and what they wrote. What memory holds outside of the slabs' own bytes is
then explained by the journal alone, and every live byte is known to have been handed out.
-/

namespace NumaHeap.World

open Heap Journaled

variable {σ : Type} {os : Platform σ} {contract : os.Contract}

/-- What there is to tell of an action. -/
def news? (os : Platform σ) (w : World σ) : Action → Option Entry
  | .allocate thread demand =>
    match (w.heap.meet os thread demand).1 with
    | .ok address => some (.handed ⟨address, demand.size⟩)
    | .error _ => none
  | .write address bytes => some (.wrote address bytes)
  | _ => none

/-- Does something to the heap, and tells of it. -/
def recount (os : Platform σ) (w : World (Journaled σ)) (action : Action) :
    World (Journaled σ) :=
  let after := w.perform os.journaled action
  after.onSystem (after.heap.machine.system.tell (w.news? os.journaled action))

/-- What becomes of a new heap while clients do what they may and tell of it. -/
inductive Told (contract : os.Contract) : World (Journaled σ) → Prop
  | create {system : σ} {memory : Memory} {configuration : Configuration}
      {heap : Heap (Journaled σ)} :
      contract.Possible system →
      Heap.create os.journaled ⟨{ system }, memory⟩ configuration = .ok heap →
      Told contract ⟨heap, []⟩
  | perform {w : World (Journaled σ)} (action : Action) :
      Told contract w → w.Permits action → Told contract (w.recount os action)
  | drift {w : World (Journaled σ)} {system : σ} :
      Told contract w → contract.Drifts w.heap.machine.system.system system →
      Told contract (w.onSystem { w.heap.machine.system with system })

/-- What is secured, with the contents of memory explained, and every live byte handed out. -/
structure Chronicled (contract : os.Contract) (w : World (Journaled σ)) : Prop where
  secured : w.Secured (.told contract)
  handed : ∀ x ∈ w.live, ∀ address, x.extent.Holds address →
    Journal.Handed address w.heap.machine.system.entries

theorem news?_of_meet {w : World σ} {thread : ThreadId} {demand : Session.Demand} {address : Nat}
    (ok : (w.heap.meet os thread demand).1 = .ok address) :
    w.news? os (.allocate thread demand) = some (.handed ⟨address, demand.size⟩) := by
  rw [news?, ok]

/-- What is live after an action was live before, or it is told of. -/
theorem mem_remaining {w : World σ} {action : Action} {x : Allocation}
    (member : x ∈ w.remaining os action) :
    x ∈ w.live ∨ w.news? os action = some (.handed x.extent) := by
  unfold remaining at member
  split at member
  · next thread demand =>
    split at member
    · next address ok =>
      rcases List.mem_cons.1 member with rfl | old
      · exact .inr (news?_of_meet ok)
      · exact .inl old
    · exact .inl member
  · split at member
    · exact .inl (List.mem_filter.1 member).1
    · exact .inl member
  · exact .inl (List.mem_filter.1 member).1

/-- Unless a client writes, there is nothing to tell but of memory that was handed out. -/
theorem news?_cases (os : Platform σ) (w : World σ) {action : Action}
    (own : ∀ address bytes, action ≠ .write address bytes) :
    w.news? os action = none ∨ ∃ extent, w.news? os action = some (.handed extent) := by
  unfold news?
  split
  · split
    · exact .inr ⟨_, rfl⟩
    · exact .inl rfl
  · next address bytes => exact absurd rfl (own address bytes)
  · exact .inl rfl

/-- The platform may be relied on whatever is told of it. -/
theorem custody_of_system {s after : Journaled σ} {held : List Region}
    (custody : os.journaled.Custody contract.journaled s held) (same : after.system = s.system) :
    os.journaled.Custody contract.journaled after held := by
  apply custody.of_system
  · change contract.Possible after.system
    rw [same]
    exact custody.possible
  · intro region member
    change contract.Mapped after.system region.extent
    rw [same]
    exact custody.mapped region member

variable {w : World (Journaled σ)}

/-- What is told of memory that was handed out explains as much as before. -/
theorem Secured.tell (secured : w.Secured (.told contract)) {news : Option Entry}
    (only : news = none ∨ ∃ extent, news = some (.handed extent)) :
    Secured (.told contract) (w.onSystem (w.heap.machine.system.tell news)) := by
  rcases only with rfl | ⟨extent, rfl⟩
  · exact secured
  · obtain ⟨free, good⟩ := secured.heap
    refine ⟨⟨free, ?_⟩, secured.aligned⟩
    exact good.onSystem (custody_of_system good.custody rfl) fun _ _ known => known.handed

theorem handed_of_spares {before after : Machine (Journaled σ)} {address : Nat}
    (spares : before.Spares os.journaled after address)
    (handed : Journal.Handed address before.system.entries) :
    Journal.Handed address after.system.entries :=
  spares.steady _ (Journaled.steady (P := Journal.Handed address)
    (fun _ _ outside known => ⟨outside, known⟩) fun _ _ known => known) handed

theorem Chronicled.perform {action : Action} (chronicled : Chronicled contract w)
    (permits : w.Permits action) (own : ∀ address bytes, action ≠ .write address bytes) :
    Chronicled contract (w.recount os action) := by
  have advances := chronicled.secured.perform permits own
  have only := news?_cases os.journaled w own
  refine ⟨advances.secured.tell only, fun x member address inside => ?_⟩
  change x ∈ w.remaining os.journaled action at member
  let after := w.perform os.journaled action
  change Journal.Handed address
    (after.heap.machine.system.tell (w.news? os.journaled action)).entries
  rcases mem_remaining member with old | told
  · have known := handed_of_spares (advances.spares x old member address inside)
      (chronicled.handed x old address inside)
    rcases only with none | ⟨extent, some⟩
    · rw [none]
      exact known
    · rw [some]
      exact .inr known
  · rw [told]
    exact .inl inside

theorem Chronicled.write {address : Nat} {bytes : List UInt8} (chronicled : Chronicled contract w)
    (permits : w.Permits (.write address bytes)) :
    Chronicled contract (w.recount os (.write address bytes)) := by
  let system := w.heap.machine.system.tell (some (.wrote address bytes))
  have written := chronicled.secured.write system permits
    (fun custody => custody_of_system custody rfl) (fun _ outside _ known => known.wrote outside)
    fun place inside => by
      obtain ⟨x, member, within⟩ := permits
      have handed := chronicled.handed x member place (within.holds inside)
      exact Journal.explains_written w.heap.machine.memory handed inside
  refine ⟨written, fun x member place inside => ?_⟩
  have old : x ∈ w.live := (List.mem_filter.1 member).1
  exact chronicled.handed x old place inside

/-- Whatever is done and told, the journal explains what memory holds. -/
theorem Told.chronicled (told : w.Told contract) : Chronicled contract w := by
  induction told with
  | @create system memory _ _ possible created =>
    let machine : Machine (Journaled σ) := ⟨{ system }, memory⟩
    have start : contract.journaled.Possible machine.system := possible
    exact ⟨.create start created, fun _ => nofun⟩
  | @perform w action _ permits ih =>
    by_cases own : ∃ address bytes, action = .write address bytes
    · obtain ⟨address, bytes, rfl⟩ := own
      exact ih.write permits
    · exact ih.perform permits fun address bytes same => own ⟨address, bytes, same⟩
  | @drift w system _ drifts ih =>
    exact ⟨ih.secured.drift ⟨drifts, rfl⟩, ih.handed⟩

end NumaHeap.World
