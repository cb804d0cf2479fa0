import NumaHeap.Proofs.Heap.Guise
import NumaHeap.Proofs.Platform.Abreast

/-!
Services that a heap can do without: huge pages, and the placement of memory. Two heaps are used side by
side, one where the service always fails, and one where it is not asked for or never fails. Whatever is
done to both, nobody can tell them apart but by the count of the failures.
-/

namespace NumaHeap

open Telemetry

variable {ρ σ τ : Type}

namespace Heap

/-- What an action answers to whoever takes it. -/
inductive Answer where
  | address (answer : Except AllocError Nat)
  | released (answer : Except FreeError Unit)
  | wasted (share : Ratio)
  | pressure (answer : Bool × Option Callback)
  | placed (answer : Except BindError Unit)
  | done

/-- What an action would answer now. -/
def answer (os : Platform σ) (h : Heap σ) : Action → Answer
  | .allocate thread demand => .address (h.meet os thread demand).1
  | .free thread address size => .released (h.free os thread address size).1
  | .compact => .wasted (h.compact os).1
  | .compactArena kind => .wasted (h.compactArena kind).1
  | .checkPressure => .pressure (h.checkPressure os).1
  | .bindThread thread node => .placed (h.bindThread os thread node).1
  | _ => .done

variable (os : Platform σ) (other : Platform τ) (alike : σ → τ → Prop)

/-- What becomes of two heaps when the same is done to both, and when their platforms drift to states that
are alike. -/
inductive Beside (h : Heap σ) (k : Heap τ) : Heap σ → Heap τ → Prop
  | start : Beside h k h k
  | act {h' : Heap σ} {k' : Heap τ} (action : Action) : Beside h k h' k' →
      action.placesThread = false → Beside h k (h'.act os action) (k'.act other action)
  | close {h' : Heap σ} {k' : Heap τ} (thread : ThreadId) :
      Beside h k h' k' → Beside h k (h'.close os thread) (k'.close other thread)
  | drift {h' : Heap σ} {k' : Heap τ} {system : σ} {system' : τ} :
      Beside h k h' k' → alike system system' →
      Beside h k (h'.onSystem system) (k'.onSystem system')

/-- Two heaps answer the same, have the same in memory and report the same, but for what the mappers count
of failed services. -/
structure Indistinct (fallbacks failures : Nat → Nat) (h : Heap σ) (k : Heap τ) : Prop where
  systems : alike h.machine.system k.machine.system
  memory : k.machine.memory = h.machine.memory
  answers : ∀ action, action.placesThread = false → k.answer other action = h.answer os action
  stats : k.stats = h.stats.counted fallbacks failures
  fragmentation : k.fragmentation = h.fragmentation
  integrity : k.validateIntegrity = h.validateIntegrity

/-- Two heaps were refused for the same cause, or were both created and remain indistinct whatever is done
to them. -/
def Degrades (fallbacks failures : Nat → Nat) :
    Except ConfigError (Heap σ) → Except ConfigError (Heap τ) → Prop
  | .ok h, .ok k => ∀ h' k', Beside os other alike h k h' k' →
      Indistinct os other alike fallbacks failures h' k'
  | .error cause, .error cause' => cause = cause'
  | _, _ => False

variable {os : Platform σ} {other : Platform τ} {alike : σ → τ → Prop} {base : Platform ρ}
  {one : Guise ρ σ} {two : Guise ρ τ}

theorem answer_under {g : Guise σ τ} (fits : g.Fits os other) (h : Heap σ) (action : Action)
    (placed : action.placesThread = false) :
    (h.under g).answer other action = h.answer os action := by
  cases action with
  | allocate thread demand => exact congrArg (Answer.address ·.1) (meet_under fits h thread demand)
  | free thread address size =>
    exact congrArg (Answer.released ·.1) (free_under fits h thread address size)
  | compact => exact congrArg (Answer.wasted ·.1) (compact_under fits h)
  | compactArena kind => exact congrArg (Answer.wasted ·.1) (compactArena_under fits h kind)
  | checkPressure => exact congrArg (Answer.pressure ·.1) (checkPressure_under fits h)
  | bindThread => cases placed
  | _ => rfl

theorem Beside.foldl {h h' : Heap σ} {k k' : Heap τ} (beside : Beside os other alike h k h' k')
    (actions : List Action) (placed : ∀ action ∈ actions, action.placesThread = false) :
    Beside os other alike h k (actions.foldl (Heap.act os) h')
      (actions.foldl (Heap.act other) k') := by
  induction actions generalizing h' k' with
  | nil => exact beside
  | cons action rest ih =>
    have now : action.placesThread = false := placed action List.mem_cons_self
    exact ih (.act action beside now) fun later member => placed later (List.mem_cons_of_mem _ member)

section

variable (first : one.Fits base os) (second : two.Fits base other)

include first second

/-- Two guises of one heap remain guises of one heap. -/
theorem Beside.of_under (joint : ∀ s t, alike s t → ∃ r, one.system r = s ∧ two.system r = t)
    {x : Heap ρ} {h : Heap σ} {k : Heap τ}
    (beside : Beside os other alike (x.under one) (x.under two) h k) :
    ∃ y : Heap ρ, h = y.under one ∧ k = y.under two := by
  induction beside with
  | start => exact ⟨x, rfl, rfl⟩
  | act action _ placed ih =>
    obtain ⟨y, rfl, rfl⟩ := ih
    exact ⟨y.act base action, act_under first y action placed, act_under second y action placed⟩
  | close thread _ ih =>
    obtain ⟨y, rfl, rfl⟩ := ih
    exact ⟨y.close base thread, close_under first y thread, close_under second y thread⟩
  | drift _ drifted ih =>
    obtain ⟨y, rfl, rfl⟩ := ih
    obtain ⟨r, rfl, rfl⟩ := joint _ _ drifted
    exact ⟨y.onSystem r, rfl, rfl⟩

/-- Two guises of one heap are indistinct if the first one leaves all counts as they are. -/
theorem indistinct_under (coupled : ∀ r, alike (one.system r) (two.system r))
    (fallbacks : one.fallbacks = id) (failures : one.failures = id) (x : Heap ρ) :
    Indistinct os other alike two.fallbacks two.failures (x.under one) (x.under two) where
  systems := coupled _
  memory := rfl
  answers action placed :=
    (answer_under second x action placed).trans (answer_under first x action placed).symm
  stats := by
    rw [stats_under first, stats_under second, fallbacks, failures]
    rfl
  fragmentation := (fragmentation_under second x).trans (fragmentation_under first x).symm
  integrity := (validateIntegrity_under x two).trans (validateIntegrity_under x one).symm

theorem degrades_under (joint : ∀ s t, alike s t ↔ ∃ r, one.system r = s ∧ two.system r = t)
    (fallbacks : one.fallbacks = id) (failures : one.failures = id) (machine : Machine ρ)
    (configuration : Configuration) :
    Degrades os other alike two.fallbacks two.failures
      (create os (machine.under one) (configuration.under one))
      (create other (machine.under two) (configuration.under two)) := by
  rw [create_under first, create_under second]
  cases create base machine configuration with
  | error cause => rfl
  | ok x =>
    intro h k beside
    obtain ⟨y, rfl, rfl⟩ := beside.of_under first second fun s t => (joint s t).1
    exact indistinct_under first second (fun r => (joint _ _).2 ⟨r, rfl, rfl⟩) fallbacks failures y

end

/-- Huge pages that are always refused are as good as disabled, and memory that is never placed serves as
well as memory that always is. -/
theorem services_degrade (os : Platform σ) (machine : Machine σ) (configuration : Configuration) :
    (os.RefusesHuge →
      Degrades os os Eq (fun _ => 0) id (create os machine configuration)
        (create os machine { configuration with hugePages := false })) ∧
    ∀ {τ : Type} (other : Platform τ) (alike : σ → τ → Prop) (system : τ), os.Twins other alike →
      alike machine.system system → os.NeverBinds → other.AlwaysBinds →
      Degrades os other alike id (fun _ => 0) (create os machine configuration)
        (create other ⟨system, machine.memory⟩ configuration) := by
  refine ⟨fun refuses => ?_, fun {τ} other alike system twins same never always => ?_⟩
  · have joint : ∀ s t : σ, s = t ↔ ∃ r, (Guise.plain σ).system r = s ∧ (Guise.small σ).system r = t :=
      fun s t => ⟨fun equal => ⟨s, rfl, equal⟩, fun ⟨_, left, right⟩ => left.symm.trans right⟩
    exact degrades_under (Guise.plain_fits os) (Guise.small_fits refuses) joint rfl rfl machine
      configuration
  · let both : Machine {p : σ × τ // alike p.1 p.2} :=
      ⟨⟨(machine.system, system), same⟩, machine.memory⟩
    have joint : ∀ s t, alike s t ↔ ∃ r, (Platform.Twins.first alike).system r = s ∧
        (Platform.Twins.second alike).system r = t := by
      refine fun s t => ⟨fun coupled => ⟨⟨(s, t), coupled⟩, rfl, rfl⟩, ?_⟩
      rintro ⟨r, rfl, rfl⟩
      exact r.2
    exact degrades_under twins.first_fits (twins.second_fits never always) joint rfl rfl both
      configuration

/-- Blocks of arenas, slabs and large objects are all long enough for huge pages, and all of them are to be
placed on one of two nodes; every attempt fails. -/
theorem services_degrade_two_nodes :
    let settings : Simulated.Settings := { topology := Topology.singleNode.describe ⟨1, "1", none⟩ }
    let short := Simulated.withoutHuge settings
    let loose := Simulated.placing settings (.error .unavailable)
    let tight := Simulated.placing settings (.ok ())
    (∃ h k : Heap Simulated.State, Indistinct short short Eq (fun _ => 0) id h k ∧
      h.stats.hugeFallbacks = 4 ∧ k.stats.hugeFallbacks = 0) ∧
    ∃ h k : Heap Simulated.State, Indistinct loose tight Simulated.SameMappings id (fun _ => 0) h k ∧
      h.stats.bindFailures = 5 ∧ k.stats.bindFailures = 0 := by
  intro settings short loose tight
  let actions : List Action :=
    [.allocate 0 (.object 24 .generic), .allocate 1 (.object 100000 .string),
      .allocate 0 (.onNode 5000 1), .allocate 0 (.object 1000000 .array), .resetArenas,
      .free 0 65536 24, .setMode .disabled, .releaseThread 1, .allocate 0 (.zeroed 100 50 .hashMap)]
  have placed : ∀ action ∈ actions, action.placesThread = false := by decide
  let machine := Simulated.machine {}
  let wished : Configuration := {}
  let disabled : Configuration := { wished with hugePages := false }
  constructor
  · obtain ⟨h, created, missed⟩ := exists_created short machine wished
      (fun h => (actions.foldl (act short) h).stats.hugeFallbacks) 4 (by decide +kernel)
    obtain ⟨k, created', spared⟩ := exists_created short machine disabled
      (fun k => (actions.foldl (act short) k).stats.hugeFallbacks) 0 (by decide +kernel)
    have degrades := (services_degrade short machine wished).1 fun _ _ => ⟨_, rfl⟩
    rw [created, created'] at degrades
    exact ⟨_, _, degrades _ _ (.foldl .start actions placed), missed, spared⟩
  · obtain ⟨h, created, failed⟩ := exists_created loose machine wished
      (fun h => (actions.foldl (act loose) h).stats.bindFailures) 5 (by decide +kernel)
    obtain ⟨k, created', spared⟩ := exists_created tight machine wished
      (fun k => (actions.foldl (act tight) k).stats.bindFailures) 0 (by decide +kernel)
    have degrades := (services_degrade loose machine wished).2 tight Simulated.SameMappings
      machine.system (Simulated.placing_twins settings _) ⟨0, rfl⟩ (fun _ _ _ _ => ⟨_, rfl⟩)
      fun _ _ _ _ => rfl
    rw [created, created'] at degrades
    exact ⟨_, _, degrades _ _ (.foldl .start actions placed), failed, spared⟩

end Heap

end NumaHeap
