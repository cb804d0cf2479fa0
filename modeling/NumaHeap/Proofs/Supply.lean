import NumaHeap.Proofs.Memory
import NumaHeap.Proofs.Platform.Contract
import NumaHeap.Proofs.Size.PowerOfTwo
import Mathlib.Tactic.Push

/-!
What an allocator gets from its supply. Whatever becomes of huge pages and of binding, a request
either gains one region that reads as zero, or none; no other byte changes, and the mapper counts
the bytes of what was gained.
-/

namespace NumaHeap

variable {σ : Type}

/-- The machine after some regions were mapped: they read as zero, and all else is as before. -/
structure Machine.Grows (os : Platform σ) (before after : Machine σ) (new : List Region) : Prop where
  gains : os.Gains before.system after.system new
  blank : ∀ region ∈ new, ∀ address, region.extent.Holds address → after.memory.get address = 0
  same : ∀ address, (∀ region ∈ new, ¬region.extent.Holds address) →
    after.memory.get address = before.memory.get address

/-- The bytes of some regions. -/
def Region.total (regions : List Region) : Nat := (regions.map (·.length)).sum

theorem Region.total_append (first second : List Region) :
    Region.total (first ++ second) = Region.total first + Region.total second := by
  simp [Region.total]

theorem Region.total_perm {first second : List Region} (same : first.Perm second) :
    Region.total first = Region.total second :=
  (same.map _).sum_nat

/-- The supply after some regions were mapped, whose bytes the mapper has counted. -/
structure Supply.Grows (os : Platform σ) (before after : Supply σ) (new : List Region) : Prop
    extends Machine.Grows os before.machine after.machine new where
  mappedBytes : after.mapper.mappedBytes = before.mapper.mappedBytes + Region.total new

/-- Nothing happened to the byte at an address: it is as before, and whatever the platform knew of
it still holds. -/
structure Machine.Spares (os : Platform σ) (before after : Machine σ) (address : Nat) : Prop where
  get : after.memory.get address = before.memory.get address
  steady : ∀ φ : σ → Prop, os.Steady address φ → φ before.system → φ after.system

namespace Machine.Spares

variable {os : Platform σ} {before after last : Machine σ} {address : Nat}

theorem refl (os : Platform σ) (machine : Machine σ) (address : Nat) :
    Machine.Spares os machine machine address := ⟨rfl, fun _ _ known => known⟩

theorem trans (first : Machine.Spares os before after address)
    (second : Machine.Spares os after last address) : Machine.Spares os before last address where
  get := second.get.trans first.get
  steady φ steady known := second.steady φ steady (first.steady φ steady known)

theorem of_get {memory : Memory} (machine : Machine σ)
    (same : memory.get address = machine.memory.get address) :
    Machine.Spares os machine (machine.withMemory memory) address :=
  ⟨same, fun _ _ known => known⟩

theorem unmapAll (os : Platform σ) (machine : Machine σ) (regions : List Region) (address : Nat) :
    Machine.Spares os machine
      { machine with system := os.unmapAll machine.system regions } address :=
  ⟨rfl, fun _ steady known => Platform.unmapAll_steady steady regions known⟩

end Machine.Spares

namespace Machine.Grows

variable {os : Platform σ} {before after : Machine σ} {new : List Region}

theorem refl (os : Platform σ) (machine : Machine σ) : Machine.Grows os machine machine [] :=
  ⟨.refl, nofun, fun _ _ => rfl⟩

theorem trans {last : Machine σ} {later : List Region} (first : Machine.Grows os before after new)
    (second : Machine.Grows os after last later) :
    Machine.Grows os before last (later ++ new) where
  gains := first.gains.trans second.gains
  blank region member address inside := by
    by_cases again : ∃ other ∈ later, other.extent.Holds address
    · obtain ⟨other, otherMember, otherInside⟩ := again
      exact second.blank other otherMember address otherInside
    · push Not at again
      rw [second.same address again]
      rcases List.mem_append.1 member with recent | old
      · exact absurd inside (again region recent)
      · exact first.blank region old address inside
  same address outside := by
    rw [second.same address fun region member => outside region (List.mem_append_left _ member)]
    exact first.same address fun region member => outside region (List.mem_append_right _ member)

theorem spares (grows : Machine.Grows os before after new) {address : Nat}
    (outside : ∀ region ∈ new, ¬region.extent.Holds address) :
    Machine.Spares os before after address :=
  ⟨grows.same address outside, fun _ steady known => grows.gains.steady steady outside known⟩

/-- The same bytes may be reached in another way. -/
theorem of_get {memory : Memory} (grows : Machine.Grows os before after new)
    (same : ∀ address, memory.get address = after.memory.get address) :
    Machine.Grows os before (after.withMemory memory) new where
  gains := grows.gains
  blank region member address inside := (same address).trans (grows.blank region member _ inside)
  same address outside := (same address).trans (grows.same address outside)

end Machine.Grows

/-- A map that fails has no effect. -/
def Platform.Harmless (os : Platform σ) : Prop :=
  ∀ {system after : σ} {length : Nat} {pages : PageKind} {cause : MapError},
    os.map system length pages = (.error cause, after) → after = system

/-- Where nothing was gained, attempts alone have left the platform as it was. -/
theorem Platform.Gains.system_eq {os : Platform σ} {system after : σ} {new : List Region}
    (harmless : os.Harmless) (gains : os.Gains system after new) (none : new = []) :
    after = system := by
  induction gains with
  | refl => rfl
  | mapped => cases none
  | refused _ _ answer ih => exact (harmless answer).trans (ih none)
  | bound _ member => exact absurd (none ▸ member) List.not_mem_nil

/-- The same mapper with another count of fallbacks. -/
def Mapper.withFallbacks (m : Mapper) (count : Nat) : Mapper := { m with hugeFallbacks := count }

/-- What an allocator wishes of its regions. -/
def Mapper.wishes (m : Mapper) : Bool × Bool := (m.hugePages, m.numaAware)

namespace Supply

variable {os : Platform σ} {before after : Supply σ} {length node : Nat}

theorem Grows.refl (os : Platform σ) (s : Supply σ) : Supply.Grows os s s [] :=
  ⟨.refl os s.machine, rfl⟩

/-- A machine that maps, successfully or not. -/
theorem grows_of_map (machine : Machine σ) (node : Nat) {pages : PageKind}
    (asked : os.Mappable length pages) :
    match machine.map os length pages with
    | (.ok start, later) => machine.Grows os later [⟨start, length, pages, node⟩]
    | (.error _, later) => machine.Grows os later [] := by
  rw [Machine.map]
  cases mapped : os.map machine.system length pages with
  | mk answer system =>
    cases answer with
    | ok start =>
      refine ⟨.mapped .refl asked mapped, ?_, ?_⟩
      · intro region member address inside
        rw [List.mem_singleton.1 member] at inside
        exact Memory.get_clear_inside inside
      · intro address outside
        exact Memory.get_clear_outside (outside _ (List.mem_singleton_self _))
    | error cause => exact ⟨.refused .refl asked mapped, nofun, fun _ _ => rfl⟩

/-- Maps what was asked for, with the given pages, or fails with the mapper unchanged. -/
theorem mapPages_grows {pages : PageKind} {answer : Except MapError Region}
    (asked : os.Mappable length pages)
    (mapped : before.mapPages os length node pages = (answer, after)) :
    after.mapper = before.mapper ∧
      (∀ region, answer = .ok region → region.length = length ∧ region.node = node ∧
        before.machine.Grows os after.machine [region]) ∧
      (∀ cause, answer = .error cause → before.machine.Grows os after.machine []) := by
  have grows := grows_of_map before.machine node asked
  unfold mapPages at mapped
  split at mapped
  · next start later same =>
    simp only [same] at grows
    cases mapped
    refine ⟨rfl, ?_, nofun⟩
    rintro _ ⟨⟩
    exact ⟨rfl, rfl, grows⟩
  · next cause later same =>
    simp only [same] at grows
    cases mapped
    exact ⟨rfl, nofun, fun _ _ => grows⟩

/-- A length that is attempted with huge pages is some whole huge pages. -/
theorem hugeLength?_spec {s : Supply σ} {hugeLength : Nat} (positive : 0 < length)
    (some : s.hugeLength? os length = some hugeLength) :
    length ≤ hugeLength ∧ os.Mappable hugeLength .huge := by
  unfold hugeLength? at some
  split at some
  · have rounded := PowerOfTwo.roundUp?_spec some
    exact ⟨rounded.1, by omega, rounded.2.1⟩
  · cases some

theorem mapRounded_grows {answer : Except MapError Region} (asked : os.Mappable length .normal)
    (mapped : before.mapRounded os length node = (answer, after)) :
    after.mapper.mappedBytes = before.mapper.mappedBytes ∧
      (∀ region, answer = .ok region → length ≤ region.length ∧ region.node = node ∧
        before.machine.Grows os after.machine [region]) ∧
      (∀ cause, answer = .error cause → before.machine.Grows os after.machine []) := by
  unfold mapRounded at mapped
  split at mapped
  · obtain ⟨mapper, ok, error⟩ := mapPages_grows asked mapped
    refine ⟨by rw [mapper], fun region served => ?_, error⟩
    obtain ⟨exact, onNode, grows⟩ := ok region served
    exact ⟨Nat.le_of_eq exact.symm, onNode, grows⟩
  · next hugeLength large =>
    obtain ⟨enough, hugeAsked⟩ := hugeLength?_spec asked.1 large
    split at mapped
    · next region middle huge =>
      obtain ⟨mapper, ok, -⟩ := mapPages_grows hugeAsked huge
      obtain ⟨exact, onNode, grows⟩ := ok region rfl
      cases mapped
      refine ⟨by rw [mapper], ?_, nofun⟩
      rintro _ ⟨⟩
      exact ⟨by omega, onNode, grows⟩
    · next cause middle huge =>
      obtain ⟨mapper, -, error⟩ := mapPages_grows hugeAsked huge
      have first := error cause rfl
      obtain ⟨same, ok, failed⟩ := mapPages_grows asked mapped
      refine ⟨by rw [same, countFallback, mapper], fun region served => ?_, fun cause served => ?_⟩
      · obtain ⟨exact, onNode, grows⟩ := ok region served
        exact ⟨Nat.le_of_eq exact.symm, onNode, by simpa using first.trans grows⟩
      · simpa using first.trans (failed cause served)

/-- Binding what was just mapped changes the platform alone. -/
theorem bindRegion_grows (before : Supply σ) {region : Region} {machine : Machine σ}
    (grows : machine.Grows os before.machine [region]) :
    (before.bindRegion os region).mapper.mappedBytes = before.mapper.mappedBytes ∧
      machine.Grows os (before.bindRegion os region).machine [region] := by
  have bound : os.Gains machine.system
      (os.bind before.machine.system region.start region.length region.node).2 [region] :=
    .bound grows.gains (List.mem_singleton_self _)
  unfold bindRegion Machine.bind
  split
  · cases placed : os.bind before.machine.system region.start region.length region.node with
    | mk answer system =>
      rw [placed] at bound
      cases answer <;> exact ⟨rfl, bound, grows.blank, grows.same⟩
  · exact ⟨rfl, grows⟩

/-- A region that is served is long enough and belongs to the node; a failure gains nothing. -/
theorem map_grows {answer : Except MapError Region} (positive : 0 < length)
    (mapped : before.map os length node = (answer, after)) :
    (∀ region, answer = .ok region →
      length ≤ region.length ∧ region.node = node ∧ before.Grows os after [region]) ∧
      (∀ cause, answer = .error cause → before.Grows os after []) := by
  unfold map at mapped
  split at mapped
  · cases mapped
    exact ⟨nofun, fun _ _ => .refl os before⟩
  · next rounded some =>
    obtain ⟨enough, multiple, -⟩ := PowerOfTwo.roundUp?_spec some
    split at mapped
    · next cause middle failed =>
      obtain ⟨bytes, -, error⟩ := mapRounded_grows ⟨by omega, multiple⟩ failed
      cases mapped
      exact ⟨nofun, fun _ _ => ⟨error cause rfl, bytes⟩⟩
    · next region middle served =>
      obtain ⟨bytes, ok, -⟩ := mapRounded_grows ⟨by omega, multiple⟩ served
      obtain ⟨long, onNode, grows⟩ := ok region rfl
      cases mapped
      refine ⟨?_, nofun⟩
      rintro _ ⟨⟩
      refine ⟨by omega, onNode, ?_⟩
      let counted : Supply σ :=
        { middle with
          mapper := { middle.mapper with
            mappedBytes := middle.mapper.mappedBytes + region.length } }
      obtain ⟨kept, bound⟩ := bindRegion_grows counted grows
      refine ⟨bound, kept.trans ?_⟩
      change middle.mapper.mappedBytes + region.length = _
      rw [bytes]
      simp [Region.total]

/-- Where no region can be mapped, nothing but the count of fallbacks tells of the attempt. -/
theorem mapPages_denied {pages : PageKind} {cause : MapError} (harmless : os.Harmless)
    (mapped : before.mapPages os length node pages = (.error cause, after)) : after = before := by
  unfold mapPages Machine.map at mapped
  cases answered : os.map before.machine.system length pages with
  | mk answer system =>
    rw [answered] at mapped
    cases answer with
    | ok start => cases mapped
    | error other =>
      cases mapped
      cases harmless answered
      rfl

theorem map_denied {cause : MapError} (harmless : os.Harmless)
    (mapped : before.map os length node = (.error cause, after)) :
    after.machine = before.machine ∧ ∃ count,
      after.mapper = before.mapper.withFallbacks (before.mapper.hugeFallbacks + count) := by
  have rounded : ∀ {length : Nat} {middle : Supply σ} {cause : MapError},
      before.mapRounded os length node = (.error cause, middle) →
        middle.machine = before.machine ∧ ∃ count,
          middle.mapper = before.mapper.withFallbacks (before.mapper.hugeFallbacks + count) := by
    intro length middle cause denied
    unfold mapRounded at denied
    split at denied
    · cases mapPages_denied harmless denied
      exact ⟨rfl, 0, rfl⟩
    · split at denied
      · cases denied
      · next huge =>
        cases mapPages_denied harmless huge
        cases mapPages_denied harmless denied
        exact ⟨rfl, 1, rfl⟩
  unfold map at mapped
  split at mapped
  · cases mapped
    exact ⟨rfl, 0, rfl⟩
  · split at mapped
    · next denied =>
      cases mapped
      exact rounded denied
    · cases mapped

/-- Whether a region can be mapped is up to the platform and to the wish for huge pages. -/
theorem mapPages_congr (os : Platform σ) (length node : Nat) (pages : PageKind) {again : Supply σ}
    (system : again.machine.system = before.machine.system) :
    (again.mapPages os length node pages).1 = (before.mapPages os length node pages).1 ∧
      (again.mapPages os length node pages).2.machine.system =
        (before.mapPages os length node pages).2.machine.system := by
  unfold mapPages Machine.map
  rw [system]
  cases os.map before.machine.system length pages with
  | mk answer system => cases answer <;> exact ⟨rfl, rfl⟩

theorem mapRounded_congr (os : Platform σ) (length node : Nat) {again : Supply σ}
    (wish : again.mapper.hugePages = before.mapper.hugePages)
    (system : again.machine.system = before.machine.system) :
    (again.mapRounded os length node).1 = (before.mapRounded os length node).1 := by
  have same : again.hugeLength? os length = before.hugeLength? os length := by
    simp only [hugeLength?, wish, system]
  unfold mapRounded
  rw [same]
  cases before.hugeLength? os length with
  | none => exact (mapPages_congr os length node .normal system).1
  | some hugeLength =>
    obtain ⟨answer, later⟩ := mapPages_congr os hugeLength node .huge system
    dsimp only
    cases first : before.mapPages os hugeLength node .huge with
    | mk one middle =>
      cases second : again.mapPages os hugeLength node .huge with
      | mk two between =>
        rw [first, second] at answer later
        cases answer
        cases one with
        | ok region => rfl
        | error cause =>
          have counted : between.countFallback.machine.system =
              middle.countFallback.machine.system := later
          exact (mapPages_congr os length node .normal counted).1

theorem map_congr (os : Platform σ) (length node : Nat) {again : Supply σ}
    (wish : again.mapper.hugePages = before.mapper.hugePages)
    (system : again.machine.system = before.machine.system) :
    (again.map os length node).1 = (before.map os length node).1 := by
  unfold map
  cases os.pageSize.roundUp? length with
  | none => rfl
  | some rounded =>
    have answer := mapRounded_congr os rounded node wish system
    dsimp only
    cases first : before.mapRounded os rounded node with
    | mk one middle =>
      cases second : again.mapRounded os rounded node with
      | mk two between =>
        rw [first, second] at answer
        cases answer
        cases one <;> rfl

/-- Whatever comes of a request for a region, the wishes stay. -/
theorem mapPages_mapper (os : Platform σ) (s : Supply σ) (length node : Nat) (pages : PageKind) :
    (s.mapPages os length node pages).2.mapper = s.mapper := by
  unfold mapPages
  split <;> rfl

theorem mapRounded_wishes (os : Platform σ) (s : Supply σ) (length node : Nat) :
    (s.mapRounded os length node).2.mapper.wishes = s.mapper.wishes := by
  unfold mapRounded
  split
  · rw [mapPages_mapper]
  · next hugeLength _ =>
    have huge := mapPages_mapper os s hugeLength node .huge
    split
    · next first =>
      rw [first] at huge
      exact congrArg Mapper.wishes huge
    · next cause middle first =>
      have counted : middle.countFallback.mapper.wishes = middle.mapper.wishes := rfl
      rw [first] at huge
      rw [mapPages_mapper, counted]
      exact congrArg Mapper.wishes huge

theorem bindRegion_wishes (os : Platform σ) (s : Supply σ) (region : Region) :
    (s.bindRegion os region).mapper.wishes = s.mapper.wishes := by
  unfold bindRegion
  split
  · split <;> rfl
  · rfl

theorem map_wishes (os : Platform σ) (s : Supply σ) (length node : Nat) :
    (s.map os length node).2.mapper.wishes = s.mapper.wishes := by
  unfold map
  split
  · rfl
  · next rounded _ =>
    have wishes := mapRounded_wishes os s rounded node
    split
    · next mapped =>
      rw [mapped] at wishes
      exact wishes
    · next mapped =>
      rw [mapped] at wishes
      exact (bindRegion_wishes ..).trans wishes

/-- Huge pages are attempted for a region of this length. -/
def attemptsHuge (os : Platform σ) (s : Supply σ) (length : Nat) : Bool :=
  (os.pageSize.roundUp? length).any fun rounded => (s.hugeLength? os rounded).isSome

theorem mapPages_failed {pages : PageKind} {cause : MapError}
    (mapped : before.mapPages os length node pages = (.error cause, after)) :
    after.machine.memory = before.machine.memory ∧ after.mapper = before.mapper := by
  have mapper := mapPages_mapper os before length node pages
  rw [mapped] at mapper
  refine ⟨?_, mapper⟩
  unfold mapPages Machine.map at mapped
  split at mapped
  · cases mapped
  · next failed =>
    cases mapped
    split at failed
    · cases failed
    · cases failed
      rfl

/-- A request that fails tells of an attempt with huge pages, and of nothing else. -/
theorem map_failed {cause : MapError}
    (mapped : before.map os length node = (.error cause, after)) :
    after.machine.memory = before.machine.memory ∧
      after.mapper = before.mapper.withFallbacks
        (before.mapper.hugeFallbacks + (before.attemptsHuge os length).toNat) := by
  unfold map at mapped
  unfold attemptsHuge
  cases rounding : os.pageSize.roundUp? length with
  | none =>
    rw [rounding] at mapped
    cases mapped
    exact ⟨rfl, rfl⟩
  | some rounded =>
    simp only [rounding] at mapped
    split at mapped
    · next failed =>
      cases mapped
      unfold mapRounded at failed
      cases large : before.hugeLength? os rounded with
      | none =>
        rw [large] at failed
        obtain ⟨memory, mapper⟩ := mapPages_failed failed
        exact ⟨memory, by simp [large, mapper, Mapper.withFallbacks]⟩
      | some hugeLength =>
        simp only [large] at failed
        split at failed
        · cases failed
        · next huge =>
          obtain ⟨first, kept⟩ := mapPages_failed huge
          obtain ⟨second, mapper⟩ := mapPages_failed failed
          exact ⟨second.trans first, by
            simp [large, mapper, kept, countFallback, Mapper.withFallbacks]⟩
    · cases mapped

/-- Regions that are given back change the platform alone, and are no longer counted. -/
theorem unmapAll_spec (os : Platform σ) (s : Supply σ) (regions : List Region) :
    (s.unmapAll os regions).machine =
        { s.machine with system := os.unmapAll s.machine.system regions } ∧
      (s.unmapAll os regions).mapper.mappedBytes =
        s.mapper.mappedBytes - Region.total regions := by
  induction regions generalizing s with
  | nil => exact ⟨rfl, rfl⟩
  | cons region rest ih =>
    obtain ⟨machine, bytes⟩ := ih (s.unmap os region)
    refine ⟨machine, bytes.trans ?_⟩
    simp only [unmap, Region.total, List.map_cons, List.sum_cons]
    omega

end Supply

end NumaHeap
