import NumaHeap.Proofs.Platform.Contract
import NumaHeap.Proofs.Supply

/-!
A platform under watch. It answers as the platform below it does, and counts the mappings that it
refuses. Where none is refused, the length of a region and the pages that back it depend on what is
asked for and on whether huge pages are available, and only its start is up to the platform.
-/

namespace NumaHeap

/-- A system together with the number of mappings it has refused. -/
structure Watched (σ : Type) where
  system : σ
  refusals : Nat := 0

variable {σ : Type}

/-- The platform with a count of the mappings that it refuses. -/
def Platform.watched (os : Platform σ) : Platform (Watched σ) where
  pageSize := os.pageSize
  hugePageSize := os.hugePageSize
  topology := os.topology
  hugePagesAvailable s := os.hugePagesAvailable s.system
  currentCpu? s := os.currentCpu? s.system
  now s := os.now s.system
  map s length pages :=
    match os.map s.system length pages with
    | (.ok start, system) => (.ok start, { s with system })
    | (.error cause, system) => (.error cause, ⟨system, s.refusals + 1⟩)
  unmap s start length := { s with system := os.unmap s.system start length }
  bind s start length node :=
    let (answer, system) := os.bind s.system start length node
    (answer, { s with system })
  bindThread s thread node :=
    let (answer, system) := os.bindThread s.system thread node
    (answer, { s with system })

namespace Watched

variable {os : Platform σ} {s after : Watched σ} {length start : Nat} {pages : PageKind}

theorem map_ok (mapped : os.watched.map s length pages = (.ok start, after)) :
    os.map s.system length pages = (.ok start, after.system) ∧ after.refusals = s.refusals := by
  simp only [Platform.watched] at mapped
  split at mapped
  · next first system same =>
    cases mapped
    exact ⟨same, rfl⟩
  · cases mapped

theorem map_error {cause : MapError}
    (mapped : os.watched.map s length pages = (.error cause, after)) :
    os.map s.system length pages = (.error cause, after.system) ∧
      after.refusals = s.refusals + 1 := by
  simp only [Platform.watched] at mapped
  split at mapped
  · cases mapped
  · next first system same =>
    cases mapped
    exact ⟨same, rfl⟩

end Watched

/-- What a platform promises, it promises under watch. -/
def Platform.Contract.watched {os : Platform σ} (contract : os.Contract) :
    os.watched.Contract where
  Possible s := contract.Possible s.system
  Mapped s := contract.Mapped s.system
  Drifts s after := contract.Drifts s.system after.system
  map_ok possible asked mapped :=
    contract.map_ok possible (asked : os.Mappable ..) (Watched.map_ok mapped).1
  map_error possible asked mapped :=
    contract.map_error possible (asked : os.Mappable ..) (Watched.map_error mapped).1
  unmap possible mapped := contract.unmap possible mapped
  bind possible mapped := contract.bind possible mapped
  bindThread possible := contract.bindThread possible
  drift possible drifts := contract.drift possible drifts

namespace Supply

/-- The region that is mapped where nothing is refused. -/
def offer (os : Platform σ) (s : Supply σ) (rounded node start : Nat) : Region :=
  match s.hugeLength? os rounded with
  | some hugeLength => ⟨start, hugeLength, .huge, node⟩
  | none => ⟨start, rounded, .normal, node⟩

variable {os : Platform σ} {s after : Supply (Watched σ)} {length node : Nat}
  {answer : Except MapError Region}

theorem mapPages_watched {pages : PageKind}
    (mapped : s.mapPages os.watched length node pages = (answer, after)) :
    (∃ start, answer = .ok ⟨start, length, pages, node⟩ ∧
        after.machine.system.refusals = s.machine.system.refusals) ∨
      ∃ cause, answer = .error cause ∧
        after.machine.system.refusals = s.machine.system.refusals + 1 := by
  unfold mapPages Machine.map at mapped
  cases asked : os.watched.map s.machine.system length pages with
  | mk result system =>
    rw [asked] at mapped
    cases result with
    | ok start =>
      cases mapped
      exact .inl ⟨start, rfl, (Watched.map_ok asked).2⟩
    | error cause =>
      cases mapped
      exact .inr ⟨cause, rfl, (Watched.map_error asked).2⟩

theorem mapRounded_watched (mapped : s.mapRounded os.watched length node = (answer, after)) :
    s.machine.system.refusals ≤ after.machine.system.refusals ∧
      (after.machine.system.refusals = s.machine.system.refusals →
        ∃ start, answer = .ok (s.offer os.watched length node start)) := by
  unfold mapRounded at mapped
  unfold offer
  cases attempt : s.hugeLength? os.watched length with
  | none =>
    rw [attempt] at mapped
    rcases mapPages_watched mapped with ⟨start, rfl, same⟩ | ⟨cause, rfl, more⟩
    · exact ⟨by omega, fun _ => ⟨start, rfl⟩⟩
    · exact ⟨by omega, fun same => by omega⟩
  | some hugeLength =>
    simp only [attempt] at mapped
    split at mapped
    · next region middle first =>
      cases mapped
      rcases mapPages_watched first with ⟨start, same, equal⟩ | ⟨cause, lost, -⟩
      · cases same
        exact ⟨by omega, fun _ => ⟨start, rfl⟩⟩
      · cases lost
    · next middle first =>
      rcases mapPages_watched first with ⟨start, lost, -⟩ | ⟨cause, -, more⟩
      · cases lost
      · have again := mapPages_watched mapped
        simp only [countFallback] at again
        omega

theorem bindRegion_refusals (s : Supply (Watched σ)) (region : Region) :
    (s.bindRegion os.watched region).machine.system.refusals = s.machine.system.refusals := by
  unfold bindRegion
  split
  · split <;> next bound => exact congrArg (·.2.system.refusals) bound.symm
  · rfl

/-- Where nothing is refused, a request fails only if its length cannot be rounded to whole pages. -/
theorem map_watched (mapped : s.map os.watched length node = (answer, after))
    (granted : after.machine.system.refusals = s.machine.system.refusals) :
    ∃ start, answer = match os.pageSize.roundUp? length with
      | none => .error .outOfMemory
      | some rounded => .ok (s.offer os.watched rounded node start) := by
  unfold map at mapped
  cases rounded : os.pageSize.roundUp? length with
  | none =>
    have none : os.watched.pageSize.roundUp? length = .none := rounded
    rw [none] at mapped
    cases mapped
    exact ⟨0, rfl⟩
  | some whole =>
    have some : os.watched.pageSize.roundUp? length = .some whole := rounded
    rw [some] at mapped
    cases first : s.mapRounded os.watched whole node with
    | mk result middle =>
      obtain ⟨-, offers⟩ := mapRounded_watched first
      simp only [first] at mapped
      cases result with
      | error cause =>
        cases mapped
        obtain ⟨start, same⟩ := offers granted
        cases same
      | ok region =>
        cases mapped
        rw [bindRegion_refusals] at granted
        obtain ⟨start, same⟩ := offers granted
        exact ⟨start, same⟩

end Supply

end NumaHeap
